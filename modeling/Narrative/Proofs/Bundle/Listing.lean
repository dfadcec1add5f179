import Narrative.Proofs.Bundle.Contents

/-!
# The order in which folders are listed

File systems list the names in a folder in any order.  Bundling sorts the names of each folder
before it looks at them, so it goes through the files in one order, stops at the same first error,
and puts the events of the story into one order.
-/

namespace Narrative

/-- The same error, or the same names in any two orders. -/
inductive SameNames : Except FileError (List String) → Except FileError (List String) → Prop
  | error (cause : FileError) : SameNames (.error cause) (.error cause)
  | ok {listed others : List String} (order : listed.Perm others) :
    SameNames (.ok listed) (.ok others)

/-- Files that differ from others only in the order in which names are listed. -/
structure Files.Relisted (files other : Files Id) : Prop where
  read : ∀ path, (other.read path).run = (files.read path).run
  kind : ∀ path, (other.kind? path).run = (files.kind? path).run
  list : ∀ path, SameNames (files.list path).run (other.list path).run

namespace Bundle

variable {files other : Files Id} {root folder storyline : String}

/-- The names in a folder depend on the set of the names that are listed only. -/
theorem run_names (files : Files Id) (folder : String) (kind : FileKind) :
    (names files folder kind).run =
      if (files.kind? folder).run = some .folder then
        match (files.list folder).run with
        | .error cause => .error (.unreadable folder cause)
        | .ok listed =>
          .ok (SortedSet.ofList ((listed.filter fun name => !Path.isHidden name).filter fun name =>
            (files.kind? (Path.join folder name)).run == some kind)).elements
      else .error (.notAFolder folder) := by
  unfold names
  rw [ExceptT.run_bind]
  change ExceptT.run (if (files.kind? folder).run ≠ some .folder then _ else _) = _
  by_cases hfolder : (files.kind? folder).run = some .folder
  · rw [if_neg (not_not.2 hfolder), if_pos hfolder]
    change ExceptT.run (match (files.list folder).run with | .error e => _ | .ok listed => _) = _
    cases (files.list folder).run with
    | error cause => rfl
    | ok listed =>
      have hkept := filterM_pure (ε := BundleError)
        (f := fun name => do return (← files.kind? (Path.join folder name)) == some kind)
        (p := fun name => (files.kind? (Path.join folder name)).run == some kind) (fun _ => rfl)
        (listed.filter fun name => !Path.isHidden name)
      exact congrArg (fun kept : ExceptT BundleError Id (List String) =>
        (kept >>= fun found => pure (SortedSet.ofList found).elements).run) hkept
  · rw [if_pos hfolder, if_neg hfolder]
    rfl

theorem names_relisted (h : files.Relisted other) (folder : String) (kind : FileKind) :
    names other folder kind = names files folder kind := by
  have hrun : (names other folder kind).run = (names files folder kind).run := by
    have hlist := h.list folder
    rw [run_names, run_names, h.kind folder]
    simp only [h.kind]
    generalize (files.list folder).run = listed at hlist ⊢
    generalize (other.list folder).run = others at hlist ⊢
    cases hlist with
    | error cause => rfl
    | ok order =>
      -- the order of the listed names is lost in the set of those that are kept
      have hkept := (order.filter fun name => !Path.isHidden name).filter fun name =>
        (files.kind? (Path.join folder name)).run == some kind
      simp only [SortedSet.ofList_eq_of_perm hkept]
  exact hrun

theorem document_relisted (h : files.Relisted other) (path : String) :
    document other path = document files path := by
  have hread : other.read path = files.read path := h.read path
  rw [document, document, hread]

theorem storylines_relisted (h : files.Relisted other) (root folder : String) :
    storylines other root folder = storylines files root folder := by
  rw [storylines, storylines, names_relisted h]

theorem eventNames_relisted (h : files.Relisted other) (root folder storyline : String) :
    eventNames other root folder storyline = eventNames files root folder storyline := by
  rw [eventNames, eventNames, names_relisted h]

theorem event_relisted (h : files.Relisted other) (root folder storyline name : String) :
    event other root folder storyline name = event files root folder storyline name := by
  rw [event, event, document_relisted h]

theorem events_relisted (h : files.Relisted other) (root folder storyline : String) :
    events other root folder storyline = events files root folder storyline := by
  rw [events, events, eventNames_relisted h, funext (event_relisted h root folder storyline)]

theorem story_relisted (h : files.Relisted other) (root : String) (layout : Layout) :
    story other root layout = story files root layout := by
  rw [story, story, document_relisted h, storylines_relisted h,
    funext (events_relisted h root layout.storylinesFolder)]

/-- The files of a tree, with the names in each folder in the opposite order. -/
def reversedFiles (tree : FileTree) : Files Id :=
  { tree.files with list := fun path => (tree.files.list path).map List.reverse }

theorem relisted_reversedFiles (tree : FileTree) : tree.files.Relisted (reversedFiles tree) where
  read _ := rfl
  kind _ := rfl
  list path := by
    change SameNames (tree.files.list path).run ((tree.files.list path).run.map List.reverse)
    cases (tree.files.list path).run with
    | error cause => exact .error cause
    | ok listed => exact .ok (List.reverse_perm listed).symm

/-- Bundling gives the same story, or stops at the same error, in whichever order the names in the
folders are listed; and the events of a story stand in the order of their storylines and names. -/
theorem story_ignores_listing_order (h : files.Relisted other) (root : String) (layout : Layout) :
    (story other root layout).run = (story files root layout).run ∧
      ∀ s, (story files root layout).run = .ok s → s.events.Pairwise Event.Before :=
  ⟨congrArg ExceptT.run (story_relisted h root layout), fun _ hs => (checked_of_story hs).ascending⟩

theorem story_ignores_listing_order_harbour :
    ((reversedFiles harbourFolder).list "story/storylines/a").run =
        .ok ["notes.txt", ".one.md", "one.md", "two.md"] ∧
      ∃ s, (story (reversedFiles harbourFolder) "story" .standard).run = .ok s ∧
        (story harbourFolder.files "story" .standard).run = .ok s ∧
        s.events.Pairwise Event.Before := by
  obtain ⟨hsame, hordered⟩ :=
    story_ignores_listing_order (relisted_reversedFiles harbourFolder) "story" .standard
  have hrun : (story harbourFolder.files "story" .standard).run.toOption.isSome = true := by
    decide +kernel
  refine ⟨rfl, ?_⟩
  cases hstory : (story harbourFolder.files "story" .standard).run with
  | error e =>
    rw [hstory] at hrun
    cases hrun
  | ok s => exact ⟨s, hsame.trans hstory, rfl, hordered s hstory⟩

end Bundle

end Narrative
