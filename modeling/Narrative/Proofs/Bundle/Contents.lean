import Mathlib.Data.List.Nodup
import Narrative.Proofs.Bundle.WellFormed
import Narrative.Proofs.SortedSet
import Narrative.Proofs.Source.Spelled

/-!
# What a bundled story holds

Bundling loses nothing: the events of the story are the visible event files in the visible folders of
storylines, one for each, sorted by storyline and name; the state in which the story starts has an
entry for each resource and each storyline; and whatever stands in an operation or a condition is
checked.
-/

namespace Narrative

/-! ### The order of events -/

namespace Event

/-- The storyline and the name of an event. -/
def key (e : Event) : String × String :=
  (e.storyline, e.event)

/-- An event stands before another one: by storyline, then by name. -/
def Before (a b : Event) : Prop :=
  a.storyline < b.storyline ∨ a.storyline = b.storyline ∧ a.event < b.event

theorem inOrder_eq (a b : Event) :
    inOrder a b = (compareLex (compareOn storyline) (compareOn event) a b).isLE :=
  rfl

theorem inOrder_trans (a b c : Event) (hab : inOrder a b = true) (hbc : inOrder b c = true) :
    inOrder a c = true := by
  rw [inOrder_eq] at hab hbc ⊢
  exact Std.TransCmp.isLE_trans hab hbc

theorem inOrder_total (a b : Event) : (inOrder a b || inOrder b a) = true := by
  rw [Bool.or_eq_true, inOrder_eq, inOrder_eq]
  cases hab : compareLex (compareOn storyline) (compareOn event) a b with
  | lt => exact Or.inl rfl
  | eq => exact Or.inl rfl
  | gt =>
    rw [Std.OrientedCmp.lt_of_gt hab]
    exact Or.inr rfl

/-- Events in order that differ in storyline or name stand one before the other. -/
theorem before_of_inOrder {a b : Event} (h : inOrder a b = true) (hne : a.key ≠ b.key) :
    Before a b := by
  rw [inOrder, Ordering.isLE_then_iff_or] at h
  rcases h with hlt | ⟨heq, hle⟩
  · exact Or.inl (compareOfLessAndEq_eq_lt.1 hlt)
  · have hstoryline : a.storyline = b.storyline := Std.LawfulEqCmp.eq_of_compare heq
    rcases Ordering.isLE_iff_eq_lt_or_eq_eq.1 hle with hlt | hevent
    · exact Or.inr ⟨hstoryline, compareOfLessAndEq_eq_lt.1 hlt⟩
    · have hname : a.event = b.event := Std.LawfulEqCmp.eq_of_compare hevent
      exact absurd (Prod.ext hstoryline hname) hne

/-- Events of different storylines or names are sorted in strictly ascending order. -/
theorem pairwise_sort {events : List Event} (h : (events.map key).Nodup) :
    (sort events).Pairwise Before := by
  have hsorted : (sort events).Pairwise fun a b => inOrder a b = true :=
    List.pairwise_mergeSort inOrder_trans inOrder_total events
  have hperm : (sort events).Perm events := List.mergeSort_perm events inOrder
  have hkeys : ((sort events).map key).Nodup := (hperm.map key).nodup_iff.2 h
  exact hsorted.imp₂ (fun a b => before_of_inOrder) (List.pairwise_map.1 hkeys)

end Event

/-! ### Listing a folder -/

namespace Path

/-- A name has the ending when it is a stem with the ending behind it. -/
theorem stem?_eq_some_iff {ending name stem : String} :
    stem? ending name = some stem ↔ name = stem ++ ending := by
  have hbefore : ∀ text : List Char, Text.before? ending.toList name.toList = some text ↔
      name.toList = text ++ ending.toList := by
    intro text
    rw [Text.before?, Option.map_eq_some_iff]
    constructor
    · rintro ⟨rest, hrest, rfl⟩
      have hname := congrArg List.reverse (Text.after?_eq_some_iff.1 hrest)
      simpa using hname
    · intro hname
      refine ⟨text.reverse, Text.after?_eq_some_iff.2 ?_, List.reverse_reverse text⟩
      rw [hname, List.reverse_append]
  rw [stem?, Option.map_eq_some_iff]
  constructor
  · rintro ⟨text, htext, rfl⟩
    refine String.toList_injective ?_
    rw [String.toList_append, String.toList_ofList]
    exact (hbefore text).1 htext
  · rintro rfl
    refine ⟨stem.toList, (hbefore _).2 (String.toList_append ..), String.ofList_toList⟩

end Path

namespace Bundle

/-- Filtering with checks that never fail is filtering. -/
theorem filterM_pure {ε α : Type} {f : α → ExceptT ε Id Bool} {p : α → Bool}
    (hf : ∀ a, f a = pure (p a)) (l : List α) : l.filterM f = pure (l.filter p) := by
  -- what was kept so far stands in front of the rest, turned around
  have haux : ∀ acc, l.filterAuxM f acc = pure ((l.filter p).reverse ++ acc) := by
    induction l with
    | nil => exact fun acc => rfl
    | cons a l ih =>
      intro acc
      rw [List.filterAuxM, hf a, pure_bind, ih]
      by_cases ha : p a = true
      · simp [ha]
      · simp [ha]
  rw [List.filterM, haux, pure_bind, List.append_nil, List.reverse_reverse]

/-- Something of a kind that a folder lists and that is not hidden. -/
def Holds (files : Files Id) (folder : String) (kind : FileKind) (name : String) : Prop :=
  (∃ listed, (files.list folder).run = .ok listed ∧ name ∈ listed) ∧ Path.isHidden name = false ∧
    (files.kind? (Path.join folder name)).run = some kind

variable {files : Files Id} {root folder storyline name : String}

/-- The names in a folder are those of all things of the kind that are not hidden, each once. -/
theorem of_names {kind : FileKind} {found : List String}
    (h : (names files folder kind).run = .ok found) :
    (∀ name, name ∈ found ↔ Holds files folder kind name) ∧ found.Nodup := by
  unfold names at h
  obtain ⟨isFolder, -, h⟩ := exists_of_run_bind h
  split at h
  · exact absurd h nofun
  obtain ⟨listing, hlisting, h⟩ := exists_of_run_bind h
  split at h
  · exact absurd h nofun
  rename_i listed
  obtain ⟨kept, hkept, h⟩ := exists_of_run_bind h
  obtain rfl := Except.ok.inj h
  have hlist : (files.list folder).run = .ok listed := Except.ok.inj hlisting
  have hfiltered := filterM_pure (ε := BundleError)
    (p := fun name => (files.kind? (Path.join folder name)).run == some kind) (fun _ => rfl)
    (listed.filter fun name => !Path.isHidden name)
  have heq := Except.ok.inj (hkept.symm.trans (congrArg ExceptT.run hfiltered))
  refine ⟨fun name => ?_, (SortedSet.ofList kept).nodup⟩
  rw [SortedSet.mem_ofList, heq, List.mem_filter, List.mem_filter, Bool.not_eq_true', beq_iff_eq]
  constructor
  · rintro ⟨⟨hlisted, hvisible⟩, hkind⟩
    exact ⟨⟨listed, hlist, hlisted⟩, hvisible, hkind⟩
  · rintro ⟨⟨other, hother, hlisted⟩, hvisible, hkind⟩
    obtain rfl : listed = other := Except.ok.inj (hlist.symm.trans hother)
    exact ⟨⟨hlisted, hvisible⟩, hkind⟩

/-- The names of the events of a storyline are those of its visible event files, each once. -/
theorem of_eventNames {stems : List String}
    (h : (eventNames files root folder storyline).run = .ok stems) :
    (∀ name, name ∈ stems ↔
        Holds files (Path.join (Path.join root folder) storyline) .file (name ++ eventEnding)) ∧
      stems.Nodup := by
  unfold eventNames at h
  split at h
  · exact absurd h nofun
  obtain ⟨found, hfound, h⟩ := exists_of_run_bind h
  obtain rfl := Except.ok.inj h
  obtain ⟨hmem, hnodup⟩ := of_names hfound
  refine ⟨fun name => ?_, hnodup.filterMap ?_⟩
  · rw [← hmem, List.mem_filterMap]
    constructor
    · rintro ⟨file, hfile, hstem⟩
      rwa [← Path.stem?_eq_some_iff.1 hstem]
    · intro hfile
      exact ⟨name ++ eventEnding, hfile, Path.stem?_eq_some_iff.2 rfl⟩
  · intro file other name hfile hother
    exact (Path.stem?_eq_some_iff.1 hfile).trans (Path.stem?_eq_some_iff.1 hother).symm

theorem of_storylines {found : List String}
    (h : (storylines files root folder).run = .ok found) :
    (∀ name, name ∈ found ↔ Holds files (Path.join root folder) .folder name) ∧ found.Nodup := by
  obtain ⟨names, hnames, h⟩ := exists_of_run_bind h
  split at h
  · exact absurd h nofun
  · obtain rfl := Except.ok.inj h
    exact of_names hnames

/-! ### The events of a folder -/

/-- A visible event file in the visible folder of a storyline. -/
def HoldsEvent (files : Files Id) (root folder storyline name : String) : Prop :=
  Holds files (Path.join root folder) .folder storyline ∧
    Holds files (Path.join (Path.join root folder) storyline) .file (name ++ eventEnding)

variable {names : List String} {made : List (List Event)}

/-- The storyline and the name of an event that is read are those of its file. -/
theorem key_of_event {e : Event} (h : (event files root folder storyline name).run = .ok e) :
    e.key = (storyline, name) :=
  Prod.ext (compiled_event h).eq_storyline (compiled_event h).eq_name

/-- Each event is what its own file is compiled into. -/
theorem of_mem_flatten
    (hmade : List.Forall₂ (fun name l => (events files root folder name).run = .ok l) names made)
    {e : Event} (he : e ∈ made.flatten) :
    e.storyline ∈ names ∧
      Holds files (Path.join (Path.join root folder) e.storyline) .file (e.event ++ eventEnding) ∧
      (event files root folder e.storyline e.event).run = .ok e := by
  obtain ⟨l, hl, he⟩ := List.mem_flatten.1 he
  obtain ⟨storyline, hstoryline, hevents⟩ := exists_of_forall₂ hmade.flip hl
  obtain ⟨stems, hstems, heach⟩ := exists_of_events hevents
  obtain ⟨name, hname, hevent⟩ := exists_of_forall₂ heach.flip he
  obtain ⟨rfl, rfl⟩ := Prod.mk.inj (key_of_event hevent)
  exact ⟨hstoryline, ((of_eventNames hstems).1 _).1 hname, hevent⟩

/-- Each file is compiled into an event. -/
theorem exists_of_holds
    (hmade : List.Forall₂ (fun name l => (events files root folder name).run = .ok l) names made)
    (hstoryline : storyline ∈ names)
    (h : Holds files (Path.join (Path.join root folder) storyline) .file (name ++ eventEnding)) :
    ∃ e ∈ made.flatten, e.key = (storyline, name) := by
  obtain ⟨l, hl, hevents⟩ := exists_of_forall₂ hmade hstoryline
  obtain ⟨stems, hstems, heach⟩ := exists_of_events hevents
  obtain ⟨e, he, hevent⟩ := exists_of_forall₂ heach (((of_eventNames hstems).1 name).2 h)
  exact ⟨e, List.mem_flatten.2 ⟨l, hl, he⟩, key_of_event hevent⟩

theorem storyline_of_mem {l : List Event} (h : (events files root folder storyline).run = .ok l)
    {e : Event} (he : e ∈ l) : e.storyline = storyline := by
  obtain ⟨stems, -, heach⟩ := exists_of_events h
  obtain ⟨name, -, hevent⟩ := exists_of_forall₂ heach.flip he
  exact (compiled_event hevent).eq_storyline

theorem nodup_keys_of_events {l : List Event}
    (h : (events files root folder storyline).run = .ok l) : (l.map Event.key).Nodup := by
  obtain ⟨stems, hstems, heach⟩ := exists_of_events h
  have hkeys : List.Forall₂ (· = ·) (l.map Event.key) (stems.map fun name => (storyline, name)) := by
    rw [List.forall₂_map_left_iff, List.forall₂_map_right_iff]
    exact heach.flip.imp fun e name hevent => key_of_event hevent
  rw [List.forall₂_eq_eq_eq] at hkeys
  rw [hkeys]
  exact (of_eventNames hstems).2.map fun name other h => (Prod.mk.inj h).2

/-- No two events have both storyline and name in common. -/
theorem nodup_keys
    (hmade : List.Forall₂ (fun name l => (events files root folder name).run = .ok l) names made)
    (hnames : names.Nodup) : (made.flatten.map Event.key).Nodup := by
  induction hmade with
  | nil => exact List.nodup_nil
  | @cons storyline l names made hfirst hrest ih =>
    obtain ⟨hnot, hnames⟩ := List.nodup_cons.1 hnames
    rw [List.flatten_cons, List.map_append, List.nodup_append]
    refine ⟨nodup_keys_of_events hfirst, ih hnames, ?_⟩
    -- an event with a key of the first storyline would make that storyline one of the others
    rintro _ hkey _ hother rfl
    obtain ⟨e, he, rfl⟩ := List.mem_map.1 hkey
    obtain ⟨other, hother, heq⟩ := List.mem_map.1 hother
    have hstoryline : other.storyline ∈ names := (of_mem_flatten hrest hother).1
    rw [(Prod.mk.inj heq).1, storyline_of_mem hfirst he] at hstoryline
    exact hnot hstoryline

end Bundle

/-! ### Whole stories -/

/-- All that stands in the operations and conditions of a story, at any depth of a list. -/
def Story.leaves (s : Story) : List Operand :=
  (s.operations.flatMap Operation.sides ++ s.conditions.flatMap Condition.operands).flatMap
    Operand.leaves

/-- A leaf of a story is written in the storyline of one of its events. -/
theorem Story.exists_of_mem_leaves {s : Story} (h : ∀ e ∈ s.events, e.WrittenIn e.storyline)
    {leaf : Operand} (hleaf : leaf ∈ s.leaves) : ∃ e ∈ s.events, leaf.WrittenIn e.storyline := by
  obtain ⟨operand, hoperand, hleaf⟩ := List.mem_flatMap.1 hleaf
  rcases List.mem_append.1 hoperand with hoperand | hoperand
  · obtain ⟨o, ho, hside⟩ := List.mem_flatMap.1 hoperand
    obtain ⟨e, he, ho⟩ := List.mem_flatMap.1 ho
    have hwritten := ((h e he).operations o ho).sides operand hside
    exact ⟨e, he, hwritten.leaves leaf hleaf⟩
  · obtain ⟨c, hc, hside⟩ := List.mem_flatMap.1 hoperand
    obtain ⟨e, he, hc⟩ := List.mem_flatMap.1 hc
    have hwritten := ((h e he).conditions c hc).operands operand hside
    exact ⟨e, he, hwritten.leaves leaf hleaf⟩

/-- A story all of whose parts are checked: its events are strictly ascending, names are slugs, each
resource has a format with a place for its value, and what the events run, check and weigh is spelled
well and finite. -/
structure Story.Checked (s : Story) : Prop where
  ascending : s.events.Pairwise Event.Before
  slugs : ∀ e ∈ s.events, isSlug e.storyline = true ∧ isSlug e.event = true
  resources : ∀ entry ∈ s.resources, isSlug entry.1 = true ∧ ['%', 's'] <:+: entry.2.format.toList
  accesses : ∀ path, .access path ∈ s.leaves → path.Spelled
  numbers : ∀ x, .number x ∈ s.leaves → x.isFinite = true
  weights : ∀ e ∈ s.events, ∀ gate t, e.triggers.get gate = some t → t.weight.isFinite = true

namespace Bundle

/-- A story that holds all of a folder: an event for each visible event file in the visible folder of
a storyline, which is what the file is compiled into; and a first state with the default of each
resource and an empty entry for each visible folder of a storyline, and with nothing else besides
what is global. -/
structure Complete (files : Files Id) (root folder : String) (s : Story) : Prop where
  event_iff : ∀ storyline name,
    HoldsEvent files root folder storyline name ↔ ∃ e ∈ s.events, e.key = (storyline, name)
  compiled : ∀ e ∈ s.events, (event files root folder e.storyline e.event).run = .ok e
  roots : Entries.names s.defaultState = State.rootNames
  once : (Entries.names s.resources).Nodup
  resources : s.defaultState.lookup "resources" =
    some (.obj (Entries.mapValues Resource.default s.resources))
  storylines : ∃ found : List String, found.Nodup ∧
    s.defaultState.lookup "storylines" = some (.obj (found.map fun name => (name, .obj []))) ∧
    ∀ name, name ∈ found ↔ Holds files (Path.join root folder) .folder name

variable {files : Files Id} {root : String} {layout : Layout} {s : Story}

theorem complete_of_story (h : (story files root layout).run = .ok s) :
    Complete files root layout.storylinesFolder s := by
  obtain ⟨d, config, names, made, hd, hconfig, hnames, hmade, rfl⟩ := exists_of_story h
  obtain ⟨hfolders, hnodup⟩ := of_storylines hnames
  have hmem : ∀ e, e ∈ Event.sort made.flatten ↔ e ∈ made.flatten := fun e => List.mem_mergeSort
  have hdistinct : Entries.distinct (names.map fun name => (name, Json.obj [])) =
      names.map fun name => (name, Json.obj []) := by
    refine Entries.distinct_eq_self ?_
    simpa [Entries.names, Function.comp_def] using hnodup
  have honce := (Config.written_of_read (proper_document hd) hconfig).once
  refine ⟨fun storyline name => ?_, fun e he => ?_, rfl, honce, rfl, names, hnodup, ?_, hfolders⟩
  · constructor
    · rintro ⟨hfolder, hfile⟩
      obtain ⟨e, he, hkey⟩ := exists_of_holds hmade ((hfolders storyline).2 hfolder) hfile
      exact ⟨e, (hmem e).2 he, hkey⟩
    · rintro ⟨e, he, hkey⟩
      obtain ⟨rfl, rfl⟩ := Prod.mk.inj hkey
      obtain ⟨hstoryline, hfile, -⟩ := of_mem_flatten hmade ((hmem e).1 he)
      exact ⟨(hfolders _).1 hstoryline, hfile⟩
  · exact (of_mem_flatten hmade ((hmem e).1 he)).2.2
  · rw [← hdistinct]
    rfl

theorem checked_of_story (h : (story files root layout).run = .ok s) : s.Checked := by
  obtain ⟨d, config, names, made, hd, hconfig, hnames, hmade, rfl⟩ := exists_of_story h
  have hcompiled : ∀ e ∈ Event.sort made.flatten, Compiled e.storyline e.event e := by
    intro e he
    exact compiled_event (of_mem_flatten hmade (List.mem_mergeSort.1 he)).2.2
  have hleaves : ∀ leaf ∈ (config.story names (Event.sort made.flatten)).leaves,
      ∃ e ∈ Event.sort made.flatten, leaf.WrittenIn e.storyline :=
    fun leaf hleaf => Story.exists_of_mem_leaves (fun e he => (hcompiled e he).written) hleaf
  refine ⟨Event.pairwise_sort (nodup_keys hmade (of_storylines hnames).2), fun e he => ?_,
    Config.resources_of_read hconfig, fun path hleaf => ?_, fun x hleaf => ?_,
    fun e he gate t ht => ((hcompiled e he).written.triggers gate t ht).weight⟩
  · exact ⟨(hcompiled e he).slug_storyline, (hcompiled e he).slug_name⟩
  · -- `sl` stands for the storyline of the event, which was checked to be a slug
    obtain ⟨e, he, hin⟩ := hleaves _ hleaf
    refine hin.spelled ?_
    rintro _ ⟨rfl⟩
    exact (hcompiled e he).slug_storyline
  · obtain ⟨e, he, hin⟩ := hleaves _ hleaf
    exact hin.isFinite

/-- Bundling leaves nothing of a folder out and checks every part of the story. -/
theorem complete_story (h : (story files root layout).run = .ok s) :
    Complete files root layout.storylinesFolder s ∧ s.Checked :=
  ⟨complete_of_story h, checked_of_story h⟩

/-- The source of a story with two events in one storyline, another storyline that is empty, and some
files and folders that are hidden or of another kind. -/
def harbourFolder : FileTree :=
  .folder [("story", .folder [
    ("storyline.config", .file (some ("\n".intercalate
      ["---", "version: 1", "story_title: T", "resources: \x7b\x7d", "---", "D"]))),
    ("storylines", .folder [
      ("b", .folder []),
      ("a", .folder [
        ("two.md", .file (some "---\n---\nTwo")),
        ("one.md", .file (some "---\non_display: ['sl.x = s.b']\n---\nOne")),
        (".one.md", .file (some "")),
        ("notes.txt", .file (some ""))]),
      (".old", .folder [("one.md", .file (some ""))])])])]

/-- The story of `harbourFolder` has an event for each of the two event files, and none for the hidden
ones. -/
theorem complete_harbour : ∃ s, (story harbourFolder.files "story" .standard).run = .ok s ∧
    Complete harbourFolder.files "story" "storylines" s ∧ s.Checked ∧
    (∃ e ∈ s.events, e.key = ("a", "one")) ∧ (∃ e ∈ s.events, e.key = ("a", "two")) ∧
    ∀ e ∈ s.events, e.key ≠ (".old", "one") := by
  have hrun : (story harbourFolder.files "story" .standard).run.toOption.isSome = true := by
    decide +kernel
  cases hstory : (story harbourFolder.files "story" .standard).run with
  | error e =>
    rw [hstory] at hrun
    exact absurd hrun nofun
  | ok s =>
    obtain ⟨hcomplete, hchecked⟩ := complete_story hstory
    have hfolder : Holds harbourFolder.files "story/storylines" .folder "a" :=
      ⟨⟨["b", "a", ".old"], rfl, by decide⟩, rfl, rfl⟩
    have hfile : ∀ name, name ∈ ["one", "two"] →
        HoldsEvent harbourFolder.files "story" "storylines" "a" name := by
      intro name hname
      refine ⟨hfolder, ⟨⟨["two.md", "one.md", ".one.md", "notes.txt"], rfl, ?_⟩, ?_, ?_⟩⟩
      all_goals
        revert name
        decide +kernel
    refine ⟨s, rfl, hcomplete, hchecked, (hcomplete.event_iff _ _).1 (hfile "one" (by decide)),
      (hcomplete.event_iff _ _).1 (hfile "two" (by decide)), fun e he hkey => ?_⟩
    obtain ⟨⟨-, hvisible, -⟩, -⟩ := (hcomplete.event_iff _ _).2 ⟨e, he, hkey⟩
    exact absurd hvisible (by decide)

end Bundle

end Narrative
