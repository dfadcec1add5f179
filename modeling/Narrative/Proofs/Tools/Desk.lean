import Mathlib.Tactic.Common
import Narrative.Tools.Player

/-!
# What a player prints

A player at a desk takes nothing back of what it has printed.  So the texts of all that a session
has shown stand on the desk in order, with the texts between them that are not shown by a session.
-/

namespace Narrative.Tools.Player

/-! ### Texts -/

/-- A text in which all that was shown stands in order, with other texts between. -/
inductive Prints (story : Story) : List Display → String → Prop
  | rest (text : String) : Prints story [] text
  | shows {shown : List Display} {text : String} (before : String) (d : Display)
    (h : Prints story shown text) : Prints story (d :: shown) (before ++ shownText story d ++ text)

namespace Prints

variable {story : Story} {shown more : List Display} {text after : String}

theorem behind (h : Prints story shown text) (before : String) :
    Prints story shown (before ++ text) := by
  cases h with
  | rest => exact .rest _
  | shows first d h =>
    rw [← String.append_assoc, ← String.append_assoc]
    exact .shows (before ++ first) d h

theorem append (h : Prints story shown text) (hmore : Prints story more after) :
    Prints story (shown ++ more) (text ++ after) := by
  induction h with
  | rest => exact hmore.behind _
  | shows before d _ ih =>
    rw [List.cons_append, String.append_assoc]
    exact .shows before d ih

theorem before (h : Prints story shown text) (after : String) :
    Prints story shown (text ++ after) :=
  List.append_nil shown ▸ h.append (.rest after)

theorem join (story : Story) (shown : List Display) :
    Prints story shown (String.join (shown.map (shownText story))) := by
  induction shown with
  | nil => exact .rest _
  | cons d shown ih =>
    rw [List.map_cons, String.join_cons]
    simpa using Prints.shows "" d ih

end Prints

/-! ### Programs -/

variable {α β : Type} {seed : UInt64}

/-- A program prints what is shown, and takes nothing back of what was printed. -/
def Shows (story : Story) (shown : List Display) (x : StateM Desk α) : Prop :=
  ∀ d, ∃ text, Prints story shown text ∧ (x.run d).2.printed = d.printed ++ text

/-- A program takes nothing back of what was printed. -/
def Extends (x : StateM Desk α) : Prop :=
  ∀ d, ∃ text, (x.run d).2.printed = d.printed ++ text

/-- When a program comes to a session, that is related to what was shown, and this is printed. -/
def Reaches (found : α → Option Session) (R : Session → List Display → Prop)
    (x : StateM Desk α) : Prop :=
  ∀ d t, found (x.run d).1 = some t →
    ∃ shown text, R t shown ∧ Prints t.story shown text ∧
      (x.run d).2.printed = d.printed ++ text

theorem run_bind (x : StateM Desk α) (f : α → StateM Desk β) (d : Desk) :
    (x >>= f).run d = (f (x.run d).1).run (x.run d).2 :=
  rfl

namespace Extends

theorem unprinted {x : StateM Desk α} (h : ∀ d, (x.run d).2.printed = d.printed) : Extends x :=
  fun d => ⟨"", by rw [h, String.append_empty]⟩

theorem pure (a : α) : Extends (Pure.pure a : StateM Desk α) :=
  unprinted fun _ => rfl

theorem bind {x : StateM Desk α} {f : α → StateM Desk β} (hx : Extends x)
    (hf : ∀ a, Extends (f a)) : Extends (x >>= f) := by
  intro d
  obtain ⟨text, htext⟩ := hx d
  obtain ⟨after, hafter⟩ := hf (x.run d).1 (x.run d).2
  exact ⟨text ++ after, by rw [run_bind, hafter, htext, String.append_assoc]⟩

theorem print (text : String) : Extends ((Desk.terminal seed).print text) :=
  fun _ => ⟨text, rfl⟩

theorem error (text : String) : Extends ((Desk.terminal seed).error text) :=
  unprinted fun _ => rfl

theorem read (path : String) : Extends ((Desk.terminal seed).files.read path) :=
  unprinted fun _ => rfl

theorem change (f : FileTree → Except FileError FileTree) : Extends (Desk.change f) := by
  refine unprinted fun d => ?_
  unfold Desk.change
  cases h : f d.tree with
  | ok tree =>
    simp only [StateT.run_bind, StateT.run_get, pure_bind, h]
    rfl
  | error e =>
    simp only [StateT.run_bind, StateT.run_get, pure_bind, h]
    rfl

theorem save (saves : String) (s : Session) (name : String) :
    Extends (save (Desk.terminal seed) saves s name) := by
  have hfolder : Extends ((Desk.terminal seed).storage.makeFolder saves) := change _
  have hfile : ∀ path text, Extends ((Desk.terminal seed).storage.write path text) :=
    fun _ _ => change _
  refine hfolder.bind fun made => ?_
  cases made with
  | error e => exact pure _
  | ok u =>
    refine (hfile _ _).bind fun written => ?_
    cases written with
    | error e => exact pure _
    | ok u => exact pure _

theorem findStory (b : Builder) : Extends (b.findStory (Desk.terminal seed).files) := by
  unfold Builder.findStory
  split
  · exact pure _
  · exact pure _
  · refine (read _).bind fun file => ?_
    cases file with
    | error e => exact pure _
    | ok text =>
      dsimp only
      cases Story.parse? text with
      | none => exact pure _
      | some story => exact pure _

theorem findDraws (b : Builder) : Extends (b.findDraws (Desk.terminal seed).seed) := by
  unfold Builder.findDraws
  split
  · exact pure _
  · exact pure _
  · exact (unprinted fun d => rfl).bind fun fresh => pure _

end Extends

theorem shows_printShown (turn : Turn) :
    Shows turn.session.story turn.shown (printShown (Desk.terminal seed) turn) :=
  fun _ => ⟨_, .join _ _, rfl⟩

namespace Reaches

variable {found : α → Option Session} {other : β → Option Session}
  {R : Session → List Display → Prop}

theorem pure {a : α} (h : ∀ t, found a = some t → R t []) :
    Reaches found R (Pure.pure a : StateM Desk α) :=
  fun _ t ht => ⟨[], "", h t ht, .rest "", String.append_empty.symm⟩

theorem never {x : StateM Desk α} (h : ∀ d, found (x.run d).1 = none) : Reaches found R x :=
  fun d _ ht => absurd (ht.symm.trans (h d)) nofun

/-- Other texts may be printed in front. -/
theorem behind {x : StateM Desk β} {f : β → StateM Desk α} (hx : Extends x)
    (hf : ∀ b, Reaches found R (f b)) : Reaches found R (x >>= f) := by
  intro d t ht
  obtain ⟨text, htext⟩ := hx d
  obtain ⟨shown, after, hR, hprints, hafter⟩ := hf (x.run d).1 (x.run d).2 t ht
  exact ⟨shown, text ++ after, hR, hprints.behind text,
    by rw [run_bind, hafter, htext, String.append_assoc]⟩

/-- What is shown in front counts. -/
theorem after {x : StateM Desk β} {f : β → StateM Desk α} {story : Story} {before : List Display}
    (hx : Shows story before x)
    (hf : ∀ b, Reaches found (fun t more => t.story = story ∧ R t (before ++ more)) (f b)) :
    Reaches found R (x >>= f) := by
  intro d t ht
  obtain ⟨text, hbefore, htext⟩ := hx d
  obtain ⟨more, after, ⟨hstory, hR⟩, hmore, hafter⟩ := hf (x.run d).1 (x.run d).2 t ht
  rw [hstory] at hmore
  exact ⟨before ++ more, text ++ after, hR, hstory ▸ hbefore.append hmore,
    by rw [run_bind, hafter, htext, String.append_assoc]⟩

/-- A program may hand on the session that it comes to. -/
theorem handOn {x : StateM Desk α} {f : α → StateM Desk β} (hx : Reaches found R x)
    (hf : ∀ a, ∃ b, f a = Pure.pure b ∧ ∀ t, other b = some t → found a = some t) :
    Reaches other R (x >>= f) := by
  intro d t ht
  obtain ⟨b, hb, hfound⟩ := hf (x.run d).1
  rw [run_bind, hb] at ht ⊢
  exact hx d t (hfound t ht)

end Reaches

end Narrative.Tools.Player
