import Mathlib.Tactic.Common
import Narrative.State.Basic
import Narrative.Proofs.Entries

/-!
# Values under `global`

Where `global` is absent or an object, a value can be put under any of its names, and nothing else
in the document changes.
-/

namespace Narrative

namespace State

/-- Whether `global` is absent or an object. -/
def OpenGlobal (s : State) : Prop :=
  ∀ document, s.entries.lookup "global" = some document → document.kind = .object

/-- The entries under `global`. -/
def globals (s : State) : List (String × Json) :=
  ((s.entries.lookup "global").bind Json.entries?).getD []

/-- The state with only a value under `global` changed. -/
def withGlobal (s : State) (key : String) (value : Json) : State :=
  ⟨Entries.put "global" (.obj (Entries.put key value s.globals)) s.entries⟩

theorem getD_global {s : State} (h : s.OpenGlobal) :
    (s.entries.lookup "global").getD (.obj []) = .obj s.globals := by
  unfold globals
  cases hglobal : s.entries.lookup "global" with
  | none => rfl
  | some document =>
    have hkind := h document hglobal
    cases document with
    | obj entries => rfl
    | _ => exact absurd hkind nofun

theorem setGlobal_eq {s : State} (h : s.OpenGlobal) (key : String) (value : Json) :
    s.setGlobal key value = .ok (s.withGlobal key value) := by
  simp only [setGlobal, getD_global h, Json.setChild, withGlobal]

theorem globals_withGlobal (s : State) (key : String) (value : Json) :
    (s.withGlobal key value).globals = Entries.put key value s.globals := by
  rw [globals, withGlobal, Entries.lookup_put, if_pos rfl]
  rfl

theorem OpenGlobal.withGlobal {s : State} (key : String) (value : Json) :
    (s.withGlobal key value).OpenGlobal := by
  intro document hdocument
  rw [State.withGlobal, Entries.lookup_put, if_pos rfl] at hdocument
  exact Option.some.inj hdocument ▸ rfl

theorem get?_cons (s : State) (name : String) (rest : List String) :
    s.get? (name :: rest) = (s.entries.lookup name).bind fun below => below.at? rest :=
  rfl

theorem get?_global {s : State} (h : s.OpenGlobal) (key : String) (rest : List String) :
    s.get? ("global" :: key :: rest) = (s.globals.lookup key).bind fun below => below.at? rest := by
  rw [get?_cons, globals]
  cases hglobal : s.entries.lookup "global" with
  | none => rfl
  | some document =>
    have hkind := h document hglobal
    cases document with
    | obj entries => rfl
    | _ => exact absurd hkind nofun

theorem get?_withGlobal_self (s : State) (key : String) (value : Json) :
    (s.withGlobal key value).get? ["global", key] = some value := by
  rw [get?_global (OpenGlobal.withGlobal key value), globals_withGlobal, Entries.lookup_put,
    if_pos rfl]
  rfl

/-- No other value under `global` changes. -/
theorem get?_withGlobal_of_ne {s : State} (h : s.OpenGlobal) {key other : String}
    (hne : other ≠ key)
    (value : Json) (rest : List String) :
    (s.withGlobal key value).get? ("global" :: other :: rest) =
      s.get? ("global" :: other :: rest) := by
  rw [get?_global (OpenGlobal.withGlobal key value), globals_withGlobal, Entries.lookup_put,
    if_neg hne, get?_global h]

/-- Nothing outside `global` changes. -/
theorem get?_withGlobal_outside (s : State) (key : String) (value : Json) {name : String}
    (hne : name ≠ "global") (rest : List String) :
    (s.withGlobal key value).get? (name :: rest) = s.get? (name :: rest) := by
  rw [get?_cons, get?_cons, withGlobal, Entries.lookup_put, if_neg hne]

/-- The second state has a value under `global`, and is like the first one at every path that leads
neither to it nor on from it. -/
structure SetsGlobal (s : State) (key : String) (value : Json) (t : State) : Prop where
  value : t.get? ["global", key] = some value
  beside : ∀ path, ¬path <+: ["global", key] → ¬["global", key] <+: path → t.get? path = s.get? path

theorem setsGlobal_withGlobal {s : State} (h : s.OpenGlobal) (key : String) (value : Json) :
    s.SetsGlobal key value (s.withGlobal key value) := by
  refine ⟨get?_withGlobal_self s key value, fun path habove hbelow => ?_⟩
  rcases path with _ | ⟨first, rest⟩
  · exact absurd List.nil_prefix habove
  · by_cases hfirst : first = "global"
    · subst hfirst
      rcases rest with _ | ⟨second, rest⟩
      · exact absurd ⟨[key], rfl⟩ habove
      · have hsecond : second ≠ key := by
          rintro rfl
          exact hbelow ⟨rest, rfl⟩
        exact get?_withGlobal_of_ne h hsecond value rest
    · exact get?_withGlobal_outside s key value hfirst rest

/-- Writing under `global` leaves the resources as they are. -/
theorem resources_setGlobal {s t : State} {key : String} {value : Json}
    (h : s.setGlobal key value = .ok t) : t.resources = s.resources := by
  have hroots : ∀ level, (State.mk (Entries.put "global" level s.entries)).get? ["resources"] =
      s.get? ["resources"] := by
    intro level
    rw [get?_cons, get?_cons, Entries.lookup_put, if_neg (by decide)]
  rw [setGlobal] at h
  split at h
  · rename_i level _
    obtain rfl := Except.ok.inj h
    unfold resources
    rw [hroots level]
  · exact absurd h nofun
  · exact absurd h nofun

/-- Setting a flag that is set leaves the state as it is. -/
theorem withGlobal_of_globalFlag {s : State} (h : s.OpenGlobal) {key : String}
    (hflag : s.globalFlag key = true) : s.withGlobal key (.bool true) = s := by
  have hvalue : s.globals.lookup key = some (.bool true) := by
    rw [globalFlag, get?_global h] at hflag
    obtain ⟨below, hbelow, hat⟩ := Option.bind_eq_some_iff.1 (of_decide_eq_true hflag)
    rw [hbelow, Option.some.inj hat]
  have hglobal : s.entries.lookup "global" = some (.obj s.globals) := by
    have hgetD := getD_global h
    cases hlookup : s.entries.lookup "global" with
    | none =>
      rw [globals, hlookup] at hvalue
      exact absurd hvalue nofun
    | some document =>
      rw [hlookup] at hgetD
      exact congrArg some hgetD
  rw [withGlobal, Entries.put_of_lookup hvalue, Entries.put_of_lookup hglobal]

end State

end Narrative
