import Mathlib.Tactic.Common
import Narrative.Proofs.State.Frame
import Narrative.Proofs.Session.Turn

/-!
# Batches of operations

An operation changes the document in place: it goes down to its target and writes there, and every
level above holds what the write leaves, whether it succeeds or not.  Still an operation that fails
leaves the document as it found it.  So a batch stops at the first operation that fails with the
document of those before it, and the action that it belongs to changes nothing else.
-/

namespace Narrative

/-! ### Changes in place -/

/-- What a change in place leaves: a document in any case, and the error when it fails. -/
abbrev Changed (σ : Type) := EStateM.Result StateError σ Unit

namespace Json

/-- Put a value under a segment of a level, if the level takes it. -/
def putChild (located : WriteError → StateError) (key : String) (value level : Json) :
    Changed Json :=
  match level.setChild key value with
  | .ok made => .ok () made
  | .error e => .error (located e) level

/-- Change the items of an array. -/
def changeItems (refused : Kind → StateError) (change : List Json → List Json) :
    Json → Changed Json
  | arr items => .ok () (arr (change items))
  | other => .error (refused other.kind) other

/-- Change the value at a path.  Each level on the way holds what the change leaves below it, also
when the change has failed. -/
def changeAt (lost : StateError) (change : Json → Changed Json) : List String → Json → Changed Json
  | [], level => change level
  | key :: rest, level =>
    match level.child? key with
    | none => .error lost level
    | some below =>
      match changeAt lost change rest below with
      | .ok _ left => .ok () (level.replaceChild key left)
      | .error e left => .error e (level.replaceChild key left)

/-- A change at a path is the change of its slot. -/
theorem changeAt_eq (lost : StateError) (change : Json → Changed Json) (path : List String)
    (level : Json) :
    changeAt lost change path level = match level.slot? path with
      | none => .error lost level
      | some slot =>
        match change slot.value with
        | .ok _ left => .ok () (slot.fill left)
        | .error e left => .error e (slot.fill left) := by
  induction path generalizing level with
  | nil =>
    rw [changeAt, slot?]
    dsimp only
    cases change level <;> rfl
  | cons key rest ih =>
    rw [changeAt, slot?]
    cases hchild : level.child? key with
    | none => rfl
    | some below =>
      dsimp only
      rw [ih]
      cases below.slot? rest with
      | none =>
        -- the level below is put back as it was
        dsimp only [Option.map_none]
        rw [replaceChild_self hchild]
      | some slot =>
        dsimp only [Option.map_some]
        cases change slot.value <;> rfl

end Json

namespace State

/-- Read something from the state, which stays as it is. -/
def query {α : Type} (read : State → Except StateError α) : EStateM StateError State α := fun s =>
  match read s with
  | .ok a => .ok a s
  | .error e => .error e s

/-- The state with another object for its document. -/
def withRoot (s : State) : Json → State
  | .obj entries => ⟨entries⟩
  | _ => s

/-- Change the document of a state in place. -/
def change (edit : Json → Changed Json) : EStateM StateError State Unit := fun s =>
  match edit s.root with
  | .ok _ document => .ok () (s.withRoot document)
  | .error e document => .error e (s.withRoot document)

/-- Put a value at an access. -/
def put (access : Access) (value : Json) : EStateM StateError State Unit :=
  let located : Json.WriteError → StateError
    | .missing => .missingPath access
    | .notAContainer key found => .notAContainer key found
  match access.segments.getLast? with
  | none => throw .emptyAccess
  | some key =>
    change (Json.changeAt (.missingPath access) (Json.putChild located key value)
      access.segments.dropLast)

end State

namespace Operation

/-- Change the items of the array at the target of an operation. -/
def changeItems (o : Operation) (change : List Json → List Json) :
    EStateM StateError State Unit :=
  let refused : Option Kind → StateError :=
    .notAnArray (.assignment o.operator) o.target.dotted
  State.change (Json.changeAt (refused none)
    (Json.changeItems (fun found => refused (some found)) change) o.target.segments)

/-- Put the result of arithmetic at the target of an operation. -/
def putCombined (o : Operation) (left right : Json) : EStateM StateError State Unit :=
  match o.operator.combine left right with
  | none => throw (.incompatibleOperands o.operator o.target left.kind right.kind)
  | some (.text t) => State.put o.target (.str t)
  | some (.number x) =>
    match Number.ofFloat? x with
    | some n => State.put o.target (.num n)
    | none => throw (.nonFiniteResult o.operator o.target)

/-- Perform an operation on the state in place. -/
def perform (o : Operation) : EStateM StateError State Unit := do
  let place ← State.query fun s => s.resolvePath o.target true
  if place.missing && o.operator.isCompound then
    throw (.compoundOnUndefined o.operator o.target)
  else
    match ← State.query fun s => s.resolve o.operand with
    | none => throw (.undefinedOperand o.operator o.target)
    | some right =>
      match o.operator with
      | .set => State.put o.target right
      | .append => o.changeItems fun items => items ++ [right]
      | .remove => o.changeItems fun items => items.filter fun item => !item.same right
      | _ =>
        let place ← State.query fun s => s.resolvePath o.target true
        o.putCombined (place.value?.getD .null) right

end Operation

namespace State

open Json

/-- What a change leaves that does nothing when it fails. -/
def settled (s : State) : Except StateError State → Changed State
  | .ok t => .ok () t
  | .error e => .error e s

theorem query_bind {α β : Type} (read : State → Except StateError α)
    (next : α → EStateM StateError State β) (s : State) :
    (query read >>= next) s = match read s with
      | .ok a => next a s
      | .error e => .error e s := by
  show EStateM.bind (query read) next s = _
  unfold EStateM.bind query
  cases read s <;> rfl

theorem withRoot_root (s : State) : s.withRoot s.root = s :=
  rfl

theorem withRoot_of_ofJson {s t : State} {document : Json} (h : ofJson document = .ok t) :
    s.withRoot document = t := by
  rw [← root_of_ofJson h]
  rfl

/-- Putting a value is writing it, and does nothing when it fails. -/
theorem put_eq (access : Access) (value : Json) (s : State) :
    put access value s = s.settled (s.write access value) := by
  by_cases hne : access.segments = []
  · obtain ⟨segments⟩ := access
    obtain rfl : segments = [] := hne
    rfl
  · obtain ⟨before, key, rfl⟩ := Access.exists_concat hne
    rw [put, write_concat]
    dsimp only
    rw [List.getLast?_concat, List.dropLast_concat]
    dsimp only
    rw [change, changeAt_eq]
    cases hslot : s.root.slot? before with
    | none => rfl
    | some slot =>
      dsimp only
      rw [putChild]
      cases hset : slot.value.setChild key value with
      | error e =>
        dsimp only
        rw [fill_value hslot, withRoot_root]
        cases e <;> rfl
      | ok made =>
        obtain ⟨t, ht, -⟩ := exists_ofJson_fill hslot (kind_setChild hset)
        dsimp only
        rw [withRoot_of_ofJson ht, ht]
        rfl

end State

namespace Operation

open State Json

/-- A change of items fills the slot of the target, or fails without an array. -/
theorem changeItems_eq (o : Operation) (change : List Json → List Json) (s : State) :
    o.changeItems change s = s.settled (match s.slot? o.target with
      | some ⟨.arr items, fill⟩ => ofJson (fill (.arr (change items)))
      | other =>
        .error (.notAnArray (.assignment o.operator) o.target.dotted
          (other.map fun slot => slot.value.kind))) := by
  rw [changeItems, State.change, changeAt_eq, State.slot?]
  cases hslot : s.root.slot? o.target.segments with
  | none => rfl
  | some slot =>
    obtain ⟨value, fill⟩ := slot
    have hback : fill value = s.root := fill_value hslot
    dsimp only
    cases value with
    | arr items =>
      have hkind : (arr (change items)).kind = (arr items).kind := rfl
      obtain ⟨t, ht, -⟩ := exists_ofJson_fill hslot hkind
      dsimp only [Json.changeItems]
      rw [withRoot_of_ofJson ht, ht]
      rfl
    | _ =>
      dsimp only [Json.changeItems]
      rw [hback]
      rfl

theorem putCombined_eq (o : Operation) (left right : Json) (s : State) :
    o.putCombined left right s = s.settled (match o.operator.combine left right with
      | none => .error (.incompatibleOperands o.operator o.target left.kind right.kind)
      | some (.text t) => s.write o.target (.str t)
      | some (.number x) =>
        match Number.ofFloat? x with
        | some n => s.write o.target (.num n)
        | none => .error (.nonFiniteResult o.operator o.target)) := by
  rw [putCombined]
  rcases o.operator.combine left right with _ | x | t
  · rfl
  · dsimp only
    cases Number.ofFloat? x with
    | none => rfl
    | some n => exact put_eq _ _ _
  · exact put_eq _ _ _

/-- An operation that is performed in place leaves its result, or the state as it was. -/
theorem perform_eq (o : Operation) (s : State) : o.perform s = s.settled (s.apply o) := by
  rw [perform, query_bind, State.apply]
  cases hplace : s.resolvePath o.target true with
  | error e => rfl
  | ok place =>
    dsimp only
    split
    · rfl
    · rw [query_bind]
      rcases s.resolve o.operand with e | _ | right
      · rfl
      · rfl
      · dsimp only
        cases hoperator : o.operator with
        | set => exact put_eq _ _ _
        | append =>
          dsimp only
          rw [changeItems_eq, hoperator]
          rfl
        | remove =>
          dsimp only
          rw [changeItems_eq, hoperator]
          rfl
        | _ =>
          dsimp only
          rw [query_bind, hplace, ← hoperator]
          exact o.putCombined_eq _ _ s

end Operation

/-! ### Batches -/

namespace State

/-- Every operation of a list succeeds on the state that those before it leave, and the last one
leaves the second state. -/
inductive Passes : State → List Operation → State → Prop
  | done (s : State) : Passes s [] s
  | step {s t u : State} {o : Operation} {rest : List Operation} (first : s.apply o = .ok t)
      (others : Passes t rest u) : Passes s (o :: rest) u

variable {s t : State} {operations : List Operation}

theorem applyAll_eq_ok_iff : s.applyAll operations = (t, none) ↔ s.Passes operations t := by
  induction operations generalizing s with
  | nil =>
    constructor
    · intro h
      obtain rfl := (Prod.mk.inj h).1
      exact .done s
    · rintro ⟨⟩
      rfl
  | cons o rest ih =>
    rw [applyAll]
    cases happly : s.apply o with
    | error e =>
      constructor
      · simp
      · rintro (_ | ⟨first, -⟩)
        cases happly.symm.trans first
    | ok u =>
      dsimp only
      rw [ih]
      constructor
      · exact .step happly
      · rintro (_ | ⟨first, others⟩)
        rwa [Except.ok.inj (happly.symm.trans first)]

theorem applyAll_eq_error_iff {e : StateError} :
    s.applyAll operations = (t, some e) ↔
      ∃ before o after, operations = before ++ o :: after ∧ s.Passes before t ∧
        t.apply o = .error e := by
  induction operations generalizing s with
  | nil =>
    constructor
    · simp [applyAll]
    · rintro ⟨before, o, after, h, -, -⟩
      exact absurd h (by simp)
  | cons first rest ih =>
    rw [applyAll]
    cases happly : s.apply first with
    | error cause =>
      constructor
      · intro h
        obtain ⟨rfl, hcause⟩ := Prod.mk.inj h
        exact ⟨[], first, rest, rfl, .done s, Option.some.inj hcause ▸ happly⟩
      · rintro ⟨before, o, after, h, hbefore, ho⟩
        -- nothing gets past the first operation, so it is the one that fails
        cases hbefore with
        | done =>
          obtain ⟨rfl, -⟩ := List.cons.inj h
          rw [Except.error.inj (happly.symm.trans ho)]
        | step hfirst others =>
          obtain ⟨rfl, -⟩ := List.cons.inj h
          cases happly.symm.trans hfirst
    | ok u =>
      dsimp only
      rw [ih]
      constructor
      · rintro ⟨before, o, after, rfl, hbefore, ho⟩
        exact ⟨first :: before, o, after, rfl, .step happly hbefore, ho⟩
      · rintro ⟨before, o, after, h, hbefore, ho⟩
        cases hbefore with
        | done =>
          obtain ⟨rfl, -⟩ := List.cons.inj h
          cases happly.symm.trans ho
        | step hfirst others =>
          obtain ⟨rfl, hrest⟩ := List.cons.inj h
          obtain rfl := Except.ok.inj (happly.symm.trans hfirst)
          exact ⟨_, o, after, hrest, others, ho⟩

/-- Operations that are performed in place one after the other leave the state of the batch. -/
theorem forM_perform (s : State) (operations : List Operation) :
    operations.forM Operation.perform s = match s.applyAll operations with
      | (t, none) => .ok () t
      | (t, some e) => .error e t := by
  induction operations generalizing s with
  | nil => rfl
  | cons o rest ih =>
    have hperform := o.perform_eq s
    show EStateM.bind o.perform (fun _ => rest.forM Operation.perform) s = _
    rw [EStateM.bind, hperform, applyAll]
    cases s.apply o with
    | error e => rfl
    | ok u => exact ih u

end State

namespace Session

/-- An action whose batch fails leaves the session with the document that the batch leaves. -/
theorem respond_of_batch_error {s : Session} {name : String} {action : Action}
    (haction : s.action? name = some action) {t : State} {e : StateError}
    (h : s.state.applyAll action.operations = (t, some e)) :
    s.respond name = ⟨.error (.state e), { s with state := t }, []⟩ := by
  have happly : s.apply action.operations = ⟨.error (.state e), { s with state := t }, []⟩ := by
    rw [apply, h]
    rfl
  rw [respond_eq, haction]
  dsimp only
  rw [play, happly]

/-- A batch succeeds exactly when each of its operations does on the state that those before it
leave, and then leaves the state of the last one.  Otherwise it has the error of the first operation
that fails, and leaves the state of those before it: performed in place, an operation that fails
leaves the state as it was.  An action whose batch fails leaves all else as it was, and shows
nothing. -/
theorem batch_stops_at_first_error :
    (∀ (s : State) (operations : List Operation),
      (∀ t, s.applyAll operations = (t, none) ↔ s.Passes operations t) ∧
      (∀ t e, s.applyAll operations = (t, some e) ↔
        ∃ before o after, operations = before ++ o :: after ∧ s.Passes before t ∧
          t.apply o = .error e) ∧
      operations.forM Operation.perform s = match s.applyAll operations with
        | (t, none) => .ok () t
        | (t, some e) => .error e t) ∧
    (∀ (s : State) (o : Operation),
      (∀ t, s.apply o = .ok t → o.perform s = .ok () t) ∧
      ∀ e, s.apply o = .error e → o.perform s = .error e s) ∧
    ∀ (s : Session) (name : String) (action : Action), s.action? name = some action →
      ∀ t e, s.state.applyAll action.operations = (t, some e) →
        s.respond name = ⟨.error (.state e), { s with state := t }, []⟩ := by
  refine ⟨fun s operations => ⟨fun t => State.applyAll_eq_ok_iff,
    fun t e => State.applyAll_eq_error_iff, s.forM_perform operations⟩,
    fun s o => ⟨fun t h => ?_, fun e h => ?_⟩,
    fun s name action haction t e h => respond_of_batch_error haction h⟩
  · rw [o.perform_eq, h]
    rfl
  · rw [o.perform_eq, h]
    rfl

/-- Three crates are counted, then the count is taken for a list, and a fifth crate never comes. -/
def loading : List Operation :=
  [⟨⟨["global", "crates"]⟩, .set, .number 1.0⟩, ⟨⟨["global", "crates"]⟩, .add, .number 2.0⟩,
    ⟨⟨["global", "crates"]⟩, .append, .text "last"⟩, ⟨⟨["global", "crates"]⟩, .set, .number 5.0⟩]

/-- On a pier where the crates are loaded by the action `Load`. -/
def onPier : Session :=
  { story := ⟨1, "", "", [],
      [{ event := "pier", storyline := "a", description := "Pier", repeatable := true
         onDisplay := [], triggers := Triggers.none, actions := [("Load", ⟨loading, none⟩)] }], []⟩
    state := ⟨[("global", .obj [])]⟩
    viewed := .empty
    current := some 0
    draws := .ofList [] }

/-- The pier once three crates are counted. -/
def pierLoaded : State :=
  ⟨[("global", .obj [("crates", .nat 3)])]⟩

/-- The third operation fails, in place too, and the pier stays on screen with three crates. -/
theorem batch_onPier :
    let error : StateError := .notAnArray (.assignment .append) "global.crates" (some .number)
    onPier.action? "Load" = some ⟨loading, none⟩ ∧
      onPier.state.applyAll loading = (pierLoaded, some error) ∧
      onPier.respond "Load" = ⟨.error (.state error), { onPier with state := pierLoaded }, []⟩ ∧
      (loading[2]).perform pierLoaded = .error error pierLoaded ∧
      ∃ before o after, loading = before ++ o :: after ∧ onPier.state.Passes before pierLoaded ∧
        pierLoaded.apply o = .error error := by
  intro error
  have haction : onPier.action? "Load" = some ⟨loading, none⟩ := by decide +kernel
  have hbatch : onPier.state.applyAll loading = (pierLoaded, some error) := by decide +kernel
  have hfails : pierLoaded.apply loading[2] = .error error := by decide +kernel
  obtain ⟨hbatches, hperform, hrespond⟩ := batch_stops_at_first_error
  exact ⟨haction, hbatch, hrespond onPier "Load" _ haction _ _ hbatch,
    (hperform pierLoaded loading[2]).2 error hfails,
    ((hbatches onPier.state loading).2.1 pierLoaded error).1 hbatch⟩

end Session

end Narrative
