import Mathlib.Tactic.Common
import Narrative.Operation.Apply
import Narrative.Proofs.State.Frame

/-!
# What an operation writes

An operation is one write at its target.  The value that it writes, or the error that it fails with
before it writes anything, is read off the state: off its target, the level above the target and its
operand, and nothing else.
-/

namespace Narrative

namespace Operation

/-- The list at the target with its items changed. -/
def relist (o : Operation) (change : List Json → List Json) : Option Json → Except StateError Json
  | some (.arr items) => .ok (.arr (change items))
  | other => .error (.notAnArray (.assignment o.operator) o.target.dotted (other.map Json.kind))

/-- The result of arithmetic as a value. -/
def combined (o : Operation) (left right : Json) : Except StateError Json :=
  match o.operator.combine left right with
  | none => .error (.incompatibleOperands o.operator o.target left.kind right.kind)
  | some (.text t) => .ok (.str t)
  | some (.number x) =>
    match Number.ofFloat? x with
    | some n => .ok (.num n)
    | none => .error (.nonFiniteResult o.operator o.target)

/-- The value that an operation makes of the one at its target, if there is one, and its operand. -/
def changed (o : Operation) (old : Option Json) (right : Json) : Except StateError Json :=
  match o.operator with
  | .set => .ok right
  | .append => o.relist (fun items => items ++ [right]) old
  | .remove => o.relist (fun items => items.filter fun item => !item.same right) old
  | _ => o.combined (old.getD .null) right

/-- The value that an operation writes at its target. -/
def result (o : Operation) (s : State) : Except StateError Json :=
  if o.target.segments = [] then .error .emptyAccess
  else if (s.get? o.target.segments.dropLast).isNone then .error (.missingPath o.target)
  else if (s.get? o.target.segments).isNone && o.operator.isCompound then
    .error (.compoundOnUndefined o.operator o.target)
  else
    match s.resolve o.operand with
    | .error e => .error e
    | .ok none => .error (.undefinedOperand o.operator o.target)
    | .ok (some right) => o.changed (s.get? o.target.segments) right

variable {s t : State} {o : Operation}

/-- It only matters what an operation looks at. -/
theorem result_congr
    (habove : (t.get? o.target.segments.dropLast).isNone =
      (s.get? o.target.segments.dropLast).isNone)
    (htarget : t.get? o.target.segments = s.get? o.target.segments)
    (hoperand : t.resolve o.operand = s.resolve o.operand) : o.result t = o.result s := by
  rw [result, result, habove, htarget, hoperand]

/-- Where there is a value at its target, all that is left to an operation is its operand. -/
theorem result_of_get? {old right : Json} (hne : o.target.segments ≠ [])
    (hold : s.get? o.target.segments = some old) (hright : s.resolve o.operand = .ok (some right)) :
    o.result s = o.changed (some old) right := by
  have habove : s.get? o.target.segments.dropLast ≠ none := by
    intro hnone
    have hlost := Json.at?_eq_none_of_start (List.dropLast_prefix o.target.segments) hnone
    cases hlost.symm.trans hold
  rw [result, if_neg hne, if_neg (by simpa using habove), hold, hright]
  rfl

end Operation

namespace State

open Json

variable {s t : State} {o : Operation}

/-- Changing the list in the slot of the target is writing the changed list. -/
theorem write_relist (s : State) (o : Operation) (hne : o.target.segments ≠ [])
    (change : List Json → List Json) :
    (o.relist change (s.get? o.target.segments)).bind (s.write o.target) =
      match s.slot? o.target with
      | some ⟨.arr items, fill⟩ => ofJson (fill (.arr (change items)))
      | other =>
        .error (.notAnArray (.assignment o.operator) o.target.dotted
          (other.map fun slot => slot.value.kind)) := by
  have hvalue : (s.slot? o.target).map Slot.value = s.get? o.target.segments :=
    value_slot? s.root o.target.segments
  rw [← hvalue]
  cases hslot : s.slot? o.target with
  | none => rfl
  | some slot =>
    obtain ⟨value, fill⟩ := slot
    cases value with
    | arr items => exact (ofJson_fill hslot hne _).symm
    | _ => rfl

theorem write_combined (s : State) (o : Operation) (left right : Json) :
    (o.combined left right).bind (s.write o.target) =
      match o.operator.combine left right with
      | none => .error (.incompatibleOperands o.operator o.target left.kind right.kind)
      | some (.text t) => s.write o.target (.str t)
      | some (.number x) =>
        match Number.ofFloat? x with
        | some n => s.write o.target (.num n)
        | none => .error (.nonFiniteResult o.operator o.target) := by
  rw [Operation.combined]
  rcases o.operator.combine left right with _ | x | t
  · rfl
  · dsimp only
    cases Number.ofFloat? x <;> rfl
  · rfl

/-- An operation writes its result at its target, and fails where it has none. -/
theorem apply_eq_bind (s : State) (o : Operation) :
    s.apply o = (o.result s).bind (s.write o.target) := by
  by_cases hne : o.target.segments = []
  · rw [apply, Operation.result, if_pos hne, resolvePath, hne]
    rfl
  obtain ⟨before, key, htarget⟩ := Access.exists_concat hne
  have hsegments : o.target.segments = before ++ [key] := by rw [htarget]
  obtain ⟨place, front, hstop, -, hstrict⟩ := s.resolvePath_concat before key
  rw [← htarget] at hstrict
  rw [← hsegments] at hstop
  have hvalue : place.value? = s.get? o.target.segments := hstop.value?_eq
  have hmissing : place.missing = (s.get? o.target.segments).isNone := by
    rw [Bool.eq_iff_iff, Option.isNone_iff_eq_none]
    exact hstop.missing_iff
  rw [apply, hstrict, Operation.result, if_neg hne, hsegments, List.dropLast_concat, ← hsegments]
  by_cases hbefore : s.get? before = none
  · rw [if_pos hbefore, hbefore]
    rfl
  rw [if_neg hbefore, if_neg (by simpa using hbefore), ← hmissing]
  dsimp only
  split
  · rfl
  rcases s.resolve o.operand with e | _ | right
  · rfl
  · rfl
  dsimp only
  rw [Operation.changed, hvalue]
  cases hoperator : o.operator with
  | set => rfl
  | append =>
    have hlist := s.write_relist o hne fun items => items ++ [right]
    rw [hoperator] at hlist
    exact hlist.symm
  | remove =>
    have hlist := s.write_relist o hne fun items => items.filter fun item => !item.same right
    rw [hoperator] at hlist
    exact hlist.symm
  | _ =>
    have hcombined := s.write_combined o ((s.get? o.target.segments).getD .null) right
    rw [hoperator] at hcombined
    exact hcombined.symm

theorem apply_eq_ok_iff :
    s.apply o = .ok t ↔ ∃ value, o.result s = .ok value ∧ s.write o.target value = .ok t := by
  rw [apply_eq_bind]
  constructor
  · exact Except.exists_of_bind
  · rintro ⟨value, hvalue, hwrite⟩
    rw [hvalue]
    exact hwrite

end State

end Narrative
