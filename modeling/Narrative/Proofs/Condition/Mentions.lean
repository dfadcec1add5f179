import Narrative.Proofs.Source.Spelled
import Narrative.Proofs.State.Apart

/-!
# What a condition depends on

A condition looks at a state through the accesses that it mentions, at any depth of its groups and of
the lists in its operands.  States that agree at those give it the same result, also when it fails,
and so does a state on which an operation was made whose target parts from all of them.
-/

namespace Narrative

/-- An access has the same value in two states, or is missing in both.  The empty access is an error
in every state. -/
def State.AgreeAt (s t : State) (a : Access) : Prop :=
  a.segments ≠ [] → s.get? a.segments = t.get? a.segments

variable {s t : State}

namespace State

mutual

theorem resolve_congr : (operand : Operand) → (∀ a, .access a ∈ operand.leaves → s.AgreeAt t a) →
    s.resolve operand = t.resolve operand
  | .access a, h => by
    by_cases hne : a.segments = []
    · rw [resolve, resolve, resolvePath, resolvePath, hne]
    · have hagree := h a (by simp [Operand.leaves])
      rw [resolve_access s hne, resolve_access t hne, hagree hne]
  | .null, _ | .bool _, _ | .number _, _ | .text _, _ => rfl
  | .list items, h => by
    rw [resolve, resolve, resolveItems_congr items h]

theorem resolveItems_congr : (items : List Operand) →
    (∀ a, .access a ∈ Operand.leavesOfItems items → s.AgreeAt t a) →
      s.resolveItems items = t.resolveItems items
  | [], _ => rfl
  | item :: rest, h => by
    have hitem := resolve_congr item fun a ha => h a (List.mem_append_left _ ha)
    have hrest := resolveItems_congr rest fun a ha => h a (List.mem_append_right _ ha)
    rw [resolveItems, resolveItems, hitem, hrest]

end

end State

namespace Condition

/-- An access stands in an operand of a condition, at any depth. -/
def Mentions (c : Condition) (a : Access) : Prop :=
  ∃ operand ∈ c.operands, .access a ∈ operand.leaves

mutual

theorem holds_congr_of_operands : (c : Condition) →
    (∀ operand ∈ c.operands, ∀ a, .access a ∈ operand.leaves → s.AgreeAt t a) →
      c.holds s = c.holds t
  | .atom left operator right, h => by
    have hleft := State.resolve_congr left (h left (by simp [operands]))
    have hright := State.resolve_congr right (h right (by simp [operands]))
    rw [holds, holds, hleft, hright]
  | .group connective members, h => by
    rw [holds, holds]
    exact groupHolds_congr_of_operands connective members h

theorem groupHolds_congr_of_operands (connective : Connective) : (members : List Condition) →
    (∀ operand ∈ operandsOfMembers members, ∀ a, .access a ∈ operand.leaves → s.AgreeAt t a) →
      groupHolds s connective members = groupHolds t connective members
  | [], _ => rfl
  | member :: rest, h => by
    have hmember := holds_congr_of_operands member fun operand hoperand =>
      h operand (List.mem_append_left _ hoperand)
    have hrest := groupHolds_congr_of_operands connective rest fun operand hoperand =>
      h operand (List.mem_append_right _ hoperand)
    rw [groupHolds, groupHolds, hmember, hrest]

end

variable {c : Condition}

theorem holds_congr (h : ∀ a, c.Mentions a → s.AgreeAt t a) : c.holds s = c.holds t :=
  holds_congr_of_operands c fun operand hoperand a ha => h a ⟨operand, hoperand, ha⟩

end Condition

namespace Operation

/-- The target of an operation parts at an object from every access that a condition mentions. -/
def Misses (o : Operation) (s : State) (c : Condition) : Prop :=
  ∀ a, c.Mentions a → s.root.PartsAtObject a.segments o.target.segments

/-- An operation does not change the result of a condition that it misses. -/
theorem Misses.holds_apply {o : Operation} {c : Condition} (h : o.Misses s c)
    (happly : s.apply o = .ok t) : c.holds t = c.holds s :=
  Condition.holds_congr fun a ha _ => State.get?_apply_of_parts happly (h a ha)

/-- Nor does a batch of that operation alone, whether it succeeds or not. -/
theorem Misses.holds_applyAll {o : Operation} {c : Condition} (h : o.Misses s c) :
    c.holds (s.applyAll [o]).1 = c.holds s := by
  rw [State.applyAll]
  cases happly : s.apply o with
  | error e => rfl
  | ok t => exact h.holds_apply happly

end Operation

end Narrative
