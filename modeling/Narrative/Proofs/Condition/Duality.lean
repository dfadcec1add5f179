import Mathlib.Tactic.Common
import Narrative.Condition.Holds

/-!
# Duality of conditions

Without comparisons of order, a condition has a dual: `AND` and `OR`, `==` and `!=`, `IN` and `NOT IN`
change places.  Both are tested in the same order and up to the same member, so the dual holds where
the condition does not, and fails where it fails.  Orders have no dual: between values of different
kinds neither `<` nor `>=` holds.  A group inside a group with the same connective is tested like its
members in its place.
-/

namespace Narrative

/-! ### Duals -/

namespace Comparison

/-- Whether a comparison is about the order of its sides. -/
def isOrder : Comparison → Bool
  | greater | less | greaterEqual | lessEqual => true
  | _ => false

/-- The comparison that holds where another one does not, unless it is about order. -/
def dual : Comparison → Comparison
  | equal => unequal
  | unequal => equal
  | member => notMember
  | notMember => member
  | order => order

end Comparison

/-- The connective that takes the other one's place. -/
def Connective.dual : Connective → Connective
  | and => or
  | or => and

namespace StateError

/-- The same error of the dual comparison. -/
def dual : StateError → StateError
  | notAnArray (.comparison c) place found => notAnArray (.comparison c.dual) place found
  | e => e

end StateError

namespace Condition

mutual

/-- Whether no comparison in a condition is about order. -/
def orderless : Condition → Bool
  | atom _ operator _ => !operator.isOrder
  | group _ members => orderlessMembers members

/-- Whether no member compares by order. -/
def orderlessMembers : List Condition → Bool
  | [] => true
  | member :: rest => orderless member && orderlessMembers rest

end

mutual

/-- The condition with all its operators and connectives replaced by their duals. -/
def dual : Condition → Condition
  | atom left operator right => atom left operator.dual right
  | group connective members => group connective.dual (dualMembers members)

/-- The duals of all members. -/
def dualMembers : List Condition → List Condition
  | [] => []
  | member :: rest => dual member :: dualMembers rest

end

/-- What the dual of a condition gives, from what the condition gives. -/
def dualResult : Except StateError Bool → Except StateError Bool
  | .ok passed => .ok (!passed)
  | .error e => .error e.dual

variable {s : State}

/-! ### The dual of a test -/

theorem test_dual {c : Comparison} (h : c.isOrder = false) (left right : Option Json)
    (shown : String) : c.dual.test left right shown = dualResult (c.test left right shown) := by
  cases c with
  | equal => rfl
  | unequal => simp [Comparison.dual, Comparison.test, dualResult]
  | member | notMember =>
    have hother : (Comparison.notMember == Comparison.member) = false := rfl
    cases right with
    | none => rfl
    | some found =>
      cases found with
      | arr items => simp [Comparison.dual, Comparison.test, dualResult, hother]
      | _ => rfl
  | _ => cases h

mutual

/-- An operand has a value, or none, unless an access in it is empty. -/
theorem eq_emptyAccess_of_resolve : (operand : Operand) → ∀ {e : StateError},
    s.resolve operand = .error e → e = .emptyAccess
  | .access ⟨[]⟩, e, h => (Except.error.inj h).symm
  | .access ⟨key :: rest⟩, e, h => by
    rw [State.resolve, State.resolvePath] at h
    cases h
  | .null, e, h | .bool _, e, h | .number _, e, h | .text _, e, h => by
    rw [State.resolve] at h
    cases h
  | .list items, e, h => by
    rw [State.resolve] at h
    cases hitems : s.resolveItems items with
    | error cause =>
      rw [hitems] at h
      obtain rfl := Except.error.inj h
      exact eq_emptyAccess_of_resolveItems items hitems
    | ok values =>
      rw [hitems] at h
      cases h

theorem eq_emptyAccess_of_resolveItems : (items : List Operand) → ∀ {e : StateError},
    s.resolveItems items = .error e → e = .emptyAccess
  | [], e, h => by
    rw [State.resolveItems] at h
    cases h
  | item :: rest, e, h => by
    rw [State.resolveItems] at h
    cases hitem : s.resolve item with
    | error cause =>
      rw [hitem] at h
      obtain rfl := Except.error.inj h
      exact eq_emptyAccess_of_resolve item hitem
    | ok value =>
      rw [hitem] at h
      cases hrest : s.resolveItems rest with
      | error cause =>
        rw [hrest] at h
        obtain rfl := Except.error.inj h
        exact eq_emptyAccess_of_resolveItems rest hrest
      | ok values =>
        rw [hrest] at h
        cases h

end

/-! ### Groups -/

/-- How a group goes on behind a member: with the others, unless that member decides. -/
def proceed (connective : Connective) (others : Except StateError Bool) (passed : Bool) :
    Except StateError Bool :=
  if passed = (connective == .and) then others else .ok passed

theorem groupHolds_cons (s : State) (connective : Connective) (member : Condition)
    (rest : List Condition) :
    groupHolds s connective (member :: rest) =
      (member.holds s).bind (proceed connective (groupHolds s connective rest)) := by
  rw [groupHolds]
  cases member.holds s with
  | error e => rfl
  | ok passed => cases connective <;> cases passed <;> rfl

theorem groupHolds_append (s : State) (connective : Connective) (front back : List Condition) :
    groupHolds s connective (front ++ back) =
      (groupHolds s connective front).bind (proceed connective (groupHolds s connective back)) := by
  induction front with
  | nil => simp [groupHolds, proceed, Except.bind]
  | cons member rest ih =>
    rw [List.cons_append, groupHolds_cons, groupHolds_cons, ih]
    cases member.holds s with
    | error e => rfl
    | ok passed =>
      by_cases hpassed : passed = (connective == .and)
      · simp [Except.bind, proceed, hpassed]
      · simp [Except.bind, proceed, hpassed]

/-- The members of an inner group may stand in its place. -/
theorem groupHolds_splice (s : State) (connective : Connective)
    (before members after : List Condition) :
    groupHolds s connective (before ++ group connective members :: after) =
      groupHolds s connective (before ++ members ++ after) := by
  have hinner : groupHolds s connective (group connective members :: after) =
      groupHolds s connective (members ++ after) := by
    rw [groupHolds_cons, groupHolds_append, holds]
  rw [groupHolds_append, hinner, List.append_assoc, ← groupHolds_append]

/-- A group whose members give the dual results gives the dual result. -/
theorem proceed_dual (connective : Connective) (others result : Except StateError Bool) :
    (dualResult result).bind (proceed connective.dual (dualResult others)) =
      dualResult (result.bind (proceed connective others)) := by
  cases result with
  | error e => rfl
  | ok passed => cases connective <;> cases passed <;> rfl

/-! ### The dual of a condition -/

mutual

theorem holds_dual (s : State) : (c : Condition) → c.orderless = true →
    c.dual.holds s = dualResult (c.holds s)
  | .atom left operator right, h => by
    rw [orderless, Bool.not_eq_true'] at h
    rw [dual, holds, holds]
    cases hleft : s.resolve left with
    | error e =>
      obtain rfl := eq_emptyAccess_of_resolve left hleft
      rfl
    | ok l =>
      cases hright : s.resolve right with
      | error e =>
        obtain rfl := eq_emptyAccess_of_resolve right hright
        rfl
      | ok r => exact test_dual h l r right.shown
  | .group connective members, h => by
    rw [orderless] at h
    rw [dual, holds, holds]
    exact groupHolds_dual s connective members h

theorem groupHolds_dual (s : State) (connective : Connective) : (members : List Condition) →
    orderlessMembers members = true →
      groupHolds s connective.dual (dualMembers members) =
        dualResult (groupHolds s connective members)
  | [], _ => by cases connective <;> rfl
  | member :: rest, h => by
    rw [orderlessMembers, Bool.and_eq_true] at h
    rw [dualMembers, groupHolds_cons, groupHolds_cons, holds_dual s member h.1,
      groupHolds_dual s connective rest h.2, proceed_dual]

end

/-- Duality.  The dual of a condition without comparisons of order holds where the condition does not,
and fails with the same error, up to the comparison it names, where the condition fails.  An inner
group with the connective of the outer one is tested like its members in its place. -/
theorem holds_duality (s : State) :
    (∀ c : Condition, c.orderless = true →
      (∀ passed, c.holds s = .ok passed → c.dual.holds s = .ok (!passed)) ∧
      ∀ e, c.holds s = .error e → c.dual.holds s = .error e.dual) ∧
    ∀ (connective : Connective) (before members after : List Condition),
      (group connective (before ++ group connective members :: after)).holds s =
        (group connective (before ++ members ++ after)).holds s := by
  refine ⟨fun c h => ?_, fun connective before members after => ?_⟩
  · have hdual := holds_dual s c h
    refine ⟨fun passed hholds => ?_, fun e hholds => ?_⟩
    · rw [hdual, hholds]
      rfl
    · rw [hdual, hholds]
      rfl
  · rw [holds, holds, groupHolds_splice]

/-- Ana is not in the crew, or all of nothing holds, or the crew is null. -/
def crewless : Condition :=
  .group .or [.atom (.text "ana") .notMember (.access ⟨["global", "crew"]⟩), .group .and [],
    .atom (.access ⟨["global", "crew"]⟩) .equal .null]

/-- With Ana in the crew the empty group decides, so the dual does not hold; without a crew both fail,
each with its own operator. -/
theorem holds_duality_crewless :
    let onBoard : State := ⟨[("global", .obj [("crew", .arr [.str "ana"])])]⟩
    crewless.orderless = true ∧
      (crewless.holds onBoard = .ok true ∧ crewless.dual.holds onBoard = .ok false) ∧
      (crewless.holds ⟨[]⟩ = .error (.notAnArray (.comparison .notMember) "global.crew" none) ∧
        crewless.dual.holds ⟨[]⟩ = .error (.notAnArray (.comparison .member) "global.crew" none)) := by
  intro onBoard
  have horderless : crewless.orderless = true := by decide
  have hholds : crewless.holds onBoard = .ok true := by decide +kernel
  have hfails : crewless.holds ⟨[]⟩ =
      .error (.notAnArray (.comparison .notMember) "global.crew" none) := by
    decide +kernel
  exact ⟨horderless, ⟨hholds, ((holds_duality onBoard).1 crewless horderless).1 true hholds⟩, hfails,
    ((holds_duality ⟨[]⟩).1 crewless horderless).2 _ hfails⟩

end Condition

end Narrative
