import Narrative.Proofs.State.Frame

/-!
# Paths that part at an object

Two paths part at an object when they go down together to an object of the document and then on under
different names.  What an operation does along one of them is not seen along the other.
-/

namespace Narrative

namespace Json

/-- Two paths go down together to an object and then on under different names. -/
def PartsAtObject (level : Json) (path other : List String) : Prop :=
  ∃ front name rest name' rest' entries, path = front ++ name :: rest ∧
    other = front ++ name' :: rest' ∧ name ≠ name' ∧ level.at? front = some (.obj entries)

variable {level : Json} {path other : List String}

theorem PartsAtObject.symm (h : level.PartsAtObject path other) :
    level.PartsAtObject other path := by
  obtain ⟨front, name, rest, name', rest', entries, hpath, hother, hne, hat⟩ := h
  exact ⟨front, name', rest', name, rest, entries, hother, hpath, Ne.symm hne, hat⟩

theorem PartsAtObject.course (h : level.PartsAtObject path other) :
    level.course path other = .apart := by
  obtain ⟨front, name, rest, name', rest', entries, rfl, rfl, hne, hat⟩ := h
  induction front generalizing level with
  | nil =>
    obtain rfl : level = .obj entries := Option.some.inj hat
    have hapart : ¬sameSegment (.obj entries) name name' = true := by simpa [sameSegment] using hne
    rw [List.nil_append, List.nil_append, Json.course, if_neg hapart]
  | cons segment front ih =>
    have hsame : level.sameSegment segment segment = true := by
      cases level <;> simp [sameSegment]
    rw [at?] at hat
    obtain ⟨below, hbelow, hat⟩ := Option.bind_eq_some_iff.1 hat
    rw [List.cons_append, List.cons_append, Json.course, if_pos hsame, hbelow, Option.getD_some]
    exact ih hat

end Json

namespace State

variable {s t : State} {o : Operation} {path : List String}

/-- An operation changes nothing along a path that parts from its target at an object. -/
theorem get?_apply_of_parts (h : s.apply o = .ok t)
    (hparts : s.root.PartsAtObject path o.target.segments) : t.get? path = s.get? path := by
  obtain ⟨value, hwrite⟩ := exists_write_of_apply h
  have hshows := shows_write hwrite path
  rw [hparts.course] at hshows
  exact hshows

end State

end Narrative
