import Narrative.Proofs.Source.WellFormed

/-!
# What is inside an operand

Whatever stands inside an operand, at any depth of its lists, is read from a token of its own in the
same storyline.  So every access in it goes from a root through slugs and indices, as long as the
storyline is a slug, and every number in it is finite.
-/

namespace Narrative

/-- From a root through at least one more segment, each of which is a slug or a run of digits. -/
def Access.Spelled (a : Access) : Prop :=
  ∃ name rest, a.segments = name :: rest ∧ name ∈ State.rootNames ∧ rest ≠ [] ∧
    ∀ segment ∈ rest, isSlug segment = true ∨ isIndexText segment.toList = true

namespace Source

theorem spelled_of_access {storyline : Option String} {token : List Char} {path : Access}
    (hstoryline : ∀ name, storyline = some name → isSlug name = true)
    (h : access? storyline token = some (.ok path)) : path.Spelled := by
  obtain ⟨name, start, rest, hsegments, hname, hstart, hrest, heach⟩ := exists_of_access h
  have hne : start ++ rest ≠ [] := List.append_ne_nil_of_right_ne_nil start hrest
  refine ⟨name, start ++ rest, hsegments, hname, hne, ?_⟩
  intro segment hsegment
  rcases List.mem_append.1 hsegment with hsegment | hsegment
  · exact Or.inl (hstoryline segment (hstart segment hsegment))
  · exact heach segment hsegment

end Source

namespace Operand

mutual

/-- All that is inside an operand and is not a list itself. -/
def leaves : Operand → List Operand
  | list items => leavesOfItems items
  | operand => [operand]

/-- The leaves of all items. -/
def leavesOfItems : List Operand → List Operand
  | [] => []
  | item :: rest => leaves item ++ leavesOfItems rest

end

mutual

theorem Reads.leaves {storyline : Option String} {token : List Char} {operand : Operand} :
    Reads storyline token operand → ∀ leaf ∈ operand.leaves, leaf.WrittenIn storyline
  | .null word => List.forall_mem_singleton.2 ⟨token, .null word⟩
  | .bool word => List.forall_mem_singleton.2 ⟨token, .bool word⟩
  | .number numeral => List.forall_mem_singleton.2 ⟨token, .number numeral⟩
  | .text quote head string => List.forall_mem_singleton.2 ⟨token, .text quote head string⟩
  | .access segments => List.forall_mem_singleton.2 ⟨token, .access segments⟩
  | .empty _ => fun _ hleaf => absurd hleaf List.not_mem_nil
  | .list _ _ each => each.leaves

theorem ReadsEach.leaves {storyline : Option String} {texts : List (List Char)}
    {operands : List Operand} : ReadsEach storyline texts operands →
      ∀ leaf ∈ leavesOfItems operands, leaf.WrittenIn storyline
  | .nil => fun _ hleaf => absurd hleaf List.not_mem_nil
  | .cons _ first others => by
    intro leaf hleaf
    rcases List.mem_append.1 hleaf with hleaf | hleaf
    · exact first.leaves leaf hleaf
    · exact others.leaves leaf hleaf

end

variable {storyline : Option String} {operand : Operand}

theorem WrittenIn.leaves (h : operand.WrittenIn storyline) :
    ∀ leaf ∈ operand.leaves, leaf.WrittenIn storyline := by
  obtain ⟨token, hreads⟩ := h
  exact hreads.leaves

theorem WrittenIn.spelled (hstoryline : ∀ name, storyline = some name → isSlug name = true)
    {path : Access} (h : (access path).WrittenIn storyline) : path.Spelled := by
  obtain ⟨token, hreads⟩ := h
  cases hreads with
  | access segments => exact Source.spelled_of_access hstoryline segments

theorem WrittenIn.isFinite {x : Float} (h : (number x).WrittenIn storyline) : x.isFinite = true := by
  obtain ⟨token, hreads⟩ := h
  cases hreads with
  | number numeral => exact isFinite_of_numeral numeral

end Operand

end Narrative
