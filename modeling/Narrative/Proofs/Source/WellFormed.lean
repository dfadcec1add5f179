import Narrative.Proofs.Source.Proper
import Narrative.Proofs.State.WellFormed

/-!
# What statements are well formed

The readers of statements only let accesses through that go below a root, at any depth of an array,
and only finite numbers; so every operation and every condition that is read is well formed.
-/

namespace Narrative

open Json

/-! ### Accesses -/

namespace Source

/-- The first segments of an access are a root, or a root and the storyline. -/
theorem exists_of_firstSegments {storyline : Option String} {token first : String}
    {segments : List String} (h : firstSegments storyline token first = .ok segments) :
    ∃ name rest, segments = name :: rest ∧ name ∈ State.rootNames ∧
      ∀ segment ∈ rest, storyline = some segment := by
  have hroot : ∀ name, name ∈ State.rootNames → segments = [name] →
      ∃ name rest, segments = name :: rest ∧ name ∈ State.rootNames ∧
        ∀ segment ∈ rest, storyline = some segment := by
    rintro name hname rfl
    exact ⟨name, [], rfl, hname, fun _ hsegment => absurd hsegment List.not_mem_nil⟩
  unfold firstSegments at h
  split at h
  · exact hroot _ (by decide) (Except.ok.inj h).symm
  split at h
  · exact hroot _ (by decide) (Except.ok.inj h).symm
  split at h
  · exact hroot _ (by decide) (Except.ok.inj h).symm
  split at h
  · split at h
    · exact ⟨_, _, (Except.ok.inj h).symm, by decide, List.forall_mem_singleton.2 rfl⟩
    · exact absurd h nofun
  · exact absurd h nofun

/-- An access goes from a root, perhaps through the storyline, through at least one segment that is
written out as a slug or an index. -/
theorem exists_of_access {storyline : Option String} {token : List Char} {path : Access}
    (h : access? storyline token = some (.ok path)) :
    ∃ name start rest, path.segments = name :: (start ++ rest) ∧ name ∈ State.rootNames ∧
      (∀ segment ∈ start, storyline = some segment) ∧ rest ≠ [] ∧
      ∀ segment ∈ rest, isSlug segment = true ∨ isIndexText segment.toList = true := by
  unfold access? at h
  split at h
  · rename_i first rest _
    split at h
    · exact absurd h nofun
    · rename_i hshape
      obtain ⟨segments, hsegments, rfl⟩ := Except.exists_of_map (Option.some.inj h)
      obtain ⟨name, start, rfl, hname, hstart⟩ := exists_of_firstSegments hsegments
      simp only [Bool.or_eq_true, Bool.not_eq_true', not_or, List.isEmpty_iff, Bool.not_eq_false,
        List.all_eq_true] at hshape
      obtain ⟨⟨hrest, -⟩, heach⟩ := hshape
      refine ⟨name, start, rest.map String.ofList, rfl, hname, hstart, ?_, ?_⟩
      · exact fun hnil => hrest (List.map_eq_nil_iff.1 hnil)
      · intro segment hsegment
        obtain ⟨text, htext, rfl⟩ := List.mem_map.1 hsegment
        rw [isSlug, String.toList_ofList]
        exact heach text htext
  · exact absurd h nofun

/-- At least one segment follows the first one. -/
theorem rooted_of_access {storyline : Option String} {token : List Char} {path : Access}
    (h : access? storyline token = some (.ok path)) : path.Rooted := by
  obtain ⟨name, start, rest, hsegments, hname, -, hrest, -⟩ := exists_of_access h
  obtain ⟨key, others, hothers⟩ :=
    List.exists_cons_of_ne_nil (List.append_ne_nil_of_right_ne_nil start hrest)
  exact ⟨name, key, others, hsegments.trans (congrArg _ hothers), hname⟩

end Source

/-! ### Operands -/

namespace Operand

mutual

theorem Reads.wellFormed {storyline : Option String} {token : List Char} {operand : Operand} :
    Reads storyline token operand → operand.WellFormed
  | .null _ | .bool _ | .text _ _ _ | .empty _ => trivial
  | .number numeral => isFinite_of_numeral numeral
  | .list _ _ each => each.wellFormed
  | .access segments => Source.rooted_of_access segments

theorem ReadsEach.wellFormed {storyline : Option String} {texts : List (List Char)}
    {operands : List Operand} : ReadsEach storyline texts operands → WellFormedItems operands
  | .nil => trivial
  | .cons _ first others => ⟨first.wellFormed, others.wellFormed⟩

end

theorem Written.wellFormed {operand : Operand} (h : operand.Written) : operand.WellFormed := by
  obtain ⟨storyline, token, hreads⟩ := h
  exact hreads.wellFormed

end Operand

/-! ### Statements -/

theorem Operation.Written.wellFormed {o : Operation} (h : o.Written) : o.WellFormed :=
  ⟨h.operands.1.wellFormed, h.operands.2.wellFormed⟩

theorem Condition.Written.wellFormed {c : Condition} (h : c.Written) : c.WellFormed :=
  fun operand hoperand => (h.operands operand hoperand).wellFormed

end Narrative
