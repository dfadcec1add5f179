import Narrative.Condition.Coding
import Narrative.Proofs.Source.Written

/-!
# What statements are written as

Every operand, operation and condition that is written in the source of a story has a proper
document: the readers of operands only let finite numerals through.
-/

namespace Narrative

open Json

/-- A record of fields with different names is proper when its values are. -/
theorem Access.proper (a : Access) : a.toJson.Proper := by
  refine .obj (by simp [Entries.names]) ?_
  have hdata : Proper (.arr (a.segments.map .str)) := .arr fun item hitem => by
    obtain ⟨s, -, rfl⟩ := List.mem_map.1 hitem
    exact .str s
  simp only [List.forall_mem_cons, List.not_mem_nil, false_imp_iff, implies_true, and_true]
  exact ⟨.str _, hdata⟩

/-! ### Operands -/

namespace Operand

open Source

theorem proper_list {items : List Operand} (h : ∀ item ∈ items, item.toJson.Proper) :
    (list items).toJson.Proper := by
  rw [toJson]
  refine .arr fun document hdocument => ?_
  induction items with
  | nil => exact absurd hdocument List.not_mem_nil
  | cons item rest ih =>
    rw [itemsToJson] at hdocument
    rcases List.mem_cons.1 hdocument with rfl | hdocument
    · exact h item List.mem_cons_self
    · exact ih (fun other hother => h other (List.mem_cons_of_mem _ hother)) hdocument

theorem isFinite_of_numeral {token : List Char} {x : Float} (h : numeral? token = some x) :
    x.isFinite = true := by
  rw [numeral?] at h
  split at h
  · split at h
    · split at h
      · rename_i hfinite
        exact Option.some.inj h ▸ hfinite
      · exact absurd h (by simp)
    · exact absurd h (by simp)
  · exact absurd h (by simp)

mutual

theorem Reads.proper {storyline : Option String} {token : List Char} {operand : Operand} :
    Reads storyline token operand → operand.toJson.Proper
  | .null _ => .null
  | .bool _ => .bool _
  | .number numeral => .float (isFinite_of_numeral numeral)
  | .text _ _ _ => .str _
  | .empty _ => proper_list fun _ hitem => absurd hitem List.not_mem_nil
  | .list _ _ each => proper_list each.proper
  | .access _ => Access.proper _

theorem ReadsEach.proper {storyline : Option String} {texts : List (List Char)}
    {operands : List Operand} :
    ReadsEach storyline texts operands → ∀ operand ∈ operands, operand.toJson.Proper
  | .nil => fun _ hitem => absurd hitem List.not_mem_nil
  | .cons _ first others => List.forall_mem_cons.2 ⟨first.proper, others.proper⟩

end

theorem Written.proper {operand : Operand} (h : operand.Written) : operand.toJson.Proper := by
  obtain ⟨storyline, token, hreads⟩ := h
  exact hreads.proper

end Operand

/-! ### Statements -/

theorem Operation.Written.proper {o : Operation} (h : o.Written) : o.toJson.Proper := by
  refine .obj (by simp [Entries.names]) ?_
  simp only [List.forall_mem_cons, List.not_mem_nil, false_imp_iff, implies_true, and_true]
  exact ⟨Access.proper _, .str _, h.operands.2.proper⟩

namespace Condition

mutual

/-- A condition that compares proper operands is proper. -/
theorem proper_of_operands : (c : Condition) → (∀ operand ∈ c.operands, operand.toJson.Proper) →
    c.toJson.Proper
  | .atom left operator right, h => by
    have hleft : left.toJson.Proper := h left (by simp [operands])
    have hright : right.toJson.Proper := h right (by simp [operands])
    rw [toJson]
    refine .obj (by simp [Entries.names]) ?_
    simp only [List.forall_mem_cons, List.not_mem_nil, false_imp_iff, implies_true, and_true]
    exact ⟨.str _, hleft, .str _, hright⟩
  | .group connective members, h => by
    have hmembers := proper_of_operandsOfMembers members h
    rw [toJson, membersToJson_eq_map]
    refine .obj (by simp [Entries.names]) ?_
    simp only [List.forall_mem_cons, List.not_mem_nil, false_imp_iff, implies_true, and_true]
    exact ⟨.str _, .str _, .arr (List.forall_mem_map.2 hmembers)⟩

theorem proper_of_operandsOfMembers : (members : List Condition) →
    (∀ operand ∈ operandsOfMembers members, operand.toJson.Proper) →
    ∀ member ∈ members, member.toJson.Proper
  | [], _ => fun _ hmember => absurd hmember List.not_mem_nil
  | member :: rest, h => by
    obtain ⟨hfirst, hothers⟩ := List.forall_mem_append.1 h
    exact List.forall_mem_cons.2
      ⟨proper_of_operands member hfirst, proper_of_operandsOfMembers rest hothers⟩

end

theorem Written.proper {c : Condition} (h : c.Written) : c.toJson.Proper :=
  proper_of_operands c fun operand hoperand => (h.operands operand hoperand).proper

end Condition

end Narrative
