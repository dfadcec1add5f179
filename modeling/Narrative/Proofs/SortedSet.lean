import Mathlib.Tactic.Common
import Narrative.SortedSet

/-!
# The elements of sorted sets

Inserting adds one element and keeps the others, so the set of a list has the elements of the list;
a list that is increasing already is the list of its set.
-/

namespace Narrative.SortedSet

variable {α : Type} [Ord α]

theorem eq_of_elements {s t : SortedSet α} (h : s.elements = t.elements) : s = t := by
  obtain ⟨elements, _⟩ := s
  obtain rfl : elements = t.elements := h
  rfl

/-- No element is listed twice. -/
theorem nodup [Std.ReflOrd α] (s : SortedSet α) : s.elements.Nodup := by
  refine s.increasing.imp ?_
  rintro a b hlt rfl
  have hself : compare a a = .eq := Std.ReflCmp.compare_self
  exact absurd (hself.symm.trans hlt) nofun

section Elements

variable [Std.LawfulEqOrd α]

theorem mem_place {x y : α} {xs : List α} : y ∈ place x xs ↔ y = x ∨ y ∈ xs := by
  induction xs with
  | nil => simp [place]
  | cons z rest ih =>
    unfold place
    split
    · simp
    · rename_i heq
      obtain rfl := Std.LawfulEqCmp.eq_of_compare heq
      simp
    · simp only [List.mem_cons, ih]
      tauto

theorem contains_iff_mem {s : SortedSet α} {x : α} : s.contains x = true ↔ x ∈ s.elements := by
  simp only [contains, List.any_eq_true, beq_iff_eq]
  constructor
  · rintro ⟨y, hy, heq⟩
    exact Std.LawfulEqCmp.eq_of_compare heq ▸ hy
  · exact fun hx => ⟨x, hx, Std.ReflCmp.compare_self⟩

variable [Std.TransOrd α]

theorem mem_insert {s : SortedSet α} {x y : α} :
    y ∈ (s.insert x).elements ↔ y = x ∨ y ∈ s.elements :=
  mem_place

theorem mem_ofList {xs : List α} {x : α} : x ∈ (ofList xs).elements ↔ x ∈ xs := by
  have key : ∀ s : SortedSet α,
      x ∈ (xs.foldl (fun s x => s.insert x) s).elements ↔ x ∈ s.elements ∨ x ∈ xs := by
    induction xs with
    | nil => simp
    | cons y rest ih =>
      intro s
      rw [List.foldl_cons, ih, mem_insert, List.mem_cons]
      tauto
  have h := key empty
  rwa [show (x ∈ (empty : SortedSet α).elements) ↔ False by simp [empty], false_or] at h

/-- Sets with the same elements are equal. -/
theorem eq_of_mem_iff {s t : SortedSet α} (h : ∀ x, x ∈ s.elements ↔ x ∈ t.elements) : s = t := by
  have hperm : s.elements.Perm t.elements := (List.perm_ext_iff_of_nodup s.nodup t.nodup).2 h
  refine eq_of_elements (hperm.eq_of_pairwise (fun a b _ _ hab hba => ?_) s.increasing t.increasing)
  rw [Std.OrientedCmp.gt_of_lt hab] at hba
  cases hba

theorem ofList_eq_of_perm {xs ys : List α} (h : xs.Perm ys) : ofList xs = ofList ys :=
  eq_of_mem_iff fun _ => by rw [mem_ofList, mem_ofList, h.mem_iff]

end Elements

section Order

variable [Std.TransOrd α]

/-- What is above all elements of a list is placed at its end. -/
theorem place_of_above {x : α} {xs : List α} (h : ∀ y ∈ xs, compare y x = .lt) :
    place x xs = xs ++ [x] := by
  induction xs with
  | nil => rfl
  | cons y rest ih =>
    have hgt : compare x y = .gt := Std.OrientedCmp.gt_of_lt (h y List.mem_cons_self)
    rw [place, hgt, List.cons_append]
    exact congrArg _ (ih fun z hz => h z (List.mem_cons_of_mem _ hz))

theorem elements_foldl_insert {xs : List α} (hxs : xs.Pairwise fun a b => compare a b = .lt)
    {s : SortedSet α} (hs : ∀ y ∈ s.elements, ∀ x ∈ xs, compare y x = .lt) :
    (xs.foldl (fun s x => s.insert x) s).elements = s.elements ++ xs := by
  induction xs generalizing s with
  | nil => exact (List.append_nil _).symm
  | cons x rest ih =>
    obtain ⟨hx, hrest⟩ := List.pairwise_cons.1 hxs
    have hplace : (s.insert x).elements = s.elements ++ [x] :=
      place_of_above fun y hy => hs y hy x List.mem_cons_self
    rw [List.foldl_cons, ih hrest, hplace, List.append_assoc]
    · rfl
    · intro y hy z hz
      rw [hplace] at hy
      rcases List.mem_append.1 hy with hy | hy
      · exact hs y hy z (List.mem_cons_of_mem _ hz)
      · rw [List.mem_singleton.1 hy]
        exact hx z hz

/-- A set is the set of its elements. -/
theorem ofList_elements (s : SortedSet α) : ofList s.elements = s := by
  have helements : (ofList s.elements).elements = s.elements :=
    elements_foldl_insert s.increasing fun y hy => absurd hy List.not_mem_nil
  exact eq_of_elements helements

end Order

end Narrative.SortedSet
