/-!
# Sorted sets

A finite set is the increasing list of its elements, so two sets with the same elements are equal
and going through a set is going through it in order.
-/

namespace Narrative

/-- A finite set, kept as the increasing list of its elements. -/
structure SortedSet (α : Type) [Ord α] where
  elements : List α
  increasing : elements.Pairwise fun a b => compare a b = .lt

namespace SortedSet

variable {α : Type} [Ord α]

/-- Put `x` into its place in a list, unless it is there already. -/
def place (x : α) : List α → List α
  | [] => [x]
  | y :: rest =>
    match compare x y with
    | .lt => x :: y :: rest
    | .eq => y :: rest
    | .gt => y :: place x rest

/-- Whatever is above all of `xs` and above `x` is above all of `place x xs`. -/
theorem compare_lt_of_mem_place {a x : α} {xs : List α} (hx : compare a x = .lt)
    (hxs : ∀ y ∈ xs, compare a y = .lt) : ∀ y ∈ place x xs, compare a y = .lt := by
  induction xs with
  | nil => simpa [place] using hx
  | cons z rest ih =>
    intro y hy
    unfold place at hy
    split at hy
    · rcases List.mem_cons.1 hy with rfl | hy
      · exact hx
      · exact hxs y hy
    · exact hxs y hy
    · rcases List.mem_cons.1 hy with rfl | hy
      · exact hxs y (by simp)
      · exact ih (fun w hw => hxs w (by simp [hw])) y hy

theorem place_increasing [Std.TransOrd α] {x : α} {xs : List α}
    (h : xs.Pairwise fun a b => compare a b = .lt) :
    (place x xs).Pairwise fun a b => compare a b = .lt := by
  induction xs with
  | nil => simp [place]
  | cons y rest ih =>
    have hy := List.pairwise_cons.1 h
    unfold place
    split
    · rename_i hlt
      refine List.pairwise_cons.2 ⟨fun z hz => ?_, h⟩
      rcases List.mem_cons.1 hz with rfl | hz
      · exact hlt
      · exact Std.TransCmp.lt_trans hlt (hy.1 z hz)
    · exact h
    · rename_i hgt
      refine List.pairwise_cons.2 ⟨?_, ih hy.2⟩
      exact compare_lt_of_mem_place (Std.OrientedCmp.lt_of_gt hgt) hy.1

/-- The set without elements. -/
def empty : SortedSet α := ⟨[], .nil⟩

/-- The set with `x` added. -/
def insert [Std.TransOrd α] (x : α) (s : SortedSet α) : SortedSet α :=
  ⟨place x s.elements, place_increasing s.increasing⟩

/-- The set of the elements of a list. -/
def ofList [Std.TransOrd α] (xs : List α) : SortedSet α :=
  xs.foldl (fun s x => s.insert x) empty

/-- Whether `x` is in the set. -/
def contains (s : SortedSet α) (x : α) : Bool :=
  s.elements.any fun y => compare x y == .eq

/-- How many elements the set has. -/
def size (s : SortedSet α) : Nat :=
  s.elements.length

end SortedSet

end Narrative
