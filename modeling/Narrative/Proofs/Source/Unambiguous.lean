import Mathlib.Tactic.Common
import Narrative.Source.Statement
import Narrative.Proofs.Source.Balance

/-!
# Statements are read in one way

A statement is split at an operator with one space on each side.  The search for the operator looks
neither at quotes nor at brackets; still, at most one of all splits has two sides that are read as
operands, and a statement that is read is read at that split.
-/

namespace Narrative

theorem Operator.mem_all (operator : Operator) : operator ∈ Operator.all := by
  cases operator with
  | comparison c => cases c <;> decide
  | assignment a => cases a <;> decide

namespace Source

/-! ### Delimited tokens -/

/-- A delimited token starts with one space. -/
theorem exists_delimited (operator : Operator) :
    ∃ c rest, delimited operator = ' ' :: c :: rest ∧ Text.isBlank c = false := by
  have htokens : ∀ o ∈ Operator.all,
      o.token.toList.head?.any (fun c => !Text.isBlank c) = true := by decide
  have htoken := htokens operator (Operator.mem_all operator)
  obtain ⟨c, hc, hblank⟩ := (Option.any_eq_true _ _).1 htoken
  obtain ⟨rest, htoken⟩ := List.head?_eq_some_iff.1 hc
  refine ⟨c, rest ++ [' '], ?_, by simpa using hblank⟩
  rw [delimited, padded, htoken]
  rfl

theorem eq_of_prefix_delimited {operator other : Operator}
    (h : delimited operator <+: delimited other) : operator = other := by
  have htokens : ∀ o ∈ Operator.all, ∀ p ∈ Operator.all, delimited o <+: delimited p → o = p := by
    decide +kernel
  exact htokens operator (Operator.mem_all operator) other (Operator.mem_all other) h

/-- Of the delimited tokens only that of `IN` stands in another one, in that of `NOT IN`. -/
theorem eq_of_infix_delimited {operator other : Operator} {front back : List Char}
    (h : delimited operator = front ++ delimited other ++ back) :
    other = operator ∨ operator = .comparison .notMember ∧ other = .comparison .member ∧
      front = " NOT".toList := by
  have htokens : ∀ o ∈ Operator.all, ∀ n ∈ List.range 14, ∀ p ∈ Operator.all,
      delimited p <+: (delimited o).drop n → p = o ∨ o = .comparison .notMember ∧
        p = .comparison .member ∧ (delimited o).take n = " NOT".toList := by
    decide +kernel
  have hlength : ∀ o ∈ Operator.all, (delimited o).length < 14 := by decide +kernel
  have hshort := hlength operator (Operator.mem_all operator)
  rw [h, List.append_assoc, List.length_append] at hshort
  have hprefix : delimited other <+: (delimited operator).drop front.length :=
    ⟨back, by rw [h, List.append_assoc, List.drop_left]⟩
  have hcases := htokens operator (Operator.mem_all operator) front.length
    (List.mem_range.2 (by omega)) other (Operator.mem_all other) hprefix
  rwa [h, List.append_assoc, List.take_left] at hcases

theorem length_delimited (operator : Operator) :
    (delimited operator).length = operator.token.length + 2 := by
  rw [delimited, padded, List.length_cons, List.length_append, String.length_toList]
  rfl

/-! ### Splits -/

/-- The texts before and behind a place of an operator, with one space on each side. -/
def Splits (code : List Char) (operator : Operator) (before after : List Char) : Prop :=
  padded code = before ++ delimited operator ++ after

/-- The split at the first place of an operator. -/
def SplitsFirst (code : List Char) (operator : Operator) (before after : List Char) : Prop :=
  Splits code operator before after ∧
    ∀ other behind, Splits code operator other behind → before.length ≤ other.length

theorem splitAt_eq_some_iff {code : List Char} {operator : Operator} {before after : List Char} :
    splitAt operator (padded code) = some (before, after) ↔
      SplitsFirst code operator before after := by
  constructor
  · intro h
    refine ⟨Text.eq_of_cut h, fun other behind hother => ?_⟩
    obtain ⟨first, rest, hcut, hle⟩ := @Text.exists_cut (delimited operator) other behind
    rw [← hother, show Text.cut _ _ = _ from h] at hcut
    obtain ⟨rfl, rfl⟩ := Prod.mk.inj (Option.some.inj hcut)
    exact hle
  · rintro ⟨hsplits, hfirst⟩
    obtain ⟨first, rest, hcut, hle⟩ := @Text.exists_cut (delimited operator) before after
    rw [← hsplits] at hcut
    have hcuts := Text.eq_of_cut hcut
    have hlength : first.length = before.length := Nat.le_antisymm hle (hfirst first rest hcuts)
    have hparts := hcuts.symm.trans hsplits
    rw [List.append_assoc, List.append_assoc] at hparts
    obtain ⟨rfl, hbehind⟩ := List.append_inj hparts hlength
    rw [splitAt, hcut, List.append_cancel_left hbehind]

theorem splitAt_eq_none_iff {code : List Char} {operator : Operator} :
    splitAt operator (padded code) = none ↔
      ∀ before after, ¬ Splits code operator before after := by
  constructor
  · intro h before after hsplits
    obtain ⟨first, rest, hcut, -⟩ := @Text.exists_cut (delimited operator) before after
    rw [← hsplits, show Text.cut _ _ = none from h] at hcut
    exact absurd hcut (by simp)
  · intro h
    cases hsplit : splitAt operator (padded code) with
    | none => rfl
    | some parts => exact absurd (splitAt_eq_some_iff.1 hsplit).1 (h parts.1 parts.2)

/-- Of two splits the later one starts with the text before the other one. -/
theorem Splits.exists_append {code : List Char} {operator other : Operator}
    {before after front back : List Char} (h : Splits code operator before after)
    (hother : Splits code other front back) (hfirst : before.length ≤ front.length) :
    ∃ left, front = before ++ left ∧
      delimited operator ++ after = left ++ (delimited other ++ back) := by
  have hparts := h.symm.trans hother
  rw [List.append_assoc, List.append_assoc] at hparts
  obtain ⟨left, rfl⟩ := List.prefix_of_prefix_length_le ⟨_, hparts⟩ ⟨_, rfl⟩ hfirst
  rw [List.append_assoc] at hparts
  exact ⟨left, rfl, List.append_cancel_left hparts⟩

/-- A split that lies inside another one: its token stands in the other one's. -/
theorem exists_of_splits {code : List Char} {operator other : Operator}
    {before after front back : List Char} (h : Splits code operator before after)
    (hother : Splits code other front back) (hfirst : before.length ≤ front.length)
    (hlast : front.length + (delimited other).length ≤
      before.length + (delimited operator).length) :
    ∃ left right, front = before ++ left ∧
      delimited operator = left ++ delimited other ++ right := by
  obtain ⟨left, rfl, hinside⟩ := h.exists_append hother hfirst
  rw [List.length_append] at hlast
  have htoken : left ++ delimited other <+: delimited operator := List.prefix_of_prefix_length_le
    ⟨back, by rw [List.append_assoc, ← hinside]⟩ ⟨after, rfl⟩ (by rw [List.length_append]; omega)
  obtain ⟨right, hright⟩ := htoken
  exact ⟨left, right, rfl, hright.symm⟩

/-! ### The operator of a statement -/

/-- No other operator stands in a statement, but for `IN`, whose first place may be the one in the
first `NOT IN`. -/
def Alone (code : List Char) (operator : Operator) (before : List Char) : Prop :=
  ∀ other, other ≠ operator → (∀ front back, ¬ Splits code other front back) ∨
    operator = .comparison .notMember ∧ other = .comparison .member ∧
      ∃ back, SplitsFirst code other (before ++ " NOT".toList) back

theorem mem_candidates_iff {code : List Char} {c : Candidate} :
    c ∈ candidates (padded code) ↔ ∃ before after, SplitsFirst code c.operator before after ∧
      c.first = before.length + 1 ∧ c.last = before.length + 1 + c.operator.token.length := by
  rw [candidates, List.mem_filterMap]
  constructor
  · rintro ⟨operator, -, hsplit⟩
    obtain ⟨⟨before, after⟩, hparts, rfl⟩ := Option.map_eq_some_iff.1 hsplit
    exact ⟨before, after, splitAt_eq_some_iff.1 hparts, rfl, rfl⟩
  · rintro ⟨before, after, hsplit, hfirst, hlast⟩
    refine ⟨c.operator, Operator.mem_all _, ?_⟩
    rw [splitAt_eq_some_iff.2 hsplit, Option.map_some, ← hlast, ← hfirst]

/-- The longest candidate so far is none of the candidates but one of the longest among them. -/
theorem foldl_longest (found : List Candidate) (best : Candidate) :
    ∃ c, found.foldl (fun best c =>
        match best with
        | none => some c
        | some b => if c.length < b.length then some b else some c) (some best) = some c ∧
      (c = best ∨ c ∈ found) ∧ best.length ≤ c.length ∧ ∀ d ∈ found, d.length ≤ c.length := by
  induction found generalizing best with
  | nil => exact ⟨best, rfl, Or.inl rfl, Nat.le_refl _, fun d hd => absurd hd List.not_mem_nil⟩
  | cons first found ih =>
    by_cases hshort : first.length < best.length
    · obtain ⟨c, hc, hmem, hbest, hall⟩ := ih best
      refine ⟨c, ?_, hmem.imp_right (List.mem_cons_of_mem _), hbest, ?_⟩
      · rw [List.foldl_cons, ← hc]
        simp only [if_pos hshort]
      · exact List.forall_mem_cons.2 ⟨by omega, hall⟩
    · obtain ⟨c, hc, hmem, hbest, hall⟩ := ih first
      refine ⟨c, ?_, ?_, by omega, List.forall_mem_cons.2 ⟨hbest, hall⟩⟩
      · rw [List.foldl_cons, ← hc]
        simp only [if_neg hshort]
      · rcases hmem with rfl | hmem
        · exact Or.inr List.mem_cons_self
        · exact Or.inr (List.mem_cons_of_mem _ hmem)

theorem exists_longest {found : List Candidate} (h : found ≠ []) :
    ∃ c ∈ found, longest? found = some c ∧ ∀ d ∈ found, d.length ≤ c.length := by
  obtain ⟨first, rest, rfl⟩ := List.exists_cons_of_ne_nil h
  obtain ⟨c, hc, hmem, hfirst, hall⟩ := foldl_longest rest first
  refine ⟨c, ?_, hc, List.forall_mem_cons.2 ⟨hfirst, hall⟩⟩
  rcases hmem with rfl | hmem
  · exact List.mem_cons_self
  · exact List.mem_cons_of_mem _ hmem

theorem findOperator_eq_ok_iff {code : List Char} {operator : Operator} :
    findOperator code = .ok operator ↔ ∃ c, longest? (candidates (padded code)) = some c ∧
      (∀ d ∈ candidates (padded code), d.within c = true) ∧ c.operator = operator := by
  unfold findOperator
  dsimp only
  split
  · rename_i hnone
    simp [hnone]
  · rename_i outer houter
    split
    · rename_i hall
      simp only [houter, Except.ok.injEq]
      constructor
      · rintro rfl
        exact ⟨outer, rfl, List.all_eq_true.1 hall, rfl⟩
      · rintro ⟨c, hc, -, rfl⟩
        rw [Option.some.inj hc]
    · rename_i hall
      simp only [houter, Option.some.injEq, reduceCtorEq, false_iff, not_exists, not_and]
      rintro c rfl hwithin
      exact absurd (List.all_eq_true.2 hwithin) hall

theorem exists_splitsFirst_of_findOperator {code : List Char} {operator : Operator}
    (h : findOperator code = .ok operator) :
    ∃ before after, SplitsFirst code operator before after ∧ Alone code operator before := by
  obtain ⟨c, hlongest, hwithin, rfl⟩ := findOperator_eq_ok_iff.1 h
  have hne : candidates (padded code) ≠ [] := by
    intro hnil
    rw [hnil] at hlongest
    exact absurd hlongest (by simp [longest?])
  obtain ⟨d, hd, hlongest', -⟩ := exists_longest hne
  obtain rfl : c = d := Option.some.inj (hlongest.symm.trans hlongest')
  obtain ⟨before, after, hsplit, hfirst, hlast⟩ := mem_candidates_iff.1 hd
  refine ⟨before, after, hsplit, fun other hother => ?_⟩
  cases hcut : splitAt other (padded code) with
  | none => exact Or.inl (splitAt_eq_none_iff.1 hcut)
  | some parts =>
    obtain ⟨front, back⟩ := parts
    have hsplit' := splitAt_eq_some_iff.1 hcut
    have hinner := hwithin ⟨other, front.length + 1, front.length + 1 + other.token.length⟩
      (mem_candidates_iff.2 ⟨front, back, hsplit', rfl, rfl⟩)
    simp only [Candidate.within, hfirst, hlast, Bool.and_eq_true, decide_eq_true_eq] at hinner
    have hlength := length_delimited c.operator
    have hlength' := length_delimited other
    obtain ⟨left, right, rfl, htoken⟩ :=
      exists_of_splits hsplit.1 hsplit'.1 (by omega) (by omega)
    rcases eq_of_infix_delimited htoken with heq | ⟨houter, hin, rfl⟩
    · exact absurd heq hother
    · exact Or.inr ⟨houter, hin, back, hsplit'⟩

theorem SplitsFirst.eq {code : List Char} {operator : Operator}
    {before after front back : List Char} (h : SplitsFirst code operator before after)
    (hother : SplitsFirst code operator front back) : before = front ∧ after = back := by
  have hparts := (splitAt_eq_some_iff.2 h).symm.trans (splitAt_eq_some_iff.2 hother)
  exact Prod.mk.inj (Option.some.inj hparts)

/-- Where an operator stands alone, a candidate is the operator at its first place or the `IN` in
it. -/
theorem eq_of_mem_candidates {code : List Char} {operator : Operator} {before after : List Char}
    (hsplit : SplitsFirst code operator before after) (halone : Alone code operator before)
    {c : Candidate} (h : c ∈ candidates (padded code)) :
    c = ⟨operator, before.length + 1, before.length + 1 + operator.token.length⟩ ∨
      operator = .comparison .notMember ∧ c.first = before.length + 5 ∧
        c.last = before.length + 7 := by
  obtain ⟨front, back, hsplit', hfirst, hlast⟩ := mem_candidates_iff.1 h
  by_cases hsame : c.operator = operator
  · obtain ⟨rfl, -⟩ := hsplit.eq (hsame ▸ hsplit')
    left
    obtain ⟨other, first, last⟩ := c
    dsimp only at hsame hfirst hlast
    rw [hsame, hfirst, hlast, hsame]
  · rcases halone c.operator hsame with hnone | ⟨houter, hin, rest, hinner⟩
    · exact absurd hsplit'.1 (hnone front back)
    · have hlength := congrArg List.length (hsplit'.eq hinner).1
      rw [List.length_append, show " NOT".toList.length = 4 from rfl] at hlength
      have htoken : c.operator.token.length = 2 := by
        rw [hin]
        rfl
      exact Or.inr ⟨houter, by omega, by omega⟩

theorem findOperator_of_splitsFirst {code : List Char} {operator : Operator}
    {before after : List Char} (hsplit : SplitsFirst code operator before after)
    (halone : Alone code operator before) : findOperator code = .ok operator := by
  have hmem : ⟨operator, before.length + 1, before.length + 1 + operator.token.length⟩ ∈
      candidates (padded code) := mem_candidates_iff.2 ⟨before, after, hsplit, rfl, rfl⟩
  obtain ⟨c, hc, hlongest, hall⟩ := exists_longest (List.ne_nil_of_mem hmem)
  have hlength := hall _ hmem
  have hcases := fun d hd => @eq_of_mem_candidates code operator before after hsplit halone d hd
  -- The `IN` inside `NOT IN` is too short to be the longest candidate.
  rcases hcases c hc with rfl | ⟨rfl, hfirst, hlast⟩
  · refine findOperator_eq_ok_iff.2 ⟨_, hlongest, fun d hd => ?_, rfl⟩
    rcases hcases d hd with rfl | ⟨rfl, hfirst, hlast⟩
    · simp [Candidate.within]
    · have htoken : (Operator.comparison .notMember).token.length = 6 := rfl
      simp only [Candidate.within, hfirst, hlast, htoken, Bool.and_eq_true, decide_eq_true_eq]
      omega
  · have htoken : (Operator.comparison .notMember).token.length = 6 := rfl
    simp only [Candidate.length, hfirst, hlast, htoken] at hlength
    omega

end Source

namespace Statement

open Source

/-! ### The two sides -/

/-- The operands that the two sides of a split write; neither side is blank. -/
structure Sides (storyline : Option String) (before after : List Char) (left right : Operand) :
    Prop where
  leftFilled : Text.trim before ≠ []
  rightFilled : Text.trim after ≠ []
  left : Operand.read storyline (Text.trim before) = .ok left
  right : Operand.read storyline (Text.trim after) = .ok right

theorem Sides.reads {storyline : Option String} {before after : List Char} {left right : Operand}
    (h : Sides storyline before after left right) :
    Operand.Reads storyline (Text.trim before) left := by
  have hreads := Operand.reads_of_read h.left
  rwa [Text.trim_trim] at hreads

/-- A statement is read at the first place of the operator that is found. -/
theorem read_eq_ok_iff {storyline : Option String} {code : List Char} {s : Statement} :
    read storyline code = .ok s ↔ findOperator code = .ok s.operator ∧
      ∃ before after, SplitsFirst code s.operator before after ∧
        Sides storyline before after s.left s.right := by
  constructor
  · intro h
    unfold read at h
    split at h
    · exact absurd h (by simp)
    rename_i operator hoperator
    split at h
    · exact absurd h (by simp)
    rename_i before after hsplit
    dsimp only at h
    split at h
    · exact absurd h (by simp)
    rename_i hbefore
    split at h
    · exact absurd h (by simp)
    rename_i hafter
    split at h
    · exact absurd h (by simp)
    rename_i left hleft
    split at h
    · exact absurd h (by simp)
    rename_i right hright
    obtain rfl := Except.ok.inj h
    refine ⟨hoperator, before, after, splitAt_eq_some_iff.1 hsplit, ?_, ?_, hleft, hright⟩
    · exact fun hnil => hbefore (List.isEmpty_iff.2 hnil)
    · exact fun hnil => hafter (List.isEmpty_iff.2 hnil)
  · rintro ⟨hoperator, before, after, hsplit, hbefore, hafter, hleft, hright⟩
    rw [read, hoperator]
    dsimp only
    rw [splitAt_eq_some_iff.2 hsplit]
    dsimp only
    rw [if_neg (by simpa using hbefore), if_neg (by simpa using hafter), hleft, hright]

/-- A side cannot go on behind another operator. -/
theorem not_reads_longer {storyline : Option String} {before : List Char} {left : Operand}
    (hfilled : Text.trim before ≠ []) (h : Operand.Reads storyline (Text.trim before) left)
    {c : Char} (hc : Text.isBlank c = false) {rest : List Char} {other : Operand} :
    ¬ Operand.Reads storyline (Text.trim (before ++ ' ' :: c :: rest)) other := by
  have hbreaks : Operand.Breaks ' ' := Or.inl (by decide)
  have hmore : Text.trimEnd (' ' :: c :: rest) ≠ [] :=
    Text.trimEnd_ne_nil (List.mem_cons_of_mem _ List.mem_cons_self) hc
  obtain ⟨d, more, htrim, hd⟩ := Operand.exists_trim_append_breaks hfilled hmore hbreaks
  rw [htrim]
  exact h.not_append more other hd

/-- Of two splits with readable sides none is behind the other one. -/
theorem length_le_of_sides {storyline : Option String} {code : List Char}
    {operator other : Operator} {before after front back : List Char} {left right l r : Operand}
    (h : Splits code operator before after) (hsides : Sides storyline before after left right)
    (hother : Splits code other front back) (hsides' : Sides storyline front back l r) :
    front.length ≤ before.length := by
  by_contra hlonger
  obtain ⟨rest, rfl, hbehind⟩ := h.exists_append hother (by omega)
  obtain ⟨c, token, htoken, hc⟩ := exists_delimited operator
  obtain ⟨c', token', htoken', hc'⟩ := exists_delimited other
  rw [htoken, htoken'] at hbehind
  -- The second split starts behind the space of the first one, so a character of its token is in
  -- the longer side.
  match rest with
  | [] => exact hlonger (by simp)
  | [_] =>
    obtain ⟨-, hsecond⟩ := List.cons_eq_cons.1 hbehind
    obtain ⟨rfl, -⟩ := List.cons_eq_cons.1 hsecond
    exact absurd hc (by decide)
  | _ :: _ :: rest =>
    obtain ⟨rfl, hsecond⟩ := List.cons_eq_cons.1 hbehind
    obtain ⟨rfl, -⟩ := List.cons_eq_cons.1 hsecond
    exact not_reads_longer hsides.leftFilled hsides.reads hc hsides'.reads

/-- At most one split has two readable sides. -/
theorem eq_of_sides {storyline : Option String} {code : List Char}
    {operator other : Operator} {before after front back : List Char} {left right l r : Operand}
    (h : Splits code operator before after) (hsides : Sides storyline before after left right)
    (hother : Splits code other front back) (hsides' : Sides storyline front back l r) :
    other = operator ∧ front = before ∧ back = after := by
  have hlength : before.length = front.length := Nat.le_antisymm
    (length_le_of_sides hother hsides' h hsides) (length_le_of_sides h hsides hother hsides')
  have hparts := h.symm.trans hother
  rw [List.append_assoc, List.append_assoc] at hparts
  obtain ⟨rfl, hbehind⟩ := List.append_inj hparts hlength
  have hoperator : operator = other := by
    rcases Nat.le_total (delimited operator).length (delimited other).length with hle | hle
    · exact eq_of_prefix_delimited
        (List.prefix_of_prefix_length_le ⟨after, hbehind⟩ ⟨back, rfl⟩ hle)
    · exact (eq_of_prefix_delimited
        (List.prefix_of_prefix_length_le ⟨back, hbehind.symm⟩ ⟨after, rfl⟩ hle)).symm
  obtain rfl := hoperator
  exact ⟨rfl, rfl, (List.append_cancel_left hbehind).symm⟩

/-! ### Reading is unambiguous -/

/-- A statement that is read is read at the only split that has two readable sides, outside all
strings and arrays; and a statement is read if and only if one operator stands alone in it and has
readable sides at its first place. -/
theorem read_unambiguous (storyline : Option String) (code : List Char) :
    (∀ s, read storyline code = .ok s → ∃ before after,
      SplitsFirst code s.operator before after ∧ Sides storyline before after s.left s.right ∧
      Balanced before ∧
      ∀ operator front back left right, Splits code operator front back →
        Sides storyline front back left right →
          operator = s.operator ∧ front = before ∧ back = after) ∧
    ((∃ s, read storyline code = .ok s) ↔ ∃ operator before after,
      SplitsFirst code operator before after ∧ Alone code operator before ∧
      ∃ left right, Sides storyline before after left right) := by
  refine ⟨fun s h => ?_, ?_, ?_⟩
  · obtain ⟨-, before, after, hsplit, hsides⟩ := read_eq_ok_iff.1 h
    refine ⟨before, after, hsplit, hsides, hsides.reads.balanced.of_trim, ?_⟩
    intro operator front back left right hother hsides'
    exact eq_of_sides hsplit.1 hsides hother hsides'
  · rintro ⟨s, h⟩
    obtain ⟨hoperator, before, after, hsplit, hsides⟩ := read_eq_ok_iff.1 h
    obtain ⟨front, back, hfirst, halone⟩ := exists_splitsFirst_of_findOperator hoperator
    obtain ⟨rfl, rfl⟩ := hsplit.eq hfirst
    exact ⟨s.operator, before, after, hsplit, halone, s.left, s.right, hsides⟩
  · rintro ⟨operator, before, after, hsplit, halone, left, right, hsides⟩
    have hoperator := findOperator_of_splitsFirst hsplit halone
    exact ⟨⟨left, operator, right⟩, read_eq_ok_iff.2 ⟨hoperator, before, after, hsplit, hsides⟩⟩

example : (read none "g.x == \"a == b\"".toList).toOption.map Statement.right =
    some (.text "a == b") := by
  decide +kernel

end Statement

end Narrative
