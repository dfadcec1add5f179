import Mathlib.Tactic.Common
import Narrative.Proofs.Source.Reading

/-!
# The shapes of tokens

A token that is read as an operand is a run of bare characters, a quoted string or a bracketed
array, and its first character says which.
-/

namespace Narrative.Source

/-! ### Bare characters -/

/-- A character that is no blank, no quote and no bracket. -/
def isBare (c : Char) : Bool :=
  !Text.isBlank c && !(['"', '\'', '[', ']'].contains c)

theorem isBare_of_toNat {c : Char}
    (h : 43 ≤ c.toNat ∧ c.toNat ≤ 90 ∨ 95 ≤ c.toNat ∧ c.toNat ≤ 122) : isBare c = true := by
  have hmark : ∀ m : Char,
      ¬ (43 ≤ m.toNat ∧ m.toNat ≤ 90 ∨ 95 ≤ m.toNat ∧ m.toNat ≤ 122) → c ≠ m := by
    rintro m hm rfl
    exact hm h
  have hblank : Text.isBlank c = false := by
    simp only [Text.isBlank, Bool.or_eq_false_iff, Bool.and_eq_false_iff, decide_eq_false_iff_not,
      beq_eq_false_iff_ne]
    omega
  simp [isBare, hblank, hmark '"' (by decide), hmark '\'' (by decide), hmark '[' (by decide),
    hmark ']' (by decide)]

theorem isBare_of_isDigit {c : Char} (h : Decimal.isDigit c = true) : isBare c = true := by
  refine isBare_of_toNat (Or.inl ?_)
  simp only [Decimal.isDigit, Bool.and_eq_true, decide_eq_true_eq, Char.le_def,
    UInt32.le_iff_toNat_le] at h
  have hlow : (48 : Nat) ≤ c.toNat := h.1
  have hhigh : c.toNat ≤ 57 := h.2
  omega

theorem isBare_of_isLower {c : Char} (h : isLower c = true) : isBare c = true := by
  refine isBare_of_toNat (Or.inr ?_)
  simp only [isLower, Bool.and_eq_true, decide_eq_true_eq, Char.le_def, UInt32.le_iff_toNat_le] at h
  have hlow : (97 : Nat) ≤ c.toNat := h.1
  have hhigh : c.toNat ≤ 122 := h.2
  omega

theorem isBare_of_isSlugChar {c : Char} (h : isSlugChar c = true) : isBare c = true := by
  simp only [isSlugChar, Bool.or_eq_true, beq_iff_eq] at h
  rcases h with (h | h) | rfl
  · exact isBare_of_isLower h
  · exact isBare_of_isDigit h
  · decide

theorem isBare_of_isNumeralChar {c : Char} (h : isNumeralChar c = true) : isBare c = true := by
  simp only [isNumeralChar, Bool.or_eq_true, beq_iff_eq] at h
  rcases h with ((((h | rfl) | rfl) | rfl) | rfl) | rfl
  · exact isBare_of_isDigit h
  all_goals decide

/-- A filled run of bare characters. -/
def Bare (token : List Char) : Prop :=
  token ≠ [] ∧ ∀ c ∈ token, isBare c = true

instance (token : List Char) : Decidable (Bare token) :=
  decidable_of_iff (token ≠ [] ∧ token.all isBare = true) (by rw [List.all_eq_true]; rfl)

theorem bare_of_mem_words (words : List String) (h : ∀ word ∈ words, Bare word.toList)
    {token : List Char} (hword : words.contains (String.ofList token) = true) : Bare token := by
  have hbare := h _ (List.contains_iff_mem.1 hword)
  rwa [String.toList_ofList] at hbare

theorem bare_of_null {token : List Char} (h : nullWords.contains (String.ofList token) = true) :
    Bare token :=
  bare_of_mem_words nullWords (by decide) h

theorem bare_of_boolean {token : List Char} {b : Bool}
    (h : boolean? (String.ofList token) = some b) : Bare token := by
  unfold boolean? at h
  split at h
  · rename_i hword
    exact bare_of_mem_words ["true", "True", "TRUE"] (by decide) hword
  · split at h
    · rename_i hword
      exact bare_of_mem_words ["false", "False", "FALSE"] (by decide) hword
    · exact absurd h (by simp)

theorem bare_of_numeral {token : List Char} {x : Float} (h : numeral? token = some x) :
    Bare token := by
  unfold numeral? at h
  split at h
  · rename_i hchars
    obtain ⟨hdigit, hall⟩ := Bool.and_eq_true_iff.1 hchars
    refine ⟨?_, fun c hc => isBare_of_isNumeralChar (List.all_eq_true.1 hall c hc)⟩
    rintro rfl
    exact absurd hdigit (by simp)
  · exact absurd h (by simp)

theorem bare_of_isSlugText {token : List Char} (h : isSlugText token = true) : Bare token := by
  cases token with
  | nil => exact absurd h (by simp [isSlugText])
  | cons c rest =>
    obtain ⟨hfirst, hrest⟩ := Bool.and_eq_true_iff.1 h
    refine ⟨List.cons_ne_nil _ _, List.forall_mem_cons.2 ⟨isBare_of_isLower hfirst, fun d hd => ?_⟩⟩
    exact isBare_of_isSlugChar (List.all_eq_true.1 hrest d hd)

theorem bare_of_isIndexText {token : List Char} (h : isIndexText token = true) : Bare token := by
  obtain ⟨hfilled, hall⟩ := Bool.and_eq_true_iff.1 h
  refine ⟨?_, fun c hc => isBare_of_isDigit (List.all_eq_true.1 hall c hc)⟩
  rintro rfl
  exact absurd hfilled (by simp)

/-- Every character of a text is a mark or stands in a piece between the marks. -/
theorem mem_pieces_of_mem (mark : Char) {c : Char} {text : List Char} (h : c ∈ text) :
    c = mark ∨ ∃ piece ∈ Text.pieces mark text, c ∈ piece := by
  induction text with
  | nil => exact absurd h List.not_mem_nil
  | cons d text ih =>
    rw [Text.pieces]
    split
    · rename_i heq
      rcases List.mem_cons.1 h with rfl | h
      · exact Or.inl heq
      · rcases ih h with heq | ⟨piece, hpiece, hc⟩
        · exact Or.inl heq
        · exact Or.inr ⟨piece, List.mem_cons_of_mem _ hpiece, hc⟩
    · split
      · rename_i hnil
        rcases List.mem_cons.1 h with rfl | h
        · exact Or.inr ⟨[c], List.mem_cons_self, List.mem_cons_self⟩
        · rcases ih h with heq | ⟨piece, hpiece, hc⟩
          · exact Or.inl heq
          · rw [hnil] at hpiece
            exact absurd hpiece List.not_mem_nil
      · rename_i first rest hpieces
        rcases List.mem_cons.1 h with rfl | h
        · exact Or.inr ⟨c :: first, List.mem_cons_self, List.mem_cons_self⟩
        · rcases ih h with heq | ⟨piece, hpiece, hc⟩
          · exact Or.inl heq
          · rw [hpieces] at hpiece
            rcases List.mem_cons.1 hpiece with rfl | hpiece
            · exact Or.inr ⟨d :: piece, List.mem_cons_self, List.mem_cons_of_mem _ hc⟩
            · exact Or.inr ⟨piece, List.mem_cons_of_mem _ hpiece, hc⟩

theorem bare_of_access {storyline : Option String} {token : List Char} {path : Access}
    (h : access? storyline token = some (.ok path)) : Bare token := by
  unfold access? at h
  split at h
  · rename_i first rest hpieces
    split at h
    · exact absurd h (by simp)
    rename_i hsegments
    simp only [Bool.or_eq_true, Bool.not_eq_true', not_or, Bool.not_eq_false] at hsegments
    obtain ⟨⟨hmore, hfirst⟩, hrest⟩ := hsegments
    refine ⟨?_, fun c hc => ?_⟩
    · rintro rfl
      obtain ⟨rfl, rfl⟩ := List.cons_eq_cons.1 hpieces
      exact hmore rfl
    · rcases mem_pieces_of_mem '.' hc with rfl | ⟨piece, hpiece, hc⟩
      · decide
      · rw [hpieces] at hpiece
        rcases List.mem_cons.1 hpiece with rfl | hpiece
        · exact (bare_of_isSlugText hfirst).2 c hc
        · rcases Bool.or_eq_true_iff.1 (List.all_eq_true.1 hrest piece hpiece) with hslug | hindex
          · exact (bare_of_isSlugText hslug).2 c hc
          · exact (bare_of_isIndexText hindex).2 c hc
  · exact absurd h (by simp)

/-! ### Strings and arrays -/

theorem isSome_unescape_escape {mark e : Char} {rest : List Char} :
    (unescape? mark ('\\' :: e :: rest)).isSome = (unescape? mark rest).isSome := by
  rw [unescape?, if_pos rfl]
  split <;> rw [Option.isSome_map]

theorem unescape_mark {mark : Char} {rest : List Char} (h : mark ≠ '\\') :
    unescape? mark (mark :: rest) = none := by
  rw [unescape?.eq_def]
  simp [h]

theorem isSome_unescape_plain {mark c : Char} {rest : List Char} (hslash : c ≠ '\\')
    (h : c ≠ mark) :
    (unescape? mark (c :: rest)).isSome = (unescape? mark rest).isSome := by
  rw [unescape?.eq_def]
  simp [hslash, h]

/-- A string ends at the first quote without a backslash. -/
theorem unescape_append_mark {mark : Char} {text rest : List Char} (hmark : mark ≠ '\\')
    (h : (unescape? mark text).isSome = true) :
    (unescape? mark (text ++ mark :: rest)).isSome = false := by
  induction text using unescape?.induct mark with
  | case1 => rw [List.nil_append, unescape_mark hmark]; rfl
  | case2 => exact absurd h (by simp [unescape?])
  | case3 e text _ ih | case4 e text _ ih =>
    rw [isSome_unescape_escape] at h
    rw [List.cons_append, List.cons_append, isSome_unescape_escape]
    exact ih h
  | case5 text hne => exact absurd h (by simp [unescape_mark hne])
  | case6 c text hslash hne ih =>
    rw [isSome_unescape_plain hslash hne] at h
    rw [List.cons_append, isSome_unescape_plain hslash hne]
    exact ih h

/-- A text between two equal quotes, none of which stands in it without a backslash. -/
def Quoted (mark : Char) (token : List Char) : Prop :=
  (mark = '"' ∨ mark = '\'') ∧
    ∃ inside, token = mark :: (inside ++ [mark]) ∧ (unescape? mark inside).isSome = true

theorem eq_dropLast_append {text : List Char} {c : Char} (h : text.getLast? = some c) :
    text = text.dropLast ++ [c] := by
  obtain ⟨before, rfl⟩ := List.getLast?_eq_some_iff.1 h
  rw [List.dropLast_concat]

theorem quoted_of_string {token s : List Char} {mark : Char} (hquote : mark = '"' ∨ mark = '\'')
    (hhead : token.head? = some mark) (h : string? mark token = some s) : Quoted mark token := by
  refine ⟨hquote, ?_⟩
  cases token with
  | nil => exact absurd hhead (by simp)
  | cons c rest =>
    obtain rfl := Option.some.inj hhead
    rw [string?] at h
    split at h
    · refine ⟨rest.dropLast, ?_, by rw [h]; rfl⟩
      rw [← eq_dropLast_append ‹_›]
    · exact absurd h (by simp)

theorem eq_of_inside {token inner : List Char} (h : inside? token = some inner) :
    ∃ between, token = '[' :: (between ++ [']']) ∧ inner = Text.trim between := by
  unfold inside? at h
  split at h
  · rename_i rest
    split at h
    · refine ⟨rest.dropLast, ?_, (Option.some.inj h).symm⟩
      rw [← eq_dropLast_append ‹_›]
    · exact absurd h (by simp)
  · exact absurd h (by simp)

end Narrative.Source

namespace Narrative.Operand

open Source

/-- A token that is read is bare, quoted, or an array with readable items. -/
theorem Reads.shape {storyline : Option String} {token : List Char} {operand : Operand}
    (h : Reads storyline token operand) :
    Bare token ∨ (∃ mark, Quoted mark token) ∨
      ∃ between, token = '[' :: (between ++ [']']) ∧ (Text.trim between = [] ∨
        ∃ operands, ReadsEach storyline (items Scan.start (Text.trim between)) operands) := by
  cases h with
  | null word => exact Or.inl (bare_of_null word)
  | bool word => exact Or.inl (bare_of_boolean word)
  | number numeral => exact Or.inl (bare_of_numeral numeral)
  | text quote head string => exact Or.inr (Or.inl ⟨_, quoted_of_string quote head string⟩)
  | empty inside =>
    obtain ⟨between, htoken, hinner⟩ := eq_of_inside inside
    exact Or.inr (Or.inr ⟨between, htoken, Or.inl hinner.symm⟩)
  | list filled inside each =>
    obtain ⟨between, htoken, rfl⟩ := eq_of_inside inside
    exact Or.inr (Or.inr ⟨between, htoken, Or.inr ⟨_, each⟩⟩)
  | access segments => exact Or.inl (bare_of_access segments)

end Narrative.Operand
