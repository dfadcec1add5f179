import Mathlib.Tactic.Common
import Narrative.Proofs.Json.Numeral

/-!
# Strings and floats that are read back

A written string is read back character by character.  A float is read back from a text with more
text behind it when it is read back from its own text alone, which `ReadsBack` says of it.
-/

namespace Narrative

namespace Json

open Decimal

/-! ### White space and strings -/

theorem skipSpace_cons {c : Char} {text : List Char} (h : isSpace c = false) :
    skipSpace (c :: text) = c :: text := by
  simp [skipSpace, h]

theorem hexValue_hexDigit : ∀ n < 16, Text.hexValue? (Text.hexDigit n) = some n := by decide

theorem readChars_escaped {e x : Char} (hu : e ≠ 'u') (hx : escaped? e = some x)
    (text : List Char) :
    readChars ('\\' :: e :: text) = (readChars text).map fun parts => (x :: parts.1, parts.2) := by
  rw [readChars.eq_def]
  simp [hu, hx]

theorem readChars_unit {a b c d : Char} {n : Nat} (h : unit? a b c d = some n) (hn : n < 0xD800)
    (text : List Char) :
    readChars ('\\' :: 'u' :: a :: b :: c :: d :: text) =
      (readChars text).map fun parts => (Char.ofNat n :: parts.1, parts.2) := by
  rw [readChars.eq_def]
  simp [h, show ¬55296 ≤ n by omega, show ¬56320 ≤ n by omega]

theorem readChars_plain {c : Char} (hquote : c ≠ '"') (hback : c ≠ '\\') (hlow : ¬c.toNat < 0x20)
    (text : List Char) :
    readChars (c :: text) = (readChars text).map fun parts => (c :: parts.1, parts.2) := by
  rw [readChars.eq_def]
  simp only [hquote, hback, hlow, if_false]

theorem unit_hexDigit {n : Nat} (hn : n < 256) :
    unit? '0' '0' (Text.hexDigit (n / 16)) (Text.hexDigit (n % 16)) = some n := by
  have h0 : Text.hexValue? '0' = some 0 := by decide
  have h1 := hexValue_hexDigit (n / 16) (by omega)
  have h2 := hexValue_hexDigit (n % 16) (by omega)
  simp only [unit?, h0, h1, h2, Option.bind_eq_bind, Option.bind_some, Option.pure_def,
    Option.some.injEq]
  omega

theorem readChars_escapeChar (c : Char) (text : List Char) :
    readChars (escapeChar c ++ text) =
      (readChars text).map fun parts => (c :: parts.1, parts.2) := by
  unfold escapeChar
  split
  · rename_i h
    rcases h with rfl | rfl <;> exact readChars_escaped (by decide) (by decide) text
  split
  · subst_vars; exact readChars_escaped (by decide) (by decide) text
  split
  · subst_vars; exact readChars_escaped (by decide) (by decide) text
  split
  · subst_vars; exact readChars_escaped (by decide) (by decide) text
  split
  · subst_vars; exact readChars_escaped (by decide) (by decide) text
  split
  · subst_vars; exact readChars_escaped (by decide) (by decide) text
  split
  · rename_i h
    have hread := readChars_unit (unit_hexDigit (n := c.toNat) (by omega)) (by omega) text
    rwa [Char.ofNat_toNat] at hread
  · rename_i hquote _ _ _ _ _ hlow
    exact readChars_plain (fun h => hquote (Or.inl h)) (fun h => hquote (Or.inr h)) hlow text

theorem readChars_flatMap (s rest : List Char) :
    readChars (s.flatMap escapeChar ++ '"' :: rest) = some (s, rest) := by
  induction s with
  | nil =>
    rw [readChars.eq_def]
    simp
  | cons c s ih =>
    rw [List.flatMap_cons, List.append_assoc, readChars_escapeChar, ih]
    rfl

/-- A string is read back from behind its first quote. -/
theorem readChars_string (s : String) (rest : List Char) :
    readChars (s.toList.flatMap escapeChar ++ ['"'] ++ rest) = some (s.toList, rest) := by
  simpa using readChars_flatMap s.toList rest

/-! ### Floats -/

/-- A float whose text is read as the same float. -/
def ReadsBack (x : Float) : Prop :=
  read? (text (.num (.float x))) = some (.num (.float x))

instance (x : Float) : Decidable (ReadsBack x) :=
  inferInstanceAs (Decidable (_ = _))

/-- A character of a written number. -/
def isNumberChar (c : Char) : Bool :=
  isDigit c || c == '.' || c == '-' || c == '+' || c == 'e'

theorem not_space_of_isNumberChar {c : Char} (h : isNumberChar c = true) : isSpace c = false := by
  by_contra hs
  simp only [Bool.not_eq_false, isSpace, Bool.or_eq_true, decide_eq_true_eq] at hs
  rcases hs with ((rfl | rfl) | rfl) | rfl <;> revert h <;> decide

theorem isNumberChar_digits {n : Nat} {c : Char} (h : c ∈ digits n) : isNumberChar c = true := by
  simp [isNumberChar, isDigit_of_mem_digits h]

theorem isNumberChar_positional {x : Scaled} {c : Char} (h : c ∈ x.positional ['.', '0']) :
    isNumberChar c = true := by
  have hzero : isNumberChar '0' = true := by decide
  have hpoint : isNumberChar '.' = true := by decide
  have hds : ∀ d ∈ digits x.coefficient, isNumberChar d = true := fun d hd => isNumberChar_digits hd
  simp only [Scaled.positional] at h
  split at h
  · simp only [List.mem_cons, List.mem_append, List.mem_replicate] at h
    rcases h with rfl | rfl | ⟨-, rfl⟩ | h
    exacts [hzero, hpoint, hzero, hds _ h]
  split at h
  · simp only [List.mem_append, List.mem_replicate, List.mem_cons, List.not_mem_nil, or_false] at h
    rcases h with (h | ⟨-, rfl⟩) | rfl | rfl
    exacts [hds _ h, hzero, hpoint, hzero]
  · simp only [List.mem_append, List.mem_cons] at h
    rcases h with h | rfl | h
    exacts [hds _ (List.mem_of_mem_take h), hpoint, hds _ (List.mem_of_mem_drop h)]

theorem isNumberChar_exponential {x : Scaled} {c : Char} (h : c ∈ x.exponential) :
    isNumberChar c = true := by
  have hds : ∀ d ∈ digits x.coefficient, isNumberChar d = true := fun d hd => isNumberChar_digits hd
  simp only [Scaled.exponential, List.mem_append, List.mem_cons] at h
  rcases h with h | rfl | rfl | h
  · split at h
    · exact absurd h List.not_mem_nil
    · rename_i d hd
      exact hds c (hd ▸ h)
    · rename_i d ds _ hd
      simp only [List.mem_cons] at h
      rcases h with rfl | rfl | h
      exacts [hds _ (by simp [hd]), by decide, hds _ (by simp [hd, h])]
  · decide
  · split <;> decide
  · exact isNumberChar_digits h

theorem isNumberChar_scientific {x : Float} {cs : List Char} (h : scientific? x = some cs)
    {c : Char}
    (hc : c ∈ cs) : isNumberChar c = true := by
  unfold scientific? at h
  split at h
  · rename_i negative m q _
    obtain rfl := Option.some.inj h
    have hbody : ∀ body : List Char, (∀ d ∈ body, isNumberChar d = true) →
        ∀ d ∈ Decimal.signed negative body, isNumberChar d = true := by
      intro body hb d hd
      unfold Decimal.signed at hd
      split at hd
      · rcases List.mem_cons.1 hd with rfl | hd
        exacts [by decide, hb d hd]
      · exact hb d hd
    refine hbody _ (fun d hd => ?_) c hc
    split at hd
    · simp only [List.mem_cons, List.not_mem_nil, or_false] at hd
      rcases hd with rfl | rfl | rfl <;> decide
    dsimp only at hd
    split at hd
    · exact isNumberChar_positional hd
    · exact isNumberChar_exponential hd
  · exact absurd h (by simp)

/-- A number that is read as a value is read as a number. -/
theorem readSigned_of_readValue {fuel depth : Nat} {shape : Shape} {text rest : List Char}
    {n : Number} (h : readValue fuel depth shape text = some (.num n, rest)) :
    readSigned (skipSpace text) = some (n, rest) := by
  cases fuel with
  | zero => exact absurd h (by simp [readValue])
  | succ fuel =>
    unfold readValue at h
    split at h
    · exact absurd h (by simp)
    · exact absurd h (by simp)
    · exact absurd h (by simp)
    · obtain ⟨_, -, hparts⟩ := Option.map_eq_some_iff.1 h
      exact absurd hparts (by simp)
    · split at h
      · exact absurd h (by simp)
      split at h
      · exact absurd h (by simp)
      · obtain ⟨_, -, hparts⟩ := Option.map_eq_some_iff.1 h
        exact absurd hparts (by simp)
    · split at h
      · exact absurd h (by simp)
      split at h
      · exact absurd h (by simp)
      · obtain ⟨_, -, hparts⟩ := Option.map_eq_some_iff.1 h
        exact absurd hparts (by simp)
    · rename_i body htext
      obtain ⟨parts, hparts, heq⟩ := Option.map_eq_some_iff.1 h
      obtain ⟨rfl, rfl⟩ : parts.1 = n ∧ parts.2 = rest := by simpa using heq
      rw [htext]
      exact hparts
    · rename_i hminus
      obtain ⟨parts, hparts, heq⟩ := Option.map_eq_some_iff.1 h
      obtain ⟨rfl, rfl⟩ : parts.1 = n ∧ parts.2 = rest := by simpa using heq
      unfold readSigned
      split
      · rename_i body hbody
        exact absurd hbody (hminus body)
      · exact hparts

/-- What reads back from its whole text is read from it in front of any rest. -/
theorem ReadsBack.readSigned {x : Float} (h : ReadsBack x) {rest : List Char}
    (hrest : Delimited rest) :
    readSigned (writeNumber (.float x) ++ rest) = some (.float x, rest) := by
  obtain ⟨document, hparse, hnormal⟩ := Option.map_eq_some_iff.1 h
  obtain rfl : document = .num (.float x) := by cases document <;> simp_all [normal]
  simp only [parse?, text, String.toList_ofList] at hparse
  split at hparse
  · rename_i document rest' hvalue
    split at hparse
    · rename_i hend
      obtain rfl := Option.some.inj hparse
      have hread := readSigned_of_readValue hvalue
      rw [write] at hread
      cases hs : scientific? x with
      | none =>
        rw [writeNumber, hs] at hread
        have hnull : Json.readSigned (skipSpace ['n', 'u', 'l', 'l']) = none := by decide
        exact absurd (hnull.symm.trans hread) (by simp)
      | some cs =>
        have hcs : ∀ c ∈ cs, isSpace c = false := fun c hc =>
          not_space_of_isNumberChar (isNumberChar_scientific hs hc)
        have hskip : ∀ t, t <:+ cs → skipSpace t = t := by
          rintro (_ | ⟨c, t⟩) ht
          · rfl
          · exact skipSpace_cons (hcs c (ht.mem (by simp)))
        rw [writeNumber, hs, Option.getD_some, hskip cs (List.suffix_refl _)] at hread
        have hrest' : rest' = [] := by
          rw [hskip rest' (readSigned_suffix hread)] at hend
          exact List.isEmpty_iff.1 hend
        subst hrest'
        rw [writeNumber, hs, Option.getD_some]
        exact readSigned_append hread hrest
    · exact absurd hparse (by simp)
  · exact absurd hparse (by simp)

end Json

end Narrative
