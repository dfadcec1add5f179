import Mathlib.Algebra.Group.Int.Defs
import Mathlib.Algebra.Group.Nat.Defs
import Narrative.Json.Reader
import Narrative.Json.Writer

/-!
# Numbers that are read back

Reading a number is stated for a text with more text behind it: it stops where it stopped without
the rest, as long as the rest starts with no character that a number goes on with.  Integers are
read back from their digits; what is read of a float stays what it is when the rest is put behind
it.
-/

namespace Narrative

namespace Decimal

theorem isDigit_eq (c : Char) : isDigit c = c.isDigit := by
  simp [isDigit, Char.isDigit, Char.le_def, UInt32.le_iff_toNat_le]

theorem isDigit_of_mem_digits {n : Nat} {c : Char} (h : c ∈ digits n) : isDigit c = true := by
  rw [isDigit_eq]
  exact Nat.isDigit_of_mem_toDigits (by decide) (by decide) h

theorem digits_ne_nil (n : Nat) : digits n ≠ [] := Nat.toDigits_ne_nil

theorem natural_digits (n : Nat) : natural 0 (digits n) = n := Nat.ofDigitChars_ten_toDigits

/-- Only zero has a leading zero. -/
theorem length_digits_of_head {n : Nat} (h : (digits n).head? = some '0') :
    (digits n).length = 1 := by
  induction n using Nat.strongRecOn with
  | ind n ih =>
    by_cases hn : n < 10
    · simp [digits, Nat.toDigits_of_lt_base hn]
    · have hsplit : digits n = digits (n / 10) ++ [(n % 10).digitChar] :=
        Nat.toDigits_of_base_le (by decide) (by omega)
      have hhead : (digits (n / 10)).head? = some '0' := by
        obtain ⟨c, cs, hc⟩ := List.exists_cons_of_ne_nil (digits_ne_nil (n / 10))
        rw [hsplit, hc] at h
        rw [hc]
        exact h
      have hlen := ih (n / 10) (by omega) hhead
      have hlt : n / 10 < 10 := by
        have := (Nat.length_toDigits_le_iff (b := 10) (n := n / 10) (k := 1) (by decide)
          (by decide)).1 (Nat.le_of_eq hlen)
        omega
      rw [digits, Nat.toDigits_of_lt_base hlt] at hhead
      have hne : ∀ k < 10, 0 < k → k.digitChar ≠ '0' := by decide
      exact absurd (Option.some.inj hhead) (hne (n / 10) hlt (by omega))

theorem le_natural (acc : Nat) (ds : List Char) : acc ≤ natural acc ds := by
  induction ds generalizing acc with
  | nil => exact Nat.le_refl _
  | cons d ds ih =>
    have := ih (10 * acc + (d.toNat - 48))
    simp only [natural, List.foldl_cons] at this ⊢
    omega

theorem takeWhile_isDigit_append {ds rest : List Char} (hds : ∀ c ∈ ds, isDigit c = true)
    (hrest : ∀ c ∈ rest.head?, isDigit c = false) : (ds ++ rest).takeWhile isDigit = ds := by
  rw [List.takeWhile_append_of_pos hds]
  cases rest with
  | nil => simp
  | cons c rest => simp [hrest c rfl]

theorem dropWhile_isDigit_append {ds rest : List Char} (hds : ∀ c ∈ ds, isDigit c = true)
    (hrest : ∀ c ∈ rest.head?, isDigit c = false) : (ds ++ rest).dropWhile isDigit = rest := by
  rw [List.dropWhile_append_of_pos hds]
  cases rest with
  | nil => rfl
  | cons c rest => simp [hrest c rfl]

end Decimal

namespace Json

open Decimal

theorem gather_eq {significand : Nat} {ds : List Char} (h : natural significand ds < 2 ^ 64) :
    gather significand ds = (natural significand ds, ds.length, 0) := by
  induction ds generalizing significand with
  | nil => rfl
  | cons d ds ih =>
    have hle := le_natural (10 * significand + (d.toNat - 48)) ds
    have hnext : natural significand (d :: ds) =
        natural (10 * significand + (d.toNat - 48)) ds := rfl
    rw [hnext] at h ⊢
    have hlt : 10 * significand + (d.toNat - 48) < Nat.pow 2 64 := Nat.lt_of_le_of_lt hle h
    simp only [gather, hlt, if_true, ih h, List.length_cons]

/-- What may stand behind a number: nothing that would make it longer. -/
def Delimited (rest : List Char) : Prop :=
  ∀ c ∈ rest.head?, isDigit c = false ∧ c ≠ '.' ∧ c ≠ 'e' ∧ c ≠ 'E'

theorem Delimited.not_digit {rest : List Char} (h : Delimited rest) :
    ∀ c ∈ rest.head?, isDigit c = false :=
  fun c hc => (h c hc).1

/-- A number at the start of a text, with its sign, and what follows. -/
def readSigned : List Char → Option (Number × List Char)
  | '-' :: rest => readNumber true rest
  | text => readNumber false text

theorem readNumber_digits {negative : Bool} {n : Nat} {rest : List Char} (hn : n < 2 ^ 64)
    (hrest : Delimited rest) :
    readNumber negative (digits n ++ rest) = some (signedInteger negative n, rest) := by
  have hds : ∀ c ∈ digits n, isDigit c = true := fun c hc => isDigit_of_mem_digits hc
  have hgather : gather 0 (digits n) = (n, (digits n).length, 0) := by
    have := @gather_eq 0 (digits n) (by rw [natural_digits]; exact hn)
    rwa [natural_digits] at this
  have hlead : ¬((digits n).head? = some '0' ∧ (digits n).length ≠ 1) :=
    fun h => h.2 (length_digits_of_head h.1)
  unfold readNumber
  simp only [takeWhile_isDigit_append hds hrest.not_digit,
    dropWhile_isDigit_append hds hrest.not_digit, List.isEmpty_iff, digits_ne_nil, hlead, hgather,
    if_false]
  cases rest with
  | nil => simp
  | cons c rest =>
    obtain ⟨-, hdot, he, hE⟩ := hrest c rfl
    simp [hdot, he, hE]

theorem readSigned_cons {c : Char} {rest : List Char} (h : c ≠ '-') :
    readSigned (c :: rest) = readNumber false (c :: rest) := by
  unfold readSigned
  split
  · rename_i heq
    exact absurd (List.cons.inj heq).1 h
  · rfl

theorem readSigned_of_digit {c : Char} {rest : List Char} (h : isDigit c = true) :
    readSigned (c :: rest) = readNumber false (c :: rest) := by
  refine readSigned_cons ?_
  rintro rfl
  exact absurd h (by decide)

/-- The integers that have an integer encoding. -/
def IntegerRange (n : Int) : Prop := -(2 ^ 63) ≤ n ∧ n < 2 ^ 64

instance (n : Int) : Decidable (IntegerRange n) :=
  inferInstanceAs (Decidable (_ ∧ _))

theorem readSigned_integer {n : Int} {rest : List Char} (hn : IntegerRange n)
    (hrest : Delimited rest) : readSigned (integer n ++ rest) = some (.int n, rest) := by
  obtain ⟨hlow, hhigh⟩ := hn
  unfold integer
  split
  · rename_i hneg
    show readNumber true (digits n.natAbs ++ rest) = _
    rw [readNumber_digits (by omega) hrest]
    have hpos : n.natAbs ≠ 0 := by omega
    have hle : ¬Nat.pow 2 63 < n.natAbs := by
      rw [Nat.pow_eq]
      omega
    simp only [signedInteger, hpos, hle, or_self, if_false, Bool.not_true, Bool.false_eq_true]
    rw [show -(n.natAbs : Int) = n by omega]
  · rename_i hneg
    obtain ⟨d, ds, hd⟩ := List.exists_cons_of_ne_nil (digits_ne_nil n.natAbs)
    have hdigit : isDigit d = true := isDigit_of_mem_digits (n := n.natAbs) (by simp [hd])
    have hread := @readNumber_digits false n.natAbs rest (by omega) hrest
    rw [hd, List.cons_append] at hread ⊢
    rw [readSigned_of_digit hdigit, hread]
    simp [signedInteger, show (n.natAbs : Int) = n by omega]

/-! ### More text behind a number -/

theorem takeWhile_append_of_not {text rest : List Char}
    (hrest : ∀ c ∈ rest.head?, isDigit c = false) :
    (text ++ rest).takeWhile isDigit = text.takeWhile isDigit := by
  induction text with
  | nil =>
    cases rest with
    | nil => rfl
    | cons c rest => simp [hrest c rfl]
  | cons c text ih => simp [List.takeWhile_cons, ih]

theorem dropWhile_append_of_not {text rest : List Char}
    (hrest : ∀ c ∈ rest.head?, isDigit c = false) :
    (text ++ rest).dropWhile isDigit = text.dropWhile isDigit ++ rest := by
  induction text with
  | nil =>
    cases rest with
    | nil => rfl
    | cons c rest => simp [hrest c rfl]
  | cons c text ih => by_cases hc : isDigit c <;> simp [hc, ih]

theorem digitsPart_append {negative down : Bool} (text : List Char) {ds after rest : List Char}
    (h : exponentPart.digitsPart negative text = some (down, ds, after)) (hrest : Delimited rest) :
    exponentPart.digitsPart negative (text ++ rest) = some (down, ds, after ++ rest) := by
  unfold exponentPart.digitsPart at h ⊢
  dsimp only at h
  simp only [takeWhile_append_of_not hrest.not_digit, dropWhile_append_of_not hrest.not_digit]
  split at h
  · exact absurd h (by simp)
  · rename_i hds
    obtain ⟨rfl, rfl, rfl⟩ : negative = down ∧ _ ∧ _ := by simpa using h
    simp [hds]

theorem exponentPart_append {down : Bool} {text ds after rest : List Char}
    (h : exponentPart text = some (down, ds, after)) (hrest : Delimited rest) :
    exponentPart (text ++ rest) = some (down, ds, after ++ rest) := by
  cases text with
  | nil => exact absurd h (by simp [exponentPart, exponentPart.digitsPart])
  | cons c text =>
    by_cases hplus : c = '+'
    · subst hplus
      exact digitsPart_append text h hrest
    by_cases hminus : c = '-'
    · subst hminus
      exact digitsPart_append text h hrest
    have hself : ∀ more, exponentPart (c :: more) = exponentPart.digitsPart false (c :: more) := by
      intro more
      unfold exponentPart
      split <;> simp_all
    rw [hself] at h
    rw [List.cons_append, hself]
    exact digitsPart_append (c :: text) h hrest

theorem closeFloat_append {negative : Bool} {significand : Nat} {e : Int} (text : List Char)
    {after rest : List Char} {n : Number}
    (h : closeFloat negative significand e text = some (n, after)) (hrest : Delimited rest) :
    closeFloat negative significand e (text ++ rest) = some (n, after ++ rest) := by
  cases text with
  | nil =>
    cases rest with
    | nil => simpa using h
    | cons c rest =>
      obtain ⟨-, -, he, hE⟩ := hrest c rfl
      obtain ⟨x, hx, hxn⟩ := Option.map_eq_some_iff.1 (show Option.map _ _ = _ from h)
      obtain ⟨rfl, rfl⟩ : x = n ∧ [] = after := by simpa using hxn
      simp [closeFloat, he, hE, hx]
  | cons c text =>
    rw [List.cons_append]
    simp only [closeFloat] at h ⊢
    by_cases hc : c = 'e' ∨ c = 'E'
    · simp only [hc, if_true] at h ⊢
      cases hpart : exponentPart text with
      | none => exact absurd h (by simp [hpart])
      | some part =>
        obtain ⟨down, ds, tail⟩ := part
        rw [hpart] at h
        rw [exponentPart_append hpart hrest]
        simp only at h ⊢
        split at h
        · rename_i hlimit
          obtain ⟨x, hx, hxn⟩ := Option.map_eq_some_iff.1 h
          obtain ⟨rfl, rfl⟩ : x = n ∧ tail = after := by simpa using hxn
          simp [hlimit, hx]
        · rename_i hlimit
          split at h
          · exact absurd h (by simp)
          · rename_i hzero
            obtain ⟨rfl, rfl⟩ : _ ∧ tail = after := by simpa using h
            simp only [hlimit, hzero, if_false]
    · simp only [hc, if_false] at h ⊢
      obtain ⟨x, hx, hxn⟩ := Option.map_eq_some_iff.1 h
      obtain ⟨rfl, rfl⟩ : x = n ∧ c :: text = after := by simpa using hxn
      simp [hx]

/-- A number behind the digits before its point, of which the last `left` were not gathered. -/
def readTail (negative : Bool) (significand left : Nat) : List Char → Option (Number × List Char)
  | '.' :: rest =>
    if (rest.takeWhile isDigit).isEmpty then none
    else
      closeFloat negative (gather significand (rest.takeWhile isDigit)).1
        ((left : Int) - (gather significand (rest.takeWhile isDigit)).2.1) (rest.dropWhile isDigit)
  | [] =>
    if left = 0 then some (signedInteger negative significand, [])
    else closeFloat negative significand left []
  | c :: rest =>
    if left = 0 ∧ c ≠ 'e' ∧ c ≠ 'E' then some (signedInteger negative significand, c :: rest)
    else closeFloat negative significand left (c :: rest)

/-- Digits that were not gathered, or an exponent, make a number a float. -/
theorem readTail_cons {negative : Bool} {significand left : Nat} {c : Char} {rest : List Char}
    (h : c ≠ '.') :
    readTail negative significand left (c :: rest) =
      if left = 0 ∧ c ≠ 'e' ∧ c ≠ 'E' then some (signedInteger negative significand, c :: rest)
      else closeFloat negative significand left (c :: rest) := by
  unfold readTail
  split
  · rename_i heq
    exact absurd (List.cons.inj heq).1 h
  · rename_i heq
    exact absurd heq (List.cons_ne_nil _ _)
  · rename_i heq
    obtain ⟨rfl, rfl⟩ := List.cons.inj heq
    rfl

theorem readNumber_eq (negative : Bool) (text : List Char) :
    readNumber negative text =
      if (text.takeWhile isDigit).isEmpty then none
      else if (text.takeWhile isDigit).head? = some '0' ∧ (text.takeWhile isDigit).length ≠ 1 then
        none
      else readTail negative (gather 0 (text.takeWhile isDigit)).1
        (gather 0 (text.takeWhile isDigit)).2.2 (text.dropWhile isDigit) := by
  unfold readNumber readTail
  dsimp only
  split
  · rfl
  split
  · rfl
  cases text.dropWhile isDigit with
  | nil => rfl
  | cons c rest =>
    by_cases hdot : c = '.'
    · subst hdot
      rfl
    · simp [hdot]

theorem readTail_append {negative : Bool} {significand left : Nat} {text after rest : List Char}
    {n : Number} (h : readTail negative significand left text = some (n, after))
    (hrest : Delimited rest) :
    readTail negative significand left (text ++ rest) = some (n, after ++ rest) := by
  cases text with
  | nil =>
    cases rest with
    | nil => simpa using h
    | cons c rest =>
      obtain ⟨-, hdot, he, hE⟩ := hrest c rfl
      rw [List.nil_append, readTail_cons hdot]
      simp only [he, hE, ne_eq, not_false_eq_true, and_true]
      simp only [readTail] at h
      split at h
      · rename_i hleft
        obtain ⟨rfl, rfl⟩ : _ = n ∧ [] = after := by simpa using h
        simp [hleft]
      · rename_i hleft
        rw [if_neg hleft]
        exact closeFloat_append [] h hrest
  | cons c text =>
    by_cases hdot : c = '.'
    · subst hdot
      simp only [List.cons_append, readTail, takeWhile_append_of_not hrest.not_digit,
        dropWhile_append_of_not hrest.not_digit] at h ⊢
      split at h
      · exact absurd h (by simp)
      · rename_i hsome
        rw [if_neg hsome]
        exact closeFloat_append _ h hrest
    · rw [readTail_cons hdot] at h
      rw [List.cons_append, readTail_cons hdot]
      split at h
      · rename_i hplain
        obtain ⟨rfl, rfl⟩ : _ = n ∧ c :: text = after := by simpa using h
        rw [if_pos hplain, List.cons_append]
      · rename_i hplain
        rw [if_neg hplain]
        exact closeFloat_append (c :: text) h hrest

/-- Reading a number stops where it stopped when more text follows. -/
theorem readNumber_append {negative : Bool} (text : List Char) {after rest : List Char} {n : Number}
    (h : readNumber negative text = some (n, after)) (hrest : Delimited rest) :
    readNumber negative (text ++ rest) = some (n, after ++ rest) := by
  rw [readNumber_eq] at h ⊢
  simp only [takeWhile_append_of_not hrest.not_digit, dropWhile_append_of_not hrest.not_digit]
  split at h
  · exact absurd h (by simp)
  rename_i hsome
  split at h
  · exact absurd h (by simp)
  rename_i hlead
  rw [if_neg hsome, if_neg hlead]
  exact readTail_append h hrest

theorem readSigned_append {text after rest : List Char} {n : Number}
    (h : readSigned text = some (n, after)) (hrest : Delimited rest) :
    readSigned (text ++ rest) = some (n, after ++ rest) := by
  cases text with
  | nil => exact absurd h (by simp [readSigned, readNumber])
  | cons c text =>
    by_cases hminus : c = '-'
    · subst hminus
      exact readNumber_append text h hrest
    · rw [readSigned_cons hminus] at h
      rw [List.cons_append, readSigned_cons hminus]
      exact readNumber_append (c :: text) h hrest

/-! ### What is left behind a number -/

theorem digitsPart_suffix {negative down : Bool} {text ds after : List Char}
    (h : exponentPart.digitsPart negative text = some (down, ds, after)) : after <:+ text := by
  unfold exponentPart.digitsPart at h
  dsimp only at h
  split at h
  · exact absurd h (by simp)
  · obtain ⟨-, -, rfl⟩ : negative = down ∧ _ ∧ _ := by simpa using h
    exact List.dropWhile_suffix _

theorem exponentPart_suffix {down : Bool} {text ds after : List Char}
    (h : exponentPart text = some (down, ds, after)) : after <:+ text := by
  unfold exponentPart at h
  split at h
  · exact (digitsPart_suffix h).trans (List.suffix_cons _ _)
  · exact (digitsPart_suffix h).trans (List.suffix_cons _ _)
  · exact digitsPart_suffix h

theorem closeFloat_suffix {negative : Bool} {significand : Nat} {e : Int} {text after : List Char}
    {n : Number} (h : closeFloat negative significand e text = some (n, after)) :
    after <:+ text := by
  cases text with
  | nil =>
    obtain ⟨x, -, hx⟩ := Option.map_eq_some_iff.1 (show Option.map _ _ = _ from h)
    obtain ⟨-, rfl⟩ : x = n ∧ [] = after := by simpa using hx
    exact List.suffix_refl _
  | cons c text =>
    simp only [closeFloat] at h
    split at h
    · cases hpart : exponentPart text with
      | none => exact absurd h (by simp [hpart])
      | some part =>
        obtain ⟨down, ds, tail⟩ := part
        have hsuffix := (exponentPart_suffix hpart).trans (List.suffix_cons c text)
        rw [hpart] at h
        simp only at h
        split at h
        · obtain ⟨x, -, hx⟩ := Option.map_eq_some_iff.1 h
          obtain ⟨-, rfl⟩ : x = n ∧ tail = after := by simpa using hx
          exact hsuffix
        split at h
        · exact absurd h (by simp)
        · obtain ⟨-, rfl⟩ : _ ∧ tail = after := by simpa using h
          exact hsuffix
    · obtain ⟨x, -, hx⟩ := Option.map_eq_some_iff.1 h
      obtain ⟨-, rfl⟩ : x = n ∧ c :: text = after := by simpa using hx
      exact List.suffix_refl _

theorem readTail_suffix {negative : Bool} {significand left : Nat} {text after : List Char}
    {n : Number} (h : readTail negative significand left text = some (n, after)) :
    after <:+ text := by
  unfold readTail at h
  split at h
  · rename_i rest
    split at h
    · exact absurd h (by simp)
    · exact ((closeFloat_suffix h).trans (List.dropWhile_suffix _)).trans (List.suffix_cons _ _)
  · split at h
    · obtain ⟨-, rfl⟩ : _ = n ∧ [] = after := by simpa using h
      exact List.suffix_refl _
    · exact closeFloat_suffix h
  · rename_i c rest _
    split at h
    · obtain ⟨-, rfl⟩ : _ = n ∧ c :: rest = after := by simpa using h
      exact List.suffix_refl _
    · exact closeFloat_suffix h

theorem readNumber_suffix {negative : Bool} {text after : List Char} {n : Number}
    (h : readNumber negative text = some (n, after)) : after <:+ text := by
  rw [readNumber_eq] at h
  split at h
  · exact absurd h (by simp)
  split at h
  · exact absurd h (by simp)
  exact (readTail_suffix h).trans (List.dropWhile_suffix _)

theorem readSigned_suffix {text after : List Char} {n : Number}
    (h : readSigned text = some (n, after)) : after <:+ text := by
  unfold readSigned at h
  split at h
  · exact (readNumber_suffix h).trans (List.suffix_cons _ _)
  · exact readNumber_suffix h

end Json

end Narrative
