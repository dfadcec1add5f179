import Narrative.Proofs.Source.Kinds

/-!
# Strings between quotes

`Spells` says which characters inside a pair of quotes stand for which text, and every text is
spelled by itself with a backslash before each of these quotes and each backslash.  Reading is the
inverse of spelling: what starts with a quote is a string that is spelled out up to an equal quote
at its end, or it is refused as a string.
-/

namespace Narrative

namespace Source

/-- The characters between two quotes that stand for a text.  A backslash takes the special meaning
away from the quote and from itself, and before any other character it stands for itself. -/
inductive Spells (mark : Char) : List Char → List Char → Prop
  | nil : Spells mark [] []
  | plain {c : Char} {inside text : List Char} (ordinary : c ≠ mark ∧ c ≠ '\\')
    (rest : Spells mark inside text) : Spells mark (c :: inside) (c :: text)
  | escaped {c : Char} {inside text : List Char} (special : c = mark ∨ c = '\\')
    (rest : Spells mark inside text) : Spells mark ('\\' :: c :: inside) (c :: text)
  | backslash {c : Char} {inside text : List Char} (ordinary : c ≠ mark ∧ c ≠ '\\')
    (rest : Spells mark inside text) : Spells mark ('\\' :: c :: inside) ('\\' :: c :: text)

/-- A character between two quotes, behind a backslash where it needs one. -/
def escapeChar (mark c : Char) : List Char :=
  if c = mark ∨ c = '\\' then ['\\', c] else [c]

/-- A text between two quotes. -/
def enclose (mark : Char) (text : List Char) : List Char :=
  mark :: (text.flatMap (escapeChar mark) ++ [mark])

variable {mark : Char}

theorem spells_escape (mark : Char) (text : List Char) :
    Spells mark (text.flatMap (escapeChar mark)) text := by
  induction text with
  | nil => exact .nil
  | cons c rest ih =>
    rw [List.flatMap_cons, escapeChar]
    split
    · rename_i hspecial
      exact .escaped hspecial ih
    · rename_i hordinary
      exact .plain (not_or.1 hordinary) ih

theorem Spells.unescape {inside text : List Char} (h : Spells mark inside text) :
    unescape? mark inside = some text := by
  induction h with
  | nil => rfl
  | plain ordinary _ ih =>
    rw [unescape?.eq_def]
    simp only [if_neg ordinary.1, if_neg ordinary.2, ih, Option.map_some]
  | escaped special _ ih =>
    rw [unescape?.eq_def]
    simp only [if_pos special, ih, Option.map_some, if_true]
  | backslash ordinary _ ih =>
    rw [unescape?.eq_def]
    simp only [if_neg (not_or.2 ordinary), ih, Option.map_some, if_true]

theorem spells_of_unescape {inside text : List Char} (h : unescape? mark inside = some text) :
    Spells mark inside text := by
  induction inside using unescape?.induct mark generalizing text with
  | case1 =>
    obtain rfl := Option.some.inj h
    exact .nil
  | case2 => cases h
  | case3 e rest special ih =>
    rw [unescape?, if_pos rfl, if_pos special] at h
    obtain ⟨others, hothers, rfl⟩ := Option.map_eq_some_iff.1 h
    exact .escaped special (ih hothers)
  | case4 e rest ordinary ih =>
    rw [unescape?, if_pos rfl, if_neg ordinary] at h
    obtain ⟨others, hothers, rfl⟩ := Option.map_eq_some_iff.1 h
    exact .backslash (not_or.1 ordinary) (ih hothers)
  | case5 rest hslash =>
    rw [unescape_mark hslash] at h
    cases h
  | case6 c rest hslash hmark ih =>
    rw [unescape?.eq_def] at h
    simp only [if_neg hslash, if_neg hmark] at h
    obtain ⟨others, hothers, rfl⟩ := Option.map_eq_some_iff.1 h
    exact .plain ⟨hmark, hslash⟩ (ih hothers)

/-- A string is what it spells between two equal quotes. -/
theorem string_eq_some_iff {token text : List Char} (hhead : token.head? = some mark) :
    string? mark token = some text ↔
      ∃ inside, token = mark :: (inside ++ [mark]) ∧ Spells mark inside text := by
  obtain ⟨rest, rfl⟩ := List.head?_eq_some_iff.1 hhead
  rw [string?]
  constructor
  · intro h
    split at h
    · rename_i hlast
      refine ⟨rest.dropLast, ?_, spells_of_unescape h⟩
      rw [← eq_dropLast_append hlast]
    · cases h
  · rintro ⟨inside, htoken, hspells⟩
    obtain ⟨-, rfl⟩ := List.cons_eq_cons.1 htoken
    rw [List.getLast?_concat, if_pos rfl, List.dropLast_concat, hspells.unescape]

end Source

namespace Operand

open Source

variable {storyline : Option String} {mark : Char} {token : List Char}

/-- No word and no numeral starts with a quote, so the reader of strings has its way with what
does. -/
theorem read_of_head (hmark : mark = '"' ∨ mark = '\'')
    (hhead : (Text.trim token).head? = some mark) :
    read storyline token = match string? mark (Text.trim token) with
      | some s => .ok (text (String.ofList s))
      | none => .error (.invalidString (String.ofList (Text.trim token))) := by
  have hbare : ¬ Bare (Text.trim token) := by
    obtain ⟨rest, hrest⟩ := List.head?_eq_some_iff.1 hhead
    rw [hrest]
    rcases hmark with rfl | rfl
    all_goals exact not_bare_cons (by decide)
  obtain ⟨hnull, hboolean⟩ := Wordless.of_not_bare hbare
  rw [read, if_neg hnull]
  simp only [hboolean, numeral_of_not_bare hbare, hhead]
  rcases hmark with rfl | rfl
  · rfl
  · rfl

/-- A text in quotes is read as that text, whatever its characters.  A token that starts with a
quote is a string that it spells up to an equal quote at its end, and so is that string in quotes;
or it spells none and is refused as a string. -/
theorem read_string_literals (storyline : Option String) (hmark : mark = '"' ∨ mark = '\'') :
    (∀ s : String, read storyline (enclose mark s.toList) = .ok (text s)) ∧
      ∀ token, (Text.trim token).head? = some mark →
        (∃ s : String, read storyline token = .ok (text s) ∧
            (∃ inside, Text.trim token = mark :: (inside ++ [mark]) ∧
              Spells mark inside s.toList) ∧
            read storyline (enclose mark s.toList) = read storyline token) ∨
          (read storyline token = .error (.invalidString (String.ofList (Text.trim token))) ∧
            ¬∃ inside s, Text.trim token = mark :: (inside ++ [mark]) ∧ Spells mark inside s) := by
  have hblank : Text.isBlank mark = false := by
    rcases hmark with rfl | rfl
    all_goals decide
  have hwritten : ∀ s : String, read storyline (enclose mark s.toList) = .ok (text s) := by
    intro s
    have htrim : Text.trim (enclose mark s.toList) = enclose mark s.toList :=
      trim_enclosed _ hblank hblank
    have hstring : string? mark (enclose mark s.toList) = some s.toList :=
      (string_eq_some_iff rfl).2 ⟨_, rfl, spells_escape mark s.toList⟩
    rw [read_of_head hmark (by rw [htrim]; rfl), htrim, hstring]
    dsimp only
    rw [String.ofList_toList]
  refine ⟨hwritten, fun token hhead => ?_⟩
  have hread := @read_of_head storyline mark token hmark hhead
  cases hstring : string? mark (Text.trim token) with
  | some s =>
    rw [hstring] at hread
    have hspells := (string_eq_some_iff hhead).1 hstring
    rw [← String.toList_ofList (l := s)] at hspells
    exact Or.inl ⟨_, hread, hspells, (hwritten _).trans hread.symm⟩
  | none =>
    rw [hstring] at hread
    refine Or.inr ⟨hread, ?_⟩
    rintro ⟨inside, s, hspells⟩
    rw [(string_eq_some_iff hhead).2 ⟨inside, hspells⟩] at hstring
    cases hstring

/-- A text with quotes of both kinds and with a backslash before a line break, in single quotes.  A
last quote behind a backslash leaves a string without an end. -/
theorem read_string_literals_word :
    read none (enclose '\'' "it's \"so\"\\\n".toList) = .ok (text "it's \"so\"\\\n") ∧
      read none " 'it\\'s\\' ".toList = .error (.invalidString "'it\\'s\\'") := by
  obtain ⟨hwritten, hquoted⟩ := @read_string_literals '\'' none (Or.inr rfl)
  have htrim : Text.trim " 'it\\'s\\' ".toList = '\'' :: ("it\\'s\\".toList ++ ['\'']) := by
    decide +kernel
  refine ⟨hwritten _, ?_⟩
  rcases hquoted " 'it\\'s\\' ".toList (by rw [htrim]; rfl) with
    ⟨s, -, ⟨inside, hinside, hspells⟩, -⟩ | ⟨hrefused, -⟩
  · rw [htrim] at hinside
    obtain rfl := List.append_cancel_right (List.cons_eq_cons.1 hinside).2
    have hopen : unescape? '\'' "it\\'s\\".toList = none := by decide +kernel
    cases hopen.symm.trans hspells.unescape
  · rw [hrefused, htrim]
    rfl

end Operand

end Narrative
