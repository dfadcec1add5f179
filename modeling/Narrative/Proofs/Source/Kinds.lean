import Mathlib.Data.List.Forall2
import Narrative.Proofs.Source.Balance

/-!
# The reader of a token

The readers of single operands never compete: a word, a numeral, a quoted string, an array and an
access look different.  So a token is read as an operand exactly when one of the readers, on its
own, makes that operand of the trimmed token.
-/

namespace Narrative

/-! ### Trimmed texts -/

namespace Text

theorem trim_eq_self {text : List Char} (hfirst : ∀ c ∈ text.head?, isBlank c = false)
    (hlast : ∀ c ∈ text.getLast?, isBlank c = false) : trim text = text := by
  cases text with
  | nil => rfl
  | cons c rest =>
    rw [trim_cons (hfirst c rfl)]
    by_cases hrest : rest = []
    · rw [hrest]
      rfl
    · have hend : trimEnd rest = rest := by
        obtain ⟨before, last, rfl⟩ : ∃ before last, rest = before ++ [last] :=
          ⟨_, _, (List.dropLast_concat_getLast hrest).symm⟩
        have hblank : isBlank last = false := by
          rw [← List.cons_append, List.getLast?_concat] at hlast
          exact hlast last rfl
        rw [trimEnd_append (by rw [trimEnd_cons hblank]; exact List.cons_ne_nil _ _),
          trimEnd_cons hblank]
        rfl
      rw [hend]

end Text

namespace Source

theorem Bare.trim {token : List Char} (h : Bare token) : Text.trim token = token := by
  have hblank : ∀ c ∈ token, Text.isBlank c = false := fun c hc => by
    have hbare := (Bool.and_eq_true_iff.1 (h.2 c hc)).1
    simpa using hbare
  exact Text.trim_eq_self (fun c hc => hblank c (List.mem_of_mem_head? hc))
    fun c hc => hblank c (List.mem_of_getLast? hc)

theorem trim_enclosed {first last : Char} (between : List Char)
    (hfirst : Text.isBlank first = false) (hlast : Text.isBlank last = false) :
    Text.trim (first :: (between ++ [last])) = first :: (between ++ [last]) := by
  refine Text.trim_eq_self ?_ ?_
  · rintro c hc
    obtain rfl := Option.some.inj hc
    exact hfirst
  · intro c hc
    rw [← List.cons_append, List.getLast?_concat] at hc
    obtain rfl := Option.some.inj hc
    exact hlast

theorem Quoted.trim {mark : Char} {token : List Char} (h : Quoted mark token) :
    Text.trim token = token := by
  obtain ⟨hquote, inside, rfl, -⟩ := h
  rcases hquote with rfl | rfl
  · exact trim_enclosed inside (by decide) (by decide)
  · exact trim_enclosed inside (by decide) (by decide)

theorem trim_of_inside {token inner : List Char} (h : inside? token = some inner) :
    Text.trim token = token := by
  obtain ⟨between, rfl, -⟩ := eq_of_inside h
  exact trim_enclosed between (by decide) (by decide)

/-! ### Words -/

theorem mem_words_of_boolean {word : String} {b : Bool} (h : boolean? word = some b) :
    word ∈ ["true", "True", "TRUE", "false", "False", "FALSE"] := by
  unfold boolean? at h
  split at h
  · rename_i hword
    exact List.mem_append_left ["false", "False", "FALSE"] (List.contains_iff_mem.1 hword)
  · split at h
    · rename_i hword
      exact List.mem_append_right ["true", "True", "TRUE"] (List.contains_iff_mem.1 hword)
    · cases h

/-- The token is none of the words. -/
structure Wordless (token : List Char) : Prop where
  null : ¬ nullWords.contains (String.ofList token) = true
  boolean : boolean? (String.ofList token) = none

/-- What holds of no word keeps a token from being one. -/
theorem Wordless.of_words {token : List Char} (P : List Char → Prop) (hP : P token)
    (hwords : ∀ word ∈ nullWords ++ ["true", "True", "TRUE", "false", "False", "FALSE"],
      ¬ P word.toList) : Wordless token := by
  have hword : String.ofList token ∉
      nullWords ++ ["true", "True", "TRUE", "false", "False", "FALSE"] := by
    intro hmem
    have hnot := hwords _ hmem
    rw [String.toList_ofList] at hnot
    exact hnot hP
  refine ⟨fun hnull => hword (List.mem_append_left _ (List.contains_iff_mem.1 hnull)), ?_⟩
  exact Option.eq_none_iff_forall_ne_some.2 fun b hb =>
    hword (List.mem_append_right _ (mem_words_of_boolean hb))

theorem Wordless.of_not_bare {token : List Char} (h : ¬ Bare token) : Wordless token :=
  .of_words (fun text => ¬ Bare text) h (by decide)

theorem Wordless.of_numeral {token : List Char} {x : Float} (h : numeral? token = some x) :
    Wordless token := by
  unfold numeral? at h
  split at h
  · rename_i hchars
    exact .of_words (fun text => text.any Decimal.isDigit = true)
      (Bool.and_eq_true_iff.1 hchars).1 (by decide)
  · cases h

theorem numeral_of_not_bare {token : List Char} (h : ¬ Bare token) : numeral? token = none :=
  Option.eq_none_iff_forall_ne_some.2 fun _ hx => h (bare_of_numeral hx)

/-! ### Accesses -/

/-- Slugs and indices have no other characters than slugs. -/
theorem isSlugChar_of_mem {text : List Char}
    (h : isSlugText text = true ∨ isIndexText text = true) : ∀ c ∈ text, isSlugChar c = true := by
  rcases h with hslug | hindex
  · cases text with
    | nil => cases hslug
    | cons c rest =>
      obtain ⟨hfirst, hrest⟩ := Bool.and_eq_true_iff.1 hslug
      refine List.forall_mem_cons.2 ⟨?_, List.all_eq_true.1 hrest⟩
      rw [isSlugChar, hfirst]
      rfl
  · intro c hc
    have hdigit := List.all_eq_true.1 (Bool.and_eq_true_iff.1 hindex).2 c hc
    rw [isSlugChar, hdigit, Bool.or_true]
    rfl

theorem mem_of_firstSegments {storyline : Option String} {token first : String}
    {segments : List String} (h : firstSegments storyline token first = .ok segments) :
    first ∈ ["global", "g", "resources", "r", "storylines", "s", "sl"] := by
  unfold firstSegments at h
  split at h
  · rename_i hfirst
    rcases hfirst with rfl | rfl
    all_goals decide
  split at h
  · rename_i hfirst
    rcases hfirst with rfl | rfl
    all_goals decide
  split at h
  · rename_i hfirst
    rcases hfirst with rfl | rfl
    all_goals decide
  split at h
  · rename_i hfirst
    rw [hfirst]
    decide
  · cases h

/-- An access starts with the first letter of a root, which starts neither a word nor a numeral. -/
theorem head_of_access {storyline : Option String} {token : List Char} {path : Access}
    (h : access? storyline token = some (.ok path)) :
    ∃ c rest, token = c :: rest ∧ c ∈ ['g', 'r', 's'] := by
  unfold access? at h
  split at h
  · rename_i first rest hpieces
    split at h
    · cases h
    obtain ⟨segments, hsegments, -⟩ := Except.exists_of_map (Option.some.inj h)
    have hfirst := mem_of_firstSegments hsegments
    have hheads : ∀ name ∈ ["global", "g", "resources", "r", "storylines", "s", "sl"],
        name.toList.head?.any ['g', 'r', 's'].contains = true := by decide
    obtain ⟨c, hhead, hc⟩ := (Option.any_eq_true _ _).1 (hheads _ hfirst)
    rw [List.contains_iff_mem] at hc
    rw [String.toList_ofList] at hhead
    obtain ⟨more, rfl⟩ := List.head?_eq_some_iff.1 hhead
    cases token with
    | nil => cases hpieces
    | cons d text =>
      rw [Text.pieces] at hpieces
      split at hpieces
      · cases hpieces
      · split at hpieces
        all_goals
          obtain ⟨heq, -⟩ := List.cons_eq_cons.1 hpieces
          obtain ⟨rfl, -⟩ := List.cons_eq_cons.1 heq
          exact ⟨d, text, rfl, hc⟩
  · cases h

/-- That letter starts neither a numeral nor a string nor an array. -/
theorem unmarked_of_mem {c : Char} (hc : c ∈ ['g', 'r', 's']) :
    isNumeralChar c = false ∧ c ≠ '"' ∧ c ≠ '\'' ∧ c ≠ '[' := by
  simp only [List.mem_cons, List.not_mem_nil, or_false] at hc
  rcases hc with rfl | rfl | rfl
  all_goals decide

end Source

namespace Operand

open Source

variable {storyline : Option String} {token : List Char} {operand : Operand}

theorem Reads.trim (h : Reads storyline token operand) : Text.trim token = token := by
  rcases h.shape with hbare | ⟨mark, hquoted⟩ | ⟨between, rfl, -⟩
  · exact hbare.trim
  · exact hquoted.trim
  · exact trim_enclosed between (by decide) (by decide)

theorem not_bare_of_quoted {mark : Char} (h : Quoted mark token) : ¬ Bare token := by
  obtain ⟨hquote, inside, rfl, -⟩ := h
  rcases hquote with rfl | rfl
  all_goals exact not_bare_cons (by decide)

theorem not_bare_of_inside {inner : List Char} (h : inside? token = some inner) : ¬ Bare token := by
  obtain ⟨between, rfl, -⟩ := eq_of_inside h
  exact not_bare_cons (by decide)

theorem read_of_string {mark : Char} {s : List Char} (quote : mark = '"' ∨ mark = '\'')
    (head : token.head? = some mark) (string : string? mark token = some s) :
    read storyline token = .ok (text (String.ofList s)) := by
  have hquoted := quoted_of_string quote head string
  have hbare := not_bare_of_quoted hquoted
  obtain ⟨hnull, hboolean⟩ := Wordless.of_not_bare hbare
  rw [read, hquoted.trim, if_neg hnull]
  simp only [hboolean, numeral_of_not_bare hbare, head]
  rcases quote with rfl | rfl
  · simp only [string]
  · simp only [string]

/-- What is read of a token in brackets. -/
theorem read_of_inside {inner : List Char} (h : inside? token = some inner) :
    read storyline token = if inner = [] then .ok (list []) else
      (readItems storyline (String.ofList token) (items Scan.start inner)).map list := by
  have hbare := not_bare_of_inside h
  obtain ⟨hnull, hboolean⟩ := Wordless.of_not_bare hbare
  have hhead : token.head? = some '[' := by
    obtain ⟨between, rfl, -⟩ := eq_of_inside h
    rfl
  rw [read, trim_of_inside h, if_neg hnull]
  simp only [hboolean, numeral_of_not_bare hbare, hhead]
  split
  · rename_i hmark
    exact absurd (Option.some.inj hmark) (by decide)
  · rename_i hmark
    exact absurd (Option.some.inj hmark) (by decide)
  · split
    · rename_i hinside
      rw [if_pos (Option.some.inj (h.symm.trans hinside))]
    · rename_i c rest hinside
      rw [Option.some.inj (h.symm.trans hinside), if_neg (List.cons_ne_nil _ _)]
    · rename_i hinside
      rw [h] at hinside
      cases hinside

theorem read_of_access {path : Access} (h : Source.access? storyline token = some (.ok path)) :
    read storyline token = .ok (access path) := by
  obtain ⟨c, rest, htoken, hc⟩ := head_of_access h
  have hhead : token.head? = some c := by rw [htoken]; rfl
  obtain ⟨hnull, hboolean⟩ := Wordless.of_words
    (fun text => text.head?.any ['g', 'r', 's'].contains = true)
    ((Option.any_eq_true _ _).2 ⟨c, hhead, List.contains_iff_mem.2 hc⟩) (by decide)
  obtain ⟨hchar, hdouble, hsingle, hbracket⟩ := Source.unmarked_of_mem hc
  have hnumeral : numeral? token = none := by
    have hall : token.all isNumeralChar = false := by
      rw [htoken, List.all_cons, hchar]
      rfl
    rw [numeral?, hall, Bool.and_false]
    rfl
  rw [read, (bare_of_access h).trim, if_neg hnull]
  simp only [hboolean, hnumeral, hhead]
  split
  · rename_i hmark
    exact absurd (Option.some.inj hmark) hdouble
  · rename_i hmark
    exact absurd (Option.some.inj hmark) hsingle
  · have hinside : inside? token = none := by
      refine Option.eq_none_iff_forall_ne_some.2 fun inner hinner => ?_
      obtain ⟨between, hbrackets, -⟩ := eq_of_inside hinner
      exact hbracket (List.cons_eq_cons.1 (htoken.symm.trans hbrackets)).1
    split
    · rename_i hinner
      rw [hinside] at hinner
      cases hinner
    · rename_i hinner
      rw [hinside] at hinner
      cases hinner
    · simp only [h]

/-- Blanks around a token do not matter. -/
theorem read_trim : read storyline (Text.trim token) = read storyline token := by
  rw [read.eq_def storyline (Text.trim token), read.eq_def storyline token, Text.trim_trim]

mutual

/-- Whatever a reader makes of a token is what is read of it. -/
theorem Reads.read {storyline : Option String} {token : List Char} {operand : Operand} :
    Reads storyline token operand → Operand.read storyline token = .ok operand
  | .null word => by
    rw [Operand.read, (bare_of_null word).trim, if_pos word]
  | .bool word => by
    have hwords : ∀ word ∈ ["true", "True", "TRUE", "false", "False", "FALSE"],
        ¬ nullWords.contains word = true := by decide
    rw [Operand.read, (bare_of_boolean word).trim, if_neg (hwords _ (mem_words_of_boolean word))]
    simp only [word]
  | .number numeral => by
    obtain ⟨hnull, hboolean⟩ := Wordless.of_numeral numeral
    rw [Operand.read, (bare_of_numeral numeral).trim, if_neg hnull]
    simp only [hboolean, numeral]
  | .text quote head string => read_of_string quote head string
  | .empty inside => by rw [read_of_inside inside, if_pos rfl]
  | .list filled inside each => by
    rw [read_of_inside inside, if_neg filled, each.readItems]
    rfl
  | .access segments => read_of_access segments

theorem ReadsEach.readItems {storyline : Option String} {texts : List (List Char)}
    {operands : List Operand} {word : String} :
    ReadsEach storyline texts operands → Operand.readItems storyline word texts = .ok operands
  | .nil => by rw [Operand.readItems]
  | .cons filled first others => by
    rw [Operand.readItems, if_neg fun hnil => filled (List.isEmpty_iff.1 hnil)]
    rw [← read_trim, first.read, others.readItems]
    rfl

end

/-- A token is read by one reader, whichever makes an operand of it. -/
theorem read_eq_ok_iff :
    read storyline token = .ok operand ↔ Reads storyline (Text.trim token) operand := by
  constructor
  · exact reads_of_read
  · intro h
    rw [← read_trim, h.read]

end Operand

end Narrative
