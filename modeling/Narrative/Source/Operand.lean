import Narrative.Source.Literal

/-!
# Reading operands

`Operand.read` tries, in this order: null, a boolean, a numeral, a string, an array, an access.
The items of an array are operands themselves.
-/

namespace Narrative

namespace Text

theorem length_trim_le (text : List Char) : (trim text).length ≤ text.length := by
  have drop (l : List Char) : (l.dropWhile isBlank).length ≤ l.length :=
    (List.dropWhile_suffix _).length_le
  have h1 := drop text
  have h2 := drop (trimStart text).reverse
  simp only [trim, trimEnd, List.length_reverse] at *
  simp only [trimStart] at *
  omega

end Text

namespace Source

/-- The sum of the lengths of texts with one character more for each. -/
def extent : List (List Char) → Nat
  | [] => 0
  | text :: rest => text.length + 1 + extent rest

theorem extent_items (s : Scan) (text : List Char) : extent (items s text) = text.length + 1 := by
  induction text generalizing s with
  | nil => simp [items, extent]
  | cons c text ih =>
    unfold items
    split
    · have := ih s
      simp only [extent, List.length_nil, List.length_cons] at *
      omega
    · have := ih (s.step c)
      revert this
      cases items (s.step c) text with
      | nil => simp [extent]
      | cons piece rest =>
        intro this
        simp only [extent, List.length_cons] at *
        omega

theorem length_inside {token inner : List Char} (h : inside? token = some inner) :
    inner.length + 2 ≤ token.length := by
  unfold inside? at h
  split at h
  · rename_i rest
    split at h
    · rename_i hl
      have hne : rest ≠ [] := by rintro rfl; simp at hl
      have hpos := List.length_pos_iff.2 hne
      have := Text.length_trim_le rest.dropLast
      simp only [Option.some.injEq] at h
      subst h
      simp only [List.length_dropLast, List.length_cons] at *
      omega
    · simp at h
  · simp at h

end Source

namespace Operand

open Source

mutual

/-- The operand that a token writes, in a storyline or in none. -/
def read (storyline : Option String) (token : List Char) : Except SourceError Operand :=
  let trimmed := Text.trim token
  let word := String.ofList trimmed
  if nullWords.contains word then .ok null
  else
    match boolean? word with
    | some b => .ok (bool b)
    | none =>
      match numeral? trimmed with
      | some x => .ok (number x)
      | none =>
        match trimmed.head? with
        | some '"' =>
          match string? '"' trimmed with
          | some s => .ok (text (String.ofList s))
          | none => .error (.invalidString word)
        | some '\'' =>
          match string? '\'' trimmed with
          | some s => .ok (text (String.ofList s))
          | none => .error (.invalidString word)
        | _ =>
          match _h : inside? trimmed with
          | some [] => .ok (list [])
          | some (c :: inner) =>
            (readItems storyline word (items Scan.start (c :: inner))).map list
          | none =>
            match Source.access? storyline trimmed with
            | some (.ok path) => .ok (access path)
            | some (.error e) => .error e
            | none => .error (.invalidExpression word)
termination_by token.length
decreasing_by
  have h1 : (c :: inner).length + 2 ≤ (Text.trim token).length := length_inside _h
  have h2 := Text.length_trim_le token
  have h3 := extent_items Scan.start (c :: inner)
  rw [h3]
  omega

/-- The operands that the items of the array `word` write; a blank item is an error. -/
def readItems (storyline : Option String) (word : String) :
    List (List Char) → Except SourceError (List Operand)
  | [] => .ok []
  | item :: rest =>
    if (Text.trim item).isEmpty then .error (.invalidExpression word)
    else
      match read storyline item with
      | .error e => .error e
      | .ok operand => (readItems storyline word rest).map (operand :: ·)
termination_by texts => extent texts
decreasing_by
  all_goals simp only [extent]
  all_goals omega

end

end Operand

end Narrative
