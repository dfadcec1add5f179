/-!
# Finding a text in a text

`cut mark text` splits a text at the first place where `mark` stands; the other searches of the
library are made from it.
-/

namespace Narrative.Text

/-- What follows `mark` when the text starts with it. -/
def after? : (mark text : List Char) → Option (List Char)
  | [], text => some text
  | _ :: _, [] => none
  | m :: mark, c :: text => if m = c then after? mark text else none

/-- The text before and the text behind the first place where `mark` stands. -/
def cut (mark : List Char) : List Char → Option (List Char × List Char)
  | [] => (after? mark []).map ([], ·)
  | c :: text =>
    match after? mark (c :: text) with
    | some rest => some ([], rest)
    | none => (cut mark text).map fun parts => (c :: parts.1, parts.2)

/-- Whether `mark` stands anywhere in the text. -/
def occurs (mark text : List Char) : Bool :=
  (cut mark text).isSome

/-- The text with the first `mark` in it, if any, turned into `put`. -/
def replaceFirst (mark put text : List Char) : List Char :=
  match cut mark text with
  | some (before, rest) => before ++ put ++ rest
  | none => text

/-- The pieces of a text between the places where the character `mark` stands. -/
def pieces (mark : Char) : List Char → List (List Char)
  | [] => [[]]
  | c :: text =>
    if c = mark then [] :: pieces mark text
    else
      match pieces mark text with
      | [] => [[c]]
      | piece :: rest => (c :: piece) :: rest

/-- The lines of a text, each with the line feed that ends it; the last one may lack it. -/
def linesKept : List Char → List (List Char)
  | [] => []
  | c :: text =>
    if c = '\n' then ['\n'] :: linesKept text
    else
      match linesKept text with
      | [] => [[c]]
      | line :: rest => (c :: line) :: rest

/-- The text before the ending `mark`, when the text ends with it. -/
def before? (mark text : List Char) : Option (List Char) :=
  (after? mark.reverse text.reverse).map List.reverse

end Narrative.Text
