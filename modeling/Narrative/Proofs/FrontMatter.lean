import Narrative.FrontMatter
import Narrative.Proofs.Text.Trimming

/-!
# Documents between fences

A document is read line by line behind the byte order mark that it may start with.  Its first line
has to be a fence, its header is what stands before the next fence, and its body is all that comes
behind, later fences included.  Nothing of the text is lost.
-/

namespace Narrative.FrontMatter

open Text

/-! ### Fences -/

/-- Three hyphens, and white space behind them. -/
def Fence (line : List Char) : Prop :=
  ∃ gap, line = '-' :: '-' :: '-' :: gap ∧ ∀ c ∈ gap, isBlank c = true

theorem isFence_iff {line : List Char} : isFence line = true ↔ Fence line := by
  rw [isFence, beq_iff_eq]
  constructor
  · intro h
    obtain ⟨gap, hgap, hline⟩ := exists_trimEnd line
    rw [h] at hline
    exact ⟨gap, hline, hgap⟩
  · rintro ⟨gap, rfl, hgap⟩
    exact @trimEnd_append_of_blank ['-', '-', '-'] gap hgap

/-- The lines before the first fence are no fences. -/
theorem cutAtFence_append {before after : List (List Char)} {fence : List Char}
    (hbefore : ∀ line ∈ before, ¬ Fence line) (hfence : Fence fence) :
    cutAtFence (before ++ fence :: after) = some (before, after) := by
  induction before with
  | nil => rw [List.nil_append, cutAtFence, if_pos (isFence_iff.2 hfence)]
  | cons line before ih =>
    obtain ⟨hline, hrest⟩ := List.forall_mem_cons.1 hbefore
    rw [List.cons_append, cutAtFence, if_neg fun h => hline (isFence_iff.1 h), ih hrest]
    rfl

theorem cutAtFence_eq_none {lines : List (List Char)} (h : ∀ line ∈ lines, ¬ Fence line) :
    cutAtFence lines = none := by
  induction lines with
  | nil => rfl
  | cons line lines ih =>
    obtain ⟨hline, hrest⟩ := List.forall_mem_cons.1 h
    rw [cutAtFence, if_neg fun hfence => hline (isFence_iff.1 hfence), ih hrest]
    rfl

theorem exists_parts {lines : List (List Char)} (h : ∃ line ∈ lines, Fence line) :
    ∃ before fence after, lines = before ++ fence :: after ∧ Fence fence ∧
      ∀ line ∈ before, ¬ Fence line := by
  induction lines with
  | nil => simp at h
  | cons line lines ih =>
    by_cases hline : Fence line
    · exact ⟨[], line, lines, rfl, hline, List.forall_mem_nil _⟩
    · obtain ⟨fence, hmem, hfence⟩ := h
      have hlater : ∃ line ∈ lines, Fence line := by
        rcases List.mem_cons.1 hmem with rfl | hmem
        · exact absurd hfence hline
        · exact ⟨fence, hmem, hfence⟩
      obtain ⟨before, found, after, rfl, hfound, hbefore⟩ := ih hlater
      exact ⟨line :: before, found, after, rfl, hfound, List.forall_mem_cons.2 ⟨hline, hbefore⟩⟩

/-! ### Documents -/

/-- The lines of a document behind the byte order mark that it may start with. -/
structure Lined (content mark : List Char) (lines : List (List Char)) : Prop where
  whole : content = mark ++ lines.flatten
  lines : AreLines lines
  mark : mark = [orderMark] ∨ mark = [] ∧ content.head? ≠ some orderMark

theorem Lined.linesKept {content mark : List Char} {lines : List (List Char)}
    (h : Lined content mark lines) : linesKept (dropOrderMark content) = lines := by
  have hdropped : dropOrderMark content = lines.flatten := by
    rw [h.whole]
    rcases h.mark with hmark | ⟨hmark, hhead⟩
    · rw [hmark, List.singleton_append, dropOrderMark, if_pos rfl]
    · have hcontent := h.whole
      rw [hmark, List.nil_append] at hcontent ⊢
      rw [hcontent] at hhead
      cases hlines : lines.flatten with
      | nil => rfl
      | cons c rest =>
        rw [hlines] at hhead
        exact if_neg fun hc => hhead (congrArg some hc)
  rw [hdropped, h.lines.linesKept_flatten]

theorem exists_lined (content : List Char) : ∃ mark lines, Lined content mark lines := by
  obtain ⟨hlines, hflatten⟩ := areLines_linesKept (dropOrderMark content)
  by_cases hhead : content.head? = some orderMark
  · obtain ⟨rest, rfl⟩ := List.head?_eq_some_iff.1 hhead
    rw [dropOrderMark, if_pos rfl] at hlines hflatten
    exact ⟨[orderMark], _, by rw [hflatten]; rfl, hlines, Or.inl rfl⟩
  · have hdropped : dropOrderMark content = content := by
      cases content with
      | nil => rfl
      | cons c rest => exact if_neg fun hc => hhead (congrArg some hc)
    rw [hdropped] at hlines hflatten
    exact ⟨[], _, hflatten.symm, hlines, Or.inr ⟨rfl, hhead⟩⟩

/-- The first line is a fence, and so is some later line. -/
def Fenced (lines : List (List Char)) : Prop :=
  ∃ opening rest, lines = opening :: rest ∧ Fence opening ∧ ∃ line ∈ rest, Fence line

theorem Lined.parts {content mark : List Char} {opening closing : List Char}
    {before after : List (List Char)}
    (h : Lined content mark (opening :: (before ++ closing :: after))) (hopening : Fence opening)
    (hclosing : Fence closing) (hbefore : ∀ line ∈ before, ¬ Fence line) :
    parts? content = some (before.flatten, after.flatten) := by
  rw [parts?, h.linesKept]
  dsimp only
  rw [if_pos (isFence_iff.2 hopening), cutAtFence_append hbefore hclosing]
  rfl

theorem Lined.parts_eq_none {content mark : List Char} {lines : List (List Char)}
    (h : Lined content mark lines) (hfenced : ¬ Fenced lines) : parts? content = none := by
  rw [parts?, h.linesKept]
  cases lines with
  | nil => rfl
  | cons opening rest =>
    dsimp only
    by_cases hopening : Fence opening
    · have hrest : ∀ line ∈ rest, ¬ Fence line := fun line hline hfence =>
        hfenced ⟨opening, rest, rfl, hopening, line, hline, hfence⟩
      rw [if_pos (isFence_iff.2 hopening), cutAtFence_eq_none hrest]
      rfl
    · rw [if_neg fun hfence => hopening (isFence_iff.1 hfence)]

theorem read_of_parts {content : String} {header body : List Char}
    (h : parts? content.toList = some (header, body)) (name : String) :
    read name content =
      if allBlank header then .ok ⟨.null, String.ofList (trim body)⟩
      else (Yaml.read? (String.ofList header)).elim (.error (.yaml name))
        fun document => .ok ⟨document, String.ofList (trim body)⟩ := by
  rw [read, h]
  dsimp only
  by_cases hblank : allBlank header = true
  · rw [if_pos hblank, readHeader?, if_pos hblank]
  · rw [if_neg hblank, readHeader?, if_neg hblank]
    cases Yaml.read? (String.ofList header) <;> rfl

/-- Whatever stands between two fences, it is not for a lack of fences that it is refused. -/
theorem read_ne_notFrontMatter {content : String} {header body : List Char}
    (h : parts? content.toList = some (header, body)) (name : String) :
    read name content ≠ .error (.notFrontMatter name) := by
  rw [read_of_parts h]
  split
  · exact nofun
  · cases Yaml.read? (String.ofList header) <;> exact nofun

/-- A text is no document exactly when its first line is no fence or no later line is one.
Otherwise its header is the text between its first two fences, which is not read when it is blank,
and its body is the trimmed text behind them, whatever lines it has. -/
theorem read_between_fences (name content : String) :
    (∃ mark lines, Lined content.toList mark lines) ∧
      ∀ mark lines, Lined content.toList mark lines →
        (read name content = .error (.notFrontMatter name) ↔ ¬ Fenced lines) ∧
        ∀ opening before closing after, lines = opening :: (before ++ closing :: after) →
          Fence opening → (∀ line ∈ before, ¬ Fence line) → Fence closing →
          content.toList =
              mark ++ opening ++ before.flatten ++ closing ++ after.flatten ∧
            read name content =
              if allBlank before.flatten then
                .ok ⟨.null, String.ofList (trim after.flatten)⟩
              else (Yaml.read? (String.ofList before.flatten)).elim (.error (.yaml name))
                fun header => .ok ⟨header, String.ofList (trim after.flatten)⟩ := by
  refine ⟨exists_lined _, fun mark lines hlined => ⟨⟨fun hread hfenced => ?_, fun h => ?_⟩, ?_⟩⟩
  · obtain ⟨opening, rest, rfl, hopening, hlater⟩ := hfenced
    obtain ⟨before, closing, after, rfl, hclosing, hbefore⟩ := exists_parts hlater
    exact read_ne_notFrontMatter (hlined.parts hopening hclosing hbefore) name hread
  · rw [read, hlined.parts_eq_none h]
  · rintro opening before closing after rfl hopening hbefore hclosing
    refine ⟨?_, read_of_parts (hlined.parts hopening hclosing hbefore) name⟩
    rw [hlined.whole]
    simp

/-- A document with a byte order mark and line breaks of two characters, a fence in its body, and no
line break at its end. -/
def letter : String :=
  "\ufeff---\r\nto: pier\r\n--- \r\nDear\n---\nyours"

/-- The lines of the letter. -/
def letterLines : List (List Char) :=
  ["---\r\n", "to: pier\r\n", "--- \r\n", "Dear\n", "---\n", "yours"].map String.toList

theorem lined_letter : Lined letter.toList [orderMark] letterLines := by
  have hlines : linesKept letterLines.flatten = letterLines := by decide +kernel
  refine ⟨by decide +kernel, ?_, Or.inl rfl⟩
  rw [← hlines]
  exact (areLines_linesKept _).1

/-- The header of the letter ends at the second fence, and the third one stays in its body. -/
theorem read_between_fences_letter :
    Lined letter.toList [orderMark] letterLines ∧ Fenced letterLines ∧
      read "letter.md" letter = .ok ⟨.obj [("to", .str "pier")], "Dear\n---\nyours"⟩ := by
  obtain ⟨-, hread⟩ := read_between_fences "letter.md" letter
  obtain ⟨-, hparts⟩ := hread _ _ lined_letter
  have hopening : Fence "---\r\n".toList := isFence_iff.1 (by decide +kernel)
  have hclosing : Fence "--- \r\n".toList := isFence_iff.1 (by decide +kernel)
  have hheader : ∀ line ∈ ["to: pier\r\n".toList], ¬ Fence line := by
    refine List.forall_mem_singleton.2 fun hfence => ?_
    exact absurd (isFence_iff.2 hfence) (by decide +kernel)
  have hyaml : Yaml.read? (String.ofList ["to: pier\r\n".toList].flatten) =
      some (.obj [("to", .str "pier")]) := by decide +kernel
  refine ⟨lined_letter, ⟨_, _, rfl, hopening, "--- \r\n".toList, by simp, hclosing⟩, ?_⟩
  obtain ⟨-, hletter⟩ := hparts "---\r\n".toList ["to: pier\r\n".toList] "--- \r\n".toList
    (["Dear\n", "---\n", "yours"].map String.toList) rfl hopening hheader hclosing
  rw [hletter, if_neg (by decide +kernel), hyaml]
  rfl

end Narrative.FrontMatter
