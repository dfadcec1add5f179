import Mathlib.Tactic.Common
import Mathlib.Data.List.TakeWhile
import Narrative.Text.Blank
import Narrative.Text.Search

/-!
# Trimming and cutting texts

A trimmed text stands between two runs of blanks.  What is put behind a text stays behind its
trimmed form, and a text is cut at the first place of a mark, or into its lines.
-/

namespace Narrative.Text

/-! ### Trimming -/

theorem trimEnd_append_of_blank {text gap : List Char} (h : ∀ c ∈ gap, isBlank c = true) :
    trimEnd (text ++ gap) = trimEnd text := by
  rw [trimEnd, List.reverse_append, List.dropWhile_append_of_pos (by simpa using h), trimEnd]

theorem trimEnd_append {text more : List Char} (h : trimEnd more ≠ []) :
    trimEnd (text ++ more) = text ++ trimEnd more := by
  have hreverse : more.reverse.dropWhile isBlank ≠ [] := fun hnil => h (by rw [trimEnd, hnil]; rfl)
  rw [trimEnd, List.reverse_append, List.dropWhile_append, trimEnd]
  rw [if_neg (by simpa using hreverse), List.reverse_append, List.reverse_reverse]

theorem trimEnd_eq_nil_iff {text : List Char} :
    trimEnd text = [] ↔ ∀ c ∈ text, isBlank c = true := by
  rw [trimEnd, List.reverse_eq_nil_iff, List.dropWhile_eq_nil_iff]
  exact ⟨fun h c hc => h c (List.mem_reverse.2 hc), fun h c hc => h c (List.mem_reverse.1 hc)⟩

theorem trimEnd_ne_nil {text : List Char} {c : Char} (h : c ∈ text) (hc : isBlank c = false) :
    trimEnd text ≠ [] := by
  intro hnil
  rw [trimEnd_eq_nil_iff.1 hnil c h] at hc
  exact absurd hc (by decide)

theorem trimEnd_cons {c : Char} {text : List Char} (h : isBlank c = false) :
    trimEnd (c :: text) = c :: trimEnd text := by
  by_cases hmore : trimEnd text = []
  · have hblank : ∀ d ∈ text.reverse, isBlank d = true := fun d hd =>
      trimEnd_eq_nil_iff.1 hmore d (List.mem_reverse.1 hd)
    rw [hmore, trimEnd, List.reverse_cons, List.dropWhile_append_of_pos hblank]
    rw [List.dropWhile_cons_of_neg (by simp [h])]
    rfl
  · exact @trimEnd_append [c] text hmore

theorem trim_cons {c : Char} {text : List Char} (h : isBlank c = false) :
    trim (c :: text) = c :: trimEnd text := by
  rw [trim, trimStart, List.dropWhile_cons_of_neg (by simp [h]), trimEnd_cons h]

theorem trim_append_of_blank {gap text : List Char} (h : ∀ c ∈ gap, isBlank c = true) :
    trim (gap ++ text) = trim text := by
  rw [trim, trimStart, List.dropWhile_append_of_pos h]
  rfl

/-- A text is its trimmed form and the blanks behind it. -/
theorem exists_trimEnd (text : List Char) :
    ∃ gap, (∀ c ∈ gap, isBlank c = true) ∧ text = trimEnd text ++ gap := by
  refine ⟨(text.reverse.takeWhile isBlank).reverse, fun c hc => ?_, ?_⟩
  · exact List.all_eq_true.1 (List.all_takeWhile) c (List.mem_reverse.1 hc)
  · rw [trimEnd, ← List.reverse_append, List.takeWhile_append_dropWhile, List.reverse_reverse]

/-- A text is its trimmed form between blanks. -/
theorem exists_trim (text : List Char) :
    ∃ before gap, (∀ c ∈ before, isBlank c = true) ∧ (∀ c ∈ gap, isBlank c = true) ∧
      text = before ++ (trim text ++ gap) := by
  obtain ⟨gap, hgap, htext⟩ := exists_trimEnd (trimStart text)
  have hbefore := List.all_eq_true.1 (@List.all_takeWhile _ isBlank text)
  refine ⟨text.takeWhile isBlank, gap, hbefore, hgap, ?_⟩
  rw [trim, ← htext, trimStart, List.takeWhile_append_dropWhile]

theorem trim_eq_nil_iff {text : List Char} : trim text = [] ↔ ∀ c ∈ text, isBlank c = true := by
  constructor
  · intro h
    obtain ⟨before, gap, hbefore, hgap, htext⟩ := exists_trim text
    rw [h, List.nil_append] at htext
    intro c hc
    rw [htext] at hc
    exact (List.mem_append.1 hc).elim (hbefore c) (hgap c)
  · intro h
    have hstart : trimStart text = [] := List.dropWhile_eq_nil_iff.2 h
    rw [trim, hstart]
    rfl

theorem head_of_trim {text rest : List Char} {c : Char} (h : trim text = c :: rest) :
    isBlank c = false := by
  obtain ⟨gap, -, htext⟩ := exists_trimEnd (trimStart text)
  have hstart : trimStart text = c :: (rest ++ gap) := by
    rw [htext, show trimEnd (trimStart text) = c :: rest from h, List.cons_append]
  have hne : text.dropWhile isBlank ≠ [] := fun hnil => by
    rw [trimStart, hnil] at hstart
    exact absurd hstart (by simp)
  have hhead := List.head_dropWhile_not isBlank hne
  simpa [show text.dropWhile isBlank = c :: (rest ++ gap) from hstart] using hhead

/-- What is put behind a text stands behind its trimmed form, with a gap of blanks between them. -/
theorem exists_trim_append {text more : List Char} (htext : trim text ≠ [])
    (hmore : trimEnd more ≠ []) :
    ∃ gap, (∀ c ∈ gap, isBlank c = true) ∧
      trim (text ++ more) = trim text ++ (gap ++ trimEnd more) := by
  obtain ⟨before, gap, hbefore, hgap, heq⟩ := exists_trim text
  refine ⟨gap, hgap, ?_⟩
  obtain ⟨c, rest, hc⟩ := List.exists_cons_of_ne_nil htext
  have hblank := head_of_trim hc
  have hstart : trimStart (text ++ more) = (trim text ++ gap) ++ more := by
    conv_lhs => rw [heq]
    rw [trimStart, List.append_assoc, List.dropWhile_append_of_pos hbefore, hc, List.cons_append,
      List.cons_append, List.dropWhile_cons_of_neg (by simp [hblank])]
  rw [trim, hstart, trimEnd_append hmore, List.append_assoc]

theorem trim_trim (text : List Char) : trim (trim text) = trim text := by
  by_cases h : trim text = []
  · rw [h]
    rfl
  · obtain ⟨c, rest, hc⟩ := List.exists_cons_of_ne_nil h
    have hstart : trimStart (trim text) = trim text := by
      rw [hc, trimStart, List.dropWhile_cons_of_neg (by simp [head_of_trim hc])]
    obtain ⟨gap, hgap, htext⟩ := exists_trimEnd (trimStart text)
    rw [trim, hstart, show trim text = trimEnd (trimStart text) from rfl]
    rw [← trimEnd_append_of_blank hgap, ← htext]

/-! ### Cutting -/

theorem after?_eq_some_iff {mark text rest : List Char} :
    after? mark text = some rest ↔ text = mark ++ rest := by
  induction mark generalizing text with
  | nil => simp [after?]
  | cons m mark ih =>
    cases text with
    | nil => simp [after?]
    | cons c text =>
      rw [after?]
      split
      · rename_i heq
        simp [ih, heq]
      · rename_i hne
        simp [Ne.symm hne]

/-- A text that is cut is the text before the mark, the mark, and the text behind it. -/
theorem eq_of_cut {mark text before rest : List Char} (h : cut mark text = some (before, rest)) :
    text = before ++ mark ++ rest := by
  induction text generalizing before with
  | nil =>
    obtain ⟨found, hfound, heq⟩ := Option.map_eq_some_iff.1 h
    obtain ⟨rfl, rfl⟩ := Prod.mk.inj heq
    simpa using after?_eq_some_iff.1 hfound
  | cons c text ih =>
    rw [cut] at h
    split at h
    · rename_i found hfound
      obtain ⟨rfl, rfl⟩ := Prod.mk.inj (Option.some.inj h)
      simpa using after?_eq_some_iff.1 hfound
    · obtain ⟨parts, hparts, heq⟩ := Option.map_eq_some_iff.1 h
      obtain ⟨rfl, rfl⟩ := Prod.mk.inj heq
      rw [List.cons_append, List.cons_append, ← ih hparts]

theorem infix_of_occurs {mark text : List Char} (h : occurs mark text = true) :
    mark <:+: text := by
  obtain ⟨⟨before, rest⟩, hcut⟩ := Option.isSome_iff_exists.1 h
  exact ⟨before, rest, (eq_of_cut hcut).symm⟩

/-- A text is cut at the first place of the mark. -/
theorem exists_cut {mark before rest : List Char} :
    ∃ first behind, cut mark (before ++ mark ++ rest) = some (first, behind) ∧
      first.length ≤ before.length := by
  induction before with
  | nil =>
    cases hmark : mark ++ rest with
    | nil =>
      obtain ⟨rfl, rfl⟩ := List.append_eq_nil_iff.1 hmark
      exact ⟨[], [], rfl, Nat.le_refl _⟩
    | cons c text =>
      have hafter : after? mark (c :: text) = some rest := after?_eq_some_iff.2 hmark.symm
      exact ⟨[], rest, by rw [List.nil_append, hmark, cut, hafter], Nat.le_refl _⟩
  | cons c before ih =>
    obtain ⟨first, behind, hcut, hle⟩ := ih
    rw [List.cons_append, List.cons_append, cut]
    split
    · exact ⟨[], _, rfl, Nat.zero_le _⟩
    · exact ⟨c :: first, behind, by rw [hcut]; rfl, Nat.succ_le_succ hle⟩

/-- A text is cut at a character that does not stand before. -/
theorem cut_append_of_not_mem {mark : Char} {before rest : List Char} (h : mark ∉ before) :
    cut [mark] (before ++ mark :: rest) = some (before, rest) := by
  induction before with
  | nil => simp [cut, after?]
  | cons c before ih =>
    obtain ⟨hc, hbefore⟩ := List.ne_and_not_mem_of_not_mem_cons h
    rw [List.cons_append, cut, ih hbefore]
    simp [after?, hc]

/-! ### Lines -/

/-- Lines that follow each other in a text: each one ends with its only line feed, which the last
one may lack. -/
inductive AreLines : List (List Char) → Prop
  | nil : AreLines []
  | last {line : List Char} (filled : line ≠ []) (unended : '\n' ∉ line) : AreLines [line]
  | cons {body : List Char} {lines : List (List Char)} (inside : '\n' ∉ body)
    (rest : AreLines lines) : AreLines ((body ++ ['\n']) :: lines)

theorem linesKept_append {body rest : List Char} (h : '\n' ∉ body) :
    linesKept (body ++ '\n' :: rest) = (body ++ ['\n']) :: linesKept rest := by
  induction body with
  | nil => rfl
  | cons c body ih =>
    have hc : c ≠ '\n' := (List.ne_of_not_mem_cons h).symm
    rw [List.cons_append, linesKept, if_neg hc, ih (List.not_mem_of_not_mem_cons h)]
    rfl

theorem linesKept_of_not_mem {line : List Char} (hfilled : line ≠ []) (h : '\n' ∉ line) :
    linesKept line = [line] := by
  induction line with
  | nil => exact absurd rfl hfilled
  | cons c line ih =>
    have hc : c ≠ '\n' := (List.ne_of_not_mem_cons h).symm
    rw [linesKept, if_neg hc]
    by_cases hline : line = []
    · rw [hline]
      rfl
    · rw [ih hline (List.not_mem_of_not_mem_cons h)]

/-- A text has no other lines than those that it is cut into. -/
theorem AreLines.linesKept_flatten {lines : List (List Char)} (h : AreLines lines) :
    linesKept lines.flatten = lines := by
  induction h with
  | nil => rfl
  | last filled unended => rw [List.flatten_singleton, linesKept_of_not_mem filled unended]
  | cons inside rest ih =>
    rw [List.flatten_cons, List.append_assoc, List.singleton_append, linesKept_append inside, ih]

/-- Every text is cut into its lines. -/
theorem areLines_linesKept (text : List Char) :
    AreLines (linesKept text) ∧ (linesKept text).flatten = text := by
  induction text with
  | nil => exact ⟨.nil, rfl⟩
  | cons c text ih =>
    rw [linesKept]
    by_cases hc : c = '\n'
    · rw [if_pos hc, List.flatten_cons, ih.2, hc]
      exact ⟨.cons List.not_mem_nil ih.1, rfl⟩
    · rw [if_neg hc]
      have hfresh : '\n' ≠ c := Ne.symm hc
      generalize linesKept text = lines at ih
      obtain ⟨hlines, rfl⟩ := ih
      cases hlines with
      | nil => exact ⟨.last (List.cons_ne_nil _ _) (by simpa using hfresh), rfl⟩
      | last filled unended =>
        exact ⟨.last (List.cons_ne_nil _ _) (List.not_mem_cons_of_ne_of_not_mem hfresh unended), rfl⟩
      | @cons body lines inside rest =>
        have hbody : '\n' ∉ c :: body := List.not_mem_cons_of_ne_of_not_mem hfresh inside
        exact ⟨.cons hbody rest, rfl⟩

end Narrative.Text
