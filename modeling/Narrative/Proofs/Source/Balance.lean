import Mathlib.Tactic.Common
import Narrative.Proofs.Source.Token
import Narrative.Proofs.Text.Trimming

/-!
# Tokens are balanced

A scan over a token that is read closes every quote and every bracket that the token opens, so
behind the token it stands where it stood before.  Therefore no token that is read goes on, behind a
blank or a closing bracket, as another token that is read.
-/

namespace Narrative.Source

/-! ### Scans -/

/-- A scan outside all quotes, inside some brackets. -/
def Scan.outside (depth : Nat) : Scan := ⟨depth, none, false⟩

/-- A scan inside a quote, behind no backslash. -/
def Scan.within (depth : Nat) (mark : Char) : Scan := ⟨depth, some mark, false⟩

namespace Scan

theorem step_outside {c : Char} (depth : Nat) (h : c ∉ ['"', '\'', '[', ']']) :
    (outside depth).step c = outside depth := by
  simp only [List.mem_cons, List.not_mem_nil, or_false, not_or] at h
  obtain ⟨hdouble, hsingle, hopen, hclose⟩ := h
  simp [step, outside, hdouble, hsingle, hopen, hclose]

theorem step_outside_of_isBare {c : Char} (depth : Nat) (h : isBare c = true) :
    (outside depth).step c = outside depth := by
  refine step_outside depth fun hc => ?_
  obtain ⟨-, hmark⟩ := Bool.and_eq_true_iff.1 h
  rw [List.contains_iff_mem.2 hc] at hmark
  exact absurd hmark (by decide)

theorem step_outside_of_isBlank {c : Char} (depth : Nat) (h : Text.isBlank c = true) :
    (outside depth).step c = outside depth := by
  refine step_outside depth fun hc => ?_
  have hmarks : ['"', '\'', '[', ']'].all (fun m => !Text.isBlank m) = true := by decide
  have hmark := List.all_eq_true.1 hmarks c hc
  rw [h] at hmark
  exact absurd hmark (by decide)

/-- Inside a string a scan stays inside its quote. -/
theorem foldl_within {mark : Char} (depth : Nat) {text : List Char}
    (h : (unescape? mark text).isSome = true) :
    text.foldl step (within depth mark) = within depth mark := by
  induction text using unescape?.induct mark with
  | case1 => rfl
  | case2 => exact absurd h (by simp [unescape?])
  | case3 e rest _ ih | case4 e rest _ ih =>
    rw [isSome_unescape_escape] at h
    rw [List.foldl_cons, List.foldl_cons]
    exact ih h
  | case5 rest hne => exact absurd h (by simp [unescape_mark hne])
  | case6 c rest hslash hne ih =>
    rw [isSome_unescape_plain hslash hne] at h
    have hstep : (within depth mark).step c = within depth mark := by
      simp [step, within, hslash, hne]
    rw [List.foldl_cons, hstep]
    exact ih h

end Scan

/-! ### Balanced texts -/

/-- A text that closes every quote and every bracket that it opens. -/
def Balanced (text : List Char) : Prop :=
  ∀ depth, text.foldl Scan.step (Scan.outside depth) = Scan.outside depth

namespace Balanced

open Scan

theorem of_step {text : List Char}
    (h : ∀ c ∈ text, ∀ depth, (outside depth).step c = outside depth) : Balanced text := by
  intro depth
  induction text with
  | nil => rfl
  | cons c text ih =>
    rw [List.foldl_cons, h c List.mem_cons_self depth]
    exact ih fun d hd => h d (List.mem_cons_of_mem _ hd)

theorem append {text more : List Char} (htext : Balanced text) (hmore : Balanced more) :
    Balanced (text ++ more) := by
  intro depth
  rw [List.foldl_append, htext depth, hmore depth]

theorem of_blank {gap : List Char} (h : ∀ c ∈ gap, Text.isBlank c = true) : Balanced gap :=
  of_step fun c hc depth => step_outside_of_isBlank depth (h c hc)

theorem of_trim {text : List Char} (h : Balanced (Text.trim text)) : Balanced text := by
  obtain ⟨before, gap, hbefore, hgap, htext⟩ := Text.exists_trim text
  rw [htext]
  exact (of_blank hbefore).append (h.append (of_blank hgap))

theorem of_bare {token : List Char} (h : Bare token) : Balanced token :=
  of_step fun c hc depth => step_outside_of_isBare depth (h.2 c hc)

theorem of_quoted {mark : Char} {token : List Char} (h : Quoted mark token) : Balanced token := by
  intro depth
  obtain ⟨hquote, inside, rfl, hinside⟩ := h
  have hslash : mark ≠ '\\' := by
    rintro rfl
    exact absurd hquote (by decide)
  have hopen : (outside depth).step mark = within depth mark := by
    simp [step, outside, within, hquote]
  have hclose : (within depth mark).step mark = outside depth := by
    simp [step, outside, within, hslash]
  rw [List.foldl_cons, hopen, List.foldl_append, foldl_within depth hinside]
  exact hclose

theorem of_inside {token inner : List Char} (h : inside? token = some inner)
    (hinner : Balanced inner) : Balanced token := by
  intro depth
  obtain ⟨between, rfl, rfl⟩ := eq_of_inside h
  have hbetween := of_trim hinner (depth + 1)
  rw [List.foldl_cons, List.foldl_append]
  rw [show (outside depth).step '[' = outside (depth + 1) from rfl, hbetween]
  rfl

end Balanced

/-! ### Items -/

theorem items_ne_nil (s : Scan) (text : List Char) : items s text ≠ [] := by
  cases text with
  | nil => exact List.cons_ne_nil _ _
  | cons c text =>
    rw [items]
    split
    · exact List.cons_ne_nil _ _
    · split <;> exact List.cons_ne_nil _ _

/-- A text is its items with the commas between them. -/
theorem intercalate_items (s : Scan) (text : List Char) :
    [','].intercalate (items s text) = text := by
  induction text generalizing s with
  | nil => rfl
  | cons c text ih =>
    rw [items]
    split
    · rename_i hcomma
      obtain ⟨first, rest, hitems⟩ := List.exists_cons_of_ne_nil (items_ne_nil s text)
      rw [hitems, List.intercalate_cons_cons, ← hitems, ih s, hcomma.1]
      rfl
    · have htext := ih (s.step c)
      obtain ⟨piece, rest, hitems⟩ := List.exists_cons_of_ne_nil (items_ne_nil (s.step c) text)
      rw [hitems] at htext ⊢
      cases rest with
      | nil => simpa using htext
      | cons second rest =>
        rw [List.intercalate_cons_cons] at htext ⊢
        rw [← htext]
        rfl

theorem balanced_of_items {s : Scan} {text : List Char}
    (h : Balanced ([','].intercalate (items s text))) : Balanced text := by
  rwa [intercalate_items] at h

theorem step_comma {s : Scan} {c : Char} (h : c = ',' ∧ s.isOuter = true) : s.step c = s := by
  obtain ⟨rfl, houter⟩ := h
  obtain ⟨depth, quote, escaped⟩ := s
  obtain rfl := Option.isNone_iff_eq_none.1 (Bool.and_eq_true_iff.1 houter).1
  simp [Scan.step]

/-- The items of a text that goes on are those of its start, the last one going on as the first one
behind it. -/
theorem items_append {s : Scan} {text more last first : List Char}
    {before behind : List (List Char)}
    (htext : items s text = before ++ [last])
    (hmore : items (text.foldl Scan.step s) more = first :: behind) :
    items s (text ++ more) = before ++ (last ++ first) :: behind := by
  induction text generalizing s before last with
  | nil =>
    cases before with
    | nil =>
      obtain rfl : [] = last := (List.cons_eq_cons.1 htext).1
      exact hmore
    | cons => exact absurd (congrArg List.length htext) (by simp [items])
  | cons c text ih =>
    rw [List.cons_append]
    rw [items] at htext ⊢
    split at htext
    · rename_i hcomma
      have hstep : s.step c = s := step_comma hcomma
      rw [List.foldl_cons, hstep] at hmore
      rw [if_pos hcomma]
      cases before with
      | nil => exact absurd (List.cons_eq_cons.1 htext).2 (items_ne_nil s text)
      | cons piece before =>
        obtain ⟨rfl, hitems⟩ := List.cons_eq_cons.1 htext
        rw [ih hitems hmore]
        rfl
    · rename_i hcomma
      rw [if_neg hcomma]
      obtain ⟨piece, rest, hitems⟩ := List.exists_cons_of_ne_nil (items_ne_nil (s.step c) text)
      rw [hitems] at htext
      cases before with
      | nil =>
        obtain ⟨rfl, rfl⟩ := List.cons_eq_cons.1 htext
        have hlast : items (s.step c) text = [] ++ [piece] := hitems
        rw [ih hlast hmore]
        rfl
      | cons front before =>
        obtain ⟨rfl, rfl⟩ := List.cons_eq_cons.1 htext
        have hlast : items (s.step c) text = (piece :: before) ++ [last] := hitems
        rw [ih hlast hmore]
        rfl

/-- The commas before which no comma stands are behind the first item. -/
theorem exists_items_append {gap : List Char} (s : Scan) (text : List Char) (h : ',' ∉ gap) :
    ∃ piece behind, items s (gap ++ text) = (gap ++ piece) :: behind := by
  induction gap generalizing s with
  | nil => exact List.exists_cons_of_ne_nil (items_ne_nil s text)
  | cons c gap ih =>
    obtain ⟨piece, behind, hitems⟩ := ih (s.step c) (List.not_mem_of_not_mem_cons h)
    have hcomma : c ≠ ',' := fun heq => h (heq ▸ List.mem_cons_self)
    refine ⟨piece, behind, ?_⟩
    rw [List.cons_append, items, if_neg fun hc => hcomma hc.1, hitems]
    rfl

end Narrative.Source

namespace Narrative.Operand

open Source

/-! ### Tokens -/

mutual

/-- A token that is read is balanced. -/
theorem Reads.balanced {storyline : Option String} {token : List Char} {operand : Operand} :
    Reads storyline token operand → Balanced token
  | .null word => .of_bare (bare_of_null word)
  | .bool word => .of_bare (bare_of_boolean word)
  | .number numeral => .of_bare (bare_of_numeral numeral)
  | .text quote head string => .of_quoted (quoted_of_string quote head string)
  | .empty inside => .of_inside inside fun _ => rfl
  | .list _ inside each => .of_inside inside (balanced_of_items each.balanced)
  | .access segments => .of_bare (bare_of_access segments)

theorem ReadsEach.balanced {storyline : Option String} {texts : List (List Char)}
    {operands : List Operand} :
    ReadsEach storyline texts operands → Balanced ([','].intercalate texts)
  | .nil => fun _ => rfl
  | .cons _ first .nil => by simpa using first.balanced.of_trim
  | .cons _ first (.cons filled second others) => by
    rw [List.intercalate_cons_cons]
    exact (first.balanced.of_trim.append fun _ => rfl).append
      (ReadsEach.balanced (.cons filled second others))

end

theorem ReadsEach.reads_of_mem {storyline : Option String} {texts : List (List Char)}
    {operands : List Operand} (h : ReadsEach storyline texts operands) {text : List Char}
    (htext : text ∈ texts) :
    Text.trim text ≠ [] ∧ ∃ operand, Reads storyline (Text.trim text) operand := by
  induction texts generalizing operands with
  | nil => exact absurd htext List.not_mem_nil
  | cons item rest ih =>
    cases h with
    | cons filled first others =>
      rcases List.mem_cons.1 htext with rfl | hrest
      · exact ⟨filled, _, first⟩
      · exact ih others hrest

/-! ### What cannot stand behind a token -/

/-- The characters at which a token ends: blanks and closing brackets. -/
def Breaks (c : Char) : Prop :=
  Text.isBlank c = true ∨ c = ']'

theorem Breaks.not_isBare {c : Char} (h : Breaks c) : isBare c = false := by
  rcases h with hblank | rfl
  · rw [isBare, hblank]
    rfl
  · decide

theorem exists_breaks {gap : List Char} (h : ∀ c ∈ gap, Text.isBlank c = true) {d : Char}
    (hd : Breaks d) (rest : List Char) : ∃ c more, gap ++ d :: rest = c :: more ∧ Breaks c := by
  cases gap with
  | nil => exact ⟨d, rest, rfl, hd⟩
  | cons c gap => exact ⟨c, gap ++ d :: rest, rfl, Or.inl (h c List.mem_cons_self)⟩

/-- What is put behind a text, from a break on, breaks its trimmed form. -/
theorem exists_trim_append_breaks {text more : List Char} {d : Char} (htext : Text.trim text ≠ [])
    (hmore : Text.trimEnd (d :: more) ≠ []) (hd : Breaks d) :
    ∃ c rest, Text.trim (text ++ d :: more) = Text.trim text ++ c :: rest ∧ Breaks c := by
  obtain ⟨gap, hgap, htrim⟩ := Text.exists_trim_append htext hmore
  obtain ⟨between, -, hends⟩ := Text.exists_trimEnd (d :: more)
  obtain ⟨first, rest, hfirst⟩ := List.exists_cons_of_ne_nil hmore
  rw [hfirst] at htrim hends
  obtain ⟨rfl, -⟩ := List.cons_eq_cons.1 hends
  obtain ⟨c, behind, hbehind, hc⟩ := exists_breaks hgap hd rest
  exact ⟨c, behind, by rw [htrim, hbehind], hc⟩

theorem not_bare_cons {c : Char} {text : List Char} (h : isBare c = false) : ¬ Bare (c :: text) :=
  fun hbare => by
    rw [hbare.2 c List.mem_cons_self] at h
    exact absurd h (by decide)

theorem exists_of_append_eq_concat {α : Type} {front back more : List α} {x c y : α}
    (h : (front ++ [x]) ++ c :: more = back ++ [y]) : ∃ rest, back = front ++ x :: rest := by
  refine ⟨(c :: more).dropLast, ?_⟩
  have hback := congrArg List.dropLast h
  rw [List.dropLast_concat, List.dropLast_append_of_ne_nil (List.cons_ne_nil _ _)] at hback
  rw [← hback, List.append_assoc]
  rfl

/-- A token that starts with a bare character is bare. -/
theorem Reads.bare_of_head {storyline : Option String} {c : Char} {text : List Char}
    {operand : Operand} (h : Reads storyline (c :: text) operand) (hc : isBare c = true) :
    Bare (c :: text) := by
  rcases h.shape with hbare | ⟨mark, hquote, inside, htoken, -⟩ | ⟨between, htoken, -⟩
  · exact hbare
  · obtain ⟨rfl, -⟩ := List.cons_eq_cons.1 htoken
    rcases hquote with rfl | rfl
    all_goals exact absurd hc (by decide)
  · obtain ⟨rfl, -⟩ := List.cons_eq_cons.1 htoken
    exact absurd hc (by decide)

/-- A token that starts with a quote is quoted. -/
theorem Reads.quoted_of_head {storyline : Option String} {mark : Char} {text : List Char}
    {operand : Operand} (h : Reads storyline (mark :: text) operand)
    (hmark : mark = '"' ∨ mark = '\'') :
    Quoted mark (mark :: text) := by
  rcases h.shape with hbare | ⟨other, hquote, inside, htoken, hinside⟩ | ⟨between, htoken, -⟩
  · rcases hmark with rfl | rfl
    all_goals exact absurd hbare (not_bare_cons (by decide))
  · obtain ⟨rfl, -⟩ := List.cons_eq_cons.1 htoken
    exact ⟨hquote, inside, htoken, hinside⟩
  · obtain ⟨rfl, -⟩ := List.cons_eq_cons.1 htoken
    exact absurd hmark (by decide)

/-- A token that starts with a bracket is an array with readable items. -/
theorem Reads.array_of_head {storyline : Option String} {text : List Char} {operand : Operand}
    (h : Reads storyline ('[' :: text) operand) :
    ∃ between, text = between ++ [']'] ∧ (Text.trim between = [] ∨
      ∃ operands, ReadsEach storyline (items Scan.start (Text.trim between)) operands) := by
  rcases h.shape with hbare | ⟨mark, hquote, inside, htoken, -⟩ | ⟨between, htoken, heach⟩
  · exact absurd hbare (not_bare_cons (by decide))
  · obtain ⟨rfl, -⟩ := List.cons_eq_cons.1 htoken
    exact absurd hquote (by decide)
  · exact ⟨between, (List.cons_eq_cons.1 htoken).2, heach⟩

theorem not_reads_closing {storyline : Option String} {text : List Char} {operand : Operand} :
    ¬ Reads storyline (']' :: text) operand := by
  intro h
  rcases h.shape with hbare | ⟨mark, hquote, inside, htoken, -⟩ | ⟨between, htoken, -⟩
  · exact not_bare_cons (by decide) hbare
  · obtain ⟨rfl, -⟩ := List.cons_eq_cons.1 htoken
    exact absurd hquote (by decide)
  · exact absurd (List.cons_eq_cons.1 htoken).1 (by decide)

theorem not_reads_bare_append {storyline : Option String} {token : List Char} (h : Bare token)
    {c : Char} (hc : Breaks c) {more : List Char} {operand : Operand} :
    ¬ Reads storyline (token ++ c :: more) operand := by
  intro hreads
  obtain ⟨d, text, rfl⟩ := List.exists_cons_of_ne_nil h.1
  have hbare := hreads.bare_of_head (h.2 d List.mem_cons_self)
  have hc' := hbare.2 c (List.mem_append_right (d :: text) List.mem_cons_self)
  rw [hc.not_isBare] at hc'
  exact absurd hc' (by decide)

theorem not_reads_quoted_append {storyline : Option String} {mark : Char} {token : List Char}
    (h : Quoted mark token) {c : Char} {more : List Char} {operand : Operand} :
    ¬ Reads storyline (token ++ c :: more) operand := by
  intro hreads
  obtain ⟨hquote, inside, rfl, hinside⟩ := h
  obtain ⟨-, longer, htoken, hlonger⟩ := hreads.quoted_of_head hquote
  have hslash : mark ≠ '\\' := by
    rintro rfl
    exact absurd hquote (by decide)
  obtain ⟨rest, rfl⟩ := exists_of_append_eq_concat (List.cons_eq_cons.1 htoken).2
  rw [unescape_append_mark hslash hinside] at hlonger
  exact absurd hlonger (by decide)

theorem not_reads_empty_append {storyline : Option String} {token : List Char}
    (h : inside? token = some []) {c : Char} {more : List Char} {operand : Operand} :
    ¬ Reads storyline (token ++ c :: more) operand := by
  intro hreads
  obtain ⟨between, rfl, hbetween⟩ := eq_of_inside h
  obtain ⟨longer, htoken, hlonger⟩ := hreads.array_of_head
  obtain ⟨rest, rfl⟩ := exists_of_append_eq_concat htoken
  have htrim : Text.trim (between ++ ']' :: rest) = ']' :: Text.trimEnd rest := by
    rw [Text.trim_append_of_blank (Text.trim_eq_nil_iff.1 hbetween.symm),
      Text.trim_cons (by decide)]
  rw [htrim] at hlonger
  rcases hlonger with hnil | ⟨operands, heach⟩
  · exact absurd hnil (List.cons_ne_nil _ _)
  · obtain ⟨piece, behind, hitems⟩ :=
      @exists_items_append [']'] Scan.start (Text.trimEnd rest) (by decide)
    have hmem : ']' :: piece ∈ items Scan.start (']' :: Text.trimEnd rest) := by
      rw [show ']' :: Text.trimEnd rest = [']'] ++ Text.trimEnd rest from rfl, hitems]
      exact List.mem_cons_self
    obtain ⟨-, item, hitem⟩ := heach.reads_of_mem hmem
    rw [Text.trim_cons (by decide)] at hitem
    exact not_reads_closing hitem

/-- An array that goes on has the same items but for the last one, which goes on too. -/
theorem ReadsEach.exists_longer {storyline : Option String} {inner : List Char}
    {operands : List Operand} (h : ReadsEach storyline (items Scan.start inner) operands)
    {gap rest : List Char} (hgap : ∀ c ∈ gap, Text.isBlank c = true) {longer : List Operand}
    (hlonger : ReadsEach storyline (items Scan.start (inner ++ (gap ++ ']' :: rest))) longer) :
    ∃ before last c more operand, items Scan.start inner = before ++ [last] ∧ Breaks c ∧
      Reads storyline (Text.trim last ++ c :: more) operand := by
  obtain ⟨before, last, hitems⟩ : ∃ before last, items Scan.start inner = before ++ [last] :=
    ⟨_, _, (List.dropLast_concat_getLast (items_ne_nil Scan.start inner)).symm⟩
  have hmem : last ∈ items Scan.start inner := by
    rw [hitems]
    exact List.mem_append_right _ List.mem_cons_self
  have hcomma : ',' ∉ gap ++ [']'] := by
    intro hmem
    rcases List.mem_append.1 hmem with hmem | hmem
    · exact absurd (hgap _ hmem) (by decide)
    · exact absurd hmem (by decide)
  have hscan : inner.foldl Scan.step Scan.start = Scan.start := balanced_of_items h.balanced 0
  obtain ⟨piece, behind, hfirst⟩ := exists_items_append Scan.start rest hcomma
  rw [← hscan, List.append_assoc, List.append_assoc] at hfirst
  have hitems' := items_append hitems hfirst
  rw [show gap ++ ']' :: rest = gap ++ ([']'] ++ rest) from rfl, hitems'] at hlonger
  obtain ⟨-, operand, hreads⟩ := hlonger.reads_of_mem (List.mem_append_right _ List.mem_cons_self)
  have hpiece : Text.trimEnd (gap ++ ']' :: piece) ≠ [] :=
    Text.trimEnd_ne_nil (List.mem_append_right _ List.mem_cons_self) (by decide)
  obtain ⟨d, rest', hgoes, hd⟩ := exists_breaks hgap (Or.inr rfl) piece
  rw [hgoes] at hpiece
  obtain ⟨c, more, htrim, hc⟩ := exists_trim_append_breaks (h.reads_of_mem hmem).1 hpiece hd
  rw [← hgoes] at htrim
  exact ⟨before, last, c, more, operand, hitems, hc, htrim ▸ hreads⟩

theorem ReadsEach.exists_longer_of_inside {storyline : Option String} {token inner : List Char}
    (hfilled : inner ≠ []) (hinside : inside? token = some inner)
    {operands : List Operand} (h : ReadsEach storyline (items Scan.start inner) operands)
    {c : Char} {more : List Char} {other : Operand}
    (hlonger : Reads storyline (token ++ c :: more) other) :
    ∃ before last d rest operand, items Scan.start inner = before ++ [last] ∧ Breaks d ∧
      Reads storyline (Text.trim last ++ d :: rest) operand := by
  obtain ⟨between, rfl, rfl⟩ := eq_of_inside hinside
  obtain ⟨longer, htoken, hlonger⟩ := hlonger.array_of_head
  obtain ⟨rest, rfl⟩ := exists_of_append_eq_concat htoken
  have hclosing : Text.trimEnd (']' :: rest) = ']' :: Text.trimEnd rest :=
    Text.trimEnd_cons (by decide)
  have hrest : Text.trimEnd (']' :: rest) ≠ [] := hclosing ▸ List.cons_ne_nil _ _
  obtain ⟨gap, hgap, htrim⟩ := Text.exists_trim_append hfilled hrest
  rw [htrim, hclosing] at hlonger
  rcases hlonger with hnil | ⟨longer, heach⟩
  · exact absurd (List.append_eq_nil_iff.1 hnil).1 hfilled
  · exact h.exists_longer hgap heach

mutual

/-- A token that is read does not go on, behind a blank or a closing bracket, as another one. -/
theorem Reads.not_append {storyline : Option String} {token : List Char} {operand : Operand} :
    Reads storyline token operand → ∀ {c : Char} (more : List Char) (other : Operand), Breaks c →
      ¬ Reads storyline (token ++ c :: more) other
  | .null word, _, _, _, hc => not_reads_bare_append (bare_of_null word) hc
  | .bool word, _, _, _, hc => not_reads_bare_append (bare_of_boolean word) hc
  | .number numeral, _, _, _, hc => not_reads_bare_append (bare_of_numeral numeral) hc
  | .text quote head string, _, _, _, _ =>
    not_reads_quoted_append (quoted_of_string quote head string)
  | .empty inside, _, _, _, _ => not_reads_empty_append inside
  | .list filled inside each, _, _, _, _ => fun hlonger => by
    obtain ⟨before, last, d, rest, item, hitems, hd, hreads⟩ :=
      each.exists_longer_of_inside filled inside hlonger
    exact each.not_append hitems rest item hd hreads
  | .access segments, _, _, _, hc => not_reads_bare_append (bare_of_access segments) hc

theorem ReadsEach.not_append {storyline : Option String} {texts : List (List Char)}
    {operands : List Operand} :
    ReadsEach storyline texts operands → ∀ {before : List (List Char)} {last : List Char},
      texts = before ++ [last] → ∀ {c : Char} (more : List Char) (other : Operand), Breaks c →
        ¬ Reads storyline (Text.trim last ++ c :: more) other
  | .nil, _, _, htexts, _, _, _, _ => absurd htexts (by simp)
  | .cons _ first _, [], _, htexts, _, more, other, hc => by
    obtain ⟨rfl, -⟩ := List.cons_eq_cons.1 htexts
    exact first.not_append more other hc
  | .cons _ _ others, _ :: _, _, htexts, _, more, other, hc =>
    others.not_append (List.cons_eq_cons.1 htexts).2 more other hc

end

end Narrative.Operand
