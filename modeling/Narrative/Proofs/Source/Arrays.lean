import Narrative.Proofs.Source.Kinds

/-!
# Arrays are read item by item

A scan over a token that is read never closes more brackets than the token has opened, and inside
an array it stays in brackets up to the last character.  So the commas that separate items are just
those that were put between them: tokens that are read make up an array that is read, and every
filled array is made up of such tokens in one way.
-/

namespace Narrative

namespace Text

theorem trim_append_gap {text gap : List Char} (h : ∀ c ∈ gap, isBlank c = true) :
    trim (text ++ gap) = trim text := by
  by_cases htext : trimStart text = []
  · have hblank := List.dropWhile_eq_nil_iff.1 htext
    rw [trim_append_of_blank hblank, trim_eq_nil_iff.2 h, trim_eq_nil_iff.2 hblank]
  · have hstart : trimStart (text ++ gap) = trimStart text ++ gap := by
      unfold trimStart at htext ⊢
      rw [List.dropWhile_append, if_neg (by simpa using htext)]
    rw [trim, hstart, trimEnd_append_of_blank h, trim]

end Text

namespace Source

open Scan

/-! ### Inside brackets -/

/-- Inside a string a scan stays inside its quote, and opens and closes no brackets. -/
theorem foldl_within_of_prefix {mark : Char} (depth : Nat) {text front : List Char}
    (h : (unescape? mark text).isSome = true) (hfront : front <+: text) :
    (front.foldl step (within depth mark)).depth = depth ∧
      (front.foldl step (within depth mark)).quote = some mark := by
  induction text using unescape?.induct mark generalizing front with
  | case1 =>
    obtain rfl := List.prefix_nil.1 hfront
    exact ⟨rfl, rfl⟩
  | case2 => exact absurd h (by simp [unescape?])
  | case3 e rest _ ih | case4 e rest _ ih =>
    rw [isSome_unescape_escape] at h
    -- the backslash and the character behind it are one step
    rcases List.prefix_cons_iff.1 hfront with rfl | ⟨behind, rfl, hbehind⟩
    · exact ⟨rfl, rfl⟩
    · rcases List.prefix_cons_iff.1 hbehind with rfl | ⟨more, rfl, hmore⟩
      · exact ⟨rfl, rfl⟩
      · rw [List.foldl_cons, List.foldl_cons]
        exact ih h hmore
  | case5 rest hne => exact absurd h (by simp [unescape_mark hne])
  | case6 c rest hslash hne ih =>
    rw [isSome_unescape_plain hslash hne] at h
    have hstep : (within depth mark).step c = within depth mark := by
      simp [step, within, hslash, hne]
    rcases List.prefix_cons_iff.1 hfront with rfl | ⟨behind, rfl, hbehind⟩
    · exact ⟨rfl, rfl⟩
    · rw [List.foldl_cons, hstep]
      exact ih h hbehind

/-- A text no start of which closes more brackets than it opens. -/
def Nested (text : List Char) : Prop :=
  ∀ depth front, front <+: text → depth ≤ (front.foldl step (outside depth)).depth

namespace Nested

theorem of_step {text : List Char}
    (h : ∀ c ∈ text, ∀ depth, (outside depth).step c = outside depth) : Nested text := by
  intro depth front hfront
  have hbalanced : Balanced front := .of_step fun c hc => h c (hfront.subset hc)
  rw [hbalanced depth]
  exact Nat.le_refl depth

theorem append {text more : List Char} (hbalanced : Balanced text) (htext : Nested text)
    (hmore : Nested more) : Nested (text ++ more) := by
  rintro depth front ⟨back, hback⟩
  rcases List.append_eq_append_iff.1 hback with ⟨rest, rfl, -⟩ | ⟨rest, rfl, rfl⟩
  · exact htext depth front ⟨rest, rfl⟩
  · rw [List.foldl_append, hbalanced depth]
    exact hmore depth rest ⟨back, rfl⟩

theorem of_blank {gap : List Char} (h : ∀ c ∈ gap, Text.isBlank c = true) : Nested gap :=
  of_step fun c hc depth => step_outside_of_isBlank depth (h c hc)

theorem of_trim {text : List Char} (hbalanced : Balanced (Text.trim text))
    (h : Nested (Text.trim text)) : Nested text := by
  obtain ⟨before, gap, hbefore, hgap, htext⟩ := Text.exists_trim text
  rw [htext]
  exact append (.of_blank hbefore) (of_blank hbefore) (append hbalanced h (of_blank hgap))

theorem of_bare {token : List Char} (h : Bare token) : Nested token :=
  of_step fun c hc depth => step_outside_of_isBare depth (h.2 c hc)

end Nested

/-- Between its first and its last character a quoted token stays inside its quote. -/
theorem Quoted.foldl_step {mark : Char} {token : List Char} (h : Quoted mark token)
    {front : List Char} (hfront : front <+: token) (hne : front ≠ []) (hend : front ≠ token)
    (depth : Nat) :
    (front.foldl step (outside depth)).depth = depth ∧
      (front.foldl step (outside depth)).quote = some mark := by
  obtain ⟨hquote, inside, rfl, hinside⟩ := h
  have hopen : (outside depth).step mark = within depth mark := by
    simp [step, outside, within, hquote]
  rcases List.prefix_cons_iff.1 hfront with rfl | ⟨behind, rfl, hbehind⟩
  · exact absurd rfl hne
  · rcases List.prefix_concat_iff.1 hbehind with rfl | hbehind
    · exact absurd rfl hend
    · rw [List.foldl_cons, hopen]
      exact foldl_within_of_prefix depth hinside hbehind

theorem Nested.of_quoted {mark : Char} {token : List Char} (h : Quoted mark token) :
    Nested token := by
  intro depth front hfront
  by_cases hne : front = []
  · exact hne ▸ Nat.le_refl depth
  by_cases hend : front = token
  · rw [hend, Balanced.of_quoted h depth]
    exact Nat.le_refl depth
  · exact Nat.le_of_eq (h.foldl_step hfront hne hend depth).1.symm

/-- Between its first and its last character an array stays inside its brackets. -/
theorem lt_depth_of_inside {token inner : List Char} (h : inside? token = some inner)
    (hbalanced : Balanced inner) (hnested : Nested inner) {front : List Char}
    (hfront : front <+: token) (hne : front ≠ []) (hend : front ≠ token) (depth : Nat) :
    depth < (front.foldl step (outside depth)).depth := by
  obtain ⟨between, rfl, rfl⟩ := eq_of_inside h
  have hopen : (outside depth).step '[' = outside (depth + 1) := rfl
  rcases List.prefix_cons_iff.1 hfront with rfl | ⟨behind, rfl, hbehind⟩
  · exact absurd rfl hne
  · rcases List.prefix_concat_iff.1 hbehind with rfl | hbehind
    · exact absurd rfl hend
    · rw [List.foldl_cons, hopen]
      exact Nested.of_trim hbalanced hnested (depth + 1) behind hbehind

theorem Nested.of_inside {token inner : List Char} (h : inside? token = some inner)
    (hbalanced : Balanced inner) (hnested : Nested inner) : Nested token := by
  intro depth front hfront
  by_cases hne : front = []
  · exact hne ▸ Nat.le_refl depth
  by_cases hend : front = token
  · rw [hend, Balanced.of_inside h hbalanced depth]
    exact Nat.le_refl depth
  · exact Nat.le_of_lt (lt_depth_of_inside h hbalanced hnested hfront hne hend depth)

theorem nested_of_items {s : Scan} {text : List Char}
    (h : Nested ([','].intercalate (items s text))) : Nested text := by
  rwa [intercalate_items] at h

/-! ### Commas -/

theorem items_of_not_outer {s : Scan} {text : List Char}
    (h : ∀ front, front ++ [','] <+: text → (front.foldl step s).isOuter = false) :
    items s text = [text] := by
  induction text generalizing s with
  | nil => rfl
  | cons c text ih =>
    have hcomma : ¬(c = ',' ∧ s.isOuter = true) := by
      rintro ⟨rfl, houter⟩
      have hinner : s.isOuter = false := h [] ⟨text, rfl⟩
      rw [houter] at hinner
      exact absurd hinner (by decide)
    have hrest : items (s.step c) text = [text] :=
      ih fun front hfront => h (c :: front) (List.cons_prefix_cons.2 ⟨rfl, hfront⟩)
    rw [items, if_neg hcomma, hrest]

theorem items_of_not_mem {text : List Char} (h : ',' ∉ text) (s : Scan) :
    items s text = [text] :=
  items_of_not_outer fun _ hfront =>
    absurd (hfront.subset (List.mem_append_right _ List.mem_cons_self)) h

/-- A text without a comma that separates items, inside however many brackets it stands. -/
def Undivided (text : List Char) : Prop :=
  ∀ depth, items (outside depth) text = [text]

theorem Undivided.of_quoted {mark : Char} {token : List Char} (h : Quoted mark token) :
    Undivided token := by
  refine fun depth => items_of_not_outer fun front hfront => ?_
  obtain ⟨back, rfl⟩ := hfront
  have hne : front ≠ [] := by
    rintro rfl
    obtain ⟨hquote, inside, htoken, -⟩ := h
    rw [← (List.cons_eq_cons.1 htoken).1] at hquote
    exact absurd hquote (by decide)
  have hinside := (h.foldl_step ⟨[','] ++ back, by simp⟩ hne (by simp) depth).2
  rw [isOuter, hinside]
  rfl

theorem Undivided.of_inside {token inner : List Char} (h : inside? token = some inner)
    (hbalanced : Balanced inner) (hnested : Nested inner) : Undivided token := by
  refine fun depth => items_of_not_outer fun front hfront => ?_
  obtain ⟨back, rfl⟩ := hfront
  have hne : front ≠ [] := by
    rintro rfl
    obtain ⟨between, htoken, -⟩ := eq_of_inside h
    exact absurd (List.cons_eq_cons.1 htoken).1 (by decide)
  have hinside :=
    lt_depth_of_inside h hbalanced hnested ⟨[','] ++ back, by simp⟩ hne (by simp) depth
  have hdepth : (front.foldl step (outside depth)).depth ≠ 0 := by omega
  rw [isOuter, Bool.and_eq_false_iff]
  exact Or.inr (beq_eq_false_iff_ne.2 hdepth)

/-! ### Blanks around items -/

theorem map_trim_items_of_blank {front : List Char} (h : ∀ c ∈ front, Text.isBlank c = true)
    (depth : Nat) (text : List Char) :
    (items (outside depth) (front ++ text)).map Text.trim =
      (items (outside depth) text).map Text.trim := by
  have hcomma : ',' ∉ front := fun hmem => absurd (h _ hmem) (by decide)
  obtain ⟨first, rest, hitems⟩ := List.exists_cons_of_ne_nil (items_ne_nil (outside depth) text)
  have hfront : items (outside depth) front = [] ++ [front] := items_of_not_mem hcomma _
  have hbehind : items (front.foldl step (outside depth)) text = first :: rest := by
    rw [Balanced.of_blank h depth, hitems]
  rw [items_append hfront hbehind, hitems, List.nil_append, List.map_cons, List.map_cons,
    Text.trim_append_of_blank h]

theorem map_trim_items_gap {gap : List Char} (h : ∀ c ∈ gap, Text.isBlank c = true) (s : Scan)
    (text : List Char) :
    (items s (text ++ gap)).map Text.trim = (items s text).map Text.trim := by
  have hcomma : ',' ∉ gap := fun hmem => absurd (h _ hmem) (by decide)
  obtain ⟨before, last, hitems⟩ : ∃ before last, items s text = before ++ [last] :=
    ⟨_, _, (List.dropLast_concat_getLast (items_ne_nil s text)).symm⟩
  rw [items_append hitems (items_of_not_mem hcomma _), hitems, List.map_append, List.map_append,
    List.map_cons, List.map_cons, Text.trim_append_gap h]

/-- The items of a text are those of its trimmed form, up to blanks around them. -/
theorem map_trim_items (depth : Nat) (text : List Char) :
    (items (outside depth) text).map Text.trim =
      (items (outside depth) (Text.trim text)).map Text.trim := by
  obtain ⟨before, gap, hbefore, hgap, htext⟩ := Text.exists_trim text
  conv_lhs => rw [htext]
  rw [map_trim_items_of_blank hbefore, map_trim_items_gap hgap]

theorem Undivided.of_trim {text : List Char} (h : Undivided (Text.trim text)) :
    Undivided text := by
  intro depth
  have hlength := congrArg List.length (map_trim_items depth text)
  rw [h depth, List.length_map, List.length_map] at hlength
  obtain ⟨item, hitem⟩ := List.length_eq_one_iff.1 hlength
  have htext := intercalate_items (outside depth) text
  rw [hitem, List.intercalate_singleton] at htext
  rw [hitem, htext]

/-- Texts that commas are put between are found again, when no comma in them separates items. -/
theorem items_intercalate {texts : List (List Char)} (hne : texts ≠ [])
    (h : ∀ text ∈ texts, Balanced text ∧ Undivided text) :
    items Scan.start ([','].intercalate texts) = texts := by
  induction texts with
  | nil => exact absurd rfl hne
  | cons text texts ih =>
    obtain ⟨hbalanced, hundivided⟩ := h text List.mem_cons_self
    have hstart : items Scan.start text = [] ++ [text] := hundivided 0
    cases texts with
    | nil => rw [List.intercalate_singleton, hstart, List.nil_append]
    | cons second texts =>
      have hrest := ih (List.cons_ne_nil _ _) fun other hother =>
        h other (List.mem_cons_of_mem _ hother)
      have hbehind : items (text.foldl step Scan.start)
          (',' :: [','].intercalate (second :: texts)) = [] :: second :: texts := by
        rw [show text.foldl step Scan.start = Scan.start from hbalanced 0, items, hrest]
        rfl
      rw [List.intercalate_cons_cons, List.append_assoc]
      rw [show [','] ++ [','].intercalate (second :: texts) =
        ',' :: [','].intercalate (second :: texts) from rfl]
      rw [items_append hstart hbehind, List.append_nil, List.nil_append]

end Source

namespace Operand

open Source

/-! ### Tokens that are read -/

mutual

theorem Reads.nested {storyline : Option String} {token : List Char} {operand : Operand} :
    Reads storyline token operand → Nested token
  | .null word => .of_bare (bare_of_null word)
  | .bool word => .of_bare (bare_of_boolean word)
  | .number numeral => .of_bare (bare_of_numeral numeral)
  | .text quote head string => .of_quoted (quoted_of_string quote head string)
  | .empty inside => .of_inside inside (fun _ => rfl) (.of_blank fun _ hc => absurd hc (by simp))
  | .list _ inside each => .of_inside inside (balanced_of_items each.balanced)
      (nested_of_items each.nested)
  | .access segments => .of_bare (bare_of_access segments)

theorem ReadsEach.nested {storyline : Option String} {texts : List (List Char)}
    {operands : List Operand} :
    ReadsEach storyline texts operands → Nested ([','].intercalate texts)
  | .nil => .of_blank fun _ hc => absurd hc (by simp)
  | .cons _ first .nil => by
    rw [List.intercalate_singleton]
    exact .of_trim first.balanced first.nested
  | .cons _ first (.cons filled second others) => by
    have hcomma : Nested [','] := .of_step fun c hc depth => Scan.step_outside depth (by
      rw [List.mem_singleton.1 hc]
      decide)
    have hbalanced := first.balanced.of_trim
    have hfirst := Nested.of_trim first.balanced first.nested
    rw [List.intercalate_cons_cons]
    exact .append (hbalanced.append fun _ => rfl) (.append hbalanced hfirst hcomma)
      (ReadsEach.nested (.cons filled second others))

end

theorem comma_not_mem_of_words {words : List String} (h : ∀ word ∈ words, ',' ∉ word.toList)
    {token : List Char} (hword : words.contains (String.ofList token) = true) : ',' ∉ token := by
  have hcomma := h _ (List.contains_iff_mem.1 hword)
  rwa [String.toList_ofList] at hcomma

theorem comma_not_mem_of_boolean {token : List Char} {b : Bool}
    (h : boolean? (String.ofList token) = some b) : ',' ∉ token := by
  unfold boolean? at h
  split at h
  · rename_i hword
    exact comma_not_mem_of_words (by decide) hword
  · split at h
    · rename_i hword
      exact comma_not_mem_of_words (by decide) hword
    · cases h

theorem comma_not_mem_of_numeral {token : List Char} {x : Float} (h : numeral? token = some x) :
    ',' ∉ token := by
  intro hmem
  unfold numeral? at h
  split at h
  · rename_i hchars
    have hcomma := List.all_eq_true.1 (Bool.and_eq_true_iff.1 hchars).2 ',' hmem
    exact absurd hcomma (by decide)
  · cases h

theorem comma_not_mem_of_access {storyline : Option String} {token : List Char} {path : Access}
    (h : Source.access? storyline token = some (.ok path)) : ',' ∉ token := by
  have hpart : ∀ text, isSlugText text = true ∨ isIndexText text = true → ',' ∉ text :=
    fun text htext hmem => absurd (isSlugChar_of_mem htext ',' hmem) (by decide)
  intro hmem
  unfold Source.access? at h
  split at h
  · rename_i first rest hpieces
    split at h
    · cases h
    rename_i hsegments
    simp only [Bool.or_eq_true, Bool.not_eq_true', not_or, Bool.not_eq_false] at hsegments
    obtain ⟨⟨-, hfirst⟩, hrest⟩ := hsegments
    rcases mem_pieces_of_mem '.' hmem with hdot | ⟨piece, hpiece, hcomma⟩
    · exact absurd hdot (by decide)
    · rw [hpieces] at hpiece
      rcases List.mem_cons.1 hpiece with rfl | hpiece
      · exact hpart _ (Or.inl hfirst) hcomma
      · exact hpart _ (Bool.or_eq_true_iff.1 (List.all_eq_true.1 hrest piece hpiece)) hcomma
  · cases h

/-- A token that is read has no comma outside its quotes and brackets. -/
theorem Reads.undivided {storyline : Option String} {token : List Char} {operand : Operand}
    (h : Reads storyline token operand) : Undivided token := by
  cases h with
  | null word =>
    exact fun depth => items_of_not_mem (@comma_not_mem_of_words nullWords (by decide) _ word) _
  | bool word => exact fun depth => items_of_not_mem (comma_not_mem_of_boolean word) _
  | number numeral => exact fun depth => items_of_not_mem (comma_not_mem_of_numeral numeral) _
  | text quote head string => exact .of_quoted (quoted_of_string quote head string)
  | empty inside =>
    exact .of_inside inside (fun _ => rfl) (.of_blank fun _ hc => absurd hc (by simp))
  | list _ inside each =>
    exact .of_inside inside (balanced_of_items each.balanced) (nested_of_items each.nested)
  | access segments => exact fun depth => items_of_not_mem (comma_not_mem_of_access segments) _

/-- The bracket at the start of a token that is read is closed by its last character. -/
theorem Reads.lt_depth {storyline : Option String} {token : List Char} {operand : Operand}
    (h : Reads storyline token operand) (hhead : token.head? = some '[') {front : List Char}
    (hfront : front <+: token) (hne : front ≠ []) (hend : front ≠ token) :
    0 < (front.foldl Scan.step Scan.start).depth := by
  have hbare : ¬ Bare token := by
    obtain ⟨rest, rfl⟩ := List.head?_eq_some_iff.1 hhead
    exact not_bare_cons (by decide)
  cases h with
  | null word => exact absurd (bare_of_null word) hbare
  | bool word => exact absurd (bare_of_boolean word) hbare
  | number numeral => exact absurd (bare_of_numeral numeral) hbare
  | access segments => exact absurd (bare_of_access segments) hbare
  | text quote head string =>
    obtain rfl := Option.some.inj (head.symm.trans hhead)
    exact absurd quote (by decide)
  | empty inside =>
    exact lt_depth_of_inside inside (fun _ => rfl) (.of_blank fun _ hc => absurd hc (by simp))
      hfront hne hend 0
  | list _ inside each =>
    exact lt_depth_of_inside inside (balanced_of_items each.balanced)
      (nested_of_items each.nested) hfront hne hend 0

/-! ### Reading item by item -/

variable {storyline : Option String} {token : List Char} {operand : Operand}

/-- A token is read as an operand. -/
def ReadAs (storyline : Option String) (token : List Char) (operand : Operand) : Prop :=
  read storyline token = .ok operand

instance (storyline : Option String) (token : List Char) (operand : Operand) :
    Decidable (ReadAs storyline token operand) :=
  inferInstanceAs (Decidable (_ = _))

theorem readAs_rightUnique : Relator.RightUnique (ReadAs storyline) :=
  fun _ _ _ h hother => Except.ok.inj (h.symm.trans hother)

theorem readAs_trim_iff :
    ReadAs storyline (Text.trim token) operand ↔ ReadAs storyline token operand := by
  unfold ReadAs
  rw [read_trim]

theorem ReadAs.trim_ne_nil (h : ReadAs storyline token operand) : Text.trim token ≠ [] := by
  intro hnil
  have hreads := read_eq_ok_iff.1 h
  rw [hnil] at hreads
  rcases hreads.shape with hbare | ⟨mark, -, inside, htoken, -⟩ | ⟨between, htoken, -⟩
  · exact hbare.1 rfl
  · cases htoken
  · cases htoken

theorem readsEach_iff_forall₂ {texts : List (List Char)} {operands : List Operand} :
    ReadsEach storyline texts operands ↔ List.Forall₂ (ReadAs storyline) texts operands := by
  induction texts generalizing operands with
  | nil =>
    constructor
    · intro h
      cases h
      exact .nil
    · intro h
      cases h
      exact .nil
  | cons text texts ih =>
    constructor
    · intro h
      cases h with
      | cons _ first others => exact .cons (read_eq_ok_iff.2 first) (ih.1 others)
    · intro h
      cases h with
      | cons first others =>
        exact .cons first.trim_ne_nil (read_eq_ok_iff.1 first) (ih.2 others)

/-- Items that differ in the blanks around them are read as the same operands. -/
theorem forall₂_readAs_congr {texts others : List (List Char)} {operands : List Operand}
    (h : texts.map Text.trim = others.map Text.trim) :
    List.Forall₂ (ReadAs storyline) texts operands ↔
      List.Forall₂ (ReadAs storyline) others operands := by
  have htrim : ∀ items : List (List Char), List.Forall₂ (ReadAs storyline) items operands ↔
      List.Forall₂ (ReadAs storyline) (items.map Text.trim) operands := by
    intro items
    rw [List.forall₂_map_left_iff]
    simp only [readAs_trim_iff]
  rw [htrim texts, htrim others, h]

theorem items_of_readAs {texts : List (List Char)} {operands : List Operand} (hne : texts ≠ [])
    (h : List.Forall₂ (ReadAs storyline) texts operands) :
    items Scan.start ([','].intercalate texts) = texts := by
  have heach : List.Forall₂
      (fun text operand => (Balanced text ∧ Undivided text) ∧ ReadAs storyline text operand)
      texts operands := by
    refine h.imp fun text operand hread => ⟨?_, hread⟩
    have hreads := read_eq_ok_iff.1 hread
    exact ⟨hreads.balanced.of_trim, hreads.undivided.of_trim⟩
  exact items_intercalate hne ((List.forall₂_and_left _ _).1 heach).1

theorem trim_intercalate_ne_nil {texts : List (List Char)} {operands : List Operand}
    (hne : texts ≠ []) (h : List.Forall₂ (ReadAs storyline) texts operands) :
    Text.trim ([','].intercalate texts) ≠ [] := by
  intro hnil
  have hitems := map_trim_items 0 ([','].intercalate texts)
  rw [hnil, show Scan.outside 0 = Scan.start from rfl, items_of_readAs hne h] at hitems
  cases h with
  | nil => exact hne rfl
  | cons hfirst _ => exact hfirst.trim_ne_nil (List.cons_eq_cons.1 hitems).1

/-- An array is read as the operands that are put in it, with commas between them. -/
theorem read_array {texts : List (List Char)} {operands : List Operand} (hne : texts ≠ [])
    (h : List.Forall₂ (ReadAs storyline) texts operands) :
    ReadAs storyline ('[' :: ([','].intercalate texts ++ [']'])) (list operands) := by
  have hinside : inside? ('[' :: ([','].intercalate texts ++ [']'])) =
      some (Text.trim ([','].intercalate texts)) := by
    rw [inside?, List.getLast?_concat, if_pos rfl, List.dropLast_concat]
  have hitems := map_trim_items 0 ([','].intercalate texts)
  rw [show Scan.outside 0 = Scan.start from rfl, items_of_readAs hne h] at hitems
  have heach := readsEach_iff_forall₂.2 ((forall₂_readAs_congr hitems).1 h)
  exact Reads.read (.list (trim_intercalate_ne_nil hne h) hinside heach)

/-- A filled array that is read is put together from tokens that are read. -/
theorem exists_texts_of_read {operands : List Operand} (hne : operands ≠ [])
    (h : ReadAs storyline token (list operands)) :
    ∃ texts, texts ≠ [] ∧ Text.trim token = '[' :: ([','].intercalate texts ++ [']']) ∧
      List.Forall₂ (ReadAs storyline) texts operands := by
  cases read_eq_ok_iff.1 h with
  | empty => exact absurd rfl hne
  | list _ hinside heach =>
    obtain ⟨between, htoken, rfl⟩ := eq_of_inside hinside
    refine ⟨items Scan.start between, items_ne_nil _ _, ?_, ?_⟩
    · rw [intercalate_items, htoken]
    · exact (forall₂_readAs_congr (map_trim_items 0 between)).2 (readsEach_iff_forall₂.1 heach)

/-- Behind an array that is read stands nothing but blanks. -/
theorem not_read_append {group more : List Char} (hhead : group.head? = some '[')
    (hgroup : Balanced group) (hmore : Text.trim more ≠ []) :
    ¬ ReadAs storyline (group ++ more) operand := by
  intro hread
  have hend : Text.trimEnd more ≠ [] := fun hnil =>
    hmore (Text.trim_eq_nil_iff.2 (Text.trimEnd_eq_nil_iff.1 hnil))
  have htrim : Text.trim (group ++ more) = group ++ Text.trimEnd more := by
    obtain ⟨rest, rfl⟩ := List.head?_eq_some_iff.1 hhead
    rw [List.cons_append, Text.trim_cons (by decide), Text.trimEnd_append hend]
    rfl
  have hreads := read_eq_ok_iff.1 hread
  rw [htrim] at hreads
  have hne : group ≠ [] := by
    rintro rfl
    cases hhead
  have hdepth := hreads.lt_depth (by rw [List.head?_append_of_ne_nil _ hne, hhead])
    (List.prefix_append _ _) hne (by simpa using hend)
  rw [show group.foldl Scan.step Scan.start = Scan.start from hgroup 0] at hdepth
  exact absurd hdepth (Nat.lt_irrefl 0)

/-- Tokens that are read, with commas between them, make up an array that is read as their
operands, whatever stands in their quotes and brackets.  A filled array that is read is so made up,
in one way only.  What is read is balanced, and nothing but blanks stands behind the array that it
starts with. -/
theorem arrays_read_by_items (storyline : Option String) :
    (∀ texts operands, texts ≠ [] → List.Forall₂ (ReadAs storyline) texts operands →
      ReadAs storyline ('[' :: ([','].intercalate texts ++ [']'])) (list operands)) ∧
    (∀ token operands, operands ≠ [] → ReadAs storyline token (list operands) →
      ∃ texts, Text.trim token = '[' :: ([','].intercalate texts ++ [']']) ∧
        List.Forall₂ (ReadAs storyline) texts operands ∧
        ∀ others values, [','].intercalate others = [','].intercalate texts →
          List.Forall₂ (ReadAs storyline) others values → others = texts ∧ values = operands) ∧
    (∀ token operand, ReadAs storyline token operand → Balanced token) ∧
    ∀ group more operand, group.head? = some '[' → Balanced group → Text.trim more ≠ [] →
      ¬ ReadAs storyline (group ++ more) operand := by
  refine ⟨fun texts operands => read_array, fun token operands hne hread => ?_,
    fun token operand hread => (read_eq_ok_iff.1 hread).balanced.of_trim,
    fun group more operand => not_read_append⟩
  obtain ⟨texts, htexts, htoken, heach⟩ := exists_texts_of_read hne hread
  refine ⟨texts, htoken, heach, fun others values hjoin hothers => ?_⟩
  have hitems := items_of_readAs htexts heach
  rcases eq_or_ne others [] with rfl | hothersne
  · exact absurd (congrArg Text.trim hjoin.symm) (trim_intercalate_ne_nil htexts heach)
  · rw [← hjoin, items_of_readAs hothersne hothers] at hitems
    subst hitems
    exact ⟨rfl, List.right_unique_forall₂' readAs_rightUnique hothers heach⟩

/-- Commas, quotes and brackets inside strings, blanks around items and a nested array. -/
theorem arrays_read_by_items_nested :
    ReadAs (some "harbour") "[ \"a],\\\"[\\t\" ,'it\\'s',[1.5,[sl.stage, ']' ] ], NULL]".toList
      (list [text "a],\"[\\t", text "it's",
        list [number 1.5, list [access ⟨["storylines", "harbour", "stage"]⟩, text "]"]], null]) ∧
    ¬ ReadAs (some "harbour") "[1], [2]".toList (list [list [number 1], list [number 2]]) := by
  have hread := arrays_read_by_items (some "harbour")
  constructor
  · exact hread.1 [" \"a],\\\"[\\t\" ".toList, "'it\\'s'".toList, "[1.5,[sl.stage, ']' ] ]".toList,
      " NULL".toList] _ (by decide) (.cons (by decide +kernel) (.cons (by decide +kernel)
        (.cons (by decide +kernel) (.cons (by decide +kernel) .nil))))
  · exact hread.2.2.2 "[1]".toList ", [2]".toList _ rfl (fun _ => rfl) (by decide)

end Operand

end Narrative
