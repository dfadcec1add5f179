import Narrative.Proofs.Json.Numeral
import Narrative.Proofs.Source.Arrays
import Narrative.Proofs.Source.Spelled

/-!
# Displayed operands are read

What is displayed of an operand is read in every storyline.  A quoted string is written with more
escapes than the reader takes back: it knows those of the double quote and the backslash only, and
leaves all others as they are written.  So what is read is the operand with its strings respelled,
and that is the operand itself exactly when no other character of a string is escaped.
-/

namespace Narrative

/-! ### Strings -/

namespace Text

/-- What is read of a quoted character. -/
def respell (c : Char) : List Char :=
  if c = '"' ∨ c = '\\' then [c] else quoteChar c

theorem ordinary_hexDigit : ∀ n < 16, hexDigit n ≠ '\\' ∧ hexDigit n ≠ '"' := by decide

theorem ordinary_hex (n : Nat) : ∀ c ∈ hex n, c ≠ '\\' ∧ c ≠ '"' := by
  induction n using hex.induct with
  | case1 n hn =>
    rw [hex, if_pos hn]
    exact List.forall_mem_singleton.2 (ordinary_hexDigit n hn)
  | case2 n hn ih =>
    rw [hex, if_neg hn]
    exact List.forall_mem_append.2
      ⟨ih, List.forall_mem_singleton.2 (ordinary_hexDigit _ (Nat.mod_lt n (by decide)))⟩

theorem respell_eq_iff {c : Char} :
    respell c = [c] ↔ quoteChar c = [c] ∨ c = '"' ∨ c = '\\' := by
  unfold respell
  split
  · rename_i hc
    exact ⟨fun _ => Or.inr hc, fun _ => rfl⟩
  · rename_i hc
    exact ⟨Or.inl, fun h => h.resolve_right hc⟩

/-- Any other character is written as itself, or behind a backslash without a second one. -/
theorem quoteChar_cases {c : Char} (h : ¬(c = '"' ∨ c = '\\')) :
    quoteChar c = [c] ∨ ∃ e text, quoteChar c = '\\' :: e :: text ∧ (e ≠ '"' ∧ e ≠ '\\') ∧
      ∀ d ∈ text, d ≠ '\\' ∧ d ≠ '"' := by
  unfold quoteChar
  rw [if_neg h]
  split_ifs
  · exact Or.inr ⟨'n', [], rfl, by decide, List.forall_mem_nil _⟩
  · exact Or.inr ⟨'r', [], rfl, by decide, List.forall_mem_nil _⟩
  · exact Or.inr ⟨'t', [], rfl, by decide, List.forall_mem_nil _⟩
  · exact Or.inr ⟨'0', [], rfl, by decide, List.forall_mem_nil _⟩
  · exact Or.inl rfl
  · refine Or.inr ⟨'u', _, rfl, by decide, ?_⟩
    exact List.forall_mem_cons.2 ⟨by decide, List.forall_mem_append.2
      ⟨ordinary_hex _, List.forall_mem_singleton.2 (by decide)⟩⟩

/-- A character that does not stay as it is gets longer. -/
theorem respell_cases (c : Char) : respell c = [c] ∨ 2 ≤ (respell c).length := by
  unfold respell
  split
  · exact Or.inl rfl
  · rename_i hc
    refine (quoteChar_cases hc).imp_right ?_
    rintro ⟨e, text, hspell, -, -⟩
    rw [hspell, List.length_cons, List.length_cons]
    omega

theorem length_le_flatMap_respell (text : List Char) :
    text.length ≤ (text.flatMap respell).length := by
  induction text with
  | nil => exact Nat.le_refl _
  | cons c rest ih =>
    have hc : 1 ≤ (respell c).length := by
      rcases respell_cases c with h | h
      · rw [h]
        exact Nat.le_refl _
      · omega
    rw [List.flatMap_cons, List.length_append, List.length_cons]
    omega

theorem flatMap_respell_eq_iff {text : List Char} :
    text.flatMap respell = text ↔ ∀ c ∈ text, respell c = [c] := by
  induction text with
  | nil => simp
  | cons c rest ih =>
    rw [List.flatMap_cons, List.forall_mem_cons, ← ih]
    rcases respell_cases c with h | h
    · simp [h]
    · constructor
      · intro heq
        have hlength := congrArg List.length heq
        have hrest := length_le_flatMap_respell rest
        rw [List.length_append, List.length_cons] at hlength
        omega
      · rintro ⟨hc, -⟩
        rw [hc] at h
        exact absurd h (by simp)

end Text

namespace Source

theorem unescape_ordinary {mark : Char} {text : List Char}
    (h : ∀ c ∈ text, c ≠ '\\' ∧ c ≠ mark) (rest : List Char) :
    unescape? mark (text ++ rest) = (unescape? mark rest).map (text ++ ·) := by
  induction text with
  | nil => simp
  | cons c text ih =>
    obtain ⟨hc, htext⟩ := List.forall_mem_cons.1 h
    rw [List.cons_append, unescape?.eq_def]
    simp [hc, ih htext, Function.comp_def]

theorem unescape_escape {mark e : Char} (rest : List Char) :
    unescape? mark ('\\' :: e :: rest) = (unescape? mark rest).map fun text =>
      if e = mark ∨ e = '\\' then e :: text else '\\' :: e :: text := by
  rw [unescape?.eq_def]
  split_ifs <;> simp_all

/-- Of the escapes only those of the double quote and of the backslash are taken back. -/
theorem unescape_quoteChar (c : Char) (rest : List Char) :
    unescape? '"' (Text.quoteChar c ++ rest) =
      (unescape? '"' rest).map (Text.respell c ++ ·) := by
  by_cases hmark : c = '"' ∨ c = '\\'
  · rw [Text.quoteChar, if_pos hmark, Text.respell, if_pos hmark]
    rw [show ['\\', c] ++ rest = '\\' :: c :: rest from rfl, unescape_escape]
    simp only [if_pos hmark]
    rfl
  · rw [Text.respell, if_neg hmark]
    rcases Text.quoteChar_cases hmark with hplain | ⟨e, text, hspell, ⟨hquote, hslash⟩, htext⟩
    · rw [hplain]
      exact unescape_ordinary (List.forall_mem_singleton.2
        ⟨fun hc => hmark (Or.inr hc), fun hc => hmark (Or.inl hc)⟩) rest
    · have he : ¬(e = '"' ∨ e = '\\') := not_or.2 ⟨hquote, hslash⟩
      rw [hspell, List.cons_append, List.cons_append, unescape_escape, unescape_ordinary htext]
      simp only [if_neg he, Option.map_map]
      rfl

theorem unescape_quote (text : List Char) :
    unescape? '"' (text.flatMap Text.quoteChar) = some (text.flatMap Text.respell) := by
  induction text with
  | nil => rfl
  | cons c rest ih =>
    rw [List.flatMap_cons, unescape_quoteChar, ih, List.flatMap_cons]
    rfl

theorem string_quote (text : List Char) :
    string? '"' (Text.quote text) = some (text.flatMap Text.respell) := by
  rw [Text.quote, string?, List.getLast?_concat, if_pos rfl, List.dropLast_concat, unescape_quote]

end Source

/-! ### Numbers -/

namespace Decimal

/-- A float whose plain text is read as the same float. -/
def PlainReadsBack (x : Float) : Prop :=
  (Numeral.read? (plain x)).map Numeral.value = some x

instance (x : Float) : Decidable (PlainReadsBack x) :=
  inferInstanceAs (Decidable (_ = _))

theorem exists_digit_positional (x : Scaled) : ∃ c ∈ x.positional [], isDigit c = true := by
  obtain ⟨d, ds, hds⟩ := List.exists_cons_of_ne_nil (digits_ne_nil x.coefficient)
  have hd : isDigit d = true := isDigit_of_mem_digits (hds ▸ List.mem_cons_self)
  unfold Scaled.positional
  dsimp only
  split
  · exact ⟨'0', List.mem_cons_self, by decide⟩
  rename_i hpoint
  split
  · exact ⟨d, by simp [hds], hd⟩
  · obtain ⟨k, hk⟩ : ∃ k, x.point.toNat = k + 1 := ⟨x.point.toNat - 1, by omega⟩
    exact ⟨d, by simp [hds, hk], hd⟩

theorem isNumeralChar_positional (x : Scaled) :
    ∀ c ∈ x.positional [], Source.isNumeralChar c = true := by
  have hzero : Source.isNumeralChar '0' = true := by decide
  have hpoint : Source.isNumeralChar '.' = true := by decide
  have hds : ∀ d ∈ digits x.coefficient, Source.isNumeralChar d = true := fun d hd => by
    simp [Source.isNumeralChar, isDigit_of_mem_digits hd]
  intro c hc
  simp only [Scaled.positional] at hc
  split at hc
  · simp only [List.mem_cons, List.mem_append, List.mem_replicate] at hc
    rcases hc with rfl | rfl | ⟨-, rfl⟩ | hc
    exacts [hzero, hpoint, hzero, hds _ hc]
  split at hc
  · simp only [List.append_nil, List.mem_append, List.mem_replicate] at hc
    rcases hc with hc | ⟨-, rfl⟩
    exacts [hds _ hc, hzero]
  · simp only [List.mem_append, List.mem_cons] at hc
    rcases hc with hc | rfl | hc
    exacts [hds _ (List.mem_of_mem_take hc), hpoint, hds _ (List.mem_of_mem_drop hc)]

end Decimal

namespace Source

open Decimal

/-- A text with a digit in it and a sign in front is spelled like a numeral. -/
theorem numeral_signed {negative : Bool} {body : List Char} {x : Float}
    (hdigit : ∃ c ∈ body, isDigit c = true) (hchars : ∀ c ∈ body, isNumeralChar c = true)
    (hfinite : x.isFinite = true)
    (h : (Numeral.read? (signed negative body)).map Numeral.value = some x) :
    numeral? (signed negative body) = some x := by
  have hspelled : ((signed negative body).any isDigit &&
      (signed negative body).all isNumeralChar) = true := by
    have hany := List.any_eq_true.2 hdigit
    have hall := List.all_eq_true.2 hchars
    cases negative with
    | false => rw [signed, if_neg (by decide), hany, hall]; rfl
    | true =>
      rw [signed, if_pos rfl, List.any_cons, List.all_cons, hany, hall]
      rfl
  obtain ⟨n, hn, rfl⟩ := Option.map_eq_some_iff.1 h
  rw [numeral?, if_pos hspelled, hn]
  simp only [if_pos hfinite]

theorem numeral_plain {x : Float} (hfinite : x.isFinite = true) (h : PlainReadsBack x) :
    numeral? (plain x) = some x := by
  unfold PlainReadsBack at h
  unfold plain at h ⊢
  split at h
  · cases h
  · rename_i negative _
    cases negative with
    | false => cases h
    | true => cases h
  · rename_i negative m q _
    by_cases hm : m = 0
    · rw [if_pos hm] at h ⊢
      exact numeral_signed ⟨'0', List.mem_cons_self, by decide⟩
        (List.forall_mem_singleton.2 (by decide)) hfinite h
    · rw [if_neg hm] at h ⊢
      exact numeral_signed (exists_digit_positional _) (isNumeralChar_positional _) hfinite h

end Source

/-! ### Accesses -/

namespace Text

theorem pieces_eq_splitOn (mark : Char) (text : List Char) :
    pieces mark text = text.splitOn mark := by
  induction text with
  | nil => rfl
  | cons c rest ih =>
    rw [pieces, List.splitOn_cons_eq_if_modifyHead, ih]
    by_cases hc : c = mark
    · rw [if_pos hc, if_pos (beq_iff_eq.2 hc)]
    · rw [if_neg hc, if_neg (by simpa using hc)]
      obtain ⟨piece, more, hpieces⟩ := List.exists_cons_of_ne_nil (List.splitOn_ne_nil mark rest)
      rw [hpieces]
      rfl

end Text

namespace Source

theorem firstSegments_of_root {storyline : Option String} {token name : String}
    (h : name ∈ State.rootNames) : firstSegments storyline token name = .ok [name] := by
  have hnames : name = "global" ∨ name = "resources" ∨ name = "storylines" := by
    simpa [State.rootNames] using h
  rcases hnames with rfl | rfl | rfl
  all_goals rfl

theorem access_dotted {storyline : Option String} {path : Access} (h : path.Spelled) :
    access? storyline path.dotted.toList = some (.ok path) := by
  obtain ⟨name, rest, hsegments, hname, hrest, heach⟩ := h
  have hroots : ∀ root ∈ State.rootNames, isSlugText root.toList = true := by decide
  have hslug := hroots name hname
  have hparts : ∀ text ∈ (name :: rest).map String.toList,
      isSlugText text = true ∨ isIndexText text = true := by
    rw [List.forall_mem_map, List.forall_mem_cons]
    exact ⟨Or.inl hslug, heach⟩
  have hpieces : Text.pieces '.' path.dotted.toList = (name :: rest).map String.toList := by
    rw [Text.pieces_eq_splitOn, Access.dotted, String.toList_intercalate, hsegments]
    refine List.splitOn_intercalate '.' (fun text htext hmem => ?_) (List.cons_ne_nil _ _)
    exact absurd (isSlugChar_of_mem (hparts text htext) '.' hmem) (by decide)
  have hall : (rest.map String.toList).all (fun s => isSlugText s || isIndexText s) = true :=
    List.all_eq_true.2 fun text htext =>
      Bool.or_eq_true_iff.2 (hparts text (List.mem_cons_of_mem _ htext))
  have hsegments' : path = ⟨[name] ++ (rest.map String.toList).map String.ofList⟩ := by
    obtain ⟨segments⟩ := path
    dsimp only at hsegments
    simp [hsegments]
  unfold access?
  rw [hpieces, List.map_cons]
  simp only [hslug, hall, List.isEmpty_map, List.isEmpty_eq_false_iff.2 hrest, Bool.not_true,
    Bool.or_self, Bool.false_eq_true, if_false, String.ofList_toList, firstSegments_of_root hname]
  rw [hsegments']
  rfl

end Source

namespace Operand

open Source

/-! ### Operands -/

/-- A number that is read back from its text, or a spelled access; other leaves are all legible. -/
def Legible : Operand → Prop
  | number x => x.isFinite = true ∧ Decimal.PlainReadsBack x
  | access path => path.Spelled
  | _ => True

mutual

/-- What is read of the operand as it is displayed. -/
def respelled : Operand → Operand
  | text s => text (String.ofList (s.toList.flatMap Text.respell))
  | list items => list (respelledItems items)
  | operand => operand

/-- `respelled` item by item. -/
def respelledItems : List Operand → List Operand
  | [] => []
  | item :: rest => respelled item :: respelledItems rest

end

theorem display_list (item : Operand) (rest : List Operand) :
    display (list (item :: rest)) = '[' :: ([','].intercalate
      (display item :: rest.map fun other => ' ' :: display other) ++ [']']) := by
  have hitems : ∀ front, front ++ displayItems rest = [','].intercalate
      (front :: rest.map fun other => ' ' :: display other) ++ [']'] := by
    induction rest with
    | nil =>
      intro front
      rw [displayItems, List.map_nil, List.intercalate_singleton]
    | cons other rest ih =>
      intro front
      rw [displayItems, List.map_cons, List.intercalate_cons_cons, List.append_assoc,
        ← List.cons_append, ih]
      simp
  rw [display, hitems]

mutual

theorem readAs_display (storyline : Option String) : (v : Operand) →
    (∀ leaf ∈ v.leaves, leaf.Legible) → ReadAs storyline v.display v.respelled
  | access path, h => by
    have hpath : path.Spelled := h _ List.mem_cons_self
    rw [display, respelled]
    · exact Reads.read (.access (access_dotted hpath))
    all_goals simp
  | null, _ => Reads.read (.null (by decide))
  | bool true, _ => Reads.read (.bool (by decide))
  | bool false, _ => Reads.read (.bool (by decide))
  | number x, h => by
    obtain ⟨hfinite, hread⟩ : x.isFinite = true ∧ Decimal.PlainReadsBack x :=
      h _ List.mem_cons_self
    exact Reads.read (.number (numeral_plain hfinite hread))
  | text s, _ => Reads.read (.text (Or.inl rfl) rfl (string_quote s.toList))
  | list [], _ => Reads.read (.empty (by decide))
  | list (item :: rest), h => by
    obtain ⟨hitem, hrest⟩ := List.forall_mem_append.1 h
    have hfirst := readAs_display storyline item hitem
    have hothers := forall₂_display storyline rest hrest
    have hgap : ∀ other, Text.trim (' ' :: display other) = Text.trim (display other) :=
      fun other => @Text.trim_append_of_blank [' '] _ (List.forall_mem_singleton.2 (by decide))
    have htrim : (display item :: rest.map fun other => ' ' :: display other).map Text.trim =
        (display item :: rest.map display).map Text.trim := by
      simp only [List.map_cons, List.map_map, Function.comp_def, hgap]
    rw [display_list]
    exact read_array (List.cons_ne_nil _ _)
      ((forall₂_readAs_congr htrim).2 (.cons hfirst hothers))

theorem forall₂_display (storyline : Option String) : (items : List Operand) →
    (∀ leaf ∈ leavesOfItems items, leaf.Legible) →
      List.Forall₂ (ReadAs storyline) (items.map display) (respelledItems items)
  | [], _ => .nil
  | item :: rest, h => by
    obtain ⟨hitem, hrest⟩ := List.forall_mem_append.1 h
    exact .cons (readAs_display storyline item hitem) (forall₂_display storyline rest hrest)

end

mutual

/-- What is read is the operand when every character of its strings is read as it is. -/
theorem respelled_eq_self_iff : (v : Operand) → (v.respelled = v ↔
    ∀ s, text s ∈ v.leaves → ∀ c ∈ s.toList, Text.respell c = [c])
  | .access _ | .null | .bool _ | .number _ => by simp [respelled, leaves]
  | .text s => by
    simp [respelled, leaves, String.ofList_eq, Text.flatMap_respell_eq_iff]
  | .list items => by
    simp [respelled, leaves, respelledItems_eq_self_iff items]

theorem respelledItems_eq_self_iff : (items : List Operand) → (respelledItems items = items ↔
    ∀ s, text s ∈ leavesOfItems items → ∀ c ∈ s.toList, Text.respell c = [c])
  | [] => by simp [respelledItems, leavesOfItems]
  | item :: rest => by
    simp [respelledItems, leavesOfItems, respelled_eq_self_iff item,
      respelledItems_eq_self_iff rest, or_imp, forall_and]

end

/-- What is displayed of an operand with legible numbers and accesses is read in every storyline.
It is read as the same operand exactly when no character of its strings is escaped but double
quotes and backslashes. -/
theorem read_display (storyline : Option String) {v : Operand}
    (h : ∀ leaf ∈ v.leaves, leaf.Legible) :
    ∃ w, read storyline v.shown.toList = .ok w ∧
      (w = v ↔ ∀ s, text s ∈ v.leaves → ∀ c ∈ s.toList,
        Text.quoteChar c = [c] ∨ c = '"' ∨ c = '\\') := by
  refine ⟨v.respelled, ?_, ?_⟩
  · rw [shown, String.toList_ofList]
    exact readAs_display storyline v h
  · rw [respelled_eq_self_iff]
    simp only [Text.respell_eq_iff]

/-- A bill with a string that has quotes, a backslash and separators in it. -/
def bill : Operand :=
  list [text "\"[a\\b,\"", number (-0.5),
    list [list [], access ⟨["storylines", "pier", "3"]⟩], null]

/-- A tab is not read back. -/
theorem read_display_bill :
    read none bill.shown.toList = .ok bill ∧
      read none (list [bill, text "\t"]).shown.toList ≠ .ok (list [bill, text "\t"]) := by
  have hleaves : ∀ leaf ∈ bill.leaves, leaf = text "\"[a\\b,\"" ∨ leaf = number (-0.5) ∨
      leaf = access ⟨["storylines", "pier", "3"]⟩ ∨ leaf = null := by
    simp [bill, leaves, leavesOfItems]
  have hbill : ∀ leaf ∈ bill.leaves, leaf.Legible := by
    intro leaf hleaf
    rcases hleaves leaf hleaf with rfl | rfl | rfl | rfl
    · trivial
    · exact ⟨by decide +kernel, by decide +kernel⟩
    · exact ⟨"storylines", ["pier", "3"], rfl, by decide, by decide, by decide⟩
    · trivial
  have htab : ∀ leaf ∈ (list [bill, text "\t"]).leaves, leaf.Legible :=
    List.forall_mem_append.2 ⟨hbill, List.forall_mem_singleton.2 trivial⟩
  constructor
  · obtain ⟨w, hread, hiff⟩ := read_display none hbill
    rw [hread, hiff.2]
    intro s hs
    obtain rfl : s = "\"[a\\b,\"" := by simpa using hleaves _ hs
    have hall : "\"[a\\b,\"".toList.all (fun c =>
        decide (Text.quoteChar c = [c] ∨ c = '"' ∨ c = '\\')) = true := by decide +kernel
    simpa only [List.all_eq_true, decide_eq_true_eq] using hall
  · obtain ⟨w, hread, hiff⟩ := read_display none htab
    rw [hread]
    intro heq
    have hplain := hiff.1 (Except.ok.inj heq) "\t"
      (List.mem_append_right _ List.mem_cons_self) '\t' (by decide)
    exact absurd hplain (by decide)

end Operand

end Narrative
