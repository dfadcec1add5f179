import Mathlib.Tactic.Common
import Narrative.Source.Condition
import Narrative.Proofs.Operand.Display
import Narrative.Proofs.Source.Arrays

/-!
# The storyline in which a text is read

A statement, a condition or a list of operations may be read in a storyline or in none.  The
storyline only stands in for the shorthand `sl`: the results of two readings differ in the accesses
that were written with it, and a reading without a storyline differs from one with a storyline only
in failing at the first `sl`.

Both follow from what a change of the storyline does to the accesses that single tokens write
(`Shifts`), which is carried through arrays, statements, groups and lists (`Carries`).
-/

namespace Narrative

/-! ### Other accesses -/

/-- The access with the storyline `x` in the place of the storyline `p`. -/
def Access.relocate (p x : String) (a : Access) : Access :=
  match a.segments with
  | root :: storyline :: rest =>
    if root = "storylines" ∧ storyline = p then ⟨root :: x :: rest⟩ else a
  | _ => a

namespace Access

variable {p x root : String} {segments : List String}

theorem relocate_of_root (h : root ≠ "storylines") :
    relocate p x ⟨root :: segments⟩ = ⟨root :: segments⟩ := by
  cases segments with
  | nil => rfl
  | cons storyline rest => exact if_neg fun hstorylines => h hstorylines.1

theorem relocate_of_not_mem (h : p ∉ segments) :
    relocate p x ⟨root :: segments⟩ = ⟨root :: segments⟩ := by
  cases segments with
  | nil => rfl
  | cons storyline rest =>
    have hstoryline : storyline ≠ p := fun heq => h (heq ▸ List.mem_cons_self)
    exact if_neg fun hboth => hstoryline hboth.2

theorem relocate_self :
    relocate p x ⟨"storylines" :: p :: segments⟩ = ⟨"storylines" :: x :: segments⟩ :=
  if_pos ⟨rfl, rfl⟩

end Access

namespace Operand

mutual

/-- The operand with other accesses in the places of its accesses, at any depth. -/
def mapAccess (f : Access → Access) : Operand → Operand
  | access path => access (f path)
  | null => null
  | bool b => bool b
  | number x => number x
  | text s => text s
  | list items => list (mapAccessItems f items)

/-- `mapAccess` on each item. -/
def mapAccessItems (f : Access → Access) : List Operand → List Operand
  | [] => []
  | item :: rest => mapAccess f item :: mapAccessItems f rest

end

mutual

@[simp] theorem mapAccess_id : (operand : Operand) → operand.mapAccess id = operand
  | .access _ | .null | .bool _ | .number _ | .text _ => rfl
  | .list items => by rw [mapAccess, mapAccessItems_id items]

theorem mapAccessItems_id : (items : List Operand) → mapAccessItems id items = items
  | [] => rfl
  | item :: rest => by rw [mapAccessItems, mapAccess_id item, mapAccessItems_id rest]

end

end Operand

/-- The statement with other accesses in its operands. -/
def Statement.mapAccess (f : Access → Access) (s : Statement) : Statement :=
  ⟨s.left.mapAccess f, s.operator, s.right.mapAccess f⟩

@[simp] theorem Statement.mapAccess_id (s : Statement) : s.mapAccess id = s := by
  simp [Statement.mapAccess]

/-- The operation with another target and other accesses in its operand. -/
def Operation.mapAccess (f : Access → Access) (o : Operation) : Operation :=
  ⟨f o.target, o.operator, o.operand.mapAccess f⟩

@[simp] theorem Operation.mapAccess_id (o : Operation) : o.mapAccess id = o := by
  simp [Operation.mapAccess]

namespace Condition

mutual

/-- The condition with other accesses in the operands of its atoms. -/
def mapAccess (f : Access → Access) : Condition → Condition
  | atom left operator right => atom (left.mapAccess f) operator (right.mapAccess f)
  | group connective members => group connective (mapAccessMembers f members)

/-- `mapAccess` on each member. -/
def mapAccessMembers (f : Access → Access) : List Condition → List Condition
  | [] => []
  | member :: rest => mapAccess f member :: mapAccessMembers f rest

end

mutual

@[simp] theorem mapAccess_id : (c : Condition) → c.mapAccess id = c
  | .atom _ _ _ => by simp [mapAccess]
  | .group _ members => by rw [mapAccess, mapAccessMembers_id members]

theorem mapAccessMembers_id : (members : List Condition) → mapAccessMembers id members = members
  | [] => rfl
  | member :: rest => by rw [mapAccessMembers, mapAccess_id member, mapAccessMembers_id rest]

end

end Condition

/-! ### Parts of a text -/

namespace Text

theorem trim_isInfix (text : List Char) : trim text <:+: text := by
  obtain ⟨before, gap, -, -, htext⟩ := exists_trim text
  exact ⟨before, gap, by rw [List.append_assoc]; exact htext.symm⟩

theorem infix_of_mem_intercalate (separator : List Char) {part : List Char}
    {parts : List (List Char)} (h : part ∈ parts) : part <:+: separator.intercalate parts := by
  induction parts with
  | nil => exact absurd h List.not_mem_nil
  | cons first rest ih =>
    cases rest with
    | nil =>
      obtain rfl := List.mem_singleton.1 h
      simp
    | cons second rest =>
      rw [List.intercalate_cons_cons]
      rcases List.mem_cons.1 h with rfl | h
      · exact ⟨[], separator ++ separator.intercalate (second :: rest), by simp⟩
      · exact (ih h).trans (List.suffix_append _ _).isInfix

theorem infix_of_mem_pieces {mark : Char} {piece text : List Char} (h : piece ∈ pieces mark text) :
    piece <:+: text := by
  have hinfix := infix_of_mem_intercalate [mark] h
  rwa [pieces_eq_splitOn, List.intercalate_splitOn] at hinfix

end Text

namespace Source

theorem infix_of_mem_items {s : Scan} {item text : List Char} (h : item ∈ items s text) :
    item <:+: text := by
  have hinfix := Text.infix_of_mem_intercalate [','] h
  rwa [intercalate_items] at hinfix

theorem inside_isInfix {token inner : List Char} (h : inside? token = some inner) :
    inner <:+: token := by
  obtain ⟨between, rfl, rfl⟩ := eq_of_inside h
  exact (Text.trim_isInfix between).trans ⟨['['], [']'], rfl⟩

/-- A trimmed part of a padded text lies between the two spaces. -/
theorem infix_of_infix_padded {part code : List Char} (htrim : Text.trim part = part)
    (h : part <:+: padded code) : part <:+: code := by
  have hspace : ∀ c ∈ [' '], Text.isBlank c = true := List.forall_mem_singleton.2 (by decide)
  have hlength := congrArg List.length htrim
  rw [padded, List.infix_cons_iff, List.infix_concat_iff] at h
  rcases h with hprefix | hsuffix | hinfix
  · rcases List.prefix_cons_iff.1 hprefix with rfl | ⟨behind, rfl, -⟩
    · exact List.nil_infix
    · rw [← List.singleton_append, Text.trim_append_of_blank hspace] at hlength
      have hle := Text.length_trim_le behind
      rw [hlength] at hle
      exact absurd hle (by simp)
  · rcases List.suffix_concat_iff.1 hsuffix with rfl | ⟨before, rfl, -⟩
    · exact List.nil_infix
    · rw [Text.trim_append_gap hspace] at hlength
      have hle := Text.length_trim_le before
      rw [hlength] at hle
      exact absurd hle (by simp)
  · exact hinfix

/-- Both sides of a statement are parts of it. -/
theorem infix_of_splitAt {operator : Operator} {code before rest : List Char}
    (h : splitAt operator (padded code) = some (before, rest)) :
    Text.trim before <:+: code ∧ Text.trim rest <:+: code := by
  have hpadded : padded code = before ++ delimited operator ++ rest := Text.eq_of_cut h
  constructor
  · refine infix_of_infix_padded (Text.trim_trim before) ((Text.trim_isInfix before).trans ?_)
    exact ⟨[], delimited operator ++ rest, by rw [hpadded]; simp⟩
  · refine infix_of_infix_padded (Text.trim_trim rest) ((Text.trim_isInfix rest).trans ?_)
    exact ⟨before ++ delimited operator, [], by rw [hpadded]; simp⟩

/-! ### Results that carry over -/

/-- How the result of reading in one storyline carries over to another one: a value with other
accesses in it, an error as it is.  Only without a storyline there is an error that may go away. -/
inductive Carries {α : Type} (storyline : Option String) (f : α → α) :
    Except SourceError α → Except SourceError α → Prop
  | ok (value : α) : Carries storyline f (.ok value) (.ok (f value))
  | error (e : SourceError) : Carries storyline f (.error e) (.error e)
  | missing (token : String) (result : Except SourceError α) (lacks : storyline = none) :
    Carries storyline f (.error (.missingStoryline token)) result

namespace Carries

variable {α β : Type} {storyline : Option String} {f : α → α} {x y : Except SourceError α}

theorem of_eq {value image : α} (h : f value = image) :
    Carries storyline f (.ok value) (.ok image) := by
  subst h
  exact .ok value

theorem map {g : β → β} {make make' : α → β} (h : Carries storyline f x y)
    (hmake : ∀ value, make' (f value) = g (make value)) :
    Carries storyline g (x.map make) (y.map make') := by
  cases h with
  | ok value => exact .of_eq (hmake value).symm
  | error e => exact .error e
  | missing token result lacks => exact .missing token _ lacks

/-- In a storyline no error goes away. -/
theorem eq_map {name : String} (h : Carries (some name) f x y) : y = x.map f := by
  cases h with
  | ok value => rfl
  | error e => rfl
  | missing token result lacks => cases lacks

theorem of_ok {value : α} (h : Carries storyline f (.ok value) y) : y = .ok (f value) := by
  cases h with
  | ok value => rfl

theorem exists_missing {value : α} {e : SourceError}
    (h : Carries storyline f (.error e) (.ok value)) : ∃ token, e = .missingStoryline token := by
  cases h with
  | missing token result lacks => exact ⟨token, rfl⟩

end Carries

/-- What reading in the storyline `new` makes of the accesses in a text that was read in `old`. -/
def Shifts (old new : Option String) (f : Access → Access) (text : List Char) : Prop :=
  ∀ token, token <:+: text → Option.Rel (Carries old f) (access? old token) (access? new token)

theorem Shifts.of_part {old new : Option String} {f : Access → Access} {text part : List Char}
    (h : Shifts old new f text) (hpart : part <:+: text) : Shifts old new f part :=
  fun token htoken => h token (htoken.trans hpart)

/-- The shape of a token does not depend on the storyline; its first segments may. -/
theorem access_rel {old new : Option String} {token : List Char}
    {R : Except SourceError Access → Except SourceError Access → Prop}
    (h : ∀ word first segments, (∀ segment ∈ segments, segment.toList <:+: token) →
      R ((firstSegments old word first).map fun start => ⟨start ++ segments⟩)
        ((firstSegments new word first).map fun start => ⟨start ++ segments⟩)) :
    Option.Rel R (access? old token) (access? new token) := by
  unfold access?
  split
  · rename_i first rest hpieces
    split
    · exact .none
    · refine .some (h _ _ _ fun segment hsegment => ?_)
      obtain ⟨piece, hpiece, rfl⟩ := List.mem_map.1 hsegment
      rw [String.toList_ofList]
      exact Text.infix_of_mem_pieces (hpieces ▸ List.mem_cons_of_mem first hpiece)
  · exact .none

/-- In a text without the name `p` only the shorthand gives accesses to the storyline `p`. -/
theorem shifts_relocate {p : String} (x : String) {text : List Char} (h : ¬ p.toList <:+: text) :
    Shifts (some p) (some x) (Access.relocate p x) text := by
  intro token htoken
  refine access_rel fun word first segments hsegments => ?_
  have hmem : p ∉ segments := fun hp => h ((hsegments p hp).trans htoken)
  unfold firstSegments
  split
  · exact .of_eq (Access.relocate_of_root (by decide))
  split
  · exact .of_eq (Access.relocate_of_root (by decide))
  split
  · exact .of_eq (Access.relocate_of_not_mem hmem)
  split
  · exact .of_eq Access.relocate_self
  · exact .error _

theorem shifts_none (x : String) (text : List Char) : Shifts none (some x) id text := by
  intro token _
  refine access_rel fun word first segments _ => ?_
  unfold firstSegments
  split
  · exact .ok _
  split
  · exact .ok _
  split
  · exact .ok _
  split
  · exact .missing word _ rfl
  · exact .error _

end Source

/-! ### Operands -/

namespace Operand

open Source

variable {old new : Option String} {f : Access → Access}

theorem readItems_carries {word : String} {texts : List (List Char)}
    (each : ∀ text ∈ texts, Carries old (mapAccess f) (read old text) (read new text)) :
    Carries old (mapAccessItems f) (readItems old word texts) (readItems new word texts) := by
  induction texts with
  | nil =>
    rw [readItems, readItems]
    exact .ok []
  | cons text rest ih =>
    have hothers := ih fun other hother => each other (List.mem_cons_of_mem _ hother)
    rw [readItems, readItems]
    split
    · exact .error _
    have hfirst := each text List.mem_cons_self
    generalize read old text = first, read new text = first' at hfirst ⊢
    cases hfirst with
    | ok operand => exact hothers.map fun operands => rfl
    | error e => exact .error e
    | missing token result lacks => exact .missing token _ lacks

/-- Reading an operand uses the storyline in the accesses only; the items of an array are shorter
than it. -/
theorem read_carries {token : List Char} (h : Shifts old new f token) :
    Carries old (mapAccess f) (read old token) (read new token) := by
  induction hlength : token.length using Nat.strongRecOn generalizing token with
  | ind n ih =>
    have htrim := h.of_part (Text.trim_isInfix token)
    rw [read, read]
    split
    · exact .ok null
    split
    · exact .ok (bool _)
    split
    · exact .ok (number _)
    split
    · split
      · exact .ok (text _)
      · exact .error _
    · split
      · exact .ok (text _)
      · exact .error _
    split
    · exact .ok (list [])
    · rename_i c inner hinside
      refine (readItems_carries fun text htext => ?_).map fun operands => rfl
      have hshort := length_lt_of_mem_items hinside htext
      have hle := Text.length_trim_le token
      exact ih text.length (by omega)
        (htrim.of_part ((infix_of_mem_items htext).trans (inside_isInfix hinside))) rfl
    · have hrel := htrim (Text.trim token) List.infix_rfl
      generalize Source.access? old (Text.trim token) = before,
        Source.access? new (Text.trim token) = after at hrel ⊢
      cases hrel with
      | none => exact .error _
      | some hcarries =>
        cases hcarries with
        | ok path => exact .ok (access path)
        | error e => exact .error e
        | missing name result lacks => exact .missing name _ lacks

end Operand

/-! ### Statements -/

namespace Statement

open Source

variable {old new : Option String} {f : Access → Access}

theorem read_carries {code : List Char} (h : Shifts old new f code) :
    Carries old (mapAccess f) (read old code) (read new code) := by
  unfold read
  split
  · exact .error _
  split
  · exact .error _
  rename_i before rest hsplit
  dsimp only
  split
  · exact .error _
  split
  · exact .error _
  obtain ⟨hbefore, hrest⟩ := infix_of_splitAt hsplit
  have hleft := Operand.read_carries (h.of_part hbefore)
  have hright := Operand.read_carries (h.of_part hrest)
  generalize Operand.read old (Text.trim before) = left,
    Operand.read new (Text.trim before) = left' at hleft ⊢
  cases hleft with
  | ok l =>
    generalize Operand.read old (Text.trim rest) = right,
      Operand.read new (Text.trim rest) = right' at hright ⊢
    cases hright with
    | ok r => exact .ok (Statement.mk l _ r)
    | error e => exact .error e
    | missing token result lacks => exact .missing token _ lacks
  | error e => exact .error e
  | missing token result lacks => exact .missing token _ lacks

end Statement

/-! ### Operations -/

namespace Operation

open Source

variable {old new : Option String} {f : Access → Access}

theorem read_carries {code : String} (h : Shifts old new f code.toList) :
    Carries old (mapAccess f) (read old code) (read new code) := by
  have hstatement := Statement.read_carries h
  unfold read
  generalize Statement.read old code.toList = s, Statement.read new code.toList = s'
    at hstatement ⊢
  cases hstatement with
  | ok s =>
    obtain ⟨left, operator, right⟩ := s
    cases operator with
    | comparison operator => exact .error _
    | assignment operator =>
      cases left with
      | access target => exact .ok (Operation.mk target operator right)
      | null | bool | number | text | list => exact .error _
  | error e => exact .error e
  | missing token result lacks => exact .missing token _ lacks

theorem readAll_carries {codes : List String} (h : ∀ code ∈ codes, Shifts old new f code.toList) :
    Carries old (List.map (mapAccess f)) (readAll old codes) (readAll new codes) := by
  induction codes with
  | nil => exact .ok []
  | cons code rest ih =>
    obtain ⟨hcode, hrest⟩ := List.forall_mem_cons.1 h
    have hfirst := read_carries hcode
    have hothers := ih hrest
    rw [readAll, readAll]
    generalize read old code = first, read new code = first' at hfirst ⊢
    cases hfirst with
    | ok operation => exact hothers.map fun operations => rfl
    | error e => exact .error e
    | missing token result lacks => exact .missing token _ lacks

end Operation

/-! ### Conditions -/

mutual

/-- The strings in a document, at any depth; the names of entries are not among them. -/
def Json.strings : Json → List String
  | .str s => [s]
  | .arr items => stringsOfItems items
  | .obj entries => stringsOfEntries entries
  | .null | .bool _ | .num _ => []

/-- The strings in the items. -/
def Json.stringsOfItems : List Json → List String
  | [] => []
  | item :: rest => item.strings ++ stringsOfItems rest

/-- The strings in the values. -/
def Json.stringsOfEntries : List (String × Json) → List String
  | [] => []
  | (_, value) :: rest => value.strings ++ stringsOfEntries rest

end

namespace Condition

open Source

variable {old new : Option String} {f : Access → Access}

theorem readAtom_carries {code : String} (h : Shifts old new f code.toList) :
    Carries old (mapAccess f) (readAtom old code) (readAtom new code) := by
  have hstatement := Statement.read_carries h
  unfold readAtom
  generalize Statement.read old code.toList = s, Statement.read new code.toList = s'
    at hstatement ⊢
  cases hstatement with
  | ok s =>
    obtain ⟨left, operator, right⟩ := s
    cases operator with
    | comparison operator => exact .ok (atom left operator right)
    | assignment operator => exact .error _
  | error e => exact .error e
  | missing token result lacks => exact .missing token _ lacks

mutual

theorem read_carries : (document : Json) → (∀ s ∈ document.strings, Shifts old new f s.toList) →
    Carries old (mapAccess f) (read old document) (read new document)
  | .str code, h => by
    rw [read, read]
    exact readAtom_carries (h code (List.mem_singleton.2 rfl))
  | .obj [(name, .arr items)], h => by
    rw [read, read]
    split
    · refine (readMembers_carries items fun s hs => h s ?_).map fun members => rfl
      exact List.mem_append_left _ hs
    · exact .error _
  | .null, _ | .bool _, _ | .num _, _ | .arr _, _ | .obj [], _ | .obj [(_, .null)], _
  | .obj [(_, .bool _)], _ | .obj [(_, .num _)], _ | .obj [(_, .str _)], _
  | .obj [(_, .obj _)], _ => by
    simp only [read]
    exact .error _
  | .obj (first :: second :: rest), _ => by
    simp only [read.eq_def]
    exact .error _

theorem readMembers_carries : (items : List Json) →
    (∀ s ∈ Json.stringsOfItems items, Shifts old new f s.toList) →
      Carries old (mapAccessMembers f) (readMembers old items) (readMembers new items)
  | [], _ => .ok []
  | item :: rest, h => by
    obtain ⟨hitem, hrest⟩ := List.forall_mem_append.1 h
    have hfirst := read_carries item hitem
    have hothers := readMembers_carries rest hrest
    rw [readMembers, readMembers]
    generalize read old item = first, read new item = first' at hfirst ⊢
    cases hfirst with
    | ok member => exact hothers.map fun members => rfl
    | error e => exact .error e
    | missing token result lacks => exact .missing token _ lacks

end

end Condition

/-! ### The storyline only fills in the shorthand -/

/-- A reader of inputs made of texts that uses the storyline for the shorthand only.  When the name
`p` occurs in none of the texts, the readings in the storylines `x` and `p` differ in the accesses
to `p`.  What is read without a storyline is read in every one, and an input that is read in one but
not without only lacks it. -/
structure FillsIn {ι α : Type} (texts : ι → List String)
    (read : Option String → ι → Except SourceError α) (mapAccess : (Access → Access) → α → α) :
    Prop where
  relocated : ∀ (x p : String) (input : ι), (∀ text ∈ texts input, ¬ p.toList <:+: text.toList) →
    read (some x) input = (read (some p) input).map (mapAccess (Access.relocate p x))
  same : ∀ (x : String) (input : ι) (value : α), read none input = .ok value →
    read (some x) input = .ok value
  lacking : ∀ (x : String) (input : ι) (value : α) (e : SourceError),
    read (some x) input = .ok value → read none input = .error e →
      ∃ token, e = .missingStoryline token

theorem FillsIn.of_carries {ι α : Type} {texts : ι → List String}
    {read : Option String → ι → Except SourceError α} {mapAccess : (Access → Access) → α → α}
    (hid : ∀ value, mapAccess id value = value)
    (hcarries : ∀ {old new f input}, (∀ text ∈ texts input, Source.Shifts old new f text.toList) →
      Source.Carries old (mapAccess f) (read old input) (read new input)) :
    FillsIn texts read mapAccess where
  relocated := by
    intro x p input habsent
    exact (hcarries fun text htext => Source.shifts_relocate x (habsent text htext)).eq_map
  same := by
    intro x input value hvalue
    have hsame : Source.Carries none (mapAccess id) (read none input) (read (some x) input) :=
      hcarries fun text _ => Source.shifts_none x text.toList
    rw [hvalue] at hsame
    rw [hsame.of_ok, hid]
  lacking := by
    intro x input value e hvalue he
    have hsame : Source.Carries none (mapAccess id) (read none input) (read (some x) input) :=
      hcarries fun text _ => Source.shifts_none x text.toList
    rw [hvalue, he] at hsame
    exact hsame.exists_missing

/-- The storyline only stands in for the shorthand in statements, in the documents of conditions and
in lists of operations. -/
theorem storyline_only_fills_in_shorthand :
    FillsIn (fun code => [code]) (fun storyline code => Statement.read storyline code.toList)
      Statement.mapAccess ∧
    FillsIn Json.strings Condition.read Condition.mapAccess ∧
    FillsIn id Operation.readAll (fun f => List.map (Operation.mapAccess f)) := by
  refine ⟨.of_carries Statement.mapAccess_id ?_, .of_carries Condition.mapAccess_id ?_,
    .of_carries (fun operations => ?_) ?_⟩
  · exact fun h => Statement.read_carries (h _ List.mem_cons_self)
  · exact fun h => Condition.read_carries _ h
  · exact (List.map_congr_left fun o _ => o.mapAccess_id).trans (List.map_id _)
  · exact fun h => Operation.readAll_carries h

/-- The shorthand twice, and `sl` as the last name of an access, in quotes and as a storyline. -/
def duesDocument : Json :=
  .obj [("AND", .arr [.str "sl.gold > 2", .obj [("OR", .arr [
    .str "[sl.sl, 'sl.toll'] NOT IN s.sl.dues"])]])]

/-- What the document writes in a storyline. -/
def duesCondition (storyline : String) : Condition :=
  .group .and [.atom (.access ⟨["storylines", storyline, "gold"]⟩) .greater (.number 2.0),
    .group .or [.atom (.list [.access ⟨["storylines", storyline, "sl"]⟩, .text "sl.toll"])
      .notMember (.access ⟨["storylines", "sl", "dues"]⟩)]]

theorem storyline_only_fills_in_shorthand_dues :
    Condition.read (some "ferry") duesDocument = .ok (duesCondition "ferry") ∧
    ∃ token, Condition.read none duesDocument = .error (.missingStoryline token) := by
  obtain ⟨-, hfills, -⟩ := storyline_only_fills_in_shorthand
  have habsent : ∀ text ∈ duesDocument.strings, ¬ "quay".toList <:+: text.toList := by decide
  have hquay : Condition.read (some "quay") duesDocument = .ok (duesCondition "quay") := by
    decide +kernel
  have hferry : Condition.read (some "ferry") duesDocument = .ok (duesCondition "ferry") := by
    rw [hfills.relocated "ferry" "quay" duesDocument habsent, hquay]
    rfl
  have hlacks : Condition.read none duesDocument = .error (.missingStoryline "sl.gold") := by
    decide +kernel
  obtain ⟨token, htoken⟩ := hfills.lacking "ferry" duesDocument _ _ hferry hlacks
  exact ⟨hferry, token, by rw [hlacks, htoken]⟩

end Narrative
