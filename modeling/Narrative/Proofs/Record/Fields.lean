import Mathlib.Tactic.Common
import Narrative.Proofs.Except
import Narrative.Record.Basic

/-!
# Fields that may be absent

A field that is absent and one that is null count as the same.  Each reader of such a field succeeds
exactly when nothing is given, or when what is given has the kind that is expected.
-/

namespace Narrative.Record

variable {α β : Type} {record : Entries} {key : String}

/-! ### What is given -/

/-- The value of a field that is neither absent nor null. -/
def given? (record : Entries) (key : String) : Option Json :=
  (record.lookup key).filter fun value => value ≠ .null

theorem given?_eq_some {value : Json} :
    given? record key = some value ↔ record.lookup key = some value ∧ value ≠ .null := by
  simp [given?, Option.filter_eq_some_iff]

/-- A field is absent or null, or its value has a shape. -/
def Optionally (record : Entries) (key : String) (shape : Json → Prop) : Prop :=
  ∀ value, record.lookup key = some value → value = .null ∨ shape value

theorem optionally_iff {shape : Json → Prop} :
    Optionally record key shape ↔ ∀ value, given? record key = some value → shape value := by
  constructor
  · intro h value hvalue
    obtain ⟨hlookup, hnull⟩ := given?_eq_some.1 hvalue
    exact (h value hlookup).resolve_left hnull
  · intro h value hlookup
    by_cases hnull : value = .null
    · exact Or.inl hnull
    · exact Or.inr (h value (given?_eq_some.2 ⟨hlookup, hnull⟩))

/-- What an optional field says of a value: what a relation says of those that are given, or a value
of its own for those that are not. -/
def Says (field : Option Json) (writes : Json → α → Prop) (left a : α) : Prop :=
  (field = none ∧ a = left) ∨ ∃ value, field = some value ∧ writes value a

/-- A field says something exactly when it is left out or its value has the shape of those that
do. -/
theorem exists_says_iff {writes : Json → α → Prop} {shape : Json → Prop}
    (hshape : ∀ value, (∃ a, writes value a) ↔ shape value) {left : α} :
    (∃ a, Says (given? record key) writes left a) ↔ Optionally record key shape := by
  rw [optionally_iff]
  constructor
  · rintro ⟨a, ⟨hgiven, -⟩ | ⟨value, hgiven, ha⟩⟩ other hother
    · exact absurd (hgiven.symm.trans hother) nofun
    · obtain rfl := Option.some.inj (hgiven.symm.trans hother)
      exact (hshape value).1 ⟨a, ha⟩
  · intro h
    cases hgiven : given? record key with
    | none => exact ⟨left, Or.inl ⟨rfl, rfl⟩⟩
    | some value =>
      obtain ⟨a, ha⟩ := (hshape value).2 (h value hgiven)
      exact ⟨a, Or.inr ⟨value, rfl, ha⟩⟩

/-- A second pass over what a field says is a pass over the field. -/
theorem says_comp_iff {field : Option Json} {writes : Json → α → Prop} (next : α → β → Prop)
    {left : α} {made b : β} (hleft : next left b ↔ b = made) :
    (∃ a, Says field writes left a ∧ next a b) ↔
      Says field (fun value b => ∃ a, writes value a ∧ next a b) made b := by
  constructor
  · rintro ⟨a, ⟨hfield, rfl⟩ | ⟨value, hfield, ha⟩, hb⟩
    · exact Or.inl ⟨hfield, hleft.1 hb⟩
    · exact Or.inr ⟨value, hfield, a, ha, hb⟩
  · rintro (⟨hfield, hb⟩ | ⟨value, hfield, a, ha, hb⟩)
    · exact ⟨left, Or.inl ⟨hfield, rfl⟩, hleft.2 hb⟩
    · exact ⟨a, Or.inr ⟨value, hfield, ha⟩, hb⟩

/-! ### Kinds -/

theorem checkKind_eq_ok_iff {document made : Json} {expected : Kind} :
    checkKind document key expected = .ok made ↔ document = made ∧ document.kind = expected := by
  unfold checkKind
  split
  · rename_i hkind
    rw [Except.ok.injEq]
    exact ⟨fun h => ⟨h, hkind⟩, And.left⟩
  · rename_i hkind
    exact ⟨nofun, fun h => absurd h.2 hkind⟩

theorem optional_eq (record : Entries) (key : String) (expected : Kind) :
    optional record key expected = match given? record key with
      | none => .ok none
      | some value => (checkKind value key expected).map some := by
  unfold optional given?
  cases record.lookup key with
  | none => rfl
  | some value => cases value <;> rfl

/-- The documents of a kind are those that one constructor makes. -/
def Makes {α : Type} (make : α → Json) (kind : Kind) : Prop :=
  ∀ value : Json, value.kind = kind ↔ ∃ a, value = make a

theorem makes_bool : Makes Json.bool .boolean := by
  intro value
  cases value <;> simp [Json.kind]

theorem makes_num : Makes Json.num .number := by
  intro value
  cases value <;> simp [Json.kind]

theorem makes_arr : Makes Json.arr .array := by
  intro value
  cases value <;> simp [Json.kind]

theorem makes_obj : Makes Json.obj .object := by
  intro value
  cases value <;> simp [Json.kind]

section Optional

variable {make : α → Json} {expected : Kind}

theorem optional_eq_ok_iff (hmake : Makes make expected) {found : Option Json} :
    optional record key expected = .ok found ↔
      (given? record key = none ∧ found = none) ∨
        ∃ a, given? record key = some (make a) ∧ found = some (make a) := by
  rw [optional_eq]
  cases given? record key with
  | none => simp [eq_comm]
  | some value =>
    constructor
    · intro h
      obtain ⟨made, hmade, rfl⟩ := Except.exists_of_map h
      obtain ⟨rfl, hkind⟩ := checkKind_eq_ok_iff.1 hmade
      obtain ⟨a, rfl⟩ := (hmake value).1 hkind
      exact Or.inr ⟨a, rfl, rfl⟩
    · rintro (⟨hnone, -⟩ | ⟨a, hsome, rfl⟩)
      · exact absurd hnone nofun
      · obtain rfl := Option.some.inj hsome
        dsimp only
        rw [checkKind_eq_ok_iff.2 ⟨rfl, (hmake _).2 ⟨a, rfl⟩⟩]
        rfl

/-- A reader that takes a value of its own where a field is left out. -/
theorem optional_getD_iff (hmake : Makes make expected) (get : Json → Option β) (value : α → β)
    (hget : ∀ a, get (make a) = some (value a)) {left b : β} :
    (∃ found, optional record key expected = .ok found ∧ (found.bind get).getD left = b) ↔
      Says (given? record key) (fun document b => ∃ a, document = make a ∧ b = value a) left b := by
  constructor
  · rintro ⟨found, hfound, rfl⟩
    rcases (optional_eq_ok_iff hmake).1 hfound with ⟨hgiven, rfl⟩ | ⟨a, hgiven, rfl⟩
    · exact Or.inl ⟨hgiven, rfl⟩
    · refine Or.inr ⟨_, hgiven, a, rfl, ?_⟩
      rw [Option.bind_some, hget, Option.getD_some]
  · rintro (⟨hgiven, rfl⟩ | ⟨_, hgiven, a, rfl, rfl⟩)
    · exact ⟨none, (optional_eq_ok_iff hmake).2 (Or.inl ⟨hgiven, rfl⟩), rfl⟩
    · refine ⟨some (make a), (optional_eq_ok_iff hmake).2 (Or.inr ⟨a, hgiven, rfl⟩), ?_⟩
      rw [Option.bind_some, hget, Option.getD_some]

end Optional

/-! ### Texts and objects -/

theorem texts_eq_ok_iff {items : List Json} {codes : List String} :
    texts key items = .ok codes ↔ items = codes.map .str := by
  constructor
  · intro h
    induction items generalizing codes with
    | nil => exact Except.ok.inj h ▸ rfl
    | cons item rest ih =>
      cases item with
      | str code =>
        obtain ⟨others, hothers, rfl⟩ := Except.exists_of_map h
        rw [ih hothers, List.map_cons]
      | _ => exact absurd h nofun
  · rintro rfl
    induction codes with
    | nil => rfl
    | cons code codes ih =>
      rw [List.map_cons, texts, ih]
      rfl

theorem optionalTexts_eq_ok_iff {codes : List String} :
    optionalTexts record key = .ok codes ↔
      Says (given? record key) (fun value codes => value = .arr (codes.map .str)) [] codes := by
  unfold optionalTexts
  constructor
  · intro h
    cases hfield : optional record key .array with
    | error e =>
      rw [hfield] at h
      exact absurd h nofun
    | ok found =>
      rw [hfield] at h
      rcases (optional_eq_ok_iff makes_arr).1 hfield with ⟨hgiven, rfl⟩ | ⟨items, hgiven, rfl⟩
      · exact Or.inl ⟨hgiven, (Except.ok.inj h).symm⟩
      · exact Or.inr ⟨_, hgiven, congrArg Json.arr (texts_eq_ok_iff.1 h)⟩
  · rintro (⟨hgiven, rfl⟩ | ⟨_, hgiven, rfl⟩)
    · rw [(optional_eq_ok_iff makes_arr).2 (Or.inl ⟨hgiven, rfl⟩)]
    · rw [(optional_eq_ok_iff makes_arr).2 (Or.inr ⟨_, hgiven, rfl⟩)]
      exact texts_eq_ok_iff.2 rfl

theorem optionalEntries_eq_ok_iff {inner : Entries} :
    optionalEntries record key = .ok inner ↔
      Says (given? record key) (fun value inner => value = .obj inner) [] inner := by
  unfold optionalEntries
  constructor
  · intro h
    cases hfield : optional record key .object with
    | error e =>
      rw [hfield] at h
      exact absurd h nofun
    | ok found =>
      rw [hfield] at h
      rcases (optional_eq_ok_iff makes_obj).1 hfield with ⟨hgiven, rfl⟩ | ⟨entries, hgiven, rfl⟩
      · exact Or.inl ⟨hgiven, (Except.ok.inj h).symm⟩
      · exact Or.inr ⟨_, hgiven, congrArg Json.obj (Except.ok.inj h)⟩
  · rintro (⟨hgiven, rfl⟩ | ⟨_, hgiven, rfl⟩)
    · rw [(optional_eq_ok_iff makes_obj).2 (Or.inl ⟨hgiven, rfl⟩)]
    · rw [(optional_eq_ok_iff makes_obj).2 (Or.inr ⟨_, hgiven, rfl⟩)]

/-- The entries of a document; null has none. -/
def Opens (document : Json) (record : Entries) : Prop :=
  (document = .null ∧ record = []) ∨ document = .obj record

theorem entriesOrNull_eq_ok_iff {document : Json} :
    entriesOrNull document key = .ok record ↔ Opens document record := by
  cases document with
  | null => simp [entriesOrNull, Opens, eq_comm]
  | obj entries => simp [entriesOrNull, Record.entries, Opens]
  | _ => simp [entriesOrNull, Record.entries, Opens]

end Narrative.Record
