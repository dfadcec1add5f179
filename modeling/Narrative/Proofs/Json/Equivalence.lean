import Mathlib.Data.List.Forall2
import Mathlib.Data.List.Perm.Subperm
import Narrative.Proofs.Json.Equality

/-!
# Strict equality is an equivalence

Strict equality asks two objects for equally many entries and looks those of the first one up in the
second one.  As names are distinct, both then have the same names, and two documents are the same
exactly when they differ in the order of entries and in the encoding of numbers only.
-/

namespace Narrative

/-! ### Floats -/

namespace Decimal

open Float.Model

/-- A float whose zero has no sign. -/
def unsignedZero : UnpackedFloat → UnpackedFloat
  | .zero _ => .zero .positive
  | u => u

theorem compare_sign_self (s : UnpackedFloat.Sign) : compare s s = .eq := by
  cases s <;> rfl

/-- Floats compare as equal when they are the same number, whatever the sign of a zero. -/
theorem compare_eq_eq_iff {u v : UnpackedFloat} :
    u.compare v = some .eq ↔ u ≠ .notANumber ∧ unsignedZero u = unsignedZero v := by
  rcases u with (_ | _) | _ | (_ | _) | ⟨_ | _, m, e, hm⟩ <;>
    rcases v with (_ | _) | _ | (_ | _) | ⟨_ | _, n, f, hn⟩ <;>
    simp [UnpackedFloat.compare, unsignedZero, compare_sign_self, and_comm]

variable {x y z : Float}

theorem beq_iff : (x == y) = true ↔ x.toModel.unpack ≠ .notANumber ∧
    unsignedZero x.toModel.unpack = unsignedZero y.toModel.unpack := by
  rw [← compare_eq_eq_iff]
  show (x.toModel.unpack.compare y.toModel.unpack == some Ordering.eq) = true ↔ _
  exact beq_iff_eq

theorem beq_symm (h : (x == y) = true) : (y == x) = true := by
  obtain ⟨hx, heq⟩ := beq_iff.1 h
  refine beq_iff.2 ⟨fun hy => hx ?_, heq.symm⟩
  rw [hy] at heq
  cases hunpack : x.toModel.unpack with
  | notANumber => rfl
  | infinity s | zero s | finite s m e hm =>
    rw [hunpack] at heq
    cases heq

theorem beq_trans (hxy : (x == y) = true) (hyz : (y == z) = true) : (x == z) = true := by
  obtain ⟨hx, hxy⟩ := beq_iff.1 hxy
  exact beq_iff.2 ⟨hx, hxy.trans (beq_iff.1 hyz).2⟩

end Decimal

namespace Json

/-! ### Arrays and objects -/

/-- One document is another one with the entries of its objects in another order and its numbers in
another encoding, at any depth. -/
inductive Recoded : Json → Json → Prop
  | null : Recoded null null
  | bool (b : Bool) : Recoded (bool b) (bool b)
  | num {a b : Number} (value : (a.toFloat == b.toFloat) = true) : Recoded (num a) (num b)
  | str (s : String) : Recoded (str s) (str s)
  | arr {items others : List Json} (length : items.length = others.length)
    (each : ∀ (i : Nat) a b, items[i]? = some a → others[i]? = some b → Recoded a b) :
    Recoded (arr items) (arr others)
  | obj {entries others : List (String × Json)}
    (names : (Entries.names entries).Perm (Entries.names others))
    (each : ∀ name a b, entries.lookup name = some a → others.lookup name = some b →
      Recoded a b) : Recoded (obj entries) (obj others)

theorem sameItems_iff {items others : List Json} :
    sameItems items others = true ↔ items.length = others.length ∧
      ∀ (i : Nat) a b, items[i]? = some a → others[i]? = some b → same a b = true := by
  induction items generalizing others with
  | nil => cases others <;> simp [sameItems]
  | cons item rest ih =>
    cases others with
    | nil => simp [sameItems]
    | cons other others =>
      rw [sameItems, Bool.and_eq_true, ih]
      constructor
      · rintro ⟨hfirst, hlength, heach⟩
        refine ⟨congrArg (· + 1) hlength, fun i a b ha hb => ?_⟩
        cases i with
        | zero =>
          obtain rfl := Option.some.inj ha
          obtain rfl := Option.some.inj hb
          exact hfirst
        | succ i => exact heach i a b ha hb
      · rintro ⟨hlength, heach⟩
        exact ⟨heach 0 item other rfl rfl, Nat.succ.inj hlength, fun i => heach (i + 1)⟩

theorem sameEntries_iff {entries others : List (String × Json)} :
    sameEntries entries others = true ↔ ∀ entry ∈ entries,
      ∃ other, others.lookup entry.1 = some other ∧ same entry.2 other = true := by
  induction entries with
  | nil => simp [sameEntries]
  | cons entry rest ih =>
    obtain ⟨name, value⟩ := entry
    rw [sameEntries, Bool.and_eq_true, List.forall_mem_cons, ih]
    refine and_congr_left fun _ => ?_
    cases others.lookup name <;> simp

/-- As many entries with distinct names as another object has, each of which is found there, have
the same names. -/
theorem names_perm {entries others : List (String × Json)} (hnames : (Entries.names entries).Nodup)
    (hlength : entries.length = others.length) (h : sameEntries entries others = true) :
    (Entries.names entries).Perm (Entries.names others) := by
  have hsubset : Entries.names entries ⊆ Entries.names others := by
    intro name hname
    obtain ⟨entry, hentry, rfl⟩ := List.mem_map.1 hname
    obtain ⟨other, hother, -⟩ := sameEntries_iff.1 h entry hentry
    exact Entries.mem_names_of_lookup hother
  refine (List.subperm_of_subset hnames hsubset).perm_of_length_le ?_
  rw [Entries.names, Entries.names, List.length_map, List.length_map, hlength]

/-- Two objects with distinct names are the same when they have the same names, and the same value
under each of them. -/
theorem same_obj_iff {entries others : List (String × Json)}
    (hnames : (Entries.names entries).Nodup) (hothers : (Entries.names others).Nodup) :
    same (obj entries) (obj others) = true ↔
      (Entries.names entries).Perm (Entries.names others) ∧
        ∀ name a b, entries.lookup name = some a → others.lookup name = some b →
          same a b = true := by
  rw [same, Bool.and_eq_true, beq_iff_eq]
  constructor
  · rintro ⟨hlength, heach⟩
    refine ⟨names_perm hnames hlength heach, fun name a b ha hb => ?_⟩
    obtain ⟨other, hother, hsame⟩ := sameEntries_iff.1 heach (name, a) (Entries.mem_of_lookup ha)
    obtain rfl := Option.some.inj (hb.symm.trans hother)
    exact hsame
  · rintro ⟨hperm, heach⟩
    have hlength := hperm.length_eq
    rw [Entries.names, Entries.names, List.length_map, List.length_map] at hlength
    refine ⟨hlength, sameEntries_iff.2 fun entry hentry => ?_⟩
    obtain ⟨other, hother, hname⟩ := List.mem_map.1 (hperm.subset (List.mem_map_of_mem hentry))
    have hfound := Entries.lookup_of_mem hothers hother
    rw [hname] at hfound
    exact ⟨other.2, hfound, heach _ _ _ (Entries.lookup_of_mem hnames hentry) hfound⟩

/-! ### The equivalence -/

variable {a b c : Json}

theorem recoded_of_same (ha : a.Proper) (hb : b.Proper) (h : a.same b = true) : a.Recoded b := by
  induction ha generalizing b with
  | null =>
    cases b with
    | null => exact .null
    | _ => exact absurd h Bool.false_ne_true
  | bool t =>
    cases b with
    | bool u =>
      obtain rfl : t = u := eq_of_beq h
      exact .bool t
    | _ => exact absurd h Bool.false_ne_true
  | int range | float finite =>
    cases b with
    | num n => exact .num h
    | _ => exact absurd h Bool.false_ne_true
  | str s =>
    cases b with
    | str t =>
      obtain rfl : s = t := eq_of_beq h
      exact .str s
    | _ => exact absurd h Bool.false_ne_true
  | arr each ih =>
    cases b with
    | arr others =>
      rw [same, sameItems_iff] at h
      refine .arr h.1 fun i c d hc hd => ?_
      exact ih c (List.mem_of_getElem? hc) (hb.items d (List.mem_of_getElem? hd)) (h.2 i c d hc hd)
    | _ => exact absurd h Bool.false_ne_true
  | obj once each ih =>
    cases b with
    | obj others =>
      rw [same_obj_iff once hb.names] at h
      refine .obj h.1 fun name c d hc hd => ?_
      exact ih _ (Entries.mem_of_lookup hc) (hb.values _ (Entries.mem_of_lookup hd))
        (h.2 name c d hc hd)
    | _ => exact absurd h Bool.false_ne_true

theorem Recoded.same (h : a.Recoded b) (ha : a.Proper) (hb : b.Proper) : a.same b = true := by
  induction h with
  | null => rfl
  | bool b => rw [Json.same, beq_self_eq_true]
  | num value => exact value
  | str s => rw [Json.same, beq_self_eq_true]
  | arr length each ih =>
    rw [Json.same, sameItems_iff]
    refine ⟨length, fun i c d hc hd => ?_⟩
    exact ih i c d hc hd (ha.items c (List.mem_of_getElem? hc)) (hb.items d (List.mem_of_getElem? hd))
  | obj names each ih =>
    rw [same_obj_iff ha.names hb.names]
    refine ⟨names, fun name c d hc hd => ?_⟩
    exact ih name c d hc hd (ha.values _ (Entries.mem_of_lookup hc))
      (hb.values _ (Entries.mem_of_lookup hd))

theorem Recoded.symm (h : a.Recoded b) : b.Recoded a := by
  induction h with
  | null => exact .null
  | bool b => exact .bool b
  | num value => exact .num (Decimal.beq_symm value)
  | str s => exact .str s
  | arr length each ih => exact .arr length.symm fun i c d hc hd => ih i d c hd hc
  | obj names each ih => exact .obj names.symm fun name c d hc hd => ih name d c hd hc

theorem Recoded.trans (hab : a.Recoded b) (hbc : b.Recoded c) : a.Recoded c := by
  induction hab generalizing c with
  | null => exact hbc
  | bool t => exact hbc
  | num value =>
    cases hbc with
    | num other => exact .num (Decimal.beq_trans value other)
  | str s => exact hbc
  | arr length each ih =>
    cases hbc with
    | arr length' each' =>
      refine .arr (length.trans length') fun i d e hd he => ?_
      obtain ⟨hlt, -⟩ := List.getElem?_eq_some_iff.1 hd
      have hmiddle := List.getElem?_eq_getElem (length ▸ hlt)
      exact ih i d _ hd hmiddle (each' i _ e hmiddle he)
  | obj names each ih =>
    cases hbc with
    | obj names' each' =>
      refine .obj (names.trans names') fun name d e hd he => ?_
      have hname := names.subset (Entries.mem_names_of_lookup hd)
      obtain ⟨middle, hmiddle⟩ := Entries.exists_lookup hname
      exact ih name d middle hd hmiddle (each' name middle e hmiddle he)

theorem same_comm (ha : a.Proper) (hb : b.Proper) : a.same b = b.same a :=
  Bool.eq_iff_iff.2 ⟨fun h => (recoded_of_same ha hb h).symm.same hb ha,
    fun h => (recoded_of_same hb ha h).symm.same ha hb⟩

theorem same_trans (ha : a.Proper) (hb : b.Proper) (hc : c.Proper) (hab : a.same b = true)
    (hbc : b.same c = true) : a.same c = true :=
  ((recoded_of_same ha hb hab).trans (recoded_of_same hb hc hbc)).same ha hc

/-! ### Parts of documents -/

/-- An array with one item replaced by the same. -/
theorem same_set {items : List Json} (h : (arr items).Proper) {i : Nat} (hitem : items[i]? = some a)
    (hsame : a.same b = true) : (arr items).same (arr (items.set i b)) = true := by
  rw [same, sameItems_iff]
  refine ⟨List.length_set.symm, fun j c d hc hd => ?_⟩
  by_cases hij : i = j
  · subst hij
    obtain ⟨hlt, -⟩ := List.getElem?_eq_some_iff.1 hitem
    obtain rfl := Option.some.inj (hitem.symm.trans hc)
    obtain rfl := Option.some.inj ((List.getElem?_set_self hlt).symm.trans hd)
    exact hsame
  · rw [List.getElem?_set_ne hij] at hd
    obtain rfl := Option.some.inj (hc.symm.trans hd)
    exact same_self (h.items c (List.mem_of_getElem? hc))

/-- An object with the value under one name replaced by the same. -/
theorem same_put {entries : List (String × Json)} (h : (obj entries).Proper) {name : String}
    (hvalue : entries.lookup name = some a) (hsame : a.same b = true) :
    (obj entries).same (obj (Entries.put name b entries)) = true := by
  have hname : name ∈ Entries.names entries := Entries.mem_names_of_lookup hvalue
  rw [same_obj_iff h.names (Entries.nodup_names_put h.names), Entries.names_put hname]
  refine ⟨List.Perm.refl _, fun other c d hc hd => ?_⟩
  rw [Entries.lookup_put] at hd
  split at hd
  · rename_i hother
    subst hother
    obtain rfl := Option.some.inj (hvalue.symm.trans hc)
    obtain rfl := Option.some.inj hd
    exact hsame
  · obtain rfl := Option.some.inj (hc.symm.trans hd)
    exact same_self (h.values _ (Entries.mem_of_lookup hc))

/-- Strict equality is an equivalence of documents with finite numbers and distinct names.  It holds
exactly when only the order of entries and the encoding of numbers differ, at any depth; an item of
an array or a value of an object can be replaced by the same; and what is missing is the same as
what is missing only. -/
theorem same_equivalence :
    (∀ a : Json, a.Proper → a.same a = true) ∧
      (∀ a b : Json, a.Proper → b.Proper → a.same b = b.same a) ∧
      (∀ a b c : Json, a.Proper → b.Proper → c.Proper → a.same b = true → b.same c = true →
        a.same c = true) ∧
      (∀ a b : Json, a.Proper → b.Proper → (a.same b = true ↔ a.Recoded b)) ∧
      (∀ (items : List Json) (i : Nat) (a b : Json), (arr items).Proper → items[i]? = some a →
        a.same b = true → (arr items).same (arr (items.set i b)) = true) ∧
      (∀ (entries : List (String × Json)) (name : String) (a b : Json), (obj entries).Proper →
        entries.lookup name = some a → a.same b = true →
        (obj entries).same (obj (Entries.put name b entries)) = true) ∧
      ∀ a b : Option Json, sameOptional a b = true ↔
        (a = none ∧ b = none) ∨ ∃ c d, a = some c ∧ b = some d ∧ c.same d = true := by
  refine ⟨fun a => same_self, fun a b => same_comm, fun a b c => same_trans, fun a b ha hb => ?_,
    fun items i a b h => same_set h, fun entries name a b h => same_put h, fun a b => ?_⟩
  · exact ⟨recoded_of_same ha hb, fun h => h.same ha hb⟩
  · cases a <;> cases b <;> simp [sameOptional]

/-- The lengths of two ropes. -/
def ropes : List Json :=
  [.num (.int 2), .num (.float 0.5)]

/-- The ropes with the first length as a float. -/
def recastRopes : List Json :=
  ropes.set 0 (.num (.float 2.0))

/-- The cargo of a boat that nobody owns. -/
def cargo : Json :=
  .obj [("ropes", .arr ropes), ("owner", .null)]

/-- The cargo with its entries turned round and the first rope recast. -/
def recastCargo : Json :=
  .obj [("owner", .null), ("ropes", .arr recastRopes)]

theorem proper_ropes : (arr ropes).Proper :=
  .arr (List.forall_mem_cons.2
    ⟨.int (by decide), List.forall_mem_singleton.2 (.float (by decide +kernel))⟩)

theorem proper_recastRopes : (arr recastRopes).Proper :=
  .arr (List.forall_mem_cons.2
    ⟨.float (by decide +kernel), List.forall_mem_singleton.2 (.float (by decide +kernel))⟩)

theorem proper_cargo : cargo.Proper :=
  .obj (by decide)
    (List.forall_mem_cons.2 ⟨proper_ropes, List.forall_mem_singleton.2 .null⟩)

theorem proper_recastCargo : recastCargo.Proper :=
  .obj (by decide)
    (List.forall_mem_cons.2 ⟨.null, List.forall_mem_singleton.2 proper_recastRopes⟩)

/-- The two cargoes are the same, whichever comes first, and so are their ropes and the first cargo
with the ropes of the second one. -/
theorem same_equivalence_cargo :
    cargo.Proper ∧ recastCargo.Proper ∧ cargo.same recastCargo = true ∧
      recastCargo.same cargo = true ∧ cargo.Recoded recastCargo ∧ cargo.same cargo = true ∧
      (arr ropes).same (arr recastRopes) = true ∧
      cargo.same (.obj [("ropes", .arr recastRopes), ("owner", .null)]) = true := by
  obtain ⟨-, hcomm, htrans, hrecoded, hset, hput, -⟩ := same_equivalence
  have hsame : cargo.same recastCargo = true := by decide +kernel
  have hback : recastCargo.same cargo = true :=
    (hcomm recastCargo cargo proper_recastCargo proper_cargo).trans hsame
  have hropes : (arr ropes).same (arr recastRopes) = true :=
    hset ropes 0 (.num (.int 2)) (.num (.float 2.0)) proper_ropes rfl (by decide +kernel)
  have hcargo := hput _ "ropes" _ _ proper_cargo rfl hropes
  exact ⟨proper_cargo, proper_recastCargo, hsame, hback,
    (hrecoded _ _ proper_cargo proper_recastCargo).1 hsame,
    htrans _ _ _ proper_cargo proper_recastCargo proper_cargo hsame hback, hropes, hcargo⟩

end Json

end Narrative
