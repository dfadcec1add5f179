import Mathlib.Tactic.Common
import Narrative.Condition.Holds
import Narrative.Operation.Apply
import Narrative.Proofs.Except
import Narrative.Proofs.Entries
import Narrative.Proofs.Decimal.Finite
import Narrative.Proofs.Json.Document
import Narrative.Proofs.State.Walk
import Narrative.Proofs.Story.Rereading

/-!
# Well-formed states

A state is well formed when it has its three roots, all of them objects, and holds only what a
document can hold.  Operations and conditions whose accesses go below a root keep it so, and of the
errors that they can fail with some are left out.
-/

namespace Narrative

open Json

/-! ### Documents -/

namespace Json

/-- A float as a number: it is finite, and a whole one is small. -/
theorem proper_ofFloat {x : Float} {n : Number} (h : Number.ofFloat? x = some n) :
    (num n).Proper := by
  unfold Number.ofFloat? at h
  split at h
  · rename_i whole hwhole
    split at h
    · rename_i hlimit
      obtain rfl := Option.some.inj h
      have hsmall : whole.natAbs < 9000000000000000 := hlimit
      refine .int ⟨?_, ?_⟩ <;> omega
    · obtain rfl := Option.some.inj h
      unfold Decimal.whole? at hwhole
      split at hwhole
      · rename_i hfinite
        exact .float (Decimal.isFinite_of_ofFloat hfinite)
      · cases hwhole
  · split at h
    · rename_i hfinite
      obtain rfl := Option.some.inj h
      exact .float hfinite
    · cases h

theorem exists_ofFloat {x : Float} (h : x.isFinite = true) : ∃ n, Number.ofFloat? x = some n := by
  unfold Number.ofFloat?
  split
  · split
    · exact ⟨_, rfl⟩
    · exact ⟨_, rfl⟩
  · rw [if_pos h]
    exact ⟨_, rfl⟩

namespace Proper

variable {level value : Json} {key : String}

theorem child (h : level.Proper) (hchild : level.child? key = some value) : value.Proper := by
  cases level with
  | obj entries => exact h.values _ (Entries.mem_of_lookup hchild)
  | arr items =>
    obtain ⟨i, -, hitem⟩ := Option.bind_eq_some_iff.1 hchild
    exact h.items _ (List.mem_of_getElem? hitem)
  | _ => cases hchild

/-- What stands at a path is part of the document. -/
theorem at? {path : List String} (h : level.Proper) (hvalue : level.at? path = some value) :
    value.Proper := by
  induction path generalizing level with
  | nil => exact Option.some.inj hvalue ▸ h
  | cons segment path ih =>
    obtain ⟨below, hbelow, hvalue⟩ := Option.bind_eq_some_iff.1 hvalue
    exact ih (h.child hbelow) hvalue

/-- What a path leads to is part of the document. -/
theorem place {rest : List String} (h : level.Proper)
    (hvalue : (level.place key rest).value? = some value) : value.Proper := by
  obtain ⟨front, hstop⟩ := exists_stop_place level key rest
  rw [hstop.value?_eq] at hvalue
  exact h.at? hvalue

theorem put {entries : List (String × Json)} (h : Proper (.obj entries)) (hvalue : value.Proper) :
    Proper (.obj (Entries.put key value entries)) := by
  refine .obj (Entries.nodup_names_put h.names) fun entry hentry => ?_
  rcases Entries.mem_of_mem_put hentry with rfl | hentry
  · exact hvalue
  · exact h.values entry hentry

theorem set {items : List Json} {i : Nat} (h : Proper (.arr items)) (hvalue : value.Proper) :
    Proper (.arr (items.set i value)) := by
  refine .arr fun item hitem => ?_
  rcases List.mem_or_eq_of_mem_set hitem with hitem | rfl
  · exact h.items item hitem
  · exact hvalue

theorem append {items others : List Json} (h : Proper (.arr items))
    (hothers : Proper (.arr others)) : Proper (.arr (items ++ others)) := by
  refine .arr fun item hitem => ?_
  rcases List.mem_append.1 hitem with hitem | hitem
  · exact h.items item hitem
  · exact hothers.items item hitem

theorem singleton (hvalue : value.Proper) : Proper (.arr [value]) :=
  .arr fun _ hitem => List.mem_singleton.1 hitem ▸ hvalue

/-- Writing under a segment keeps the level what it is. -/
theorem setChild {made : Json} (h : level.Proper) (hvalue : value.Proper)
    (hset : level.setChild key value = .ok made) : made.Proper ∧ made.kind = level.kind := by
  cases level with
  | obj entries =>
    obtain rfl := Except.ok.inj hset
    exact ⟨h.put hvalue, rfl⟩
  | arr items =>
    unfold Json.setChild at hset
    dsimp only at hset
    split at hset
    · cases hset
    · split at hset
      · obtain rfl := Except.ok.inj hset
        exact ⟨h.set hvalue, rfl⟩
      · split at hset
        · obtain rfl := Except.ok.inj hset
          exact ⟨h.append (singleton hvalue), rfl⟩
        · cases hset
  | _ => cases hset

theorem replaceChild (h : level.Proper) (hvalue : value.Proper) :
    (level.replaceChild key value).Proper ∧ (level.replaceChild key value).kind = level.kind := by
  cases level with
  | obj entries => exact ⟨h.put hvalue, rfl⟩
  | arr items =>
    unfold Json.replaceChild
    dsimp only
    split
    · exact ⟨h, rfl⟩
    · exact ⟨h.set hvalue, rfl⟩
  | _ => exact ⟨h, rfl⟩

/-- Writing at a path keeps the level where the path starts what it is. -/
theorem setAt {made : Json} {rest : List String} (h : level.Proper) (hvalue : value.Proper)
    (hset : Json.setAt value level key rest = .ok made) :
    made.Proper ∧ made.kind = level.kind := by
  induction rest generalizing level key made with
  | nil => exact h.setChild hvalue hset
  | cons next rest ih =>
    rw [Json.setAt] at hset
    split at hset
    · cases hset
    · rename_i below hbelow
      obtain ⟨inner, hinner, rfl⟩ := Except.exists_of_map hset
      exact h.replaceChild (ih (h.child hbelow) hinner).1

end Proper

end Json

/-! ### States -/

namespace State

/-- The names of the roots of a state. -/
def rootNames : List String :=
  ["global", "resources", "storylines"]

/-- A state with exactly its three roots, in order and each an object, in which every number is
finite and no object repeats a name. -/
structure WellFormed (s : State) : Prop where
  names : Entries.names s.entries = rootNames
  objects : ∀ entry ∈ s.entries, entry.2.kind = .object
  proper : s.root.Proper

namespace WellFormed

variable {s : State}

theorem exists_root (h : s.WellFormed) {name : String} (hname : name ∈ rootNames) :
    ∃ entries, s.entries.lookup name = some (.obj entries) := by
  have hmem : name ∈ Entries.names s.entries := h.names ▸ hname
  obtain ⟨value, hlookup⟩ := Entries.exists_lookup hmem
  have hkind := h.objects _ (Entries.mem_of_lookup hlookup)
  cases value with
  | obj entries => exact ⟨entries, hlookup⟩
  | _ => cases hkind

/-- Another object in the place of a root. -/
theorem put (h : s.WellFormed) {name : String} (hname : name ∈ rootNames) {root : Json}
    (hroot : root.Proper) (hkind : root.kind = .object) :
    WellFormed ⟨Entries.put name root s.entries⟩ where
  names := by
    rw [Entries.names_put (h.names ▸ hname)]
    exact h.names
  objects entry hentry := by
    rcases Entries.mem_of_mem_put hentry with rfl | hentry
    · exact hkind
    · exact h.objects entry hentry
  proper := h.proper.put hroot

/-- A value can be put under any name of `global`. -/
theorem setGlobal (h : s.WellFormed) (key : String) {value : Json} (hvalue : value.Proper) :
    ∃ t, s.setGlobal key value = .ok t ∧ t.WellFormed := by
  have hname : "global" ∈ rootNames := by decide
  obtain ⟨globals, hglobals⟩ := h.exists_root hname
  have hproper : Proper (.obj globals) := h.proper.values _ (Entries.mem_of_lookup hglobals)
  refine ⟨⟨Entries.put "global" (.obj (Entries.put key value globals)) s.entries⟩, ?_,
    h.put hname (hproper.put hvalue) rfl⟩
  rw [State.setGlobal, hglobals]
  rfl

end WellFormed

end State

/-! ### What goes below the roots -/

/-- An access that goes below one of the roots. -/
def Access.Rooted (a : Access) : Prop :=
  ∃ name key rest, a.segments = name :: key :: rest ∧ name ∈ State.rootNames

namespace Operand

mutual

/-- An operand whose accesses go below a root and whose numbers are finite. -/
def WellFormed : Operand → Prop
  | access path => path.Rooted
  | number x => x.isFinite = true
  | list items => WellFormedItems items
  | _ => True

/-- `WellFormed` for all items. -/
def WellFormedItems : List Operand → Prop
  | [] => True
  | item :: rest => WellFormed item ∧ WellFormedItems rest

end

end Operand

/-- An operation that writes below a root what a well-formed operand gives. -/
structure Operation.WellFormed (o : Operation) : Prop where
  target : o.target.Rooted
  operand : o.operand.WellFormed

/-- A condition that compares well-formed operands. -/
def Condition.WellFormed (c : Condition) : Prop :=
  ∀ operand ∈ c.operands, operand.WellFormed

/-- An error that well-formed states and accesses leave over. -/
def StateError.Ordinary : StateError → Prop
  | emptyAccess | notAnObject _ => False
  | _ => True

namespace State.WellFormed

variable {s : State}

theorem resolvePath {path : Access} (hpath : path.Rooted) :
    ∃ key rest, path.segments = key :: rest ∧
      s.resolvePath path false = .ok (s.root.place key rest) := by
  obtain ⟨name, key, rest, hsegments, -⟩ := hpath
  refine ⟨name, key :: rest, hsegments, ?_⟩
  rw [State.resolvePath, hsegments]
  rfl

mutual

/-- An operand always has a value, unless it is an access to what is not there. -/
theorem resolve (h : s.WellFormed) : (operand : Operand) → operand.WellFormed →
    ∃ value, s.resolve operand = .ok value ∧ (∀ v, value = some v → v.Proper) ∧
      (value = none → ∃ path, operand = .access path)
  | .null, _ => ⟨_, rfl, fun _ hv => Option.some.inj hv ▸ .null, nofun⟩
  | .bool b, _ => ⟨_, rfl, fun _ hv => Option.some.inj hv ▸ .bool b, nofun⟩
  | .text t, _ => ⟨_, rfl, fun _ hv => Option.some.inj hv ▸ .str t, nofun⟩
  | .number x, hx => by
    obtain ⟨n, hn⟩ := exists_ofFloat hx
    refine ⟨some (.num n), ?_, fun v hv => Option.some.inj hv ▸ proper_ofFloat hn, nofun⟩
    rw [State.resolve, hn]
    rfl
  | .access path, hpath => by
    obtain ⟨key, rest, -, hplace⟩ := resolvePath (s := s) hpath
    refine ⟨(s.root.place key rest).value?, ?_, fun v hv => h.proper.place hv,
      fun _ => ⟨path, rfl⟩⟩
    rw [State.resolve, hplace]
    rfl
  | .list items, hitems => by
    obtain ⟨values, hvalues, hproper⟩ := resolveItems h items hitems
    refine ⟨some (.arr values), ?_, fun v hv => Option.some.inj hv ▸ .arr hproper, nofun⟩
    rw [State.resolve, hvalues]
    rfl

/-- The items of an array always have values. -/
theorem resolveItems (h : s.WellFormed) : (items : List Operand) → Operand.WellFormedItems items →
    ∃ values, s.resolveItems items = .ok values ∧ ∀ v ∈ values, v.Proper
  | [], _ => ⟨[], rfl, fun _ hv => absurd hv List.not_mem_nil⟩
  | item :: rest, hitems => by
    obtain ⟨value, hvalue, hproper, -⟩ := resolve h item hitems.1
    obtain ⟨values, hvalues, heach⟩ := resolveItems h rest hitems.2
    refine ⟨value.getD .null :: values, ?_, List.forall_mem_cons.2 ⟨?_, heach⟩⟩
    · rw [State.resolveItems, hvalue, hvalues]
      rfl
    · cases value with
      | none => exact .null
      | some v => exact hproper v rfl

end

end State.WellFormed

/-! ### Operations -/

/-- What an operation on a well-formed state may end in: a well-formed state, or an ordinary error,
which says that the operand is missing only where the operand is an access. -/
def Operation.Outcome (o : Operation) : Except StateError State → Prop
  | .ok t => t.WellFormed
  | .error e => e.Ordinary ∧ ∀ operator target, e = .undefinedOperand operator target →
    operator = o.operator ∧ target = o.target ∧ ∃ path, o.operand = .access path

namespace Operation.WellFormed

variable {s : State} {o : Operation}

/-- Writing below a root keeps the state well formed, or fails on the way there. -/
theorem write (hs : s.WellFormed) (ho : o.WellFormed) {value : Json} (hvalue : value.Proper) :
    o.Outcome (s.write o.target value) := by
  obtain ⟨name, key, rest, hsegments, hname⟩ := ho.target
  obtain ⟨entries, hentries⟩ := hs.exists_root hname
  have hroot : Proper (.obj entries) := hs.proper.values _ (Entries.mem_of_lookup hentries)
  rw [State.write, hsegments]
  dsimp only
  rw [hentries]
  dsimp only
  cases hset : Json.setAt value (.obj entries) key rest with
  | ok made =>
    obtain ⟨hproper, hkind⟩ := hroot.setAt hvalue hset
    exact hs.put hname hproper hkind
  | error cause => cases cause <;> exact ⟨trivial, by simp⟩

/-- Operations keep states well formed. -/
theorem apply (hs : s.WellFormed) (ho : o.WellFormed) : o.Outcome (s.apply o) := by
  obtain ⟨value, hvalue, hproper, hmissing⟩ := hs.resolve o.operand ho.operand
  obtain ⟨name, key, rest, hsegments, -⟩ := ho.target
  unfold State.apply
  rw [hvalue, State.resolvePath, hsegments]
  dsimp only
  by_cases hpath : (true && (s.root.place name (key :: rest)).missing &&
      !(s.root.place name (key :: rest)).missingLast) = true
  · rw [if_pos hpath]
    exact ⟨trivial, by simp⟩
  · rw [if_neg hpath]
    dsimp only
    split
    · exact ⟨trivial, by simp⟩
    cases value with
    | none =>
      refine ⟨trivial, fun operator target heq => ?_⟩
      obtain ⟨rfl, rfl⟩ := StateError.undefinedOperand.inj heq
      exact ⟨rfl, rfl, hmissing rfl⟩
    | some right =>
      have hright : right.Proper := hproper right rfl
      have hlist : ∀ items fill, s.slot? o.target = some ⟨.arr items, fill⟩ →
          Proper (.arr items) := fun items fill hslot => hs.proper.at? (at?_of_slot? hslot)
      have hfill : ∀ {slot : Slot} {made : Json}, s.slot? o.target = some slot → made.Proper →
          o.Outcome (State.ofJson (slot.fill made)) := by
        intro slot made hslot hmade
        rw [State.ofJson_fill hslot (by rw [hsegments]; exact List.cons_ne_nil _ _)]
        exact ho.write hs hmade
      dsimp only
      split
      · exact ho.write hs hright
      · rename_i hoperator
        split
        · rename_i items fill hslot
          rw [if_pos hoperator]
          exact hfill hslot ((hlist items fill hslot).append (.singleton hright))
        · exact ⟨trivial, by simp⟩
      · rename_i hoperator
        split
        · rename_i items fill hslot
          rw [if_neg (by simp [hoperator])]
          exact hfill hslot (.arr fun item hitem =>
            (hlist items fill hslot).items item (List.mem_of_mem_filter hitem))
        · exact ⟨trivial, by simp⟩
      · split
        · exact ⟨trivial, by simp⟩
        · exact ho.write hs (.str _)
        · split
          · rename_i n hn
            exact ho.write hs (proper_ofFloat hn)
          · exact ⟨trivial, by simp⟩

/-- A batch keeps a well-formed state so, also when one of its operations fails. -/
theorem applyAll (hs : s.WellFormed) {operations : List Operation}
    (ho : ∀ o ∈ operations, o.WellFormed) :
    (s.applyAll operations).1.WellFormed ∧ ∀ e, (s.applyAll operations).2 = some e →
      ∃ o ∈ operations, ∃ d : State, d.WellFormed ∧ d.apply o = .error e := by
  induction operations generalizing s with
  | nil => exact ⟨hs, nofun⟩
  | cons o rest ih =>
    have houtcome := (ho o List.mem_cons_self).apply hs
    rw [State.applyAll]
    cases happly : s.apply o with
    | error e =>
      refine ⟨hs, fun other hother => ?_⟩
      obtain rfl := Option.some.inj hother
      exact ⟨o, List.mem_cons_self, s, hs, happly⟩
    | ok t =>
      rw [happly] at houtcome
      obtain ⟨hrest, herror⟩ := ih houtcome fun other hother =>
        ho other (List.mem_cons_of_mem _ hother)
      refine ⟨hrest, fun e he => ?_⟩
      obtain ⟨other, hother, d, hd, hfails⟩ := herror e he
      exact ⟨other, List.mem_cons_of_mem _ hother, d, hd, hfails⟩

end Operation.WellFormed

/-! ### Conditions -/

namespace Condition

variable {s : State}

/-- An error that a comparison fails with: what should be an array is not. -/
def IsNoArray (e : StateError) : Prop :=
  ∃ operator shown found, e = .notAnArray operator shown found

theorem isNoArray_of_test {operator : Comparison} {left right : Option Json} {shown : String}
    {e : StateError} (h : operator.test left right shown = .error e) : IsNoArray e := by
  cases operator with
  | equal | unequal => cases h
  | member | notMember =>
    unfold Comparison.test at h
    dsimp only at h
    split at h
    · cases h
    · exact ⟨_, _, _, (Except.error.inj h).symm⟩
  | _ =>
    unfold Comparison.test at h
    dsimp only at h
    split at h <;> cases h

mutual

/-- A condition on a well-formed state fails only for want of an array. -/
theorem isNoArray_of_holds (hs : s.WellFormed) : (c : Condition) → c.WellFormed → ∀ {e},
    c.holds s = .error e → IsNoArray e
  | .atom left operator right, hc, e, h => by
    obtain ⟨l, hl, -⟩ := hs.resolve left (hc left (by simp [operands]))
    obtain ⟨r, hr, -⟩ := hs.resolve right (hc right (by simp [operands]))
    rw [holds, hl, hr] at h
    exact isNoArray_of_test h
  | .group connective members, hc, e, h => by
    rw [holds] at h
    exact isNoArray_of_groupHolds hs connective members hc h

theorem isNoArray_of_groupHolds (hs : s.WellFormed) (connective : Connective) :
    (members : List Condition) → (∀ operand ∈ operandsOfMembers members, operand.WellFormed) →
    ∀ {e}, groupHolds s connective members = .error e → IsNoArray e
  | [], _, _, h => absurd h nofun
  | member :: rest, hmembers, e, h => by
    rw [groupHolds] at h
    split at h
    · rename_i hmember
      obtain rfl := Except.error.inj h
      exact isNoArray_of_holds hs member
        (fun operand hoperand => hmembers operand (by simp [operandsOfMembers, hoperand])) hmember
    · split at h
      · cases h
      · cases h
      · exact isNoArray_of_groupHolds hs connective rest
          (fun operand hoperand => hmembers operand (by simp [operandsOfMembers, hoperand])) h

end

end Condition

end Narrative
