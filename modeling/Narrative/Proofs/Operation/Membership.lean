import Mathlib.Data.List.Basic
import Narrative.Proofs.Json.Equality
import Narrative.Proofs.Operation.Batch
import Narrative.Proofs.Operation.Result
import Narrative.Proofs.Source.Spelled

/-!
# Lists and membership

Appending and removing change a list in the document where it stands; membership looks the list up
again and compares its items with the operand.  For an operand without accesses the two agree: what
is appended is a member, what is removed is none, and appending and removing undo each other.
-/

namespace Narrative

namespace Operand

/-- An operand without accesses, whose numbers are finite. -/
def Literal (operand : Operand) : Prop :=
  ∀ leaf ∈ operand.leaves, (∀ path, leaf ≠ .access path) ∧
    ∀ x, leaf = .number x → x.isFinite = true

mutual

/-- A literal has the same value in every state, and it is one that documents can hold. -/
theorem Literal.exists_value : (operand : Operand) → operand.Literal →
    ∃ value : Json, value.Proper ∧ ∀ s : State, s.resolve operand = .ok (some value)
  | .access path, h => absurd rfl ((h (.access path) List.mem_cons_self).1 path)
  | .null, _ => ⟨.null, .null, fun _ => rfl⟩
  | .bool b, _ => ⟨.bool b, .bool b, fun _ => rfl⟩
  | .text t, _ => ⟨.str t, .str t, fun _ => rfl⟩
  | .number x, h => by
    have hfinite := (h (.number x) List.mem_cons_self).2 x rfl
    obtain ⟨n, hn⟩ := Json.exists_ofFloat hfinite
    refine ⟨.num n, Json.proper_ofFloat hn, fun s => ?_⟩
    rw [State.resolve, hn]
    rfl
  | .list items, h => by
    obtain ⟨values, hproper, hvalues⟩ := Literal.exists_values items h
    refine ⟨.arr values, .arr hproper, fun s => ?_⟩
    rw [State.resolve, hvalues]
    rfl

theorem Literal.exists_values : (items : List Operand) →
    (∀ leaf ∈ leavesOfItems items, (∀ path, leaf ≠ .access path) ∧
      ∀ x, leaf = .number x → x.isFinite = true) →
    ∃ values : List Json, (∀ value ∈ values, value.Proper) ∧
      ∀ s : State, s.resolveItems items = .ok values
  | [], _ => ⟨[], fun _ hvalue => absurd hvalue List.not_mem_nil, fun _ => rfl⟩
  | item :: rest, h => by
    obtain ⟨value, hproper, hvalue⟩ := Literal.exists_value item
      fun leaf hleaf => h leaf (List.mem_append_left _ hleaf)
    obtain ⟨values, heach, hvalues⟩ := Literal.exists_values rest
      fun leaf hleaf => h leaf (List.mem_append_right _ hleaf)
    refine ⟨value :: values, List.forall_mem_cons.2 ⟨hproper, heach⟩, fun s => ?_⟩
    rw [State.resolveItems, hvalue, hvalues]
    rfl

end

end Operand

namespace Json

/-- The items of a list that are not the same as a value. -/
def without (value : Json) (items : List Json) : List Json :=
  items.filter fun item => !item.same value

/-- Some item of a list is the same as a value. -/
def isAmong (value : Json) (items : List Json) : Bool :=
  items.any fun item => item.same value

variable {value : Json} {items : List Json}

theorem isAmong_concat (h : value.same value = true) : value.isAmong (items ++ [value]) = true := by
  simp [isAmong, h]

theorem isAmong_without : value.isAmong (value.without items) = false := by
  simp [isAmong, without]

theorem without_without : value.without (value.without items) = value.without items := by
  simp [without]

theorem without_comm (value other : Json) (items : List Json) :
    value.without (other.without items) = other.without (value.without items) :=
  List.filter_comm _ _ _

/-- What was not among the items before goes again without them. -/
theorem without_concat (h : value.same value = true) (hfresh : value.isAmong items = false) :
    value.without (items ++ [value]) = items := by
  have hkept : value.without items = items := by
    refine List.filter_eq_self.2 fun item hitem => ?_
    have hother := List.any_eq_false.1 hfresh item hitem
    simpa using hother
  rw [without] at hkept ⊢
  rw [List.filter_append, hkept]
  simp [h]

end Json

namespace State

open Json

variable {s t u : State} {a : Access} {items : List Json} {value right : Json} {o other : Operation}
  {operand : Operand}

/-! ### Lists in a document -/

/-- One state is another one with `items` for the list at an access. -/
structure WithList (s : State) (a : Access) (items : List Json) (t : State) : Prop where
  list : t.get? a.segments = some (.arr items)
  rest : ∀ path, (s.root.course path a.segments).Shows (.arr items) s.root t.root path

theorem withList_of_write (h : s.write a (.arr items) = .ok t) : s.WithList a items t :=
  ⟨get?_write h, shows_write h⟩

/-- The document itself is no list. -/
theorem segments_ne_nil_of_list (h : s.get? a.segments = some (.arr items)) : a.segments ≠ [] := by
  intro hnil
  rw [hnil] at h
  cases h

/-- A list can be written over a list. -/
theorem exists_write_of_list (h : s.get? a.segments = some (.arr items)) (others : List Json) :
    ∃ t, s.write a (.arr others) = .ok t := by
  have hat : s.root.at? a.segments = some (.arr items) := h
  obtain ⟨slot, hslot, hvalue⟩ := exists_slot? hat
  have hkind : (arr others).kind = slot.value.kind := by
    rw [hvalue]
    rfl
  obtain ⟨t, ht, -⟩ := exists_ofJson_fill hslot hkind
  exact ⟨t, (ofJson_fill hslot (segments_ne_nil_of_list h) _).symm.trans ht⟩

/-- What an operation does to a list that it makes another list of. -/
theorem exists_apply_of_list {others : List Json}
    (hlist : s.get? o.target.segments = some (.arr items))
    (hright : s.resolve o.operand = .ok (some right))
    (hchanged : o.changed (some (.arr items)) right = .ok (.arr others)) :
    ∃ t, s.apply o = .ok t ∧ s.write o.target (.arr others) = .ok t := by
  obtain ⟨t, ht⟩ := exists_write_of_list hlist others
  have hresult : o.result s = .ok (.arr others) := by
    rw [Operation.result_of_get? (segments_ne_nil_of_list hlist) hlist hright, hchanged]
  exact ⟨t, apply_eq_ok_iff.2 ⟨_, hresult, ht⟩, ht⟩

/-- Appending puts the value of the operand at the end of the list. -/
theorem exists_append (hlist : s.get? a.segments = some (.arr items))
    (hright : s.resolve operand = .ok (some right)) :
    ∃ t, s.apply ⟨a, .append, operand⟩ = .ok t ∧ s.write a (.arr (items ++ [right])) = .ok t :=
  exists_apply_of_list hlist hright rfl

/-- Removing keeps the items that are not the same as the value of the operand. -/
theorem exists_remove (hlist : s.get? a.segments = some (.arr items))
    (hright : s.resolve operand = .ok (some right)) :
    ∃ t, s.apply ⟨a, .remove, operand⟩ = .ok t ∧ s.write a (.arr (right.without items)) = .ok t :=
  exists_apply_of_list hlist hright rfl

/-! ### Membership -/

/-- Membership compares the items of the list with the value of the operand. -/
theorem holds_member (hlist : s.get? a.segments = some (.arr items))
    (hright : s.resolve operand = .ok (some right)) :
    (Condition.atom operand .member (.access a)).holds s = .ok (right.isAmong items) ∧
      (Condition.atom operand .notMember (.access a)).holds s = .ok (!right.isAmong items) := by
  have haccess := s.resolve_access (segments_ne_nil_of_list hlist)
  rw [hlist] at haccess
  rw [Condition.holds, Condition.holds, hright, haccess]
  constructor
  · simp [Comparison.test, sameOptional, isAmong]
  · have hother : (Comparison.notMember == Comparison.member) = false := by decide
    simp [Comparison.test, sameOptional, isAmong, hother]

/-! ### Two operations on one list -/

theorem applyAll_pair (hfirst : s.apply o = .ok t) (hsecond : t.apply other = .ok u) :
    s.applyAll [o, other] = (u, none) :=
  applyAll_eq_ok_iff.2 (.step hfirst (.step hsecond (.done u)))

/-- After a write to a list, removing from it is as if the list had been written without the items
that go. -/
theorem apply_remove_of_write (hwrite : s.write a (.arr items) = .ok t)
    (hright : t.resolve operand = .ok (some right)) :
    t.apply ⟨a, .remove, operand⟩ = s.write a (.arr (right.without items)) := by
  obtain ⟨u, happly, hagain⟩ := exists_remove (get?_write hwrite) hright
  rw [happly, ← hagain, write_write hwrite]

/-- List operations and membership agree.  At an access whose value is a list, for a literal
operand: appending adds one last item, of which the operand then is a member; removing keeps exactly
the items that are not the same as the operand, in order, which then is no member; neither changes
anything else, and removing again changes nothing.  Removing one literal and another one can be done
in either order, and what was no member is appended and removed without a trace. -/
theorem list_operations_agree_with_membership (s : State) (a : Access) (items : List Json)
    (operand : Operand) (hlist : s.get? a.segments = some (.arr items))
    (hliteral : operand.Literal) :
    ∃ value : Json, (∀ t : State, t.resolve operand = .ok (some value)) ∧
      (∃ t, s.apply ⟨a, .append, operand⟩ = .ok t ∧ s.WithList a (items ++ [value]) t ∧
        (Condition.atom operand .member (.access a)).holds t = .ok true) ∧
      (∃ t, s.apply ⟨a, .remove, operand⟩ = .ok t ∧
        s.WithList a (items.filter fun item => !item.same value) t ∧
        (Condition.atom operand .notMember (.access a)).holds t = .ok true ∧
        t.apply ⟨a, .remove, operand⟩ = .ok t) ∧
      (∀ other : Operand, other.Literal →
        ∃ t, s.applyAll [⟨a, .remove, operand⟩, ⟨a, .remove, other⟩] = (t, none) ∧
          s.applyAll [⟨a, .remove, other⟩, ⟨a, .remove, operand⟩] = (t, none)) ∧
      ((Condition.atom operand .notMember (.access a)).holds s = .ok true →
        s.applyAll [⟨a, .append, operand⟩, ⟨a, .remove, operand⟩] = (s, none)) := by
  obtain ⟨value, hproper, hvalue⟩ := hliteral.exists_value
  have hself : value.same value = true := same_self hproper
  obtain ⟨t, happend, hlonger⟩ := exists_append hlist (hvalue s)
  obtain ⟨u, hremove, hshorter⟩ := exists_remove hlist (hvalue s)
  refine ⟨value, hvalue, ⟨t, happend, withList_of_write hlonger, ?_⟩,
    ⟨u, hremove, withList_of_write hshorter, ?_, ?_⟩, fun other hother => ?_, fun hfresh => ?_⟩
  · rw [(holds_member (get?_write hlonger) (hvalue t)).1, isAmong_concat hself]
  · rw [(holds_member (get?_write hshorter) (hvalue u)).2, isAmong_without]
    rfl
  · rw [apply_remove_of_write hshorter (hvalue u), without_without, hshorter]
  · obtain ⟨value', -, hvalue'⟩ := hother.exists_value
    obtain ⟨u', hremove', hshorter'⟩ := exists_remove hlist (hvalue' s)
    have hboth := apply_remove_of_write hshorter (hvalue' u)
    have hboth' := apply_remove_of_write hshorter' (hvalue u')
    obtain ⟨w, hw⟩ := exists_write_of_list hlist (value'.without (value.without items))
    refine ⟨w, applyAll_pair hremove (hboth.trans hw), applyAll_pair hremove' (hboth'.trans ?_)⟩
    rw [without_comm, hw]
  · rw [(holds_member hlist (hvalue s)).2, Except.ok.injEq, Bool.not_eq_true'] at hfresh
    have hback := apply_remove_of_write hlonger (hvalue t)
    rw [without_concat hself hfresh, write_self (segments_ne_nil_of_list hlist) hlist] at hback
    exact applyAll_pair happend hback

/-- Stores with two coils of rope, whose numbers are encoded in two ways, and a map. -/
def stores : State :=
  ⟨[("global", .obj [("stores", .arr [.arr [.nat 1, .str "rope"], .str "map",
    .arr [.num (.float 1.0), .str "rope"]])])]⟩

/-- Where the stores are. -/
def storesAccess : Access :=
  ⟨["global", "stores"]⟩

/-- One coil of rope. -/
def coil : Operand :=
  .list [.number 1.0, .text "rope"]

theorem literal_coil : coil.Literal := by
  intro leaf hleaf
  rcases List.mem_pair.1 hleaf with rfl | rfl
  · refine ⟨fun path h => (by cases h), fun x hx => ?_⟩
    obtain rfl := Operand.number.inj hx
    decide +kernel
  · exact ⟨fun path h => (by cases h), fun x h => (by cases h)⟩

theorem literal_text (t : String) : (Operand.text t).Literal := by
  intro leaf hleaf
  obtain rfl := List.mem_singleton.1 hleaf
  exact ⟨fun path h => (by cases h), fun x h => (by cases h)⟩

/-- Both coils go and the map stays; a lamp that is not there is put in and taken out again. -/
theorem list_operations_agree_with_membership_stores :
    (stores.get? storesAccess.segments = some (.arr [.arr [.nat 1, .str "rope"], .str "map",
      .arr [.num (.float 1.0), .str "rope"]]) ∧ coil.Literal ∧ (Operand.text "lamp").Literal) ∧
    (∃ t, stores.apply ⟨storesAccess, .remove, coil⟩ = .ok t ∧
      stores.WithList storesAccess [.str "map"] t ∧
      (Condition.atom coil .notMember (.access storesAccess)).holds t = .ok true) ∧
    (∃ t, stores.applyAll [⟨storesAccess, .remove, coil⟩, ⟨storesAccess, .remove, .text "map"⟩] =
        (t, none) ∧
      stores.applyAll [⟨storesAccess, .remove, .text "map"⟩, ⟨storesAccess, .remove, coil⟩] =
        (t, none)) ∧
    stores.applyAll [⟨storesAccess, .append, .text "lamp"⟩, ⟨storesAccess, .remove, .text "lamp"⟩] =
      (stores, none) := by
  have hlist : stores.get? storesAccess.segments = some (.arr [.arr [.nat 1, .str "rope"],
      .str "map", .arr [.num (.float 1.0), .str "rope"]]) := rfl
  obtain ⟨value, hvalue, -, ⟨t, hremove, hwith, hmember, -⟩, hcomm, -⟩ :=
    list_operations_agree_with_membership stores storesAccess _ coil hlist literal_coil
  obtain ⟨-, -, -, -, -, hback⟩ :=
    list_operations_agree_with_membership stores storesAccess _ (.text "lamp") hlist
      (literal_text "lamp")
  have hcoil : stores.resolve coil = .ok (some (.arr [.nat 1, .str "rope"])) := by decide +kernel
  obtain rfl : value = .arr [.nat 1, .str "rope"] :=
    Option.some.inj (Except.ok.inj ((hvalue stores).symm.trans hcoil))
  refine ⟨⟨hlist, literal_coil, literal_text "lamp"⟩, ⟨t, hremove, ?_, hmember⟩,
    hcomm (.text "map") (literal_text "map"), hback (by decide +kernel)⟩
  have hkept : ([.arr [.nat 1, .str "rope"], .str "map", .arr [.num (.float 1.0), .str "rope"]] :
      List Json).filter (fun item => !item.same (.arr [.nat 1, .str "rope"])) = [.str "map"] := by
    decide +kernel
  exact hkept ▸ hwith

end State

end Narrative
