import Mathlib.Tactic.Common
import Narrative.Operation.Apply
import Narrative.Proofs.Entries
import Narrative.Proofs.State.Walk

/-!
# What a write changes

A path runs beside the path of a write in one of three ways: the two part, it ends above the value
that is written, or it goes through that value.  Along the first kind nothing changes, along the
second one at most a last name or a last item is new, and along the third one the written value is
found.  So writing twice is writing once, and writing what is there is writing nothing.
-/

namespace Narrative

namespace Json

variable {level value made : Json} {key : String}

/-! ### Two paths in one document -/

/-- Whether two segments lead to the same place below a level: they are the same index of an array,
however it is spelled, or the same name. -/
def sameSegment (level : Json) (first second : String) : Bool :=
  match level with
  | arr _ => index? first == index? second
  | _ => first == second

/-- How a path runs beside another one, the target. -/
inductive Course where
  /-- The two part at some level. -/
  | apart
  /-- The path ends first, and the target goes on with `left`. -/
  | above (left : List String)
  /-- The target ends first or with the path, which goes on with `below`. -/
  | through (below : List String)
deriving DecidableEq

/-- The course of a path beside a target. -/
def course (level : Json) : (path target : List String) → Course
  | path, [] => .through path
  | [], key :: target => .above (key :: target)
  | segment :: path, key :: target =>
    if level.sameSegment segment key then ((level.child? key).getD .null).course path target
    else .apart

/-- The names of an object stay as they are, in order, or the length of an array does. -/
def SameOutline : Json → Json → Prop
  | obj old, obj new => Entries.names new = Entries.names old
  | arr old, arr new => new.length = old.length
  | _, _ => False

/-- An object has one name more at its end, or an array one item, which is under `key`. -/
def OneMore (key : String) : Json → Json → Prop
  | obj old, obj new => key ∉ Entries.names old ∧ Entries.names new = Entries.names old ++ [key]
  | arr old, arr new => index? key = some old.length ∧ new.length = old.length + 1
  | _, _ => False

/-- What stands at a path in `new`, which is `old` with a value at a target: along the course of the
path the value is found, or nothing changes, or the level keeps its outline unless the target ends
just below it. -/
def Course.Shows (value old new : Json) (path : List String) : Course → Prop
  | apart => new.at? path = old.at? path
  | above left =>
    ∃ before after, old.at? path = some before ∧ new.at? path = some after ∧
      (SameOutline before after ∨ ∃ key, left = [key] ∧ OneMore key before after)
  | through below => new.at? path = value.at? below

/-- It only matters what is found at the path. -/
theorem Course.Shows.of_at? {c : Course} {old new old' new' : Json} {path path' : List String}
    (h : c.Shows value old new path) (hold : old'.at? path' = old.at? path)
    (hnew : new'.at? path' = new.at? path) : c.Shows value old' new' path' := by
  cases c with
  | apart => exact hnew.trans (Eq.trans h hold.symm)
  | above left =>
    rw [Course.Shows, hold, hnew]
    exact h
  | through below => exact hnew.trans h

theorem course_nil (level : Json) (path : List String) : level.course path [] = .through path := by
  cases path <;> rfl

theorem course_self (level : Json) (path : List String) :
    level.course path path = .through [] := by
  induction path generalizing level with
  | nil => rfl
  | cons segment path ih =>
    have hsame : level.sameSegment segment segment = true := by
      cases level <;> simp [sameSegment]
    rw [course, if_pos hsame, ih]

/-- An item keeps its course when its index is spelled with a zero in front. -/
example :
    course (.obj [("crew", .arr [.null, .obj [("name", .null)]])]) ["crew", "01", "age"]
      ["crew", "1", "name"] = .apart ∧
    course (.obj [("crew", .arr [.null, .obj [("name", .null)]])]) ["crew", "01"]
      ["crew", "1", "name"] = .above ["name"] := by
  decide

theorem child?_eq_of_sameSegment {segment : String} (h : level.sameSegment segment key = true) :
    level.child? segment = level.child? key := by
  cases level with
  | obj entries =>
    obtain rfl : segment = key := by simpa [sameSegment] using h
    rfl
  | arr items =>
    have hindex : index? segment = index? key := by simpa [sameSegment] using h
    rw [child?, child?, hindex]
  | _ => rfl

/-! ### One level -/

/-- Putting a value under a segment changes nothing under the others. -/
theorem child?_setChild (h : level.setChild key value = .ok made) (segment : String) :
    made.child? segment =
      if level.sameSegment segment key then some value else level.child? segment := by
  cases level with
  | obj entries =>
    obtain rfl := Except.ok.inj h
    have hput := Entries.lookup_put key segment value entries
    simpa [child?, sameSegment] using hput
  | arr items =>
    rw [setChild] at h
    split at h
    · cases h
    · rename_i i hindex
      have hsame : sameSegment (arr items) segment key = true ↔ index? segment = some i := by
        rw [sameSegment, hindex, beq_iff_eq]
      by_cases hlt : i < items.length
      · rw [if_pos hlt] at h
        obtain rfl := Except.ok.inj h
        cases hsegment : index? segment with
        | none => simp [child?, hsegment, hsame]
        | some j =>
          by_cases hij : j = i
          · simp [child?, hsegment, hsame, hij, hlt]
          · simp [child?, hsegment, hsame, hij, List.getElem?_set_ne (Ne.symm hij)]
      · by_cases heq : i = items.length
        · rw [if_neg hlt, if_pos heq] at h
          obtain rfl := Except.ok.inj h
          cases hsegment : index? segment with
          | none => simp [child?, hsegment, hsame]
          | some j =>
            by_cases hij : j = i
            · simp [child?, hsegment, hsame, hij, heq]
            · have hrest : (items ++ [value])[j]? = items[j]? := by
                by_cases hj : j < items.length
                · exact List.getElem?_append_left hj
                · rw [List.getElem?_eq_none (by simp; omega), List.getElem?_eq_none (by omega)]
              simp [child?, hsegment, hsame, hij, hrest]
        · rw [if_neg hlt, if_neg heq] at h
          cases h
  | _ => cases h

theorem child?_replaceChild {old : Json} (h : level.child? key = some old) (value : Json)
    (segment : String) :
    (level.replaceChild key value).child? segment =
      if level.sameSegment segment key then some value else level.child? segment :=
  child?_setChild (setChild_of_child? h value) segment

theorem child?_setChild_self (h : level.setChild key value = .ok made) :
    made.child? key = some value := by
  have hsame : level.sameSegment key key = true := by
    cases level <;> simp [sameSegment]
  rw [child?_setChild h, if_pos hsame]

theorem outline_setChild (h : level.setChild key value = .ok made) :
    SameOutline level made ∨ OneMore key level made := by
  cases level with
  | obj entries =>
    obtain rfl := Except.ok.inj h
    by_cases hname : key ∈ Entries.names entries
    · exact Or.inl (Entries.names_put hname)
    · refine Or.inr ⟨hname, ?_⟩
      rw [Entries.put_of_not_mem hname]
      simp [Entries.names]
  | arr items =>
    rw [setChild] at h
    split at h
    · cases h
    · rename_i i hindex
      by_cases hlt : i < items.length
      · rw [if_pos hlt] at h
        obtain rfl := Except.ok.inj h
        exact Or.inl List.length_set
      · by_cases heq : i = items.length
        · rw [if_neg hlt, if_pos heq] at h
          obtain rfl := Except.ok.inj h
          exact Or.inr ⟨heq ▸ hindex, by simp⟩
        · rw [if_neg hlt, if_neg heq] at h
          cases h
  | _ => cases h

/-- Over a value that is there, a level keeps its outline. -/
theorem outline_replaceChild {old : Json} (h : level.child? key = some old) (value : Json) :
    SameOutline level (level.replaceChild key value) := by
  cases level with
  | obj entries =>
    have hname : key ∈ Entries.names entries := Entries.mem_names_of_lookup h
    exact Entries.names_put hname
  | arr items =>
    obtain ⟨i, hindex, -⟩ := Option.bind_eq_some_iff.1 h
    rw [replaceChild, hindex]
    exact List.length_set
  | _ => cases h

theorem replaceChild_self (h : level.child? key = some value) :
    level.replaceChild key value = level := by
  cases level with
  | obj entries => exact congrArg obj (Entries.put_of_lookup h)
  | arr items =>
    obtain ⟨i, hindex, hitem⟩ := Option.bind_eq_some_iff.1 h
    obtain ⟨hlt, rfl⟩ := List.getElem?_eq_some_iff.1 hitem
    rw [replaceChild, hindex]
    exact congrArg arr (List.set_getElem_self hlt)
  | _ => cases h

/-- The second of two values under one segment is all that is left of both. -/
theorem setChild_setChild (h : level.setChild key value = .ok made) (other : Json) :
    made.setChild key other = level.setChild key other := by
  cases level with
  | obj entries =>
    obtain rfl := Except.ok.inj h
    show Except.ok (obj _) = Except.ok (obj _)
    rw [Entries.put_put]
  | arr items =>
    rw [setChild] at h
    split at h
    · cases h
    · rename_i i hindex
      by_cases hlt : i < items.length
      · rw [if_pos hlt] at h
        obtain rfl := Except.ok.inj h
        simp [setChild, hindex, hlt]
      · by_cases heq : i = items.length
        · rw [if_neg hlt, if_pos heq] at h
          obtain rfl := Except.ok.inj h
          simp [setChild, hindex, heq]
        · rw [if_neg hlt, if_neg heq] at h
          cases h
  | _ => cases h

theorem replaceChild_replaceChild {old : Json} (h : level.child? key = some old)
    (value other : Json) :
    (level.replaceChild key value).replaceChild key other = level.replaceChild key other := by
  have hset := setChild_of_child? h value
  have htwice := setChild_setChild hset other
  rw [setChild_of_child? (child?_setChild_self hset), setChild_of_child? h] at htwice
  exact Except.ok.inj htwice

/-! ### Whole paths -/

/-- Filling a slot with its own value changes nothing. -/
theorem fill_value {path : List String} {slot : Slot} (h : level.slot? path = some slot) :
    slot.fill slot.value = level := by
  induction path generalizing level slot with
  | nil =>
    obtain rfl := Option.some.inj h
    rfl
  | cons key rest ih =>
    rw [slot?] at h
    split at h
    · cases h
    · rename_i below hchild
      obtain ⟨inner, hinner, rfl⟩ := Option.map_eq_some_iff.1 h
      dsimp only
      rw [ih hinner]
      exact replaceChild_self hchild

theorem setAt_self {rest : List String} (h : level.at? (key :: rest) = some value) :
    setAt value level key rest = .ok level := by
  obtain ⟨slot, hslot, rfl⟩ := exists_slot? h
  rw [setAt_of_slot? hslot, fill_value hslot]

/-- The second of two values at one path is all that is left of both. -/
theorem setAt_setAt {rest : List String} (h : setAt value level key rest = .ok made)
    (other : Json) : setAt other made key rest = setAt other level key rest := by
  induction rest generalizing level key made with
  | nil => exact setChild_setChild h other
  | cons next rest ih =>
    rw [setAt] at h
    split at h
    · cases h
    · rename_i below hchild
      obtain ⟨inner, hinner, rfl⟩ := Except.exists_of_map h
      have hmade : (level.replaceChild key inner).child? key = some inner :=
        child?_setChild_self (setChild_of_child? hchild inner)
      have hreplace : (level.replaceChild key inner).replaceChild key = level.replaceChild key :=
        funext (replaceChild_replaceChild hchild inner)
      rw [setAt, hmade, setAt, hchild]
      dsimp only
      rw [ih hinner, hreplace]

/-- A write shows along every path what the course of the path says. -/
theorem shows_setAt {rest : List String} (h : setAt value level key rest = .ok made)
    (path : List String) : (level.course path (key :: rest)).Shows value level made path := by
  induction rest generalizing level key made path with
  | nil =>
    cases path with
    | nil =>
      exact ⟨level, made, rfl, rfl, (outline_setChild h).imp_right fun hmore => ⟨key, rfl, hmore⟩⟩
    | cons segment path =>
      have hchild := child?_setChild h segment
      rw [course]
      by_cases hsame : level.sameSegment segment key = true
      · rw [if_pos hsame] at hchild ⊢
        rw [course_nil, Course.Shows, at?, hchild]
        rfl
      · rw [if_neg hsame] at hchild ⊢
        rw [Course.Shows, at?, at?, hchild]
  | cons next rest ih =>
    rw [setAt] at h
    split at h
    · cases h
    rename_i below hbelow
    obtain ⟨inner, hinner, rfl⟩ := Except.exists_of_map h
    cases path with
    | nil => exact ⟨level, _, rfl, rfl, Or.inl (outline_replaceChild hbelow inner)⟩
    | cons segment path =>
      have hchild := child?_replaceChild hbelow inner segment
      rw [course]
      by_cases hsame : level.sameSegment segment key = true
      · -- both paths go on below, where the walk is one segment shorter
        have hold := child?_eq_of_sameSegment hsame
        have hbelow' := ih hinner path
        rw [if_pos hsame] at hchild ⊢
        rw [hbelow] at hold ⊢
        have hat : level.at? (segment :: path) = below.at? path := by rw [at?, hold]; rfl
        have hat' : (level.replaceChild key inner).at? (segment :: path) = inner.at? path := by
          rw [at?, hchild]
          rfl
        exact hbelow'.of_at? hat hat'
      · rw [if_neg hsame] at hchild ⊢
        rw [Course.Shows, at?, at?, hchild]

end Json

namespace State

open Json

variable {s t : State} {a : Access} {value : Json}

/-! ### The document -/

theorem root_of_ofJson {document : Json} (h : ofJson document = .ok t) : t.root = document := by
  cases document with
  | obj entries => exact (Except.ok.inj h) ▸ rfl
  | _ => cases h

/-- A write that succeeds is one below the root. -/
theorem exists_setAt_of_write (h : s.write a value = .ok t) :
    ∃ key rest, a = ⟨key :: rest⟩ ∧ Json.setAt value s.root key rest = .ok t.root := by
  obtain ⟨segments⟩ := a
  cases segments with
  | nil => cases h
  | cons key rest =>
    refine ⟨key, rest, rfl, ?_⟩
    rw [write_eq_setAt] at h
    split at h
    · rename_i document hset
      rw [hset, root_of_ofJson h]
    · cases h
    · cases h

theorem write_of_setAt {key : String} {rest : List String}
    (h : Json.setAt value s.root key rest = .ok t.root) : s.write ⟨key :: rest⟩ value = .ok t := by
  rw [write_eq_setAt, h]
  rfl

theorem shows_write (h : s.write a value = .ok t) (path : List String) :
    (s.root.course path a.segments).Shows value s.root t.root path := by
  obtain ⟨key, rest, rfl, hset⟩ := exists_setAt_of_write h
  exact shows_setAt hset path

/-- The value that is written is found again. -/
theorem get?_write (h : s.write a value = .ok t) : t.get? a.segments = some value := by
  have hshows := shows_write h a.segments
  rw [course_self] at hshows
  exact hshows

/-- What has nothing below it is kept by every write that does not go to it or above it. -/
theorem get?_write_of_scalar {path : List String} {old : Json} (hold : s.get? path = some old)
    (hkind : old.kind ≠ .array ∧ old.kind ≠ .object) (h : s.write a value = .ok t)
    (hcourse : ∀ below, s.root.course path a.segments ≠ .through below) :
    t.get? path = some old := by
  have hshows := shows_write h path
  cases hcase : s.root.course path a.segments with
  | apart =>
    rw [hcase] at hshows
    exact Eq.trans hshows hold
  | above left =>
    rw [hcase] at hshows
    obtain ⟨before, after, hbefore, -, houtline⟩ := hshows
    obtain rfl : old = before := Option.some.inj (hold.symm.trans hbefore)
    cases old with
    | arr _ => exact absurd rfl hkind.1
    | obj _ => exact absurd rfl hkind.2
    | _ =>
      rcases houtline with houtline | ⟨_, _, houtline⟩
      · exact houtline.elim
      · exact houtline.elim
  | through below => exact absurd hcase (hcourse below)

theorem write_write (h : s.write a value = .ok t) (other : Json) :
    t.write a other = s.write a other := by
  obtain ⟨key, rest, rfl, hset⟩ := exists_setAt_of_write h
  rw [write_eq_setAt, write_eq_setAt, setAt_setAt hset]

theorem write_self (hne : a.segments ≠ []) (h : s.get? a.segments = some value) :
    s.write a value = .ok s := by
  obtain ⟨segments⟩ := a
  obtain ⟨key, rest, rfl⟩ := List.exists_cons_of_ne_nil hne
  exact write_of_setAt (setAt_self h)

/-- An assignment writes what its operand resolves to, and fails as that write does. -/
theorem apply_set (s : State) (a : Access) {operand : Operand}
    (h : s.resolve operand = .ok (some value)) : s.apply ⟨a, .set, operand⟩ = s.write a value := by
  by_cases hne : a.segments = []
  · obtain ⟨segments⟩ := a
    obtain rfl : segments = [] := hne
    rfl
  · obtain ⟨before, key, rfl⟩ := Access.exists_concat hne
    obtain ⟨place, front, -, -, hstrict⟩ := s.resolvePath_concat before key
    have hcompound : (place.missing && Assignment.isCompound .set) = false := Bool.and_false _
    rw [apply, hstrict]
    by_cases hbefore : s.get? before = none
    · rcases s.write_cases before key value with ⟨-, hwrite⟩ | ⟨parent, hparent, -⟩
      · rw [if_pos hbefore, hwrite]
      · cases hparent.symm.trans hbefore
    · rw [if_neg hbefore]
      dsimp only
      rw [hcompound, h]
      rfl

/-- What an operation does to a state is a write at its target. -/
theorem exists_write_of_apply {o : Operation} (h : s.apply o = .ok t) :
    ∃ value, s.write o.target value = .ok t := by
  unfold apply at h
  split at h
  · cases h
  rename_i place hplace
  have hne : o.target.segments ≠ [] := by
    intro hnil
    rw [resolvePath, hnil] at hplace
    cases hplace
  split at h
  · cases h
  split at h
  · cases h
  · cases h
  rename_i right _
  split at h
  case h_1 => exact ⟨right, h⟩
  case h_2 | h_3 =>
    split at h
    · rename_i hslot
      split at h
      · exact ⟨_, (ofJson_fill hslot hne _).symm.trans h⟩
      · exact ⟨_, (ofJson_fill hslot hne _).symm.trans h⟩
    · cases h
  case h_4 =>
    dsimp only at h
    split at h
    · cases h
    · exact ⟨_, h⟩
    · split at h
      · exact ⟨_, h⟩
      · cases h

/-- No operation does anything with an undefined operand. -/
theorem exists_error_of_undefined {o : Operation} (h : s.resolve o.operand = .ok none) :
    ∃ e, s.apply o = .error e := by
  rw [apply, h]
  split
  · exact ⟨_, rfl⟩
  · split
    · exact ⟨_, rfl⟩
    · exact ⟨_, rfl⟩

/-- A batch of one operation leaves the state as it is when the operation fails. -/
theorem applyAll_of_error {o : Operation} {e : StateError} (h : s.apply o = .error e) :
    s.applyAll [o] = (s, some e) := by
  rw [applyAll, h]

/-- An access that is assigned to itself leaves the state as it is, without an error where it has a
value. -/
theorem applyAll_set_self (s : State) (a : Access) :
    (s.applyAll [⟨a, .set, .access a⟩]).1 = s ∧
      (a.segments ≠ [] → s.get? a.segments ≠ none →
        (s.applyAll [⟨a, .set, .access a⟩]).2 = none) := by
  by_cases hne : a.segments = []
  · obtain ⟨segments⟩ := a
    obtain rfl : segments = [] := hne
    exact ⟨rfl, fun hne => absurd rfl hne⟩
  · have hresolve := s.resolve_access hne
    cases hvalue : s.get? a.segments with
    | none =>
      rw [hvalue] at hresolve
      obtain ⟨e, he⟩ := exists_error_of_undefined (o := ⟨a, .set, .access a⟩) hresolve
      rw [applyAll_of_error he]
      exact ⟨rfl, fun _ hnone => absurd rfl hnone⟩
    | some old =>
      rw [hvalue] at hresolve
      have happly : s.apply ⟨a, .set, .access a⟩ = .ok s := by
        rw [apply_set s a hresolve]
        exact write_self hne hvalue
      rw [applyAll, happly]
      exact ⟨rfl, fun _ _ => rfl⟩

/-- The laws of writing.  What is written is found at its target; along every other path nothing
changes, up to a last name or a last item of the level just above the target.  Writing the same again
changes nothing, writing something else is as if it alone had been written, and assigning an access
to itself is as if nothing had been.  A write that fails leaves the state as it is, and so does the
assignment that makes it. -/
theorem write_changes_target_only (s : State) (a : Access) (value : Json) :
    (∀ t, s.write a value = .ok t →
      t.get? a.segments = some value ∧
      (∀ path, (s.root.course path a.segments).Shows value s.root t.root path) ∧
      t.write a value = .ok t ∧
      ∀ other, t.write a other = s.write a other) ∧
    ((s.applyAll [⟨a, .set, .access a⟩]).1 = s ∧
      (a.segments ≠ [] → s.get? a.segments ≠ none →
        (s.applyAll [⟨a, .set, .access a⟩]).2 = none)) ∧
    ∀ e, s.write a value = .error e →
      ∀ operand, s.resolve operand = .ok (some value) →
        s.applyAll [⟨a, .set, operand⟩] = (s, some e) := by
  refine ⟨fun t h => ?_, s.applyAll_set_self a, fun e h operand hoperand => ?_⟩
  · have hagain : t.write a value = .ok t := by
      rw [write_write h]
      exact h
    exact ⟨get?_write h, shows_write h, hagain, write_write h⟩
  · have hfails : s.apply ⟨a, .set, operand⟩ = .error e := by
      rw [apply_set s a hoperand]
      exact h
    exact applyAll_of_error hfails

/-- A state with a crew of two. -/
def crewOfTwo : State :=
  ⟨[("global", .obj [("crew", .arr [.str "ana", .str "bo"])])]⟩

/-- The same state with a crew of three. -/
def crewOfThree : State :=
  ⟨[("global", .obj [("crew", .arr [.str "ana", .str "bo", .str "cy"])])]⟩

/-- A third member joins at the end of the crew, and the second one, at an index with a zero in
front, stays; a fifth one cannot join, and nothing changes. -/
theorem write_crewOfTwo :
    crewOfTwo.write ⟨["global", "crew", "2"]⟩ (.str "cy") = .ok crewOfThree ∧
      crewOfThree.get? ["global", "crew", "2"] = some (.str "cy") ∧
      crewOfThree.get? ["global", "crew", "01"] = crewOfTwo.get? ["global", "crew", "01"] ∧
      crewOfThree.write ⟨["global", "crew", "2"]⟩ (.str "cy") = .ok crewOfThree ∧
      (crewOfThree.applyAll
        [⟨⟨["global", "crew", "1"]⟩, .set, .access ⟨["global", "crew", "1"]⟩⟩]).2 = none ∧
      crewOfTwo.applyAll [⟨⟨["global", "crew", "4"]⟩, .set, .text "di"⟩] =
        (crewOfTwo, some (.notAContainer "4" .array)) := by
  have hwrite : crewOfTwo.write ⟨["global", "crew", "2"]⟩ (.str "cy") = .ok crewOfThree := by
    decide +kernel
  obtain ⟨hvalue, hshows, hagain, -⟩ :=
    (write_changes_target_only crewOfTwo ⟨["global", "crew", "2"]⟩ (.str "cy")).1 _ hwrite
  have hapart : crewOfTwo.root.course ["global", "crew", "01"] ["global", "crew", "2"] = .apart := by
    decide +kernel
  have hsecond := hshows ["global", "crew", "01"]
  rw [hapart] at hsecond
  have hself :=
    (write_changes_target_only crewOfThree ⟨["global", "crew", "1"]⟩ .null).2.1.2 (by decide)
      (by decide +kernel)
  have hfails : crewOfTwo.write ⟨["global", "crew", "4"]⟩ (.str "di") =
      .error (.notAContainer "4" .array) := by
    decide +kernel
  have hunchanged :=
    (write_changes_target_only crewOfTwo ⟨["global", "crew", "4"]⟩ (.str "di")).2.2 _ hfails
      (.text "di") rfl
  exact ⟨hwrite, hvalue, hsecond, hagain, hself, hunchanged⟩

end State

end Narrative
