import Narrative.Proofs.Json.Reordered
import Narrative.Proofs.Operation.Batch
import Narrative.Proofs.Operation.Result
import Narrative.Proofs.Condition.Mentions

/-!
# Independent operations

Two operations are independent when the target of each parts at an object from the target of the
other one and from all that its operand mentions.  What one of them writes is then read off the same
values whether the other one came before it or not, and the two writes can be made in either order.
-/

namespace Narrative

/-! ### Two writes -/

namespace Json

variable {level value other made both : Json} {key key' : String} {rest rest' : List String}

/-- A write below an object looks at what stands under one name only, and puts a value there. -/
theorem exists_put_of_setAt {entries : List (String × Json)}
    (h : setAt value (.obj entries) key rest = .ok made) :
    ∃ inner, made = .obj (Entries.put key inner entries) ∧
      ∀ others : List (String × Json), others.lookup key = entries.lookup key →
        setAt value (.obj others) key rest = .ok (.obj (Entries.put key inner others)) := by
  cases rest with
  | nil => exact ⟨value, (Except.ok.inj h).symm, fun _ _ => rfl⟩
  | cons next rest =>
    rw [setAt] at h
    split at h
    · cases h
    · rename_i below hbelow
      obtain ⟨inner, hinner, rfl⟩ := Except.exists_of_map h
      refine ⟨inner, rfl, fun others hothers => ?_⟩
      have hchild : child? (.obj others) key = some below := hothers.trans hbelow
      rw [setAt, hchild]
      dsimp only
      rw [hinner]
      rfl

/-- A write that goes through a level replaces the value under its first segment. -/
theorem setAt_of_child? {next : String} {below : Json} (hbelow : level.child? key = some below) :
    setAt value level key (next :: rest) =
      (setAt value below next rest).map (level.replaceChild key) := by
  rw [setAt, hbelow]

/-- Two writes at paths that part can be made the other way round. -/
theorem setAt_setAt_of_parts (h : level.PartsAtObject (key :: rest) (key' :: rest'))
    (hfirst : setAt value level key rest = .ok made)
    (hsecond : setAt other made key' rest' = .ok both) :
    ∃ made' both', setAt other level key' rest' = .ok made' ∧
      setAt value made' key rest = .ok both' ∧ both.Reordered both' := by
  obtain ⟨front, name, tail, name', tail', entries, hpath, hpath', hne, hat⟩ := h
  induction front generalizing level key rest key' rest' made both with
  | nil =>
    obtain ⟨rfl, rfl⟩ := List.cons.inj hpath
    obtain ⟨rfl, rfl⟩ := List.cons.inj hpath'
    obtain rfl : level = .obj entries := Option.some.inj hat
    obtain ⟨inner, rfl, hagain⟩ := exists_put_of_setAt hfirst
    obtain ⟨inner', rfl, hagain'⟩ := exists_put_of_setAt hsecond
    have hlookup : (Entries.put key' inner' entries).lookup key = entries.lookup key := by
      rw [Entries.lookup_put, if_neg hne]
    have hlookup' : entries.lookup key' = (Entries.put key inner entries).lookup key' := by
      rw [Entries.lookup_put, if_neg (Ne.symm hne)]
    exact ⟨_, _, hagain' entries hlookup', hagain _ hlookup,
      .of_perm (Entries.perm_put_put hne inner inner' entries)⟩
  | cons segment front ih =>
    obtain ⟨rfl, hrest⟩ := List.cons_eq_cons.1 hpath
    obtain ⟨hkey, hrest'⟩ := List.cons_eq_cons.1 hpath'
    obtain rfl : key = key' := hkey.symm
    rw [at?] at hat
    obtain ⟨below, hbelow, hat⟩ := Option.bind_eq_some_iff.1 hat
    -- below the first segment both paths go on, and part there
    have hlong : rest ≠ [] := by simp [hrest]
    have hlong' : rest' ≠ [] := by simp [hrest']
    obtain ⟨next, more, rfl⟩ := List.exists_cons_of_ne_nil hlong
    obtain ⟨next', more', rfl⟩ := List.exists_cons_of_ne_nil hlong'
    rw [setAt_of_child? hbelow] at hfirst
    obtain ⟨inner, hinner, rfl⟩ := Except.exists_of_map hfirst
    have hchild : (level.replaceChild key inner).child? key = some inner :=
      child?_setChild_self (setChild_of_child? hbelow inner)
    rw [setAt_of_child? hchild] at hsecond
    obtain ⟨innerBoth, hinnerBoth, rfl⟩ := Except.exists_of_map hsecond
    obtain ⟨inner', innerBoth', hinner', hinnerBoth', hreordered⟩ :=
      ih hinner hinnerBoth hrest hrest' hat
    have hchild' : (level.replaceChild key inner').child? key = some inner' :=
      child?_setChild_self (setChild_of_child? hbelow inner')
    refine ⟨level.replaceChild key inner', level.replaceChild key innerBoth', ?_, ?_, ?_⟩
    · rw [setAt_of_child? hbelow, hinner']
      rfl
    · rw [setAt_of_child? hchild', hinnerBoth']
      exact congrArg Except.ok (replaceChild_replaceChild hbelow inner' innerBoth')
    · rw [replaceChild_replaceChild hbelow]
      exact hreordered.replaceChild level key

end Json

namespace State

open Json

variable {s t u : State} {a b : Access} {value other : Json} {o o' : Operation}

/-- A write in the document of a state leaves the document of a state. -/
theorem exists_root_of_setAt {made : Json} {key : String} {rest : List String}
    (h : Json.setAt value s.root key rest = .ok made) : ∃ t : State, t.root = made := by
  obtain ⟨inner, rfl, -⟩ := exists_put_of_setAt h
  exact ⟨⟨_⟩, rfl⟩

/-- Two writes at accesses that part can be made the other way round. -/
theorem write_write_of_parts (h : s.root.PartsAtObject a.segments b.segments)
    (hfirst : s.write a value = .ok t) (hsecond : t.write b other = .ok u) :
    ∃ t' u', s.write b other = .ok t' ∧ t'.write a value = .ok u' ∧ u.root.Reordered u'.root := by
  obtain ⟨key, rest, rfl, hset⟩ := exists_setAt_of_write hfirst
  obtain ⟨key', rest', rfl, hset'⟩ := exists_setAt_of_write hsecond
  obtain ⟨made, both, hmade, hboth, hreordered⟩ := setAt_setAt_of_parts h hset hset'
  obtain ⟨t', rfl⟩ := exists_root_of_setAt hmade
  obtain ⟨u', rfl⟩ := exists_root_of_setAt hboth
  exact ⟨t', u', write_of_setAt hmade, write_of_setAt hboth, hreordered⟩

/-! ### Two operations -/

/-- What parts from the target of an operation is there before it and behind it alike, and so is the
level above. -/
theorem isNone_get?_dropLast_of_parts {path : List String} (h : s.apply o = .ok t)
    (hparts : s.root.PartsAtObject path o.target.segments) :
    (t.get? path.dropLast).isNone = (s.get? path.dropLast).isNone := by
  obtain ⟨value, hwrite⟩ := exists_write_of_apply h
  obtain ⟨front, name, rest, name', rest', entries, rfl, htarget, hne, hat⟩ := hparts
  rcases List.eq_nil_or_concat rest with rfl | ⟨more, last, rfl⟩
  · -- the level above is the object at which the two part
    have hafter : t.get? front ≠ none := fun hnone => by
      have hlost := at?_eq_none_of_start ⟨name' :: rest', htarget.symm⟩ hnone
      cases hlost.symm.trans (get?_write hwrite)
    have hbefore : s.get? front = some (.obj entries) := hat
    obtain ⟨level, hlevel⟩ := Option.ne_none_iff_exists'.1 hafter
    rw [List.dropLast_concat, hbefore, hlevel]
    rfl
  · have hdrop : (front ++ name :: (more ++ [last])).dropLast = front ++ name :: more := by
      rw [← List.cons_append, ← List.append_assoc, List.dropLast_concat]
    rw [List.concat_eq_append, hdrop,
      get?_apply_of_parts h ⟨front, name, more, name', rest', entries, rfl, htarget, hne, hat⟩]

end State

namespace Operation

/-- The target of an operation parts at an object from the target of another one, and from every
access in the operand of that one. -/
structure ClearOf (s : State) (o other : Operation) : Prop where
  target : s.root.PartsAtObject other.target.segments o.target.segments
  operand : ∀ a, .access a ∈ other.operand.leaves →
    s.root.PartsAtObject a.segments o.target.segments

/-- An operation writes the same behind another one that stays clear of it. -/
theorem ClearOf.result_eq {s t : State} {o other : Operation} (h : o.ClearOf s other)
    (happly : s.apply o = .ok t) : other.result t = other.result s :=
  result_congr (State.isNone_get?_dropLast_of_parts happly h.target)
    (State.get?_apply_of_parts happly h.target)
    (State.resolve_congr other.operand fun a ha _ =>
      State.get?_apply_of_parts happly (h.operand a ha))

end Operation

namespace State

variable {s u : State} {o other : Operation}

/-- Independent operations that succeed in one order do so in the other one. -/
theorem passes_swap (hclear : o.ClearOf s other) (hclear' : other.ClearOf s o)
    (h : s.Passes [o, other] u) :
    ∃ u', s.Passes [other, o] u' ∧ u.root.Reordered u'.root := by
  rcases h with _ | ⟨hfirst, _ | ⟨hsecond, _ | _⟩⟩
  have hresult := hclear.result_eq hfirst
  obtain ⟨value, hvalue, hwrite⟩ := apply_eq_ok_iff.1 hfirst
  obtain ⟨value', hvalue', hwrite'⟩ := apply_eq_ok_iff.1 hsecond
  rw [hresult] at hvalue'
  obtain ⟨t', u', ht', hu', hreordered⟩ := write_write_of_parts hclear'.target hwrite hwrite'
  have hother : s.apply other = .ok t' := apply_eq_ok_iff.2 ⟨value', hvalue', ht'⟩
  rw [← hclear'.result_eq hother] at hvalue
  exact ⟨u', .step hother (.step (apply_eq_ok_iff.2 ⟨value, hvalue, hu'⟩) (.done u')), hreordered⟩

theorem exists_passes_iff {operations : List Operation} :
    (s.applyAll operations).2 = none ↔ ∃ t, s.Passes operations t := by
  constructor
  · intro h
    exact ⟨(s.applyAll operations).1, applyAll_eq_ok_iff.1 (Prod.ext rfl h)⟩
  · rintro ⟨t, h⟩
    rw [applyAll_eq_ok_iff.2 h]

/-- Independent operations commute.  When the target of each of two operations parts at an object of
the document from the target of the other one and from every access in its operand, the two succeed
in one order exactly when they do in the other one, and then leave the same document up to the order
of the entries in its objects. -/
theorem independent_operations_commute (s : State) (o other : Operation)
    (hclear : o.ClearOf s other) (hclear' : other.ClearOf s o) :
    ((s.applyAll [o, other]).2 = none ↔ (s.applyAll [other, o]).2 = none) ∧
      ((s.applyAll [o, other]).2 = none →
        (s.applyAll [o, other]).1.root.Reordered (s.applyAll [other, o]).1.root) := by
  refine ⟨?_, fun h => ?_⟩
  · rw [exists_passes_iff, exists_passes_iff]
    constructor
    · rintro ⟨u, hpasses⟩
      obtain ⟨u', hpasses', -⟩ := passes_swap hclear hclear' hpasses
      exact ⟨u', hpasses'⟩
    · rintro ⟨u, hpasses⟩
      obtain ⟨u', hpasses', -⟩ := passes_swap hclear' hclear hpasses
      exact ⟨u', hpasses'⟩
  · obtain ⟨u, hpasses⟩ := exists_passes_iff.1 h
    obtain ⟨u', hpasses', hreordered⟩ := passes_swap hclear hclear' hpasses
    rw [applyAll_eq_ok_iff.2 hpasses, applyAll_eq_ok_iff.2 hpasses']
    exact hreordered

/-- A toll is due, on the third day. -/
def tollDue : State :=
  ⟨[("global", .obj [("gold", .nat 10)]), ("resources", .obj [("toll", .nat 4)]),
    ("storylines", .obj [("bridge", .obj [("day", .nat 3)])])]⟩

/-- The fee is set to the toll. -/
def setFee : Operation :=
  ⟨⟨["global", "fee"]⟩, .set, .access ⟨["resources", "toll"]⟩⟩

/-- The day is noted. -/
def noteDay : Operation :=
  ⟨⟨["global", "note"]⟩, .set, .list [.text "due", .access ⟨["storylines", "bridge", "day"]⟩]⟩

theorem setFee_clearOf_noteDay : setFee.ClearOf tollDue noteDay where
  target := ⟨["global"], "note", [], "fee", [], [("gold", .nat 10)], rfl, rfl, by decide, rfl⟩
  operand a ha := by
    obtain rfl : a = ⟨["storylines", "bridge", "day"]⟩ := by
      simpa [noteDay, Operand.leaves, Operand.leavesOfItems] using ha
    exact ⟨[], "storylines", ["bridge", "day"], "global", ["fee"], tollDue.entries, rfl, rfl,
      by decide, rfl⟩

theorem noteDay_clearOf_setFee : noteDay.ClearOf tollDue setFee where
  target := setFee_clearOf_noteDay.target.symm
  operand a ha := by
    obtain rfl : a = ⟨["resources", "toll"]⟩ := by simpa [setFee, Operand.leaves] using ha
    exact ⟨[], "resources", ["toll"], "global", ["note"], tollDue.entries, rfl, rfl, by decide, rfl⟩

/-- Both orders succeed, and each puts its own operation first among the new entries. -/
theorem independent_operations_commute_tollDue :
    (setFee.ClearOf tollDue noteDay ∧ noteDay.ClearOf tollDue setFee) ∧
      (tollDue.applyAll [setFee, noteDay]).2 = none ∧
      (tollDue.applyAll [noteDay, setFee]).2 = none ∧
      (tollDue.applyAll [setFee, noteDay]).1 ≠ (tollDue.applyAll [noteDay, setFee]).1 ∧
      (tollDue.applyAll [setFee, noteDay]).1.root.Reordered
        (tollDue.applyAll [noteDay, setFee]).1.root := by
  obtain ⟨hiff, hreordered⟩ := independent_operations_commute tollDue setFee noteDay
    setFee_clearOf_noteDay noteDay_clearOf_setFee
  have hpasses : (tollDue.applyAll [setFee, noteDay]).2 = none := by decide +kernel
  exact ⟨⟨setFee_clearOf_noteDay, noteDay_clearOf_setFee⟩, hpasses, hiff.1 hpasses,
    by decide +kernel, hreordered hpasses⟩

end State

end Narrative
