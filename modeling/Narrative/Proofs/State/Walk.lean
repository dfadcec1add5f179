import Mathlib.Tactic.Common
import Narrative.State.Basic
import Narrative.Proofs.Except

/-!
# Walks along paths

A value is read at a path, the place of a path is looked for, the slot of a path is taken and a value
is written at a path by four walks of their own.  They go down the same levels: they find the same
value, stop at the same missing segment and fail for the same reasons.
-/

namespace Narrative

namespace Json

variable {level value : Json} {key : String}

/-! ### Values at paths -/

theorem at?_append (level : Json) (front back : List String) :
    level.at? (front ++ back) = (level.at? front).bind fun below => below.at? back := by
  induction front generalizing level with
  | nil => rfl
  | cons segment front ih =>
    rw [List.cons_append, at?, at?]
    cases level.child? segment with
    | none => rfl
    | some next => exact ih next

theorem at?_singleton (level : Json) (key : String) : level.at? [key] = level.child? key := by
  simp [at?]

theorem at?_concat (level : Json) (before : List String) (key : String) :
    level.at? (before ++ [key]) = (level.at? before).bind fun parent => parent.child? key := by
  simp only [at?_append, at?_singleton]

/-- Behind a missing segment all others are missing. -/
theorem at?_eq_none_of_start {start path : List String} (h : start <+: path)
    (hstart : level.at? start = none) : level.at? path = none := by
  obtain ⟨rest, rfl⟩ := h
  rw [at?_append, hstart]
  rfl

/-! ### Places -/

/-- `p` is where the walk along `path` stops: behind `front`, which has a value, at the first missing
segment or else at the last one. -/
structure Stop (level : Json) (path front : List String) (p : Place) : Prop where
  along : front ++ [p.key] <+: path
  parent : level.at? front = some p.parent
  found : p.missing = false → front ++ [p.key] = path ∧ level.at? path ≠ none
  lost : p.missing = true → level.at? (front ++ [p.key]) = none
  last : p.missingLast = true ↔ p.missing = true ∧ front ++ [p.key] = path

/-- The search for a place goes down as far as there are values. -/
theorem exists_stop_place (level : Json) (key : String) (rest : List String) :
    ∃ front, level.Stop (key :: rest) front (level.place key rest) := by
  induction rest generalizing level key with
  | nil =>
    have hchild : level.at? ([] ++ [key]) = level.child? key := at?_singleton level key
    refine ⟨[], List.prefix_refl _, rfl, fun hfound => ⟨rfl, ?_⟩, fun hlost => ?_, ?_⟩
    · intro hnone
      rw [place] at hfound
      rw [← hchild] at hfound
      simp only [List.nil_append, hnone] at hfound
      exact absurd hfound (by decide)
    · rw [place] at hlost
      rw [place, hchild]
      exact Option.isNone_iff_eq_none.1 hlost
    · simp [place]
  | cons next rest ih =>
    rw [place]
    cases hchild : level.child? key with
    | none =>
      refine ⟨[], ⟨next :: rest, rfl⟩, rfl, nofun, fun _ => ?_, ?_⟩
      · rw [List.nil_append, at?_singleton]
        exact hchild
      · simp
    | some below =>
      obtain ⟨front, hstop⟩ := ih below next
      have hbelow : ∀ path, level.at? (key :: path) = below.at? path := by
        intro path
        rw [at?, hchild]
        rfl
      refine ⟨key :: front, List.cons_prefix_cons.2 ⟨rfl, hstop.along⟩, ?_, fun hfound => ?_,
        fun hlost => ?_, ?_⟩
      · rw [hbelow]
        exact hstop.parent
      · obtain ⟨hpath, hvalue⟩ := hstop.found hfound
        refine ⟨congrArg (key :: ·) hpath, ?_⟩
        rw [hbelow]
        exact hvalue
      · rw [List.cons_append, hbelow]
        exact hstop.lost hlost
      · simpa using hstop.last

namespace Stop

variable {path front before : List String} {p : Place}

theorem missing_iff (h : level.Stop path front p) : p.missing = true ↔ level.at? path = none := by
  constructor
  · intro hmissing
    exact at?_eq_none_of_start h.along (h.lost hmissing)
  · intro hnone
    by_contra hmissing
    exact (h.found (by simpa using hmissing)).2 hnone

/-- Some segment is missing when some part of the path leads nowhere. -/
theorem missing_iff_exists (h : level.Stop path front p) :
    p.missing = true ↔ ∃ start, start <+: path ∧ level.at? start = none := by
  rw [h.missing_iff]
  constructor
  · intro hnone
    exact ⟨path, List.prefix_refl _, hnone⟩
  · rintro ⟨start, hstart, hnone⟩
    exact at?_eq_none_of_start hstart hnone

theorem missingLast_iff (h : level.Stop (before ++ [key]) front p) :
    p.missingLast = true ↔ level.at? (before ++ [key]) = none ∧ level.at? before ≠ none := by
  rw [h.last, h.missing_iff]
  refine and_congr_right fun hnone => ?_
  constructor
  · intro hpath
    obtain ⟨rfl, -⟩ := List.append_inj' hpath rfl
    rw [h.parent]
    simp
  · intro hbefore
    rcases List.prefix_concat_iff.1 h.along with hpath | hprefix
    · exact hpath
    · -- the walk would have stopped above the last level
      have hlost := h.lost (h.missing_iff.2 hnone)
      exact absurd (at?_eq_none_of_start hprefix hlost) hbefore

/-- The value of a place is the one at the path. -/
theorem value?_eq (h : level.Stop path front p) : p.value? = level.at? path := by
  unfold Place.value?
  cases hmissing : p.missing with
  | true =>
    rw [h.missing_iff.1 hmissing]
    rfl
  | false =>
    rw [← (h.found hmissing).1, at?_concat, h.parent]
    rfl

end Stop

/-! ### Slots -/

theorem value_slot? (level : Json) (path : List String) :
    (level.slot? path).map Slot.value = level.at? path := by
  induction path generalizing level with
  | nil => rfl
  | cons key rest ih =>
    rw [slot?, at?]
    cases level.child? key with
    | none => rfl
    | some below =>
      dsimp only
      rw [Option.map_map]
      exact ih below

theorem at?_of_slot? {path : List String} {slot : Slot} (h : level.slot? path = some slot) :
    level.at? path = some slot.value := by
  rw [← value_slot?, h]
  rfl

theorem slot?_eq_none_iff {path : List String} : level.slot? path = none ↔ level.at? path = none := by
  rw [← value_slot?, Option.map_eq_none_iff]

theorem exists_slot? {path : List String} (h : level.at? path = some value) :
    ∃ slot, level.slot? path = some slot ∧ slot.value = value := by
  rw [← value_slot?] at h
  exact Option.map_eq_some_iff.1 h

/-! ### Writing -/

/-- A value can be put under a segment: in an object always, in an array over an item or just behind
the last one. -/
def Takes (level : Json) (key : String) : Prop :=
  match level with
  | obj _ => True
  | arr items => ∃ i, index? key = some i ∧ i ≤ items.length
  | _ => False

theorem exists_setChild (h : level.Takes key) (value : Json) :
    ∃ made, level.setChild key value = .ok made := by
  cases level with
  | obj entries => exact ⟨_, rfl⟩
  | arr items =>
    obtain ⟨i, hindex, hle⟩ := h
    rw [setChild, hindex]
    dsimp only
    by_cases hlt : i < items.length
    · exact ⟨_, if_pos hlt⟩
    · have heq : i = items.length := by omega
      exact ⟨_, by rw [if_neg hlt, if_pos heq]⟩
  | _ => exact absurd h id

theorem setChild_of_not_takes (h : ¬level.Takes key) (value : Json) :
    level.setChild key value = .error (.notAContainer key level.kind) := by
  cases level with
  | obj entries => exact absurd trivial h
  | arr items =>
    rw [setChild]
    cases hindex : index? key with
    | none => rfl
    | some i =>
      have hlt : items.length < i := by
        by_contra hle
        exact h ⟨i, hindex, by omega⟩
      dsimp only
      rw [if_neg (by omega), if_neg (by omega)]
      rfl
  | _ => rfl

theorem kind_setChild {made : Json} (h : level.setChild key value = .ok made) :
    made.kind = level.kind := by
  cases level with
  | obj entries => exact (Except.ok.inj h) ▸ rfl
  | arr items =>
    rw [setChild] at h
    split at h
    · exact absurd h nofun
    · split at h
      · exact (Except.ok.inj h) ▸ rfl
      · split at h
        · exact (Except.ok.inj h) ▸ rfl
        · exact absurd h nofun
  | _ => exact absurd h nofun

/-- Over a value that is there, putting one is replacing it. -/
theorem setChild_of_child? {old : Json} (h : level.child? key = some old) (value : Json) :
    level.setChild key value = .ok (level.replaceChild key value) := by
  cases level with
  | obj entries => rfl
  | arr items =>
    obtain ⟨i, hindex, hitem⟩ := Option.bind_eq_some_iff.1 h
    have hlt : i < items.length := (List.getElem?_eq_some_iff.1 hitem).1
    rw [setChild, replaceChild, hindex]
    exact if_pos hlt
  | _ => exact absurd h nofun

/-- A write goes down to the slot of the level above, and puts the value there. -/
theorem setAt_concat (value level : Json) {first : String} {rest before : List String}
    (h : first :: rest = before ++ [key]) :
    setAt value level first rest = match level.slot? before with
      | none => .error .missing
      | some slot => (slot.value.setChild key value).map slot.fill := by
  induction before generalizing level first rest with
  | nil =>
    obtain ⟨rfl, rfl⟩ := List.cons.inj h
    rw [setAt, slot?]
    dsimp only
    cases level.setChild first value <;> rfl
  | cons segment before ih =>
    have hbelow : rest = before ++ [key] := (List.cons.inj h).2
    obtain rfl : first = segment := (List.cons.inj h).1
    cases rest with
    | nil => exact absurd hbelow.symm (by simp)
    | cons next rest =>
      rw [setAt, slot?]
      cases level.child? first with
      | none => rfl
      | some below =>
        dsimp only
        rw [ih below hbelow]
        cases below.slot? before with
        | none => rfl
        | some slot =>
          dsimp only [Option.map_some]
          cases slot.value.setChild key value <;> rfl

/-- Where there is a value, a write fills its slot. -/
theorem setAt_of_slot? {rest : List String} {slot : Slot} (h : level.slot? (key :: rest) = some slot)
    (value : Json) : setAt value level key rest = .ok (slot.fill value) := by
  induction rest generalizing level key slot with
  | nil =>
    rw [slot?] at h
    split at h
    · exact absurd h nofun
    · rename_i old hchild
      obtain rfl := Option.some.inj h
      exact setChild_of_child? hchild value
  | cons next rest ih =>
    rw [slot?] at h
    split at h
    · exact absurd h nofun
    · rename_i below hchild
      obtain ⟨inner, hinner, rfl⟩ := Option.map_eq_some_iff.1 h
      rw [setAt, hchild]
      dsimp only
      rw [ih hinner]
      rfl

end Json

/-- An access with segments has a last one. -/
theorem Access.exists_concat {access : Access} (hne : access.segments ≠ []) :
    ∃ before key, access = ⟨before ++ [key]⟩ := by
  obtain ⟨segments⟩ := access
  rcases List.eq_nil_or_concat segments with rfl | ⟨before, key, rfl⟩
  · exact absurd rfl hne
  · exact ⟨before, key, by rw [List.concat_eq_append]⟩

namespace State

open Json

variable {s t : State} {access : Access} {value : Json}

/-! ### The document -/

theorem write_eq_setAt (s : State) (key : String) (rest : List String) (value : Json) :
    s.write ⟨key :: rest⟩ value = match Json.setAt value s.root key rest with
      | .ok document => ofJson document
      | .error .missing => .error (.missingPath ⟨key :: rest⟩)
      | .error (.notAContainer segment found) => .error (.notAContainer segment found) := by
  cases rest with
  | nil => rfl
  | cons next rest =>
    have hchild : s.root.child? key = s.entries.lookup key := rfl
    rw [write, Json.setAt, hchild]
    dsimp only
    cases s.entries.lookup key with
    | none => rfl
    | some below =>
      dsimp only
      rcases Json.setAt value below next rest with (_ | _) | made <;> rfl

/-- Filling the slot of an access is writing there. -/
theorem ofJson_fill {slot : Slot} (h : s.slot? access = some slot) (hne : access.segments ≠ [])
    (value : Json) : ofJson (slot.fill value) = s.write access value := by
  obtain ⟨segments⟩ := access
  obtain ⟨key, rest, rfl⟩ := List.exists_cons_of_ne_nil hne
  rw [write_eq_setAt, setAt_of_slot? h]

/-- The document is still an object when one of its values is replaced by another of its kind. -/
theorem exists_ofJson_fill {path : List String} {slot : Slot} (h : s.root.slot? path = some slot)
    {made : Json} (hkind : made.kind = slot.value.kind) :
    ∃ t, ofJson (slot.fill made) = .ok t ∧ t.root = slot.fill made := by
  cases path with
  | nil =>
    obtain rfl := Option.some.inj h
    cases made with
    | obj entries => exact ⟨⟨entries⟩, rfl, rfl⟩
    | _ => exact absurd hkind nofun
  | cons key rest =>
    rw [Json.slot?] at h
    split at h
    · exact absurd h nofun
    · obtain ⟨inner, -, rfl⟩ := Option.map_eq_some_iff.1 h
      exact ⟨⟨Entries.put key (inner.fill made) s.entries⟩, rfl, rfl⟩

theorem write_concat (s : State) (before : List String) (key : String) (value : Json) :
    s.write ⟨before ++ [key]⟩ value = match s.root.slot? before with
      | none => .error (.missingPath ⟨before ++ [key]⟩)
      | some slot =>
        match slot.value.setChild key value with
        | .ok level => ofJson (slot.fill level)
        | .error .missing => .error (.missingPath ⟨before ++ [key]⟩)
        | .error (.notAContainer segment found) => .error (.notAContainer segment found) := by
  obtain ⟨first, rest, hsegments⟩ :=
    List.exists_cons_of_ne_nil (List.append_ne_nil_of_right_ne_nil before (List.cons_ne_nil key []))
  rw [hsegments, write_eq_setAt, setAt_concat value s.root hsegments.symm]
  cases s.root.slot? before with
  | none => rfl
  | some slot =>
    dsimp only
    rcases slot.value.setChild key value with (_ | _) | level <;> rfl

/-- A walk in search of a place stops as `Stop` says.  It fails only when it is strict and some
segment above the last one is missing. -/
theorem resolvePath_concat (s : State) (before : List String) (key : String) :
    ∃ place front, s.root.Stop (before ++ [key]) front place ∧
      s.resolvePath ⟨before ++ [key]⟩ false = .ok place ∧
      s.resolvePath ⟨before ++ [key]⟩ true =
        if s.get? before = none then .error (.missingPath ⟨before ++ [key]⟩) else .ok place := by
  obtain ⟨first, rest, hsegments⟩ :=
    List.exists_cons_of_ne_nil (List.append_ne_nil_of_right_ne_nil before (List.cons_ne_nil key []))
  obtain ⟨front, hstop⟩ := exists_stop_place s.root first rest
  have hstrict : ((true && (s.root.place first rest).missing &&
      !(s.root.place first rest).missingLast) = true) ↔ s.get? before = none := by
    rw [← hsegments] at hstop
    rw [Bool.true_and, Bool.and_eq_true, Bool.not_eq_true', ← Bool.not_eq_true, hstop.missing_iff,
      hstop.missingLast_iff]
    constructor
    · rintro ⟨hpath, hlast⟩
      by_contra hbefore
      exact hlast ⟨hpath, hbefore⟩
    · intro hbefore
      refine ⟨at?_eq_none_of_start (List.prefix_append before [key]) hbefore, ?_⟩
      exact fun hlast => hlast.2 hbefore
  rw [hsegments]
  refine ⟨_, front, hstop, rfl, ?_⟩
  rw [resolvePath]
  exact if_congr hstrict rfl rfl

/-- An access has the value that is read at its segments. -/
theorem resolve_access (s : State) (hne : access.segments ≠ []) :
    s.resolve (.access access) = .ok (s.get? access.segments) := by
  obtain ⟨before, key, rfl⟩ := Access.exists_concat hne
  obtain ⟨place, front, hstop, hplace, -⟩ := s.resolvePath_concat before key
  rw [resolve, hplace]
  exact congrArg Except.ok hstop.value?_eq

/-- How a write fails, and when it succeeds. -/
theorem write_cases (s : State) (before : List String) (key : String) (value : Json) :
    (s.get? before = none ∧
        s.write ⟨before ++ [key]⟩ value = .error (.missingPath ⟨before ++ [key]⟩)) ∨
      ∃ parent, s.get? before = some parent ∧
        ((parent.Takes key ∧ ∃ t, s.write ⟨before ++ [key]⟩ value = .ok t) ∨
          (¬parent.Takes key ∧
            s.write ⟨before ++ [key]⟩ value = .error (.notAContainer key parent.kind))) := by
  rw [write_concat]
  cases hslot : s.root.slot? before with
  | none => exact Or.inl ⟨slot?_eq_none_iff.1 hslot, rfl⟩
  | some slot =>
    refine Or.inr ⟨slot.value, at?_of_slot? hslot, ?_⟩
    by_cases htakes : slot.value.Takes key
    · obtain ⟨level, hlevel⟩ := exists_setChild htakes value
      obtain ⟨t, ht, -⟩ := exists_ofJson_fill hslot (kind_setChild hlevel)
      refine Or.inl ⟨htakes, t, ?_⟩
      dsimp only
      rw [hlevel]
      exact ht
    · refine Or.inr ⟨htakes, ?_⟩
      dsimp only
      rw [setChild_of_not_takes htakes]

/-- All walks along an access agree.  A place, a slot, an operand and a look-up give the same value;
the place is where the longest part of the path that has a value ends; a strict walk fails, and a
write fails, exactly when a segment above the last one is missing; and a write fails otherwise only
in a level that takes no value under the last segment. -/
theorem walks_agree (s : State) (before : List String) (key : String) (value : Json) :
    let a : Access := ⟨before ++ [key]⟩
    (∃ place front, s.resolvePath a false = .ok place ∧ s.root.Stop a.segments front place ∧
        place.value? = s.get? a.segments ∧
        (place.missing = true ↔ ∃ start, start <+: a.segments ∧ s.get? start = none) ∧
        (place.missingLast = true ↔ s.get? a.segments = none ∧ s.get? before ≠ none) ∧
        (s.get? before ≠ none → s.resolvePath a true = .ok place)) ∧
      (s.slot? a).map Slot.value = s.get? a.segments ∧
      s.resolve (.access a) = .ok (s.get? a.segments) ∧
      (∀ e, s.resolvePath a true = .error e ↔ e = .missingPath a ∧ s.get? before = none) ∧
      (∀ b, s.write a value = .error (.missingPath b) ↔ b = a ∧ s.get? before = none) ∧
      (∀ segment found, s.write a value = .error (.notAContainer segment found) ↔
        segment = key ∧ ∃ parent, s.get? before = some parent ∧ found = parent.kind ∧
          ¬parent.Takes key) ∧
      ((∃ t, s.write a value = .ok t) ↔
        ∃ parent, s.get? before = some parent ∧ parent.Takes key) := by
  intro a
  have hne : a.segments ≠ [] := List.append_ne_nil_of_right_ne_nil before (List.cons_ne_nil key [])
  obtain ⟨place, front, hstop, hplace, hstrict⟩ := s.resolvePath_concat before key
  refine ⟨⟨place, front, hplace, hstop, hstop.value?_eq, hstop.missing_iff_exists,
    hstop.missingLast_iff, fun hbefore => ?_⟩, value_slot? _ _, s.resolve_access hne,
    fun e => ?_, ?_⟩
  · rw [hstrict, if_neg hbefore]
  · rw [hstrict]
    by_cases hbefore : s.get? before = none
    · rw [if_pos hbefore, Except.error.injEq]
      exact ⟨fun he => ⟨he.symm, hbefore⟩, fun he => he.1.symm⟩
    · rw [if_neg hbefore]
      exact ⟨nofun, fun he => absurd he.2 hbefore⟩
  -- each way in which a write ends leaves one side of each equivalence
  rcases s.write_cases before key value with
    ⟨hnone, hwrite⟩ | ⟨parent, hparent, ⟨htakes, t, hwrite⟩ | ⟨htakes, hwrite⟩⟩
  · refine ⟨fun b => ?_, fun segment found => ?_, ?_⟩
    · rw [hwrite, Except.error.injEq, StateError.missingPath.injEq]
      exact ⟨fun hb => ⟨hb.symm, hnone⟩, fun hb => hb.1.symm⟩
    · rw [hwrite, hnone]
      simp
    · rw [hwrite, hnone]
      simp
  · refine ⟨fun b => ?_, fun segment found => ?_, ?_⟩
    · rw [hwrite, hparent]
      simp
    · rw [hwrite, hparent]
      simp [htakes]
    · rw [hwrite, hparent]
      simp [htakes]
  · refine ⟨fun b => ?_, fun segment found => ?_, ?_⟩
    · rw [hwrite, hparent]
      simp
    · rw [hwrite, hparent]
      simp [htakes, eq_comm]
    · rw [hwrite, hparent]
      simp [htakes]

end State

end Narrative
