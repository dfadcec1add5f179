import Mathlib.Tactic.Common
import Narrative.Entries

/-!
# Entries that are put

Putting an entry changes what is found under its own name only, and keeps the names distinct; a
mapping that is built entry by entry holds its entries, with no name twice.
-/

namespace Narrative.Entries

variable {α β : Type}

/-! ### One entry -/

theorem mem_of_lookup {name : String} {value : α} {entries : List (String × α)}
    (h : entries.lookup name = some value) : (name, value) ∈ entries := by
  obtain ⟨before, after, rfl, -⟩ := List.lookup_eq_some_iff.1 h
  simp

theorem mem_names_of_lookup {name : String} {value : α} {entries : List (String × α)}
    (h : entries.lookup name = some value) : name ∈ names entries :=
  List.mem_map.2 ⟨_, mem_of_lookup h, rfl⟩

/-- An entry is found under its name when no name stands twice. -/
theorem lookup_of_mem {entry : String × α} {entries : List (String × α)}
    (h : (names entries).Nodup) (hentry : entry ∈ entries) :
    entries.lookup entry.1 = some entry.2 := by
  induction entries with
  | nil => exact absurd hentry List.not_mem_nil
  | cons first rest ih =>
    obtain ⟨hfresh, hrest⟩ := List.nodup_cons.1 h
    rcases List.mem_cons.1 hentry with rfl | hentry
    · exact List.lookup_cons_self
    · have hne : entry.1 ≠ first.1 := fun heq =>
        hfresh (List.mem_map.2 ⟨entry, hentry, heq⟩)
      rw [List.lookup_cons, beq_false_of_ne hne]
      exact ih hrest hentry

theorem exists_lookup {name : String} {entries : List (String × α)} (h : name ∈ names entries) :
    ∃ value, entries.lookup name = some value := by
  refine Option.ne_none_iff_exists'.1 fun hnone => ?_
  obtain ⟨entry, hentry, rfl⟩ := List.mem_map.1 h
  exact absurd (List.lookup_eq_none_iff.1 hnone entry hentry) (by simp)

theorem lookup_put (name other : String) (value : α) (entries : List (String × α)) :
    (put name value entries).lookup other =
      if other = name then some value else entries.lookup other := by
  induction entries with
  | nil =>
    by_cases h : other = name
    · simp [put, h]
    · simp [put, h, List.lookup_cons, beq_false_of_ne h]
  | cons entry rest ih =>
    obtain ⟨first, old⟩ := entry
    rw [put]
    by_cases hfirst : first = name
    · rw [if_pos hfirst]
      by_cases h : other = name
      · simp [h]
      · simp [h, hfirst, List.lookup_cons, beq_false_of_ne h]
    · rw [if_neg hfirst, List.lookup_cons, List.lookup_cons]
      by_cases h : other = first
      · rw [h, if_neg hfirst]
        simp
      · rw [beq_false_of_ne h]
        exact ih

/-- Putting what is there already changes nothing. -/
theorem put_of_lookup {name : String} {value : α} {entries : List (String × α)}
    (h : entries.lookup name = some value) : put name value entries = entries := by
  induction entries with
  | nil => exact absurd h (by simp)
  | cons entry rest ih =>
    obtain ⟨first, old⟩ := entry
    rw [put]
    by_cases hfirst : first = name
    · subst hfirst
      have hold : old = value := by simpa using h
      rw [if_pos rfl, hold]
    · rw [List.lookup_cons, beq_false_of_ne (Ne.symm hfirst)] at h
      rw [if_neg hfirst, ih h]

/-- The second of two values under one name is all that is left of both. -/
theorem put_put (name : String) (value other : α) (entries : List (String × α)) :
    put name other (put name value entries) = put name other entries := by
  induction entries with
  | nil => simp [put]
  | cons entry rest ih =>
    obtain ⟨first, old⟩ := entry
    by_cases hfirst : first = name
    · simp [put, hfirst]
    · simp [put, hfirst, ih]

/-- Values under two names can be put in either order; only the place of new names differs. -/
theorem perm_put_put {name other : String} (hne : name ≠ other) (value value' : α)
    (entries : List (String × α)) :
    (put other value' (put name value entries)).Perm
      (put name value (put other value' entries)) := by
  induction entries with
  | nil =>
    simp only [put, if_neg hne, if_neg (Ne.symm hne)]
    exact List.Perm.swap _ _ _
  | cons entry rest ih =>
    obtain ⟨first, old⟩ := entry
    by_cases hname : first = name
    · simp [put, hname, hne]
    · by_cases hother : first = other
      · simp [put, hother, Ne.symm hne]
      · simp only [put, if_neg hname, if_neg hother]
        exact ih.cons _

theorem mem_of_mem_put {name : String} {value : α} {entry : String × α}
    {entries : List (String × α)} (h : entry ∈ put name value entries) :
    entry = (name, value) ∨ entry ∈ entries := by
  induction entries with
  | nil => exact Or.inl (List.mem_singleton.1 h)
  | cons other rest ih =>
    rw [put] at h
    split at h
    · rcases List.mem_cons.1 h with rfl | h
      · exact Or.inl rfl
      · exact Or.inr (List.mem_cons_of_mem _ h)
    · rcases List.mem_cons.1 h with rfl | h
      · exact Or.inr (List.mem_cons_self)
      · exact (ih h).imp_right (List.mem_cons_of_mem _)

/-- Putting a value in the place of another one keeps the names as they are. -/
theorem names_put {name : String} {value : α} {entries : List (String × α)}
    (hname : name ∈ names entries) : names (put name value entries) = names entries := by
  induction entries with
  | nil => exact absurd hname List.not_mem_nil
  | cons entry rest ih =>
    obtain ⟨other, old⟩ := entry
    rw [put]
    by_cases heq : other = name
    · rw [if_pos heq, heq]
      rfl
    · rw [if_neg heq]
      rcases List.mem_cons.1 hname with hname | hname
      · exact absurd hname.symm heq
      · exact congrArg (other :: ·) (ih hname)

theorem nodup_names_put {name : String} {value : α} {entries : List (String × α)}
    (h : (names entries).Nodup) : (names (put name value entries)).Nodup := by
  induction entries with
  | nil => simp [put, names]
  | cons entry rest ih =>
    obtain ⟨other, old⟩ := entry
    obtain ⟨hfresh, hrest⟩ := List.nodup_cons.1 h
    by_cases hname : other = name
    · rw [put, if_pos hname]
      exact List.nodup_cons.2 ⟨hname ▸ hfresh, hrest⟩
    · rw [put, if_neg hname]
      refine List.nodup_cons.2 ⟨fun hmem => ?_, ih hrest⟩
      obtain ⟨found, hfound, heq⟩ := List.mem_map.1 hmem
      rcases mem_of_mem_put hfound with rfl | hfound
      · exact hname heq.symm
      · exact hfresh (List.mem_map.2 ⟨found, hfound, heq⟩)

/-! ### Mappings built entry by entry -/

/-- No name stands twice in a mapping that is built entry by entry. -/
theorem nodup_names_distinct (entries : List (String × α)) : (names (distinct entries)).Nodup := by
  have key : ∀ built : List (String × α), (names built).Nodup →
      (names (entries.foldl (fun built entry => put entry.1 entry.2 built) built)).Nodup := by
    induction entries with
    | nil => exact fun built h => h
    | cons entry rest ih => exact fun built h => ih _ (nodup_names_put h)
  exact key [] List.nodup_nil

/-- A mapping holds nothing but the entries that it is built from. -/
theorem mem_of_mem_distinct {entry : String × α} {entries : List (String × α)}
    (h : entry ∈ distinct entries) : entry ∈ entries := by
  have key : ∀ built : List (String × α),
      entry ∈ entries.foldl (fun built entry => put entry.1 entry.2 built) built →
        entry ∈ built ∨ entry ∈ entries := by
    clear h
    induction entries with
    | nil => exact fun built h => Or.inl h
    | cons other rest ih =>
      intro built h
      rcases ih _ h with h | h
      · rcases mem_of_mem_put h with rfl | h
        · exact Or.inr List.mem_cons_self
        · exact Or.inl h
      · exact Or.inr (List.mem_cons_of_mem _ h)
  exact (key [] h).resolve_left List.not_mem_nil

theorem put_of_not_mem {name : String} {value : α} {entries : List (String × α)}
    (h : name ∉ names entries) : put name value entries = entries ++ [(name, value)] := by
  induction entries with
  | nil => rfl
  | cons entry rest ih =>
    obtain ⟨other, old⟩ := entry
    simp only [names, List.map_cons, List.mem_cons, not_or] at h
    rw [put, if_neg (Ne.symm h.1), ih h.2, List.cons_append]

/-- A mapping is built from its entries without a change. -/
theorem distinct_eq_self {entries : List (String × α)} (h : (names entries).Nodup) :
    distinct entries = entries := by
  have key : ∀ (rest built : List (String × α)), (names (built ++ rest)).Nodup →
      rest.foldl (fun built entry => put entry.1 entry.2 built) built = built ++ rest := by
    intro rest
    induction rest with
    | nil => intro built _; simp
    | cons entry rest ih =>
      intro built hnodup
      have hfresh : entry.1 ∉ names built := by
        simp only [names, List.map_append, List.map_cons, List.nodup_append, List.mem_cons]
          at hnodup ⊢
        exact fun hmem => hnodup.2.2 _ hmem _ (Or.inl rfl) rfl
      rw [List.foldl_cons, put_of_not_mem hfresh, ih _ (by simpa using hnodup)]
      simp
  simpa [distinct] using key entries [] (by simpa using h)

theorem names_mapValues (f : α → β) (entries : List (String × α)) :
    names (mapValues f entries) = names entries := by
  simp [names, mapValues]

end Narrative.Entries
