import Narrative.Proofs.Json.Settled

/-!
# Operands that are decoded

An access that is decoded is settled, and so is an operand: an array that spells an access is
decoded as one, so no list that is decoded is spelled like an access.
-/

namespace Narrative

open Json

/-- An access is written no deeper than any document that it is decoded from. -/
theorem Access.settles : Settles toJson ofJson? 0 := by
  intro depth document path hfits h
  refine ⟨?_, ofJson?_toJson path⟩
  obtain ⟨fields, hfields, h⟩ := Option.bind_eq_some_iff.1 h
  obtain ⟨inner, rfl, heach⟩ := hfits.fields hfields
  split at h
  · rename_i kind data
    obtain ⟨word, -, h⟩ := Option.bind_eq_some_iff.1 h
    split at h
    · obtain ⟨segments, hsegments, h⟩ := Option.bind_eq_some_iff.1 h
      obtain rfl := Option.some.inj h
      cases data with
      | arr items =>
        obtain ⟨deeper, rfl, -⟩ := (heach (.arr items) (by simp)).items
        have hdata : Neat (deeper + 1) (.arr (segments.map .str)) :=
          .arr (List.forall_mem_map.2 fun s _ => .str s)
        refine Neat.obj (by simp [Entries.names]) ?_
        exact List.forall_mem_cons.2 ⟨.str _, List.forall_mem_singleton.2 hdata⟩
      | _ => cases hsegments
    · cases h
  · cases h

namespace Operand

/-! ### Lists that spell an access -/

theorem eq_str_of_ofJson? {document : Json} {s : String} (h : ofJson? document = some (text s)) :
    document = .str s := by
  cases document with
  | str t =>
    rw [ofJson?] at h
    exact congrArg Json.str (Operand.text.inj (Option.some.inj h))
  | obj entries =>
    rw [ofJson?] at h
    obtain ⟨path, -, heq⟩ := Option.map_eq_some_iff.1 h
    cases heq
  | arr items =>
    rw [ofJson?] at h
    split at h
    · cases Option.some.inj h
    · obtain ⟨operands, -, heq⟩ := Option.map_eq_some_iff.1 h
      cases heq
  | _ =>
    rw [ofJson?] at h
    cases Option.some.inj h

theorem exists_arr_of_ofJson? {document : Json} {operands : List Operand}
    (h : ofJson? document = some (list operands)) :
    ∃ items, document = .arr items ∧ itemsOfJson? items = some operands := by
  cases document with
  | arr items =>
    rw [ofJson?] at h
    split at h
    · cases Option.some.inj h
    · obtain ⟨made, hmade, heq⟩ := Option.map_eq_some_iff.1 h
      exact ⟨items, rfl, Operand.list.inj heq ▸ hmade⟩
  | obj entries =>
    rw [ofJson?] at h
    obtain ⟨path, -, heq⟩ := Option.map_eq_some_iff.1 h
    cases heq
  | _ =>
    rw [ofJson?] at h
    cases Option.some.inj h

/-- Items are decoded one by one. -/
theorem forall₂_of_itemsOfJson? {items : List Json} {operands : List Operand}
    (h : itemsOfJson? items = some operands) :
    List.Forall₂ (fun item operand => ofJson? item = some operand) items operands := by
  induction items generalizing operands with
  | nil =>
    rw [itemsOfJson?] at h
    exact Option.some.inj h ▸ .nil
  | cons item rest ih =>
    rw [itemsOfJson?] at h
    split at h
    · cases h
    · rename_i operand hoperand
      obtain ⟨others, hothers, rfl⟩ := Option.map_eq_some_iff.1 h
      exact .cons hoperand (ih hothers)

/-- Items that are decoded to texts are those texts. -/
theorem texts_of_forall₂ {items : List Json} {operands : List Operand} {texts : List String}
    (h : List.Forall₂ (fun item operand => ofJson? item = some operand) items operands)
    (htexts : operands.mapM text? = some texts) : items.mapM Json.text? = some texts := by
  induction h generalizing texts with
  | nil => exact htexts
  | @cons item operand rest others hoperand _ ih =>
    rw [List.mapM_cons] at htexts ⊢
    obtain ⟨s, hs, htexts⟩ := Option.bind_eq_some_iff.1 htexts
    obtain ⟨more, hmore, htexts⟩ := Option.bind_eq_some_iff.1 htexts
    cases operand with
    | text t =>
      obtain rfl := Option.some.inj hs
      obtain rfl := eq_str_of_ofJson? hoperand
      rw [ih hmore]
      exact htexts
    | _ => cases hs

/-- An array whose items spell an access is decoded as that access. -/
theorem access_of_spelled {items : List Json} {operands : List Operand} {path : Access}
    (h : List.Forall₂ (fun item operand => ofJson? item = some operand) items operands)
    (hspelled : spelled? operands = some path) : Access.ofJson? (.arr items) = some path := by
  unfold spelled? at hspelled
  split at hspelled
  · rename_i kind segments
    split at hspelled
    · rename_i hkind
      obtain ⟨texts, htexts, rfl⟩ := Option.map_eq_some_iff.1 hspelled
      obtain _ | ⟨hfirst, _ | ⟨hsecond, _ | _⟩⟩ := h
      obtain rfl := eq_str_of_ofJson? hfirst
      obtain ⟨inner, rfl, hinner⟩ := exists_arr_of_ofJson? hsecond
      have hlist : (Json.arr inner).list? Json.text? = some texts :=
        texts_of_forall₂ (forall₂_of_itemsOfJson? hinner) htexts
      simp [Access.ofJson?, Access.shape, fields?, fieldsNamed?, Shape.ofNames, Shape.names,
        word?, hkind, hlist]
    · cases hspelled
  · cases hspelled

/-! ### Operands -/

theorem sound_toFloat {n : Number} (h : n.Sound) : n.toFloat.isFinite = true := by
  cases n with
  | int n => exact Decimal.isFinite_ofInt h
  | float x => exact h

mutual

/-- A decoded operand is neat, and no list in it is spelled like an access. -/
theorem neat_of_ofJson? : (document : Json) → ∀ {depth : Nat} {operand : Operand},
    document.Fits depth → ofJson? document = some operand →
    operand.toJson.Neat depth ∧ ¬operand.Misleading
  | .null, _, _, _, h => by
    rw [ofJson?] at h
    obtain rfl := Option.some.inj h
    exact ⟨by rw [toJson]; exact .null, nofun⟩
  | .bool b, _, _, _, h => by
    rw [ofJson?] at h
    obtain rfl := Option.some.inj h
    exact ⟨by rw [toJson]; exact .bool b, nofun⟩
  | .str s, _, _, _, h => by
    rw [ofJson?] at h
    obtain rfl := Option.some.inj h
    exact ⟨by rw [toJson]; exact .str s, nofun⟩
  | .num n, _, _, hfits, h => by
    rw [ofJson?] at h
    obtain rfl := Option.some.inj h
    cases hfits with
    | num sound => exact ⟨by rw [toJson]; exact .num (sound_toFloat sound), nofun⟩
  | .obj entries, depth, _, hfits, h => by
    rw [ofJson?] at h
    obtain ⟨path, hpath, rfl⟩ := Option.map_eq_some_iff.1 h
    have hsettled := Access.settles hfits hpath
    rw [Nat.max_eq_left (Nat.zero_le depth)] at hsettled
    exact ⟨by rw [toJson]; exact hsettled.neat, nofun⟩
  | .arr items, depth, _, hfits, h => by
    rw [ofJson?] at h
    split at h
    · rename_i path hpath
      obtain rfl := Option.some.inj h
      have hsettled := Access.settles hfits hpath
      rw [Nat.max_eq_left (Nat.zero_le depth)] at hsettled
      exact ⟨by rw [toJson]; exact hsettled.neat, nofun⟩
    · rename_i hnone
      obtain ⟨operands, hoperands, rfl⟩ := Option.map_eq_some_iff.1 h
      obtain ⟨inner, rfl, heach⟩ := hfits.items
      obtain ⟨hneat, hplain⟩ := neat_of_itemsOfJson? items heach hoperands
      have hspelled : spelled? operands = none := by
        cases hcase : spelled? operands with
        | none => rfl
        | some path =>
          have haccess := access_of_spelled (forall₂_of_itemsOfJson? hoperands) hcase
          cases hnone.symm.trans haccess
      refine ⟨?_, ?_⟩
      · rw [toJson, itemsToJson_eq_map]
        exact .arr (List.forall_mem_map.2 hneat)
      · rw [Misleading, hspelled]
        exact not_or.2 ⟨nofun, hplain⟩

theorem neat_of_itemsOfJson? : (items : List Json) → ∀ {depth : Nat} {operands : List Operand},
    (∀ item ∈ items, item.Fits depth) → itemsOfJson? items = some operands →
    (∀ operand ∈ operands, operand.toJson.Neat depth) ∧ ¬MisleadingItems operands
  | [], _, _, _, h => by
    rw [itemsOfJson?] at h
    obtain rfl := Option.some.inj h
    exact ⟨fun _ hoperand => absurd hoperand List.not_mem_nil, id⟩
  | item :: rest, _, _, hfits, h => by
    rw [itemsOfJson?] at h
    split at h
    · cases h
    rename_i operand hoperand
    obtain ⟨others, hothers, rfl⟩ := Option.map_eq_some_iff.1 h
    obtain ⟨hneat, hplain⟩ := neat_of_ofJson? item (hfits item List.mem_cons_self) hoperand
    obtain ⟨hmore, hplain'⟩ := neat_of_itemsOfJson? rest
      (fun other hother => hfits other (List.mem_cons_of_mem _ hother)) hothers
    exact ⟨List.forall_mem_cons.2 ⟨hneat, hmore⟩, not_or.2 ⟨hplain, hplain'⟩⟩

end

/-- A decoded operand is settled. -/
theorem settles : Settles toJson ofJson? 0 := by
  intro depth document operand hfits h
  obtain ⟨hneat, hplain⟩ := neat_of_ofJson? document hfits h
  refine ⟨hneat.mono (Nat.le_max_left _ _), ?_⟩
  rw [ofJson?_toJson, (reread_eq_self_iff operand).2 hplain]

end Operand

end Narrative
