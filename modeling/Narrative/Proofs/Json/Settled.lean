import Narrative.Json.Record
import Narrative.Proofs.Json.Fits
import Narrative.Proofs.Operand.Rereading

/-!
# Values that are settled

A value is settled when its document is neat and is decoded to that value again.  A decoder settles
when all that it gives is settled, and deeper than what was decoded only by the parts that are
written although they may be left out.
-/

namespace Narrative.Json

/-! ### Parts of a document -/

theorem exists_of_mapM {α β : Type} {f : α → Option β} {l : List α} {made : List β}
    (h : l.mapM f = some made) {b : β} (hb : b ∈ made) : ∃ a ∈ l, f a = some b := by
  induction l generalizing made with
  | nil =>
    obtain rfl := Option.some.inj h
    exact absurd hb List.not_mem_nil
  | cons a l ih =>
    rw [List.mapM_cons] at h
    obtain ⟨first, hfirst, h⟩ := Option.bind_eq_some_iff.1 h
    obtain ⟨others, hothers, h⟩ := Option.bind_eq_some_iff.1 h
    obtain rfl := Option.some.inj h
    rcases List.mem_cons.1 hb with rfl | hb
    · exact ⟨a, List.mem_cons_self, hfirst⟩
    · obtain ⟨other, hmem, hother⟩ := ih hothers hb
      exact ⟨other, List.mem_cons_of_mem _ hmem, hother⟩

theorem mem_of_single? {entries : List (String × Json)} {name : String} {part : Json}
    (h : single? entries name = some (some part)) : ∃ entry ∈ entries, entry.2 = part := by
  unfold single? at h
  split at h
  · exact absurd h nofun
  · rename_i entry hfilter
    refine ⟨entry, ?_, Option.some.inj (Option.some.inj h)⟩
    have hmem : entry ∈ entries.filter fun entry => entry.1 == name := by simp [hfilter]
    exact List.mem_of_mem_filter hmem
  · exact absurd h nofun

namespace Fits

variable {depth : Nat} {document : Json}

theorem items {items : List Json} (h : Fits depth (.arr items)) :
    ∃ inner, depth = inner + 1 ∧ ∀ item ∈ items, item.Fits inner := by
  cases h with
  | arr each => exact ⟨_, rfl, each⟩

theorem entries {entries : List (String × Json)} (h : Fits depth (.obj entries)) :
    ∃ inner, depth = inner + 1 ∧ ∀ entry ∈ entries, entry.2.Fits inner := by
  cases h with
  | obj each => exact ⟨_, rfl, each⟩

/-- The fields of a record are parts of its document. -/
theorem fields {names : List String} {fields : List (Option Json)} (h : document.Fits depth)
    (hfields : document.fieldsNamed? names = some fields) :
    ∃ inner, depth = inner + 1 ∧ ∀ part, some part ∈ fields → part.Fits inner := by
  cases document with
  | obj entries =>
    obtain ⟨inner, rfl, heach⟩ := h.entries
    refine ⟨inner, rfl, fun part hpart => ?_⟩
    obtain ⟨name, -, hname⟩ := exists_of_mapM hfields hpart
    obtain ⟨entry, hentry, rfl⟩ := mem_of_single? hname
    exact heach entry hentry
  | arr items =>
    obtain ⟨inner, rfl, heach⟩ := h.items
    refine ⟨inner, rfl, fun part hpart => ?_⟩
    unfold fieldsNamed? at hfields
    dsimp only at hfields
    split at hfields
    · obtain rfl := Option.some.inj hfields
      rcases List.mem_append.1 hpart with hpart | hpart
      · obtain ⟨item, hitem, heq⟩ := List.mem_map.1 hpart
        exact Option.some.inj heq ▸ heach item hitem
      · exact absurd (List.eq_of_mem_replicate hpart) nofun
    · exact absurd hfields nofun
  | _ => exact absurd hfields nofun

end Fits

/-! ### Settled values -/

variable {α : Type} {encode : α → Json} {decode : Json → Option α}

/-- A value whose document is neat and is decoded to the value. -/
structure Settled (encode : α → Json) (decode : Json → Option α) (limit : Nat) (value : α) :
    Prop where
  neat : (encode value).Neat limit
  again : decode (encode value) = some value

/-- Whether all decoded values are settled, as deep as what was decoded or at most `least`. -/
def Settles (encode : α → Json) (decode : Json → Option α) (least : Nat) : Prop :=
  ∀ {depth : Nat} {document : Json} {value : α}, document.Fits depth →
    decode document = some value → Settled encode decode (max depth least) value

/-- The documents of a list of values. -/
def encodeList (encode : α → Json) (values : List α) : Json :=
  .arr (values.map encode)

/-- The documents of a mapping to values. -/
def encodeEntries (encode : α → Json) (entries : List (String × α)) : Json :=
  .obj (Entries.mapValues encode entries)

theorem Settled.mono {limit more : Nat} {value : α} (h : Settled encode decode limit value)
    (hle : limit ≤ more) : Settled encode decode more value :=
  ⟨h.neat.mono hle, h.again⟩

/-- What a settled value is decoded to again is the value itself. -/
theorem Settled.eq_of_decode {limit : Nat} {value again : α}
    (h : Settled encode decode limit value) (hagain : decode (encode value) = some again) :
    again = value :=
  Option.some.inj (hagain.symm.trans h.again)

theorem map_eq_self_of_settled {limit : Nat} {normal : α → α} {made : Option α}
    (hagain : ∀ value, decode (encode value) = some (normal value))
    (h : ∀ value, made = some value → Settled encode decode limit value) :
    made.map normal = made := by
  cases made with
  | none => rfl
  | some value => exact congrArg some ((h value rfl).eq_of_decode (hagain value))

theorem settled_list {limit : Nat} {values : List α}
    (h : ∀ value ∈ values, Settled encode decode limit value) :
    Settled (encodeList encode) (list? decode) (limit + 1) values := by
  refine ⟨.arr (List.forall_mem_map.2 fun value hvalue => (h value hvalue).neat), ?_⟩
  have hlist := list?_arr_map (f := id) fun value hvalue => (h value hvalue).again
  rwa [List.map_id] at hlist

theorem settled_entries {limit : Nat} {entries : List (String × α)}
    (once : (Entries.names entries).Nodup)
    (h : ∀ entry ∈ entries, Settled encode decode limit entry.2) :
    Settled (encodeEntries encode) (entriesOf? decode) (limit + 1) entries := by
  refine ⟨.obj (by rwa [Entries.names_mapValues])
    (List.forall_mem_map.2 fun entry hentry => (h entry hentry).neat), ?_⟩
  have hentries := entriesOf?_mapValues (f := id) once fun entry hentry => (h entry hentry).again
  have hself : Entries.mapValues id entries = entries :=
    Entries.mapValues_eq_self_iff.2 fun _ _ => rfl
  rwa [hself] at hentries

namespace Settles

variable {least : Nat}

theorem mono {more : Nat} (h : Settles encode decode least) (hle : least ≤ more) :
    Settles encode decode more :=
  fun hfits hvalue => (h hfits hvalue).mono (by omega)

theorem list (h : Settles encode decode least) :
    Settles (encodeList encode) (list? decode) (least + 1) := by
  intro depth document values hfits hvalues
  cases document with
  | arr items =>
    obtain ⟨inner, rfl, heach⟩ := hfits.items
    refine (settled_list fun value hvalue => ?_).mono (by omega : max inner least + 1 ≤ _)
    obtain ⟨item, hitem, hdecode⟩ := exists_of_mapM hvalues hvalue
    exact h (heach item hitem) hdecode
  | _ => exact absurd hvalues nofun

theorem mapping (h : Settles encode decode least) :
    Settles (encodeEntries encode) (entriesOf? decode) (least + 1) := by
  intro depth document values hfits hvalues
  cases document with
  | obj entries =>
    obtain ⟨inner, rfl, heach⟩ := hfits.entries
    obtain ⟨made, hmade, rfl⟩ := Option.map_eq_some_iff.1 hvalues
    refine (settled_entries (Entries.nodup_names_distinct _) fun entry hentry => ?_).mono
      (by omega : max inner least + 1 ≤ _)
    obtain ⟨source, hsource, hdecode⟩ := exists_of_mapM hmade (Entries.mem_of_mem_distinct hentry)
    obtain ⟨value, hvalue, rfl⟩ := Option.map_eq_some_iff.1 hdecode
    exact h (heach source hsource) hvalue
  | _ => exact absurd hvalues nofun

theorem text : Settles str text? 0 := by
  intro depth document s _ h
  cases document with
  | str t => exact ⟨.str s, rfl⟩
  | _ => exact absurd h nofun

variable {depth : Nat} {field : Option Json}

/-- A field that may be absent is settled when what stands for an absent one is. -/
theorem fieldOr (h : Settles encode decode least) {absent value : α}
    (habsent : Settled encode decode least absent)
    (hfield : ∀ part, field = some part → part.Fits depth)
    (hvalue : fieldOr field absent decode = some value) :
    Settled encode decode (max depth least) value := by
  cases field with
  | none =>
    obtain rfl := Option.some.inj hvalue
    exact habsent.mono (Nat.le_max_right _ _)
  | some part => exact h (hfield part rfl) hvalue

/-- A field that may be absent or null is settled when there is a value. -/
theorem optionalField (h : Settles encode decode least) {made : Option α}
    (hfield : ∀ part, field = some part → part.Fits depth)
    (hmade : optionalField field decode = some made) :
    ∀ value, made = some value → Settled encode decode (max depth least) value := by
  rintro value rfl
  unfold Json.optionalField at hmade
  split at hmade
  · exact absurd hmade nofun
  · exact absurd hmade nofun
  · rename_i part _
    obtain ⟨found, hfound, heq⟩ := Option.map_eq_some_iff.1 hmade
    obtain rfl := Option.some.inj heq
    exact h (hfield part rfl) hfound

end Settles

end Narrative.Json
