import Narrative.Proofs.Decimal.Division
import Narrative.Proofs.Json.Document
import Narrative.Proofs.Entries

/-!
# What a reader finds

Whatever text is read, its integers lie in their range, its floats are finite, and not too many
containers stand inside each other.  Only names may be repeated, until the document is made normal.
-/

namespace Narrative

/-- An integer in the range of documents, or a finite float. -/
def Number.Sound : Number → Prop
  | .int n => Json.IntegerRange n
  | .float x => x.isFinite = true

namespace Json

open Decimal

/-! ### Numbers -/

/-- Scaling divides by powers of ten that are no less than one, and checks what it multiplies. -/
theorem isFinite_scaleFloat {fuel : Nat} {x y : Float} {e : Int}
    (hx : Within 53 600 x.toModel.unpack) (h : scaleFloat fuel x e = some y) :
    y.isFinite = true := by
  induction fuel generalizing x e with
  | zero =>
    rw [scaleFloat] at h
    exact Option.some.inj h ▸ hx.isFinite
  | succ fuel ih =>
    unfold scaleFloat at h
    dsimp only at h
    split at h
    · split at h
      · split at h
        · rename_i hfinite
          exact Option.some.inj h ▸ hfinite
        · exact absurd h nofun
      · obtain rfl := Option.some.inj h
        have hquotient := within_div_float hx (atLeast_power e.natAbs) (by decide) (by decide)
        exact hquotient.isFinite
    · split at h
      · exact Option.some.inj h ▸ hx.isFinite
      split at h
      · exact absurd h nofun
      have hpower := atLeast_lastPower (k := e.natAbs) (by omega)
      have hquotient := within_div_float hx hpower (by decide) (by decide)
      exact ih (hquotient.mono (by decide)) h

theorem gather_lt {significand : Nat} (ds : List Char) (h : significand < 2 ^ 64) :
    (gather significand ds).1 < 2 ^ 64 := by
  induction ds generalizing significand with
  | nil => exact h
  | cons d ds ih =>
    rw [gather]
    dsimp only
    split
    · rename_i hnext
      exact ih hnext
    · exact h

theorem sound_signedFloat {negative : Bool} {significand : Nat} {e : Int} {n : Number}
    (hlt : significand < 2 ^ 64) (h : signedFloat negative significand e = some n) : n.Sound := by
  obtain ⟨x, hx, rfl⟩ := Option.map_eq_some_iff.1 h
  have hfinite := isFinite_scaleFloat (within_ofNat hlt) hx
  cases negative with
  | true => exact isFinite_neg hfinite
  | false => exact hfinite

theorem sound_signedInteger (negative : Bool) {significand : Nat} (hlt : significand < 2 ^ 64) :
    (signedInteger negative significand).Sound := by
  unfold signedInteger
  split
  · exact ⟨by omega, by omega⟩
  split
  · exact isFinite_neg (within_ofNat hlt).isFinite
  · rename_i hsmall
    have hle : significand ≤ 2 ^ 63 := by
      have := not_or.1 hsmall
      exact Nat.not_lt.1 this.2
    exact ⟨by omega, by omega⟩

theorem sound_closeFloat {negative : Bool} {significand : Nat} {e : Int} {text rest : List Char}
    {n : Number} (hlt : significand < 2 ^ 64)
    (h : closeFloat negative significand e text = some (n, rest)) : n.Sound := by
  have hfloat : ∀ {e} {tail : List Char},
      (signedFloat negative significand e).map (·, tail) = some (n, rest) → n.Sound := by
    intro e tail hmap
    obtain ⟨made, hmade, heq⟩ := Option.map_eq_some_iff.1 hmap
    obtain ⟨rfl, -⟩ := Prod.mk.inj heq
    exact sound_signedFloat hlt hmade
  unfold closeFloat at h
  dsimp only at h
  split at h
  · exact hfloat h
  split at h
  · split at h
    · exact absurd h nofun
    split at h
    · exact hfloat h
    split at h
    · exact absurd h nofun
    · obtain ⟨rfl, -⟩ := Prod.mk.inj (Option.some.inj h)
      cases negative with
      | true => exact show (-0.0 : Float).isFinite = true by decide +kernel
      | false => exact show (0.0 : Float).isFinite = true by decide +kernel
  · exact hfloat h

/-- A number that is read is sound, whatever its digits. -/
theorem sound_readNumber {negative : Bool} {text rest : List Char} {n : Number}
    (h : readNumber negative text = some (n, rest)) : n.Sound := by
  rw [readNumber_eq] at h
  split at h
  · exact absurd h nofun
  split at h
  · exact absurd h nofun
  have hlt := gather_lt (text.takeWhile isDigit) (show 0 < 2 ^ 64 by decide)
  unfold readTail at h
  split at h
  · split at h
    · exact absurd h nofun
    · exact sound_closeFloat (gather_lt _ hlt) h
  · split at h
    · obtain ⟨rfl, -⟩ := Prod.mk.inj (Option.some.inj h)
      exact sound_signedInteger negative hlt
    · exact sound_closeFloat hlt h
  · split at h
    · obtain ⟨rfl, -⟩ := Prod.mk.inj (Option.some.inj h)
      exact sound_signedInteger negative hlt
    · exact sound_closeFloat hlt h

/-! ### Documents -/

/-- A document with sound numbers, in which at most so many containers stand inside each other. -/
inductive Fits : Nat → Json → Prop
  | null {depth : Nat} : Fits depth null
  | bool {depth : Nat} (b : Bool) : Fits depth (bool b)
  | num {depth : Nat} {n : Number} (sound : n.Sound) : Fits depth (num n)
  | str {depth : Nat} (s : String) : Fits depth (str s)
  | arr {depth : Nat} {items : List Json} (each : ∀ item ∈ items, Fits depth item) :
    Fits (depth + 1) (arr items)
  | obj {depth : Nat} {entries : List (String × Json)}
    (each : ∀ entry ∈ entries, Fits depth entry.2) : Fits (depth + 1) (obj entries)

mutual

theorem fits_of_readValue : (fuel : Nat) → ∀ {depth : Nat} {shape : Shape} {text rest : List Char}
    {document : Json}, readValue fuel depth shape text = some (document, rest) →
    document.Fits depth
  | 0, _, _, _, _, _, h => by
    rw [readValue] at h
    exact absurd h nofun
  | fuel + 1, depth, shape, text, rest, document, h => by
    unfold readValue at h
    split at h
    · obtain ⟨rfl, -⟩ := Prod.mk.inj (Option.some.inj h)
      exact .null
    · obtain ⟨rfl, -⟩ := Prod.mk.inj (Option.some.inj h)
      exact .bool true
    · obtain ⟨rfl, -⟩ := Prod.mk.inj (Option.some.inj h)
      exact .bool false
    · obtain ⟨parts, -, heq⟩ := Option.map_eq_some_iff.1 h
      obtain ⟨rfl, -⟩ := Prod.mk.inj heq
      exact .str _
    · split at h
      · exact absurd h nofun
      split at h
      · obtain ⟨rfl, -⟩ := Prod.mk.inj (Option.some.inj h)
        exact .arr fun _ hitem => absurd hitem List.not_mem_nil
      · obtain ⟨parts, hparts, heq⟩ := Option.map_eq_some_iff.1 h
        obtain ⟨rfl, -⟩ := Prod.mk.inj heq
        exact .arr (fits_of_readItems fuel hparts)
    · split at h
      · exact absurd h nofun
      split at h
      · obtain ⟨rfl, -⟩ := Prod.mk.inj (Option.some.inj h)
        exact .obj fun _ hentry => absurd hentry List.not_mem_nil
      · obtain ⟨parts, hparts, heq⟩ := Option.map_eq_some_iff.1 h
        obtain ⟨rfl, -⟩ := Prod.mk.inj heq
        exact .obj (fits_of_readEntries fuel hparts)
    · obtain ⟨parts, hparts, heq⟩ := Option.map_eq_some_iff.1 h
      obtain ⟨rfl, -⟩ := Prod.mk.inj heq
      exact .num (sound_readNumber hparts)
    · obtain ⟨parts, hparts, heq⟩ := Option.map_eq_some_iff.1 h
      obtain ⟨rfl, -⟩ := Prod.mk.inj heq
      exact .num (sound_readNumber hparts)

theorem fits_of_readItems : (fuel : Nat) → ∀ {depth number : Nat} {shape : Shape}
    {text rest : List Char} {items : List Json},
    readItems fuel depth shape number text = some (items, rest) → ∀ item ∈ items, item.Fits depth
  | 0, _, _, _, _, _, _, h => by
    rw [readItems] at h
    exact absurd h nofun
  | fuel + 1, depth, number, shape, text, rest, items, h => by
    unfold readItems at h
    split at h
    · exact absurd h nofun
    rename_i hfirst
    have hitem := fits_of_readValue fuel hfirst
    split at h
    · obtain ⟨parts, hparts, heq⟩ := Option.map_eq_some_iff.1 h
      obtain ⟨rfl, -⟩ := Prod.mk.inj heq
      exact List.forall_mem_cons.2 ⟨hitem, fits_of_readItems fuel hparts⟩
    · obtain ⟨rfl, -⟩ := Prod.mk.inj (Option.some.inj h)
      exact fun item hmem => List.mem_singleton.1 hmem ▸ hitem
    · exact absurd h nofun

theorem fits_of_readEntries : (fuel : Nat) → ∀ {depth : Nat} {shape : Shape}
    {text rest : List Char} {entries : List (String × Json)},
    readEntries fuel depth shape text = some (entries, rest) →
    ∀ entry ∈ entries, entry.2.Fits depth
  | 0, _, _, _, _, _, h => by
    rw [readEntries] at h
    exact absurd h nofun
  | fuel + 1, depth, shape, text, rest, entries, h => by
    unfold readEntries at h
    split at h
    · split at h
      · exact absurd h nofun
      split at h
      · split at h
        · exact absurd h nofun
        rename_i hfirst
        have hpart := fits_of_readPart fuel hfirst
        split at h
        · obtain ⟨parts, hparts, heq⟩ := Option.map_eq_some_iff.1 h
          obtain ⟨rfl, -⟩ := Prod.mk.inj heq
          exact List.forall_mem_append.2 ⟨hpart, fits_of_readEntries fuel hparts⟩
        · obtain ⟨rfl, -⟩ := Prod.mk.inj (Option.some.inj h)
          exact hpart
        · exact absurd h nofun
      · exact absurd h nofun
    · exact absurd h nofun

theorem fits_of_readPart : (fuel : Nat) → ∀ {depth : Nat} {shape : Shape} {name : String}
    {text rest : List Char} {entries : List (String × Json)},
    readPart fuel depth shape name text = some (entries, rest) →
    ∀ entry ∈ entries, entry.2.Fits depth
  | 0, _, _, _, _, _, _, h => by
    rw [readPart] at h
    exact absurd h nofun
  | fuel + 1, depth, shape, name, text, rest, entries, h => by
    unfold readPart at h
    split at h
    · obtain ⟨after, -, heq⟩ := Option.map_eq_some_iff.1 h
      obtain ⟨rfl, -⟩ := Prod.mk.inj heq
      exact fun _ hentry => absurd hentry List.not_mem_nil
    · obtain ⟨part, hpart, heq⟩ := Option.map_eq_some_iff.1 h
      obtain ⟨rfl, -⟩ := Prod.mk.inj heq
      exact fun entry hentry => List.mem_singleton.1 hentry ▸ fits_of_readValue fuel hpart

end

/-- A document that is read has sound numbers and is not too deep. -/
theorem fits_of_parse? {shape : Shape} {text : String} {document : Json}
    (h : parse? shape text = some document) : document.Fits depthLimit := by
  unfold parse? at h
  dsimp only at h
  split at h
  · rename_i hread
    split at h
    · obtain rfl := Option.some.inj h
      exact fits_of_readValue _ hread
    · exact absurd h nofun
  · exact absurd h nofun

/-! ### Neat documents -/

/-- A proper document in which at most so many containers stand inside each other. -/
structure Neat (limit : Nat) (document : Json) : Prop where
  proper : document.Proper
  depth : document.depth ≤ limit

theorem depthOfItems_le {limit : Nat} {items : List Json} (h : ∀ item ∈ items, item.depth ≤ limit) :
    depthOfItems items ≤ limit := by
  induction items with
  | nil => exact Nat.zero_le _
  | cons item rest ih =>
    exact Nat.max_le.2 ⟨h item List.mem_cons_self,
      ih fun other hother => h other (List.mem_cons_of_mem _ hother)⟩

theorem depthOfEntries_le {limit : Nat} {entries : List (String × Json)}
    (h : ∀ entry ∈ entries, entry.2.depth ≤ limit) : depthOfEntries entries ≤ limit := by
  induction entries with
  | nil => exact Nat.zero_le _
  | cons entry rest ih =>
    exact Nat.max_le.2 ⟨h entry List.mem_cons_self,
      ih fun other hother => h other (List.mem_cons_of_mem _ hother)⟩

namespace Neat

variable {limit : Nat}

theorem null : Neat limit null :=
  ⟨.null, Nat.zero_le _⟩

theorem bool (b : Bool) : Neat limit (bool b) :=
  ⟨.bool b, Nat.zero_le _⟩

theorem str (s : String) : Neat limit (str s) :=
  ⟨.str s, Nat.zero_le _⟩

theorem num {n : Number} (h : n.Sound) : Neat limit (num n) := by
  cases n with
  | int n => exact ⟨.int h, Nat.zero_le _⟩
  | float x => exact ⟨.float h, Nat.zero_le _⟩

theorem arr {items : List Json} (h : ∀ item ∈ items, Neat limit item) :
    Neat (limit + 1) (arr items) :=
  ⟨.arr fun item hitem => (h item hitem).proper,
    Nat.succ_le_succ (depthOfItems_le fun item hitem => (h item hitem).depth)⟩

theorem obj {entries : List (String × Json)} (once : (Entries.names entries).Nodup)
    (h : ∀ entry ∈ entries, Neat limit entry.2) : Neat (limit + 1) (obj entries) :=
  ⟨.obj once fun entry hentry => (h entry hentry).proper,
    Nat.succ_le_succ (depthOfEntries_le fun entry hentry => (h entry hentry).depth)⟩

theorem mono {more : Nat} {document : Json} (h : Neat limit document) (hle : limit ≤ more) :
    Neat more document :=
  ⟨h.proper, Nat.le_trans h.depth hle⟩

end Neat

theorem normalItems_eq_map (items : List Json) : normalItems items = items.map normal := by
  induction items with
  | nil => rfl
  | cons item rest ih => rw [normalItems, ih, List.map_cons]

theorem normalEntries_eq_mapValues (entries : List (String × Json)) :
    normalEntries entries = Entries.mapValues normal entries := by
  induction entries with
  | nil => rfl
  | cons entry rest ih =>
    rw [normalEntries, ih]
    rfl

/-- Once each name is left only once, a document that was read is neat. -/
theorem Fits.neat_normal {depth : Nat} {document : Json} (h : document.Fits depth) :
    document.normal.Neat depth := by
  induction h with
  | null => exact .null
  | bool b => exact .bool b
  | num sound => exact .num sound
  | str s => exact .str s
  | arr each ih =>
    rw [normal, normalItems_eq_map]
    exact .arr (List.forall_mem_map.2 ih)
  | @obj depth entries each ih =>
    rw [normal, normalEntries_eq_mapValues]
    refine .obj (Entries.nodup_names_distinct _) fun entry hentry => ?_
    have hmem := Entries.mem_of_mem_distinct hentry
    obtain ⟨source, hsource, rfl⟩ := List.mem_map.1 hmem
    exact ih source hsource

end Json

end Narrative
