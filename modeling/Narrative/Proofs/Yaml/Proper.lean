import Mathlib.Tactic.Common
import Narrative.FrontMatter
import Narrative.Proofs.Entries
import Narrative.Proofs.Json.Document
import Narrative.Proofs.Decimal.Finite

/-!
# What YAML texts write

Every document that a YAML text writes is proper: its integers have sixty-four bits, its floats are
finite, and no record in it repeats a name.
-/

namespace Narrative

/-! ### Scalars -/

namespace Yaml

open Json

theorem proper_integerJson {n : Int} {document : Json} (h : integerJson? n = some document) :
    document.Proper := by
  rw [integerJson?] at h
  split at h
  · rename_i hrange
    obtain rfl := Option.some.inj h
    exact .int hrange
  · exact absurd h (by simp)

theorem proper_floatJson {text : String} {document : Json} (h : floatJson? text = some document) :
    document.Proper := by
  rw [floatJson?] at h
  split at h
  · obtain rfl := Option.some.inj h
    exact .null
  split at h
  · exact absurd h (by simp)
  split at h
  · rename_i hfinite
    obtain rfl := Option.some.inj h
    exact .float (Decimal.isFinite_of_ofFloat hfinite)
  · exact absurd h (by simp)

theorem proper_plainJson {text : String} {document : Json} (h : plainJson? text = some document) :
    document.Proper := by
  rw [plainJson?] at h
  split at h
  · obtain rfl := Option.some.inj h
    exact .null
  split at h
  · obtain rfl := Option.some.inj h
    exact .bool _
  split at h
  · exact proper_integerJson h
  split at h
  · obtain rfl := Option.some.inj h
    exact .str text
  · obtain rfl := Option.some.inj h
    cases hfloat : floatJson? text with
    | none => exact .str text
    | some document => exact proper_floatJson hfloat

theorem proper_scalarJson {plain : Bool} {tag : Option String} {text : String} {document : Json}
    (h : scalarJson? plain tag text = some document) : document.Proper := by
  unfold scalarJson? at h
  split at h
  · split at h
    · exact proper_plainJson h
    · obtain rfl := Option.some.inj h
      exact .str text
  · split at h
    · obtain rfl := Option.some.inj h
      exact .null
    · exact absurd h (by simp)
  · obtain ⟨b, -, rfl⟩ := Option.map_eq_some_iff.1 h
    exact .bool b
  · obtain ⟨n, -, hn⟩ := Option.bind_eq_some_iff.1 h
    exact proper_integerJson hn
  · exact proper_floatJson h
  · split at h
    · exact absurd h (by simp)
    · obtain rfl := Option.some.inj h
      exact .str text

/-! ### Nodes -/

namespace Document

theorem bind_eq_some {α β : Type} {x : Expand α} {f : α → Expand β} {jumps : Nat} {r : β × Nat}
    (h : (x >>= f) jumps = some r) :
    ∃ a jumps', x jumps = some (a, jumps') ∧ f a jumps' = some r := by
  obtain ⟨⟨a, jumps'⟩, hx, hf⟩ := Option.bind_eq_some_iff.1 h
  exact ⟨a, jumps', hx, hf⟩

theorem lift_eq_some {α : Type} {x : Option α} {jumps : Nat} {r : α × Nat}
    (h : (liftM x : Expand α) jumps = some r) : x = some r.1 := by
  obtain ⟨a, hx, hr⟩ := Option.bind_eq_some_iff.1 h
  obtain rfl := Option.some.inj hr
  exact hx

theorem failure_ne_some {α : Type} {jumps : Nat} {r : α × Nat} :
    (failure : Expand α) jumps ≠ some r :=
  nofun

/-- What every item is made into, all of them are made into. -/
theorem forall_of_mapM {α β : Type} {f : α → Expand β} {P : β → Prop}
    (hf : ∀ a jumps r, f a jumps = some r → P r.1) {l : List α} {jumps : Nat} {r : List β × Nat}
    (h : l.mapM f jumps = some r) : ∀ b ∈ r.1, P b := by
  induction l generalizing jumps r with
  | nil =>
    obtain rfl := Option.some.inj h
    exact fun b hb => absurd hb List.not_mem_nil
  | cons a l ih =>
    rw [List.mapM_cons] at h
    obtain ⟨b, jumps₁, hb, h⟩ := bind_eq_some h
    obtain ⟨bs, jumps₂, hbs, h⟩ := bind_eq_some h
    obtain rfl := Option.some.inj h
    exact List.forall_mem_cons.2 ⟨hf _ _ _ hb, ih hbs⟩

/-- Collections are made of proper documents, level by level. -/
theorem proper_jsonOf (d : Document) (depth : Nat) : ∀ {n : Node} {jumps : Nat} {r : Json × Nat},
    d.jsonOf depth n jumps = some r → r.1.Proper := by
  induction depth with
  | zero =>
    intro n jumps r h
    rw [jsonOf] at h
    obtain ⟨node, jumps, -, h⟩ := bind_eq_some h
    split at h
    · exact proper_scalarJson (lift_eq_some h)
    · exact absurd h failure_ne_some
  | succ depth ih =>
    intro n jumps r h
    rw [jsonOf] at h
    obtain ⟨node, jumps, -, h⟩ := bind_eq_some h
    split at h
    · exact proper_scalarJson (lift_eq_some h)
    · split at h
      · exact absurd h failure_ne_some
      obtain ⟨items, jumps, hitems, h⟩ := bind_eq_some h
      obtain rfl := Option.some.inj h
      exact .arr (forall_of_mapM (fun _ _ _ => ih) hitems)
    · split at h
      · exact absurd h failure_ne_some
      obtain ⟨entries, jumps, hentries, h⟩ := bind_eq_some h
      obtain rfl := Option.some.inj h
      have heach : ∀ entry ∈ entries, Proper entry.2 := by
        refine forall_of_mapM (fun entry _ _ h => ?_) hentries
        obtain ⟨name, _, -, h⟩ := bind_eq_some h
        obtain ⟨value, _, hvalue, h⟩ := bind_eq_some h
        obtain rfl := Option.some.inj h
        exact ih hvalue
      exact .obj (Entries.nodup_names_distinct _) fun entry hentry =>
        heach entry (Entries.mem_of_mem_distinct hentry)
    · exact absurd h failure_ne_some

end Document

theorem proper_read {text : String} {document : Json} (h : read? text = some document) :
    document.Proper := by
  obtain ⟨tokens, -, h⟩ := Option.bind_eq_some_iff.1 h
  obtain ⟨d, -, h⟩ := Option.bind_eq_some_iff.1 h
  rw [Document.json?] at h
  split at h
  · obtain rfl := Option.some.inj h
    exact .null
  · obtain ⟨r, hr, rfl⟩ := Option.map_eq_some_iff.1 h
    exact Document.proper_jsonOf d _ hr

end Yaml

/-- The header of a document is proper. -/
theorem FrontMatter.proper_header {name content : String} {d : FrontMatter}
    (h : FrontMatter.read name content = .ok d) : d.header.Proper := by
  unfold FrontMatter.read at h
  split at h
  · exact absurd h (by simp)
  split at h
  · exact absurd h (by simp)
  · rename_i hheader
    obtain rfl := Except.ok.inj h
    unfold FrontMatter.readHeader? at hheader
    split at hheader
    · obtain rfl := Option.some.inj hheader
      exact .null
    · exact Yaml.proper_read hheader

end Narrative
