import Mathlib.Data.List.Nodup
import Mathlib.Tactic.Common
import Narrative.Chart.Graph
import Narrative.Proofs.SortedSet
import Narrative.Proofs.Text.Trimming

/-!
# The edges of a graph

Two events of a storyline are consecutive in a chain when no event of the storyline stands between
them.  The successions that are found in a chain are exactly its consecutive events, and the edges
of a storyline those of all chains, each once and dashed when the two stand apart in some chain.
-/

namespace Narrative.Chart

variable {storyline : String}

/-! ### Consecutive events -/

/-- A slug of an event of a storyline. -/
def Belongs (storyline slug : String) : Prop :=
  ∃ event, slug = storyline ++ "/" ++ event

theorem belongs_iff {slug : String} : belongs storyline slug = true ↔ Belongs storyline slug := by
  rw [belongs, Option.isSome_iff_exists]
  constructor
  · rintro ⟨rest, hrest⟩
    refine ⟨String.ofList rest, String.toList_inj.1 ?_⟩
    rw [Text.after?_eq_some_iff.1 hrest]
    simp
  · rintro ⟨event, rfl⟩
    exact ⟨event.toList, Text.after?_eq_some_iff.2 (by simp)⟩

/-- The first event of a storyline in a chain, behind the slugs `between`. -/
def Next (storyline : String) (chain : Chain) (target : String) (between : List String) : Prop :=
  ∃ after, chain = between ++ target :: after ∧ Belongs storyline target ∧
    ∀ slug ∈ between, ¬ Belongs storyline slug

/-- Two events of a storyline in a chain, in this order, that have no event of the storyline but
only the slugs `between` between them. -/
def Consecutive (storyline : String) (chain : Chain) (source target : String)
    (between : List String) : Prop :=
  ∃ before after, chain = before ++ source :: after ∧ Belongs storyline source ∧
    Next storyline after target between

theorem not_next_nil {target : String} {between : List String} :
    ¬ Next storyline [] target between := by
  rintro ⟨after, hchain, -⟩
  exact absurd hchain (by simp)

theorem next_cons_of_belongs {slug target : String} {rest between : List String}
    (h : Belongs storyline slug) :
    Next storyline (slug :: rest) target between ↔ target = slug ∧ between = [] := by
  constructor
  · rintro ⟨after, hchain, -, hbetween⟩
    cases between with
    | nil => exact ⟨(List.cons_eq_cons.1 hchain).1.symm, rfl⟩
    | cons first others =>
      obtain ⟨rfl, -⟩ := List.cons_eq_cons.1 hchain
      exact absurd h (hbetween slug List.mem_cons_self)
  · rintro ⟨rfl, rfl⟩
    exact ⟨rest, rfl, h, fun slug hslug => absurd hslug List.not_mem_nil⟩

theorem next_cons_of_not_belongs {slug target : String} {rest between : List String}
    (h : ¬ Belongs storyline slug) :
    Next storyline (slug :: rest) target between ↔
      ∃ others, between = slug :: others ∧ Next storyline rest target others := by
  constructor
  · rintro ⟨after, hchain, htarget, hbetween⟩
    cases between with
    | nil =>
      obtain ⟨rfl, -⟩ := List.cons_eq_cons.1 hchain
      exact absurd htarget h
    | cons first others =>
      obtain ⟨rfl, hrest⟩ := List.cons_eq_cons.1 hchain
      exact ⟨others, rfl, after, hrest, htarget, (List.forall_mem_cons.1 hbetween).2⟩
  · rintro ⟨others, rfl, after, rfl, htarget, hothers⟩
    exact ⟨after, rfl, htarget, List.forall_mem_cons.2 ⟨h, hothers⟩⟩

theorem consecutive_cons {slug source target : String} {rest between : List String} :
    Consecutive storyline (slug :: rest) source target between ↔
      (source = slug ∧ Belongs storyline slug ∧ Next storyline rest target between) ∨
        Consecutive storyline rest source target between := by
  constructor
  · rintro ⟨before, after, hchain, hsource, hnext⟩
    cases before with
    | nil =>
      obtain ⟨rfl, rfl⟩ := List.cons_eq_cons.1 hchain
      exact Or.inl ⟨rfl, hsource, hnext⟩
    | cons first before =>
      obtain ⟨rfl, rfl⟩ := List.cons_eq_cons.1 hchain
      exact Or.inr ⟨before, after, rfl, hsource, hnext⟩
  · rintro (⟨rfl, hsource, hnext⟩ | ⟨before, after, rfl, hsource, hnext⟩)
    · exact ⟨[], rest, rfl, hsource, hnext⟩
    · exact ⟨slug :: before, after, rfl, hsource, hnext⟩

/-! ### Successions -/

/-- What the pass over a chain carries is the last event of the storyline and whether it stands
directly before the rest: besides the consecutive events of the rest it finds the succession from
that event to the first one of the rest. -/
theorem mem_successionsFrom {last : Option String} {direct : Bool} {chain : Chain}
    {s : Succession} :
    s ∈ successionsFrom storyline last direct chain ↔
      (last = some s.source ∧ ∃ between, Next storyline chain s.target between ∧
        s.direct = (direct && between.isEmpty)) ∨
      ∃ between, Consecutive storyline chain s.source s.target between ∧
        s.direct = between.isEmpty := by
  induction chain generalizing last direct with
  | nil =>
    simp [successionsFrom, not_next_nil, Consecutive]
  | cons slug rest ih =>
    rw [successionsFrom]
    split
    · rename_i hbelongs
      have hslug := belongs_iff.1 hbelongs
      rw [List.mem_append, ih]
      simp only [next_cons_of_belongs hslug, consecutive_cons]
      constructor
      · rintro (hlast | ⟨hsource, between, hnext, hdirect⟩ | ⟨between, hlater, hdirect⟩)
        · obtain ⟨source, hsource, rfl⟩ := List.mem_map.1 hlast
          exact Or.inl ⟨Option.mem_toList.1 hsource, [], ⟨rfl, rfl⟩, (Bool.and_true direct).symm⟩
        · have hsource := (Option.some.inj hsource).symm
          exact Or.inr ⟨between, Or.inl ⟨hsource, hslug, hnext⟩, hdirect⟩
        · exact Or.inr ⟨between, Or.inr hlater, hdirect⟩
      · rintro (⟨hlast, between, ⟨htarget, rfl⟩, hdirect⟩ |
          ⟨between, ⟨hsource, -, hnext⟩ | hlater, hdirect⟩)
        · refine Or.inl (List.mem_map.2 ⟨s.source, Option.mem_toList.2 hlast, ?_⟩)
          rw [← htarget, ← Bool.and_true direct, ← List.isEmpty_nil, ← hdirect]
        · exact Or.inr (Or.inl ⟨congrArg some hsource.symm, between, hnext, hdirect⟩)
        · exact Or.inr (Or.inr ⟨between, hlater, hdirect⟩)
    · rename_i hbelongs
      have hslug : ¬ Belongs storyline slug := fun h => hbelongs (belongs_iff.2 h)
      rw [ih]
      simp only [next_cons_of_not_belongs hslug, consecutive_cons]
      constructor
      · rintro (⟨hlast, between, hnext, hdirect⟩ | ⟨between, hlater, hdirect⟩)
        · exact Or.inl ⟨hlast, slug :: between, ⟨between, rfl, hnext⟩,
            hdirect.trans (Bool.and_false direct).symm⟩
        · exact Or.inr ⟨between, Or.inr hlater, hdirect⟩
      · rintro (⟨hlast, -, ⟨between, rfl, hnext⟩, hdirect⟩ |
          ⟨between, ⟨-, hsource, -⟩ | hlater, hdirect⟩)
        · exact Or.inl ⟨hlast, between, hnext, hdirect.trans (Bool.and_false direct)⟩
        · exact absurd hsource hslug
        · exact Or.inr ⟨between, hlater, hdirect⟩

theorem mem_successions {chain : Chain} {s : Succession} :
    s ∈ successions storyline chain ↔
      ∃ between, Consecutive storyline chain s.source s.target between ∧
        s.direct = between.isEmpty := by
  rw [successions, mem_successionsFrom]
  exact or_iff_right fun h => absurd h.1 (by simp)

/-! ### Edges -/

theorem mem_targets {found : List Succession} {source target : String} {direct : Bool} :
    target ∈ targets found source direct ↔ ⟨source, target, direct⟩ ∈ found := by
  rw [targets, SortedSet.mem_ofList, List.mem_map]
  constructor
  · rintro ⟨s, hs, rfl⟩
    obtain ⟨hfound, hsame⟩ := List.mem_filter.1 hs
    obtain ⟨rfl, rfl⟩ : s.source = source ∧ s.direct = direct := by simpa using hsame
    exact hfound
  · exact fun h => ⟨_, List.mem_filter.2 ⟨h, by simp⟩, rfl⟩

theorem mem_solid_iff {found : List Succession} {source : String} {e : Edge} :
    e ∈ ((targets found source true).filter fun target =>
        !(targets found source false).contains target).map (⟨source, ·, false⟩) ↔
      e.source = source ∧ e.dashed = false ∧ ⟨source, e.target, true⟩ ∈ found ∧
        ⟨source, e.target, false⟩ ∉ found := by
  rw [List.mem_map]
  constructor
  · rintro ⟨target, htarget, rfl⟩
    obtain ⟨hdirect, hindirect⟩ := List.mem_filter.1 htarget
    refine ⟨rfl, rfl, mem_targets.1 hdirect, fun h => ?_⟩
    exact absurd (mem_targets.2 h) (by simpa using hindirect)
  · obtain ⟨source', target, dashed⟩ := e
    rintro ⟨rfl, rfl, hdirect, hindirect⟩
    refine ⟨target, List.mem_filter.2 ⟨mem_targets.2 hdirect, ?_⟩, rfl⟩
    simpa using fun h => hindirect (mem_targets.1 h)

theorem mem_dashed_iff {found : List Succession} {source : String} {e : Edge} :
    e ∈ (targets found source false).map (⟨source, ·, true⟩) ↔
      e.source = source ∧ e.dashed = true ∧ ⟨source, e.target, false⟩ ∈ found := by
  rw [List.mem_map]
  constructor
  · rintro ⟨target, htarget, rfl⟩
    exact ⟨rfl, rfl, mem_targets.1 htarget⟩
  · obtain ⟨source', target, dashed⟩ := e
    rintro ⟨rfl, rfl, hindirect⟩
    exact ⟨target, mem_targets.2 hindirect, rfl⟩

/-- From a source there is an edge to each target of a succession, dashed when one of the
successions is not direct. -/
theorem mem_edgesFrom {found : List Succession} {source : String} {e : Edge} :
    e ∈ edgesFrom found source ↔ e.source = source ∧
      (∃ direct, ⟨source, e.target, direct⟩ ∈ found) ∧
      (e.dashed = true ↔ ⟨source, e.target, false⟩ ∈ found) := by
  rw [edgesFrom, List.mem_append, mem_solid_iff, mem_dashed_iff]
  constructor
  · rintro (⟨hsource, hdashed, hdirect, hindirect⟩ | ⟨hsource, hdashed, hindirect⟩)
    · exact ⟨hsource, ⟨true, hdirect⟩, iff_of_false (by simp [hdashed]) hindirect⟩
    · exact ⟨hsource, ⟨false, hindirect⟩, iff_of_true hdashed hindirect⟩
  · rintro ⟨hsource, ⟨direct, hfound⟩, hdashed⟩
    by_cases hindirect : ⟨source, e.target, false⟩ ∈ found
    · exact Or.inr ⟨hsource, hdashed.2 hindirect, hindirect⟩
    · cases direct with
      | false => exact absurd hfound hindirect
      | true =>
        refine Or.inl ⟨hsource, ?_, hfound, hindirect⟩
        exact Bool.eq_false_iff.2 fun h => hindirect (hdashed.1 h)

theorem nodup_edgesFrom (found : List Succession) (source : String) :
    (edgesFrom found source).Nodup := by
  refine List.nodup_append.2 ⟨?_, ?_, ?_⟩
  · refine ((SortedSet.nodup _).filter _).map fun target other h => ?_
    exact congrArg Edge.target h
  · exact (SortedSet.nodup _).map fun target other h => congrArg Edge.target h
  · rintro e hsolid other hdashed rfl
    have hfalse := (mem_solid_iff.1 hsolid).2.1
    rw [(mem_dashed_iff.1 hdashed).2.1] at hfalse
    cases hfalse

theorem mem_flatMap_successions {chains : List Chain} {s : Succession} :
    s ∈ chains.flatMap (successions storyline) ↔
      ∃ chain ∈ chains, ∃ between, Consecutive storyline chain s.source s.target between ∧
        s.direct = between.isEmpty := by
  simp only [List.mem_flatMap, mem_successions]

/-- The edges of a storyline join the events that are consecutive in some chain; those are dashed
that stand apart in some chain. -/
theorem mem_edges {chains : List Chain} {e : Edge} :
    e ∈ edges storyline chains ↔
      (∃ chain ∈ chains, ∃ between, Consecutive storyline chain e.source e.target between) ∧
      (e.dashed = true ↔ ∃ chain ∈ chains, ∃ between, between ≠ [] ∧
        Consecutive storyline chain e.source e.target between) := by
  have hapart : ⟨e.source, e.target, false⟩ ∈ chains.flatMap (successions storyline) ↔
      ∃ chain ∈ chains, ∃ between, between ≠ [] ∧
        Consecutive storyline chain e.source e.target between := by
    have hempty : ∀ between : List String, false = between.isEmpty ↔ between ≠ [] := by simp
    simp only [mem_flatMap_successions, hempty, and_comm]
  have hsome : (∃ direct, ⟨e.source, e.target, direct⟩ ∈ chains.flatMap (successions storyline)) ↔
      ∃ chain ∈ chains, ∃ between, Consecutive storyline chain e.source e.target between := by
    simp only [mem_flatMap_successions]
    constructor
    · rintro ⟨direct, chain, hchain, between, hconsecutive, -⟩
      exact ⟨chain, hchain, between, hconsecutive⟩
    · rintro ⟨chain, hchain, between, hconsecutive⟩
      exact ⟨between.isEmpty, chain, hchain, between, hconsecutive, rfl⟩
  rw [edges, List.mem_flatMap]
  constructor
  · rintro ⟨source, -, he⟩
    obtain ⟨rfl, hfound, hdashed⟩ := mem_edgesFrom.1 he
    exact ⟨hsome.1 hfound, hdashed.trans hapart⟩
  · rintro ⟨hconsecutive, hdashed⟩
    obtain ⟨direct, hfound⟩ := hsome.2 hconsecutive
    refine ⟨e.source, SortedSet.mem_ofList.2 (List.mem_map.2 ⟨_, hfound, rfl⟩), ?_⟩
    exact mem_edgesFrom.2 ⟨rfl, ⟨direct, hfound⟩, hdashed.trans hapart.symm⟩

theorem nodup_edges (chains : List Chain) : (edges storyline chains).Nodup := by
  refine List.nodup_flatMap.2 ⟨fun source _ => nodup_edgesFrom _ source, ?_⟩
  refine (SortedSet.nodup _).imp fun {source other} hne e hsource hother => hne ?_
  rw [← (mem_edgesFrom.1 hsource).1, ← (mem_edgesFrom.1 hother).1]

end Narrative.Chart
