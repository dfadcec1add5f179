import Narrative.Proofs.Chart.Edges
import Narrative.Proofs.Source.Kinds

/-!
# The text of a graph

The text of a graph is made of lines: those of the clusters, each behind the line that opens it and
before the one that closes it, between the first and the last line of the graph.  When storylines
and events are named by slugs, the lines of a cluster tell which edges are drawn in it.
-/

namespace Narrative

namespace Text

/-- The lines of a text, each with its line feed. -/
def lines (text : String) : List String :=
  (linesKept text.toList).map String.ofList

/-- A text that ends with its only line feed. -/
def IsLine (line : String) : Prop :=
  ∃ body, line.toList = body ++ ['\n'] ∧ '\n' ∉ body

theorem IsLine.append {front line : String} (hfront : '\n' ∉ front.toList) (h : IsLine line) :
    IsLine (front ++ line) := by
  obtain ⟨body, hline, hbody⟩ := h
  exact ⟨front.toList ++ body, by rw [String.toList_append, hline, List.append_assoc],
    by simp [hfront, hbody]⟩

/-- Lines that are joined are the lines of the text. -/
theorem lines_join {made : List String} (h : ∀ line ∈ made, IsLine line) :
    lines (String.join made) = made := by
  induction made with
  | nil => rfl
  | cons line rest ih =>
    obtain ⟨⟨body, hline, hbody⟩, hrest⟩ := List.forall_mem_cons.1 h
    have hothers := ih hrest
    rw [lines] at hothers ⊢
    rw [String.join_cons, String.toList_append, hline, List.append_assoc, List.singleton_append,
      linesKept_append hbody, List.map_cons, hothers, ← hline, String.ofList_toList]

/-- A text before the first place of a mark. -/
theorem append_mark_inj {mark : Char} {front other rest more : List Char} (hfront : mark ∉ front)
    (hother : mark ∉ other) (h : front ++ mark :: rest = other ++ mark :: more) :
    front = other ∧ rest = more := by
  induction front generalizing other with
  | nil =>
    cases other with
    | nil => exact ⟨rfl, (List.cons_eq_cons.1 h).2⟩
    | cons c other =>
      obtain ⟨rfl, -⟩ := List.cons_eq_cons.1 h
      exact absurd List.mem_cons_self hother
  | cons c front ih =>
    cases other with
    | nil =>
      obtain ⟨rfl, -⟩ := List.cons_eq_cons.1 h
      exact absurd List.mem_cons_self hfront
    | cons d other =>
      obtain ⟨rfl, hrest⟩ := List.cons_eq_cons.1 h
      obtain ⟨rfl, rfl⟩ := ih (List.not_mem_of_not_mem_cons hfront)
        (List.not_mem_of_not_mem_cons hother) hrest
      exact ⟨rfl, rfl⟩

end Text

namespace Chart

/-! ### Slugs of events -/

/-- The slug of a storyline and that of an event in it. -/
def EventSlug (slug : String) : Prop :=
  ∃ storyline event, isSlug storyline = true ∧ isSlug event = true ∧
    slug = storyline ++ "/" ++ event

theorem not_mem_of_isSlug {name : String} {c : Char} (hc : isSlugChar c = false)
    (h : isSlug name = true) : c ∉ name.toList :=
  fun hmem => absurd (Source.isSlugChar_of_mem (Or.inl h) c hmem) (by simp [hc])

theorem EventSlug.not_mem {slug : String} {c : Char} (hc : isSlugChar c = false) (hslash : c ≠ '/')
    (h : EventSlug slug) : c ∉ slug.toList := by
  obtain ⟨storyline, event, hstoryline, hevent, rfl⟩ := h
  simp [not_mem_of_isSlug hc hstoryline, not_mem_of_isSlug hc hevent, hslash]

theorem EventSlug.quote_not_mem {slug : String} (h : EventSlug slug) : '"' ∉ slug.toList :=
  h.not_mem (by decide) (by decide)

/-! ### The lines of a graph -/

/-- The first line of a graph. -/
def opening : String := "digraph G \x7b\n"

/-- The last line of a graph. -/
def closing : String := "\x7d\n"

/-- The line that opens the cluster of a storyline. -/
def clusterOpening (storyline : String) : String :=
  "  subgraph cluster_" ++ storyline ++ " \x7b\n"

/-- The line that closes a cluster. -/
def clusterClosing : String := "  \x7d\n"

/-- The lines of a cluster before its edges. -/
def heading (storyline : String) : List String :=
  ["    style=filled;\n", "    color=lightgrey;\n", "    node [style=filled,color=white];\n",
    "    label = " ++ quoted storyline ++ ";\n"]

/-- The lines in the cluster of a storyline in the text of a graph: those behind the line that opens
it, up to the next one that closes a cluster. -/
def clusterLines (storyline text : String) : List String :=
  ((Text.lines text).dropWhile (· != clusterOpening storyline)).tail.takeWhile
    (· != clusterClosing)

/-- The lines that are written in the cluster of a storyline. -/
def drawn (storyline : String) (chains : List Chain) : List String :=
  heading storyline ++ (edges storyline chains).map Edge.line

/-- All lines of the cluster of a storyline. -/
def block (chains : List Chain) (storyline : String) : List String :=
  clusterOpening storyline :: (drawn storyline chains ++ [clusterClosing])

theorem cluster_eq_join (storyline : String) (chains : List Chain) :
    cluster storyline chains = String.join (block chains storyline) := by
  have hstyle : "    style=filled;\n    color=lightgrey;\n" =
      "    style=filled;\n" ++ "    color=lightgrey;\n" := by decide
  -- the unfolding equation of a definition full of texts is slow to make, `delta` needs none
  delta cluster block clusterOpening clusterClosing drawn heading
  rw [hstyle]
  simp only [List.cons_append, List.nil_append, String.join_cons, String.join_append,
    String.join_nil, String.append_empty, String.append_assoc]

/-- All lines of a graph. -/
def graphLines (storylines : List String) (chains : List Chain) : List String :=
  opening :: (storylines.flatMap (block chains) ++ [closing])

theorem graph_eq_join (storylines : SortedSet String) (chains : SortedSet Chain) :
    graph storylines chains = String.join (graphLines storylines.elements chains.elements) := by
  have hclusters : ∀ names : List String,
      String.join (names.map fun storyline => cluster storyline chains.elements) =
        String.join (names.flatMap (block chains.elements)) := by
    intro names
    induction names with
    | nil => rfl
    | cons storyline rest ih =>
      rw [List.map_cons, List.flatMap_cons, String.join_cons, String.join_append, ih,
        cluster_eq_join]
  delta graph graphLines
  rw [hclusters, String.join_cons, String.join_append, String.join_cons, String.join_nil,
    String.append_empty, String.append_assoc]
  rfl

/-! ### What tells the lines apart -/

theorem third_of_clusterOpening (storyline : String) :
    (clusterOpening storyline).toList[2]? = some 's' := by
  delta clusterOpening
  simp

theorem third_of_clusterClosing : clusterClosing.toList[2]? = some '\x7d' := by
  decide

theorem third_of_opening : opening.toList[2]? = some 'g' := by
  decide

theorem clusterOpening_inj {storyline other : String}
    (h : clusterOpening storyline = clusterOpening other) : storyline = other := by
  delta clusterOpening at h
  exact (String.append_right_inj _).1 ((String.append_left_inj _).1 h)

/-- What stands behind the target of an edge. -/
def Edge.ending (dashed : Bool) : List Char :=
  (if dashed then " [style=\"dashed\"];\n" else ";\n").toList

theorem Edge.toList_line (e : Edge) : e.line.toList =
    ' ' :: ' ' :: ' ' :: ' ' :: '"' :: (e.source.toList ++ '"' :: ' ' :: '-' :: '>' :: ' ' :: '"' ::
      (e.target.toList ++ '"' :: ending e.dashed)) := by
  delta Edge.line quoted ending
  simp

/-- Edges between events are told apart by their lines. -/
theorem Edge.line_inj {e other : Edge} (he : EventSlug e.source ∧ EventSlug e.target)
    (hother : EventSlug other.source ∧ EventSlug other.target) (h : e.line = other.line) :
    e = other := by
  obtain ⟨source, target, dashed⟩ := e
  obtain ⟨source', target', dashed'⟩ := other
  have hlist := congrArg String.toList h
  rw [toList_line, toList_line] at hlist
  simp only [List.cons.injEq, true_and] at hlist
  obtain ⟨hsource, hrest⟩ := Text.append_mark_inj he.1.quote_not_mem hother.1.quote_not_mem hlist
  simp only [List.cons.injEq, true_and] at hrest
  obtain ⟨htarget, hending⟩ := Text.append_mark_inj he.2.quote_not_mem hother.2.quote_not_mem hrest
  obtain rfl := String.toList_inj.1 hsource
  obtain rfl := String.toList_inj.1 htarget
  have hdashed : dashed = dashed' := by
    revert hending
    cases dashed <;> cases dashed' <;> decide
  rw [hdashed]

theorem map_fifth_heading (storyline : String) :
    (heading storyline).map (fun line => line.toList[4]?) =
      [some 's', some 'c', some 'n', some 'l'] := by
  delta heading quoted
  simp

theorem third_of_mem_heading {storyline : String} :
    ∀ line ∈ heading storyline, line.toList[2]? = some ' ' := by
  delta heading quoted
  simp

/-- A line of a heading goes on with a letter where an edge has a quote. -/
theorem Edge.not_mem_heading (e : Edge) (storyline : String) : e.line ∉ heading storyline := by
  intro h
  have hfifth := List.mem_map_of_mem (f := fun line => line.toList[4]?) h
  rw [map_fifth_heading, toList_line] at hfifth
  have hquote : some '"' ∈ [some 's', some 'c', some 'n', some 'l'] := hfifth
  exact absurd hquote (by decide)

theorem nodup_heading (storyline : String) : (heading storyline).Nodup := by
  refine List.Nodup.of_map (fun line => line.toList[4]?) ?_
  rw [map_fifth_heading]
  decide

theorem third_of_mem_drawn {storyline line : String} {chains : List Chain}
    (h : line ∈ drawn storyline chains) : line.toList[2]? = some ' ' := by
  rcases List.mem_append.1 h with h | h
  · exact third_of_mem_heading line h
  · obtain ⟨e, -, rfl⟩ := List.mem_map.1 h
    rw [e.toList_line]
    rfl

theorem clusterOpening_not_mem {storyline : String} {front : List String} {chains : List Chain}
    (h : storyline ∉ front) :
    clusterOpening storyline ∉ opening :: front.flatMap (block chains) := by
  have hthird := third_of_clusterOpening storyline
  intro hmem
  rcases List.mem_cons.1 hmem with heq | hmem
  · rw [heq, third_of_opening] at hthird
    exact absurd hthird (by decide)
  obtain ⟨other, hother, hmem⟩ := List.mem_flatMap.1 hmem
  rcases List.mem_cons.1 hmem with heq | hmem
  · exact h (clusterOpening_inj heq ▸ hother)
  rcases List.mem_append.1 hmem with hmem | hmem
  · rw [third_of_mem_drawn hmem] at hthird
    exact absurd hthird (by decide)
  · rw [List.mem_singleton.1 hmem, third_of_clusterClosing] at hthird
    exact absurd hthird (by decide)

theorem clusterClosing_not_mem (storyline : String) (chains : List Chain) :
    clusterClosing ∉ drawn storyline chains := by
  intro hmem
  have hthird := third_of_mem_drawn hmem
  rw [third_of_clusterClosing] at hthird
  exact absurd hthird (by decide)

/-! ### Reading a graph -/

/-- What stands between the first place of one element and the next place of another one. -/
theorem takeWhile_tail_dropWhile {α : Type} [BEq α] [LawfulBEq α] {first last : α}
    {front between back : List α} (hfirst : first ∉ front) (hlast : last ∉ between) :
    ((front ++ first :: (between ++ last :: back)).dropWhile (· != first)).tail.takeWhile
      (· != last) = between := by
  have hfront : ∀ x ∈ front, (x != first) = true :=
    fun x hx => bne_iff_ne.2 fun heq => hfirst (heq ▸ hx)
  have hbetween : ∀ x ∈ between, (x != last) = true :=
    fun x hx => bne_iff_ne.2 fun heq => hlast (heq ▸ hx)
  rw [List.dropWhile_append_of_pos hfront, List.dropWhile_cons_of_neg (by simp), List.tail_cons,
    List.takeWhile_append_of_pos hbetween, List.takeWhile_cons_of_neg (by simp), List.append_nil]

/-! ### Lines of a graph of slugs -/

theorem isLine_clusterOpening {storyline : String} (h : isSlug storyline = true) :
    Text.IsLine (clusterOpening storyline) := by
  have hname := not_mem_of_isSlug (c := '\n') (by decide) h
  exact .append (by simp [hname]) ⟨[' ', '\x7b'], rfl, by decide⟩

theorem isLine_of_mem_heading {storyline line : String} (h : isSlug storyline = true)
    (hline : line ∈ heading storyline) : Text.IsLine line := by
  have hname := not_mem_of_isSlug (c := '\n') (by decide) h
  revert line
  delta heading quoted
  simp only [List.forall_mem_cons]
  refine ⟨⟨"    style=filled;".toList, by decide, by decide⟩,
    ⟨"    color=lightgrey;".toList, by decide, by decide⟩,
    ⟨"    node [style=filled,color=white];".toList, by decide, by decide⟩,
    .append (by simp [hname]) ⟨[';'], rfl, by decide⟩, fun line h => absurd h List.not_mem_nil⟩

theorem Edge.isLine {e : Edge} (hsource : EventSlug e.source) (htarget : EventSlug e.target) :
    Text.IsLine e.line := by
  have hsource := hsource.not_mem (c := '\n') (by decide) (by decide)
  have htarget := htarget.not_mem (c := '\n') (by decide) (by decide)
  refine .append (by simp [quoted, hsource, htarget]) ?_
  split
  · exact ⟨" [style=\"dashed\"];".toList, by decide, by decide⟩
  · exact ⟨[';'], rfl, by decide⟩

section

variable {storylines : SortedSet String} {chains : SortedSet Chain}
  (hstorylines : ∀ storyline ∈ storylines.elements, isSlug storyline = true)
  (hchains : ∀ chain ∈ chains.elements, ∀ slug ∈ chain, EventSlug slug)

include hchains in
/-- The edges join events that occur in chains. -/
theorem eventSlug_of_mem_edges {storyline : String} {e : Edge}
    (h : e ∈ edges storyline chains.elements) : EventSlug e.source ∧ EventSlug e.target := by
  obtain ⟨⟨chain, hchain, between, before, after, rfl, -, behind, rfl, -⟩, -⟩ := mem_edges.1 h
  exact ⟨hchains _ hchain _ (by simp), hchains _ hchain _ (by simp)⟩

include hchains in
theorem isLine_of_mem_drawn {storyline line : String} (h : isSlug storyline = true)
    (hline : line ∈ drawn storyline chains.elements) : Text.IsLine line := by
  rcases List.mem_append.1 hline with hline | hline
  · exact isLine_of_mem_heading h hline
  · obtain ⟨e, he, rfl⟩ := List.mem_map.1 hline
    obtain ⟨hsource, htarget⟩ := eventSlug_of_mem_edges hchains he
    exact Edge.isLine hsource htarget

include hstorylines hchains in
theorem lines_graph :
    Text.lines (graph storylines chains) = graphLines storylines.elements chains.elements := by
  rw [graph_eq_join]
  refine Text.lines_join (List.forall_mem_cons.2 ⟨⟨"digraph G \x7b".toList, rfl, by decide⟩, ?_⟩)
  refine List.forall_mem_append.2 ⟨fun line hline => ?_, ?_⟩
  · obtain ⟨storyline, hstoryline, hline⟩ := List.mem_flatMap.1 hline
    have hslug := hstorylines storyline hstoryline
    rcases List.mem_cons.1 hline with rfl | hline
    · exact isLine_clusterOpening hslug
    rcases List.mem_append.1 hline with hline | hline
    · exact isLine_of_mem_drawn hchains hslug hline
    · obtain rfl := List.mem_singleton.1 hline
      exact ⟨[' ', ' ', '\x7d'], rfl, by decide⟩
  · exact List.forall_mem_singleton.2 ⟨['\x7d'], rfl, by decide⟩

include hstorylines hchains in
theorem clusterLines_graph {storyline : String} (h : storyline ∈ storylines.elements) :
    clusterLines storyline (graph storylines chains) = drawn storyline chains.elements := by
  obtain ⟨front, back, hsplit, hfront⟩ := List.eq_append_cons_of_mem h
  have hlines : Text.lines (graph storylines chains) =
      (opening :: front.flatMap (block chains.elements)) ++
        clusterOpening storyline :: (drawn storyline chains.elements ++
          clusterClosing :: (back.flatMap (block chains.elements) ++ [closing])) := by
    rw [lines_graph hstorylines hchains, graphLines, hsplit]
    simp [block]
  rw [clusterLines, hlines]
  exact takeWhile_tail_dropWhile (clusterOpening_not_mem hfront)
    (clusterClosing_not_mem storyline chains.elements)

include hchains in
theorem nodup_drawn {storyline : String} : (drawn storyline chains.elements).Nodup := by
  refine List.nodup_append.2 ⟨nodup_heading storyline, ?_, ?_⟩
  · refine (nodup_edges chains.elements).map_on fun e he other hother h => ?_
    exact Edge.line_inj (eventSlug_of_mem_edges hchains he)
      (eventSlug_of_mem_edges hchains hother) h
  · rintro line hheading other hedge rfl
    obtain ⟨e, -, rfl⟩ := List.mem_map.1 hedge
    exact e.not_mem_heading storyline hheading

include hchains in
theorem line_mem_drawn_iff {storyline : String} {e : Edge} (hsource : EventSlug e.source)
    (htarget : EventSlug e.target) :
    e.line ∈ drawn storyline chains.elements ↔ e ∈ edges storyline chains.elements := by
  rw [drawn, List.mem_append, or_iff_right (e.not_mem_heading storyline), List.mem_map]
  constructor
  · rintro ⟨other, hother, hline⟩
    have heq := Edge.line_inj (eventSlug_of_mem_edges hchains hother) ⟨hsource, htarget⟩ hline
    exact heq ▸ hother
  · exact fun h => ⟨e, h, rfl⟩

end

/-- In the cluster of a storyline an edge is drawn between two events exactly when they are
consecutive in some chain, one line for each two; it is dashed exactly when they stand apart in some
chain.  Besides the edges there are only the headings of the clusters and the lines around them. -/
theorem graph_draws_consecutive_events (storylines : SortedSet String) (chains : SortedSet Chain)
    (hstorylines : ∀ storyline ∈ storylines.elements, isSlug storyline = true)
    (hchains : ∀ chain ∈ chains.elements, ∀ slug ∈ chain, EventSlug slug) :
    Text.lines (graph storylines chains) = opening :: (storylines.elements.flatMap (fun storyline =>
      clusterOpening storyline ::
        (clusterLines storyline (graph storylines chains) ++ [clusterClosing])) ++ [closing]) ∧
    ∀ storyline ∈ storylines.elements,
      (clusterLines storyline (graph storylines chains)).Nodup ∧
      (∀ line ∈ clusterLines storyline (graph storylines chains), line ∈ heading storyline ∨
        ∃ source target dashed, EventSlug source ∧ EventSlug target ∧
          line = Edge.line ⟨source, target, dashed⟩) ∧
      ∀ source target dashed, EventSlug source → EventSlug target →
        (Edge.line ⟨source, target, dashed⟩ ∈ clusterLines storyline (graph storylines chains) ↔
          (∃ chain ∈ chains.elements, ∃ between,
            Consecutive storyline chain source target between) ∧
          (dashed = true ↔ ∃ chain ∈ chains.elements, ∃ between, between ≠ [] ∧
            Consecutive storyline chain source target between)) := by
  have hcluster : ∀ storyline ∈ storylines.elements,
      clusterLines storyline (graph storylines chains) = drawn storyline chains.elements :=
    fun storyline h => clusterLines_graph hstorylines hchains h
  refine ⟨?_, fun storyline hstoryline => ?_⟩
  · rw [lines_graph hstorylines hchains, graphLines]
    refine congrArg (fun made => opening :: (made ++ [closing])) ?_
    exact List.flatMap_congr fun storyline h => by rw [hcluster storyline h, block]
  · rw [hcluster storyline hstoryline]
    refine ⟨nodup_drawn hchains, fun line hline => ?_,
      fun source target dashed hsource htarget => ?_⟩
    · rcases List.mem_append.1 hline with hline | hline
      · exact Or.inl hline
      · obtain ⟨e, he, rfl⟩ := List.mem_map.1 hline
        obtain ⟨hsource, htarget⟩ := eventSlug_of_mem_edges hchains he
        exact Or.inr ⟨e.source, e.target, e.dashed, hsource, htarget, rfl⟩
    · exact (line_mem_drawn_iff hchains hsource htarget).trans mem_edges

/-- Two chains through a harbour and a market: the way from the pier to the inn is seen with and
without a stop at the market, and the inn is left only to come back to it. -/
def harbourChains : SortedSet Chain :=
  ⟨[["harbour/pier", "harbour/inn", "market/stall", "harbour/inn"],
    ["harbour/pier", "market/stall", "harbour/inn"]], by decide⟩

/-- The storylines of the two chains. -/
def harbourStorylines : SortedSet String :=
  ⟨["harbour", "market"], by decide⟩

theorem graph_draws_consecutive_events_harbour :
    (∀ storyline ∈ harbourStorylines.elements, isSlug storyline = true) ∧
    (∀ chain ∈ harbourChains.elements, ∀ slug ∈ chain, EventSlug slug) ∧
    Edge.line ⟨"harbour/pier", "harbour/inn", true⟩ ∈
      clusterLines "harbour" (graph harbourStorylines harbourChains) ∧
    Edge.line ⟨"harbour/pier", "harbour/inn", false⟩ ∉
      clusterLines "harbour" (graph harbourStorylines harbourChains) ∧
    Edge.line ⟨"harbour/inn", "harbour/inn", true⟩ ∈
      clusterLines "harbour" (graph harbourStorylines harbourChains) := by
  have hpier : EventSlug "harbour/pier" := ⟨"harbour", "pier", by decide, by decide, by decide⟩
  have hinn : EventSlug "harbour/inn" := ⟨"harbour", "inn", by decide, by decide, by decide⟩
  have hstall : EventSlug "market/stall" := ⟨"market", "stall", by decide, by decide, by decide⟩
  have hstorylines : ∀ storyline ∈ harbourStorylines.elements, isSlug storyline = true := by decide
  have hchains : ∀ chain ∈ harbourChains.elements, ∀ slug ∈ chain, EventSlug slug := by
    simp [harbourChains, hpier, hinn, hstall]
  have hforeign : ∀ slug ∈ ["market/stall"], ¬ Belongs "harbour" slug :=
    List.forall_mem_singleton.2 fun h => absurd (belongs_iff.2 h) (by decide)
  have hstop : Consecutive "harbour" ["harbour/pier", "market/stall", "harbour/inn"]
      "harbour/pier" "harbour/inn" ["market/stall"] :=
    ⟨[], _, rfl, belongs_iff.1 (by decide), [], rfl, belongs_iff.1 (by decide), hforeign⟩
  have hback : Consecutive "harbour" ["harbour/pier", "harbour/inn", "market/stall", "harbour/inn"]
      "harbour/inn" "harbour/inn" ["market/stall"] :=
    ⟨["harbour/pier"], _, rfl, belongs_iff.1 (by decide), [], rfl, belongs_iff.1 (by decide),
      hforeign⟩
  have hapart : ∃ chain ∈ harbourChains.elements, ∃ between, between ≠ [] ∧
      Consecutive "harbour" chain "harbour/pier" "harbour/inn" between :=
    ⟨_, by decide, _, by decide, hstop⟩
  obtain ⟨-, hclusters⟩ :=
    graph_draws_consecutive_events harbourStorylines harbourChains hstorylines hchains
  obtain ⟨-, -, hedges⟩ := hclusters "harbour" (by decide)
  refine ⟨hstorylines, hchains, ?_, fun hsolid => ?_, ?_⟩
  · exact (hedges _ _ true hpier hinn).2 ⟨⟨_, by decide, _, hstop⟩, iff_of_true rfl hapart⟩
  · exact absurd (((hedges _ _ false hpier hinn).1 hsolid).2.2 hapart) (by decide)
  · exact (hedges _ _ true hinn hinn).2
      ⟨⟨_, by decide, _, hback⟩, iff_of_true rfl ⟨_, by decide, _, by decide, hback⟩⟩

end Chart

end Narrative
