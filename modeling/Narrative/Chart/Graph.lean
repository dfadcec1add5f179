import Narrative.SortedSet
import Narrative.Text.Search

/-!
# Graphs of chains

A chain is the slugs of events in the order in which they came.  The graph of a set of chains has a
cluster for each storyline, and in it an edge between each two events of the storyline that follow
each other in some chain.  An edge is dashed when in some chain events of other storylines came
between the two.
-/

namespace Narrative.Chart

/-- The slugs of events in the order in which they came. -/
abbrev Chain := List String

/-- One event of a storyline after another one in a chain. -/
structure Succession where
  source : String
  target : String
  /-- Whether no event of another storyline stands between them. -/
  direct : Bool
deriving DecidableEq

/-- Whether a slug is that of an event of a storyline. -/
def belongs (storyline slug : String) : Bool :=
  (Text.after? (storyline.toList ++ ['/']) slug.toList).isSome

/-- The successions in the rest of a chain, behind the last event of the storyline so far. -/
def successionsFrom (storyline : String) (last : Option String) (direct : Bool) :
    Chain → List Succession
  | [] => []
  | slug :: rest =>
    if belongs storyline slug then
      last.toList.map (⟨·, slug, direct⟩) ++ successionsFrom storyline (some slug) true rest
    else successionsFrom storyline last false rest

/-- The successions of a storyline in a chain. -/
def successions (storyline : String) (chain : Chain) : List Succession :=
  successionsFrom storyline none false chain

/-- The targets behind a source, in order, of those successions that are direct or not. -/
def targets (found : List Succession) (source : String) (direct : Bool) : List String :=
  (SortedSet.ofList ((found.filter fun s => s.source == source && s.direct == direct).map
    Succession.target)).elements

/-- An edge of the graph. -/
structure Edge where
  source : String
  target : String
  dashed : Bool
deriving DecidableEq

/-- The edges from a source: first the solid ones, then the dashed ones. -/
def edgesFrom (found : List Succession) (source : String) : List Edge :=
  let indirect := targets found source false
  ((targets found source true).filter fun target => !indirect.contains target).map
      (⟨source, ·, false⟩) ++
    indirect.map (⟨source, ·, true⟩)

/-- The edges of a storyline, by source. -/
def edges (storyline : String) (chains : List Chain) : List Edge :=
  let found := chains.flatMap (successions storyline)
  (SortedSet.ofList (found.map Succession.source)).elements.flatMap (edgesFrom found)

/-- A text between double quotes, as it is. -/
def quoted (s : String) : String :=
  "\"" ++ s ++ "\""

/-- The line of an edge. -/
def Edge.line (e : Edge) : String :=
  "    " ++ quoted e.source ++ " -> " ++ quoted e.target ++
    (if e.dashed then " [style=\"dashed\"];\n" else ";\n")

/-- The cluster of a storyline. -/
def cluster (storyline : String) (chains : List Chain) : String :=
  "  subgraph cluster_" ++ storyline ++ " \x7b\n" ++
    "    style=filled;\n    color=lightgrey;\n" ++
    "    node [style=filled,color=white];\n" ++
    "    label = " ++ quoted storyline ++ ";\n" ++
    String.join ((edges storyline chains).map Edge.line) ++ "  \x7d\n"

/-- The graph of a set of chains, with a cluster for each of a set of storylines. -/
def graph (storylines : SortedSet String) (chains : SortedSet Chain) : String :=
  "digraph G \x7b\n" ++
    String.join (storylines.elements.map fun s => cluster s chains.elements) ++ "\x7d\n"

end Narrative.Chart
