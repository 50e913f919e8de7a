import StageChain.Value.Basic

/-!
# Stage graphs

A graph has nodes and edges under their ids, in the order in which they were added. Any graph is
allowed here, also one that branches, has a cycle, or has an edge to a node that is not there.
-/

namespace StageChain

/-- A stage to be: its type, its configuration, where it is drawn, and what was found wrong. -/
structure Node where
  id : String
  stageType : String
  config : Value
  position : Entries Value
  error : Value
deriving DecidableEq

/-- A connection of two nodes. -/
structure Edge where
  id : String
  source : String
  target : String
deriving DecidableEq

/-- Nodes and edges under their ids. -/
structure Graph where
  nodes : OrderedMap Node
  edges : OrderedMap Edge

namespace Graph

/-- The graph without nodes. -/
def empty : Graph := ⟨.empty, .empty⟩

instance : Inhabited Graph := ⟨empty⟩

/-- The ids of the nodes, in order. -/
def nodeIds (graph : Graph) : List String := graph.nodes.keys

/-- The edges, in order. -/
def edgeList (graph : Graph) : List Edge := graph.edges.values

/-- Whether an edge has an end that is not a node. -/
def isDangling (graph : Graph) (edge : Edge) : Bool :=
  !(graph.nodes.contains edge.source && graph.nodes.contains edge.target)

/-- How many edges start at a node. -/
def outDegree (graph : Graph) (id : String) : Nat := graph.edgeList.countP (·.source == id)

/-- How many edges end at a node. -/
def inDegree (graph : Graph) (id : String) : Nat := graph.edgeList.countP (·.target == id)

end Graph

end StageChain
