import StageChain.Failure
import StageChain.Graph.Basic
import StageChain.Text.Numeral

/-!
# Chains

`Graph.linearize` lists the nodes of a graph that is a single chain from its first node to its last,
or says in a `ChainFault` why the graph is none. Faults are looked for in a fixed order: edges to
unknown nodes, branches, no first node, several first nodes, nodes that the walk does not reach.
-/

namespace StageChain

/-- Why a graph is not a single chain. -/
inductive ChainFault where
  /-- Edges, by id, with an end that is not a node. -/
  | dangling (edges : List String)
  /-- Nodes with several edges in or out. -/
  | branching (nodes : List String)
  /-- All nodes, each of which has an edge into it. -/
  | noStart (nodes : List String)
  /-- The nodes without an edge into them, if there are several. -/
  | manyStarts (nodes : List String)
  /-- A node that the walk met again. -/
  | revisited (node : String)
  /-- The nodes that the walk from the first node did not meet. -/
  | unreachable (start : String) (nodes : List String)
deriving DecidableEq

namespace ChainFault

/-- Names with commas between them. -/
def listed (names : List String) : String := ", ".intercalate names

/-- The kind of a fault in a report. -/
def kind : ChainFault → String
  | dangling _ => "dangling"
  | branching _ => "branch"
  | noStart _ => "cycle"
  | manyStarts _ => "disconnected"
  | revisited _ => "cycle"
  | unreachable _ _ => "disconnected"

/-- What a fault says. -/
def message : ChainFault → String
  | dangling edges => "Edges reference unknown nodes: " ++ listed edges
  | branching nodes => "Stages must form a single chain; branching at: " ++ listed nodes
  | noStart _ => "Pipeline has no first stage; every stage is part of a cycle"
  | manyStarts nodes =>
    "Pipeline has " ++ String.ofList (Nat.toDigits 10 nodes.length) ++
      " separate starting stages: " ++ listed nodes
  | revisited node => "Cycle detected at stage " ++ node
  | unreachable start nodes => "Stages not reachable from " ++ start ++ ": " ++ listed nodes

/-- The nodes that a fault is about. -/
def nodeIds : ChainFault → List String
  | dangling _ => []
  | branching nodes => nodes
  | noStart nodes => nodes
  | manyStarts nodes => nodes
  | revisited node => [node]
  | unreachable _ nodes => nodes

/-- The failure that reports a fault. -/
def failure (fault : ChainFault) : Failure :=
  .structural fault.kind fault.message fault.nodeIds

end ChainFault

namespace Graph

/-- The target of the last edge that starts at a node. -/
def successor? (edges : List Edge) (id : String) : Option String :=
  ((edges.filter (·.source == id)).getLast?).map (·.target)

/-- Follows the edges from a node through the nodes that remain. The result is the order of the walk
and the nodes that it did not meet. -/
def walk (edges : List Edge) (remaining : List String) (current : String) :
    Except ChainFault (List String × List String) :=
  if _h : current ∈ remaining then
    match successor? edges current with
    | none => .ok ([current], remaining.erase current)
    | some next =>
      (walk edges (remaining.erase current) next).map fun (order, left) => (current :: order, left)
  else .error (.revisited current)
termination_by remaining.length
decreasing_by
  have hpos := List.length_pos_of_mem _h
  rw [List.length_erase_of_mem _h]
  omega

/-- The edges, by id, with an end that is not a node. -/
def danglingEdges (graph : Graph) : List String :=
  (graph.edgeList.filter graph.isDangling).map (·.id)

/-- The nodes with several edges in or out. -/
def branchingNodes (graph : Graph) : List String :=
  graph.nodeIds.filter fun id => 2 ≤ graph.outDegree id || 2 ≤ graph.inDegree id

/-- The nodes without an edge into them. -/
def startNodes (graph : Graph) : List String :=
  graph.nodeIds.filter fun id => graph.inDegree id == 0

/-- Walks from the only start of a graph and checks that every node is met. -/
def walkFrom (graph : Graph) (start : String) : Except ChainFault (List String) := do
  let (order, left) ← walk graph.edgeList graph.nodeIds start
  if left.isEmpty then .ok order else .error (.unreachable start left)

/-- Lists the nodes of a graph that is a single chain, from the first to the last. -/
def linearize (graph : Graph) : Except ChainFault (List String) :=
  if graph.nodeIds.isEmpty then .ok []
  else if !graph.danglingEdges.isEmpty then .error (.dangling graph.danglingEdges)
  else if !graph.branchingNodes.isEmpty then .error (.branching graph.branchingNodes)
  else
    match graph.startNodes with
    | [] => .error (.noStart graph.nodeIds)
    | [start] => graph.walkFrom start
    | starts => .error (.manyStarts starts)

end Graph

end StageChain
