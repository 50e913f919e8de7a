import StageChain.Graph.Basic
import StageChain.Text.Blank
import StageChain.Text.Numeral
import StageChain.Value.Display

/-!
# Saved graphs

`Graph.toValue` is the saved form of a graph. `Graph.ofValue` loads one; it also takes the flow
style, in which the type and the configuration of a node stand in an object under `data`, and it
checks the shape of the entries only. Edges to unknown nodes are kept.
-/

namespace StageChain

/-- Why a value is not a saved graph. -/
inductive LoadFault where
  /-- The value is not an object. -/
  | notObject
  /-- The nodes or the edges are not a list. -/
  | notList (key : String)
  /-- A node or an edge is not an object. -/
  | entryNotObject (key : String) (index : Nat)
  /-- A node has no id. -/
  | noId
  /-- Two nodes have the same id. -/
  | duplicateId (id : String)
  /-- The position of a node is not an object. -/
  | positionNotObject (id : String)
deriving DecidableEq

/-- What a fault says. -/
def LoadFault.message : LoadFault → String
  | notObject => "Serialized graph must be an object"
  | notList key => "Serialized graph field '" ++ key ++ "' must be a list"
  | entryNotObject key index =>
    key ++ "[" ++ String.ofList (Nat.toDigits 10 index) ++ "] must be an object"
  | noId => "Serialized node is missing an id"
  | duplicateId id => "Duplicate node id: " ++ id
  | positionNotObject id => "Node " ++ id ++ ": position must be an object"

/-- The saved form of a node. -/
def Node.toValue (node : Node) : Value :=
  .object [("id", .text node.id), ("stage_type", .text node.stageType), ("config", node.config),
    ("position", .object node.position), ("error", node.error)]

/-- The saved form of an edge. -/
def Edge.toValue (edge : Edge) : Value :=
  .object [("id", .text edge.id), ("source", .text edge.source), ("target", .text edge.target)]

namespace Graph

/-- The saved form of a graph. -/
def toValue (graph : Graph) : Value :=
  .object [("nodes", .list (graph.nodes.values.map Node.toValue)),
    ("edges", .list (graph.edgeList.map Edge.toValue))]

/-- The entries of the saved graph under a key; a value that counts as nothing given has none. -/
def savedEntries (saved : Entries Value) (key : String) : Except LoadFault (List Value) :=
  match (Value.field saved key).given? with
  | none => .ok []
  | some (.list items) => .ok items
  | some _ => .error (.notList key)

/-- The text of an entry; an absent entry has none, while null is shown as a word. -/
def savedText (saved : Entries Value) (key : String) : String :=
  match Entries.get? key saved with
  | some value => value.display
  | none => ""

/-- The object under `data` of a saved node, if there is one. -/
def nodeData (saved : Entries Value) : Entries Value :=
  match Value.field saved "data" with
  | .object entries => entries
  | _ => []

/-- The stage type of a saved node: the first spelling that gives one. -/
def savedStageType (saved : Entries Value) : String :=
  let spellings := [Value.field saved "stage_type", Value.field saved "stageType",
    Value.field (nodeData saved) "stageType", Value.field (nodeData saved) "stage_type"]
  match spellings.find? (!·.isVoid) with
  | some value => value.display
  | none => ""

/-- The configuration of a saved node: its own, or that of its data; null stands for an empty
object. -/
def savedConfig (saved : Entries Value) : Value :=
  let given := (Entries.get? "config" saved).orElse fun _ => Entries.get? "config" (nodeData saved)
  match given with
  | some .null => .object []
  | some config => config
  | none => .object []

/-- The position of a saved node; nothing given stands for the origin. -/
def savedPosition (id : String) (saved : Entries Value) : Except LoadFault (Entries Value) :=
  match (Value.field saved "position").given? with
  | none => .ok Value.origin
  | some (.object entries) => .ok entries
  | some _ => .error (.positionNotObject id)

/-- The trimmed id of a saved node. -/
def savedId (saved : Entries Value) : String := Text.trim (savedText saved "id")

/-- Adds a saved node to those loaded so far. -/
def loadNode (nodes : OrderedMap Node) (saved : Entries Value) :
    Except LoadFault (OrderedMap Node) := do
  let id := savedId saved
  if id.isEmpty then .error .noId
  else if nodes.contains id then .error (.duplicateId id)
  else
    let position ← savedPosition id saved
    .ok (nodes.insert id {
      id := id
      stageType := savedStageType saved
      config := savedConfig saved
      position := position
      error := Value.field saved "error" })

/-- Adds saved nodes, counting from an index, to those loaded so far. -/
def loadNodes (index : Nat) (nodes : OrderedMap Node) :
    List Value → Except LoadFault (OrderedMap Node)
  | [] => .ok nodes
  | .object saved :: rest => do loadNodes (index + 1) (← loadNode nodes saved) rest
  | _ :: _ => .error (.entryNotObject "nodes" index)

/-- The id of a saved edge; an edge without one is named by its index. -/
def savedEdgeId (index : Nat) (saved : Entries Value) : String :=
  match (Value.field saved "id").given? with
  | some value => value.display
  | none => "edge_" ++ String.ofList (Nat.toDigits 10 index)

/-- A saved edge at an index. -/
def savedEdge (index : Nat) (saved : Entries Value) : Edge where
  id := savedEdgeId index saved
  source := savedText saved "source"
  target := savedText saved "target"

/-- Adds saved edges, counting from an index, to those loaded so far. -/
def loadEdges (index : Nat) (edges : OrderedMap Edge) :
    List Value → Except LoadFault (OrderedMap Edge)
  | [] => .ok edges
  | .object saved :: rest =>
    let edge := savedEdge index saved
    loadEdges (index + 1) (edges.insert edge.id edge) rest
  | _ :: _ => .error (.entryNotObject "edges" index)

/-- Loads a saved graph. -/
def ofValue : Value → Except LoadFault Graph
  | .object saved => do
    let nodes ← loadNodes 0 .empty (← savedEntries saved "nodes")
    let edges ← loadEdges 0 .empty (← savedEntries saved "edges")
    .ok ⟨nodes, edges⟩
  | _ => .error .notObject

end Graph

end StageChain
