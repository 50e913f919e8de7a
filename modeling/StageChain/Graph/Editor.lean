import StageChain.Graph.Saved
import StageChain.Stage.Catalog
import StageChain.Stage.Reference
import StageChain.Text.Sha1

/-!
# Editing a graph

An `Editor` is a graph with a revision number and a registry of the pairs of nodes that are
connected. No rule on the shape of the graph is enforced. An operation either fails and changes
nothing, or gives an `Edited`: the editor after it and what listeners are told, which is the editor
after the change, once, for every change that can matter to a compiled pipeline.
-/

namespace StageChain

/-- Why an operation of the editor fails. -/
inductive EditFault where
  | duplicateNode (id : String)
  | unknownNode (id : String)
  | unknownEdge (id : String)
  | unknownSource (id : String)
  | unknownTarget (id : String)
deriving DecidableEq

/-- What a fault says. -/
def EditFault.message : EditFault → String
  | duplicateNode id => "Duplicate node id: " ++ id
  | unknownNode id => "Unknown node: " ++ id
  | unknownEdge id => "Unknown edge: " ++ id
  | unknownSource id => "Unknown source node: " ++ id
  | unknownTarget id => "Unknown target node: " ++ id

/-- A graph under edit. -/
structure Editor where
  graph : Graph
  revision : Nat
  /-- The id of the edge that connects a pair of nodes, under the signature of the pair. -/
  registry : OrderedMap String

/-- The result of an operation. -/
structure Edited where
  editor : Editor
  /-- The id of the node or edge that the operation is about, where it gives one. -/
  id : Option String
  /-- What listeners are given, in order. -/
  notices : List Editor

/-- The nodes before and after a node. -/
structure Neighbors where
  incoming : List String
  outgoing : List String

namespace Editor

/-- The signature of a pair of nodes. -/
def signature (source target : String) : String := source ++ "->" ++ target

/-- The registry of the edges of a graph; of parallel edges the last one counts. -/
def registryOf (edges : Entries Edge) : OrderedMap String :=
  edges.foldl (fun registry entry =>
    registry.insert (signature entry.2.source entry.2.target) entry.1) .empty

/-- Starts to edit a graph. -/
def ofGraph (graph : Graph) : Editor := ⟨graph, 0, registryOf graph.edges.entries⟩

/-- The editor of the empty graph. -/
def empty : Editor := ofGraph .empty

instance : Inhabited Editor := ⟨empty⟩

/-- Starts to edit a saved graph. -/
def load (saved : Value) : Except LoadFault Editor := (Graph.ofValue saved).map ofGraph

/-- Counts a change and tells the listeners. -/
def announced (editor : Editor) (id : Option String) : Edited :=
  let next := { editor with revision := editor.revision + 1 }
  ⟨next, id, [next]⟩

/-- Keeps a change that no listener is told of. -/
def quiet (editor : Editor) (id : Option String) : Edited := ⟨editor, id, []⟩

/-- The editor with other nodes. -/
def withNodes (editor : Editor) (nodes : OrderedMap Node) : Editor :=
  { editor with graph := { editor.graph with nodes := nodes } }

/-- A node by its id. -/
def node (editor : Editor) (id : String) : Except EditFault Node :=
  match editor.graph.nodes.get? id with
  | some node => .ok node
  | none => .error (.unknownNode id)

/-- The id of a new node without a given one: its type without the dollar sign, and a token. -/
def newNodeId (stageType token : String) : String :=
  Rows.orElse (Reference.unmarked stageType) "stage" ++ "-" ++ token

/-- The configuration of a new node: the given one, or for null that of the catalog. -/
def initialConfig (stageType : String) : Value → Value
  | .null =>
    match StageKind.ofType? stageType with
    | some kind => kind.definition.defaultConfig
    | none => .object []
  | config => config

/-- The position of a new node: the given one, or the origin. -/
def initialPosition (position : Entries Value) : Entries Value :=
  if position.isEmpty then Value.origin else position

/-- Adds a node. An empty id is replaced by a new one made with the token. -/
def addNode (editor : Editor) (stageType : String) (config : Value) (id : String)
    (position : Entries Value) (token : String) : Except EditFault Edited :=
  let id := if id.isEmpty then newNodeId stageType token else id
  if editor.graph.nodes.contains id then .error (.duplicateNode id)
  else
    let node : Node := {
      id := id
      stageType := stageType
      config := initialConfig stageType config
      position := initialPosition position
      error := .null }
    .ok ((editor.withNodes (editor.graph.nodes.insert id node)).announced (some id))

/-- Removes the edge under an id together with the entry of its pair. -/
def dropEdge (editor : Editor) (entry : String × Edge) : Editor :=
  { editor with
    graph := { editor.graph with edges := editor.graph.edges.erase entry.1 }
    registry := editor.registry.erase (signature entry.2.source entry.2.target) }

/-- Whether an edge touches a node. -/
def touches (id : String) (edge : Edge) : Bool := edge.source == id || edge.target == id

/-- Removes a node and the edges that touch it. -/
def removeNode (editor : Editor) (id : String) : Except EditFault Edited := do
  let _ ← editor.node id
  let incident := editor.graph.edges.entries.filter fun entry => touches id entry.2
  let detached := incident.foldl dropEdge editor
  .ok ((detached.withNodes (detached.graph.nodes.erase id)).announced none)

/-- Gives a node another configuration and clears its error. -/
def updateConfig (editor : Editor) (id : String) (config : Value) : Except EditFault Edited := do
  let node ← editor.node id
  let node := { node with config := config, error := .null }
  .ok ((editor.withNodes (editor.graph.nodes.insert id node)).announced none)

/-- Moves a node; no compiled pipeline depends on that. -/
def moveNode (editor : Editor) (id : String) (position : Entries Value) :
    Except EditFault Edited := do
  let node ← editor.node id
  .ok ((editor.withNodes (editor.graph.nodes.insert id { node with position := position })).quiet
    none)

/-- The id of the edge that connects a pair of nodes. -/
def newEdgeId (source target : String) : String :=
  "edge_" ++ Text.Sha1.fingerprint (signature source target)

/-- The id that an edge between two nodes is registered with; an empty one does not count. -/
def registered? (editor : Editor) (source target : String) : Option String :=
  (editor.registry.get? (signature source target)).filter (!·.isEmpty)

/-- Connects two nodes; a pair that is connected keeps its edge. -/
def addEdge (editor : Editor) (source target : String) : Except EditFault Edited :=
  if !editor.graph.nodes.contains source then .error (.unknownSource source)
  else if !editor.graph.nodes.contains target then .error (.unknownTarget target)
  else
    match editor.registered? source target with
    | some id => .ok (editor.quiet (some id))
    | none =>
      let id := newEdgeId source target
      let graph := { editor.graph with
        edges := editor.graph.edges.insert id ⟨id, source, target⟩ }
      let next := { editor with
        graph := graph
        registry := editor.registry.insert (signature source target) id }
      .ok (next.announced (some id))

/-- Removes an edge. -/
def removeEdge (editor : Editor) (id : String) : Except EditFault Edited :=
  match editor.graph.edges.get? id with
  | some edge => .ok ((editor.dropEdge (id, edge)).announced none)
  | none => .error (.unknownEdge id)

/-- Clears the errors of all nodes. -/
def clearErrors (editor : Editor) : Editor :=
  editor.withNodes (editor.graph.nodes.mapValues fun node => { node with error := .null })

/-- Marks a node, if it is there, with what was found wrong. -/
def mark (editor : Editor) (id : String) (message : Value) : Editor :=
  editor.withNodes (editor.graph.nodes.modify id fun node => { node with error := message })

/-- The nodes before and after a node, one for each edge. -/
def neighbors (editor : Editor) (id : String) : Except EditFault Neighbors := do
  let _ ← editor.node id
  .ok {
    incoming := (editor.graph.edgeList.filter (·.target == id)).map (·.source)
    outgoing := (editor.graph.edgeList.filter (·.source == id)).map (·.target) }

/-- The saved form of the graph. -/
def toValue (editor : Editor) : Value := editor.graph.toValue

end Editor

/-- An operation on an editor, with its arguments. -/
inductive Edit where
  | addNode (stageType : String) (config : Value) (id : String) (position : Entries Value)
      (token : String)
  | removeNode (id : String)
  | updateConfig (id : String) (config : Value)
  | moveNode (id : String) (position : Entries Value)
  | addEdge (source target : String)
  | removeEdge (id : String)
  | clearErrors

/-- Performs an operation. -/
def Editor.apply (editor : Editor) : Edit → Except EditFault Edited
  | .addNode stageType config id position token =>
    editor.addNode stageType config id position token
  | .removeNode id => editor.removeNode id
  | .updateConfig id config => editor.updateConfig id config
  | .moveNode id position => editor.moveNode id position
  | .addEdge source target => editor.addEdge source target
  | .removeEdge id => editor.removeEdge id
  | .clearErrors => .ok (editor.clearErrors.quiet none)

end StageChain
