import StageChain.Proofs.Entries
import StageChain.Proofs.Graph.Registry

/-!
# Graphs that are built by editing

Whatever is done to an editor that starts out empty, its graph is `Tidy`: nodes and edges are stored
under their ids, no id is empty, and edges join nodes that are there. Unlike the registry of edges,
this does not depend on which fingerprints the signatures of edges have.
-/

namespace StageChain

/-- Nodes and edges are stored under their ids, which are not empty, and edges join nodes. -/
structure Graph.Tidy (graph : Graph) : Prop where
  node_id : ∀ id node, graph.nodes.get? id = some node → node.id = id
  edge_id : ∀ id edge, graph.edges.get? id = some edge → edge.id = id
  node_named : ∀ id node, graph.nodes.get? id = some node → id ≠ ""
  edge_named : ∀ id edge, graph.edges.get? id = some edge → id ≠ ""
  joins : ∀ id edge, graph.edges.get? id = some edge →
    edge.source ∈ graph.nodeIds ∧ edge.target ∈ graph.nodeIds

namespace Editor

variable {editor : Editor} {id : String}

/-! ## What remains without the edges of a node -/

theorem get?_edges_foldl_dropEdge (entries : Entries Edge) {key : String} {edge : Edge} :
    (entries.foldl dropEdge editor).graph.edges.get? key = some edge ↔
      key ∉ Entries.keys entries ∧ editor.graph.edges.get? key = some edge := by
  induction entries generalizing editor with
  | nil => simp [Entries.keys]
  | cons entry rest ih =>
      have herase : (editor.dropEdge entry).graph.edges.get? key =
          if key = entry.1 then none else editor.graph.edges.get? key := OrderedMap.get?_erase
      have hkeys : key ∈ Entries.keys (entry :: rest) ↔
          key = entry.1 ∨ key ∈ Entries.keys rest := List.mem_cons
      rw [List.foldl_cons, ih, herase, hkeys]
      by_cases hkey : key = entry.1 <;> simp [hkey]

/-- The ids of the edges that touch a node are not those of other edges. -/
theorem mem_keys_filter_touches {entry : String × Edge}
    (hentry : entry ∈ editor.graph.edges.entries) :
    entry.1 ∈ Entries.keys (editor.graph.edges.entries.filter fun entry => touches id entry.2) ↔
      touches id entry.2 = true := by
  constructor
  · intro hmem
    obtain ⟨other, hother, heq⟩ := List.mem_map.1 hmem
    obtain ⟨hother, htouches⟩ := List.mem_filter.1 hother
    -- an id has one edge, so the other entry is this one
    rwa [← List.inj_on_of_nodup_map editor.graph.edges.nodup hother hentry heq]
  · intro htouches
    exact List.mem_map_of_mem (List.mem_filter.2 ⟨hentry, htouches⟩)

/-- The edges that are left are those that do not touch the node. -/
theorem get?_edges_detached {key : String} {edge : Edge} :
    (editor.detached id).graph.edges.get? key = some edge ↔
      editor.graph.edges.get? key = some edge ∧ touches id edge = false := by
  rw [detached, get?_edges_foldl_dropEdge, and_comm]
  refine and_congr_right fun hget => ?_
  rw [mem_keys_filter_touches (OrderedMap.mem_entries_iff.2 hget), Bool.not_eq_true]

/-- What touches a node starts or ends there. -/
theorem touches_eq_false_iff {edge : Edge} :
    touches id edge = false ↔ edge.source ≠ id ∧ edge.target ≠ id := by
  simp [touches]

theorem newNodeId_ne_empty (stageType token : String) : newNodeId stageType token ≠ "" := by
  simp [newNodeId]

end Editor

/-! ## Every operation keeps a graph tidy -/

namespace Graph.Tidy

variable {editor : Editor} {id : String}

theorem empty : Editor.empty.graph.Tidy := by
  constructor <;> simp [Editor.empty, Editor.ofGraph, Graph.empty, OrderedMap.empty,
    OrderedMap.get?, Entries.get?]

/-- A node may be stored under its own id. -/
theorem insertNode (h : editor.graph.Tidy) {node : Node} (hid : node.id = id) (hnamed : id ≠ "") :
    (editor.withNodes (editor.graph.nodes.insert id node)).graph.Tidy := by
  constructor
  case node_id =>
    intro other stored hstored
    rw [Editor.withNodes, OrderedMap.get?_insert] at hstored
    split at hstored
    · rename_i hother
      rw [← Option.some.inj hstored, hid, hother]
    · exact h.node_id other stored hstored
  case edge_id => exact h.edge_id
  case node_named =>
    intro other stored hstored
    rw [Editor.withNodes, OrderedMap.get?_insert] at hstored
    split at hstored
    · rename_i hother
      rwa [hother]
    · exact h.node_named other stored hstored
  case edge_named => exact h.edge_named
  case joins =>
    intro other edge hedge
    obtain ⟨hsource, htarget⟩ := h.joins other edge hedge
    exact ⟨OrderedMap.mem_keys_insert_iff.2 (.inr hsource),
      OrderedMap.mem_keys_insert_iff.2 (.inr htarget)⟩

/-- Some edges may be left out. -/
theorem withoutEdges (h : editor.graph.Tidy) {next : Editor}
    (hnodes : next.graph.nodes = editor.graph.nodes)
    (hedges : ∀ id edge, next.graph.edges.get? id = some edge →
      editor.graph.edges.get? id = some edge) : next.graph.Tidy where
  node_id := by rw [hnodes]; exact h.node_id
  edge_id := fun id edge hedge => h.edge_id id edge (hedges id edge hedge)
  node_named := by rw [hnodes]; exact h.node_named
  edge_named := fun id edge hedge => h.edge_named id edge (hedges id edge hedge)
  joins := by
    intro id edge hedge
    rw [nodeIds, hnodes]
    exact h.joins id edge (hedges id edge hedge)

/-- A node may be removed together with the edges that touch it. -/
theorem removeNode (h : editor.graph.Tidy) (id : String) :
    ((editor.detached id).withNodes
      ((editor.detached id).graph.nodes.erase id)).graph.Tidy := by
  have hnodes : (editor.detached id).graph.nodes = editor.graph.nodes :=
    Editor.nodes_foldl_dropEdge _
  have hdetached : (editor.detached id).graph.Tidy :=
    h.withoutEdges hnodes fun _ _ hedge => (Editor.get?_edges_detached.1 hedge).1
  have hold : ∀ other node, ((editor.detached id).graph.nodes.erase id).get? other = some node →
      (editor.detached id).graph.nodes.get? other = some node := by
    intro other node hnode
    rw [OrderedMap.get?_erase] at hnode
    split at hnode
    · cases hnode
    · exact hnode
  constructor
  case node_id => exact fun other node hnode => hdetached.node_id other node (hold other node hnode)
  case edge_id => exact hdetached.edge_id
  case node_named =>
    exact fun other node hnode => hdetached.node_named other node (hold other node hnode)
  case edge_named => exact hdetached.edge_named
  case joins =>
    intro other edge hedge
    obtain ⟨-, huntouched⟩ := Editor.get?_edges_detached.1 hedge
    obtain ⟨hsource, htarget⟩ := Editor.touches_eq_false_iff.1 huntouched
    obtain ⟨hsourceIn, htargetIn⟩ := hdetached.joins other edge hedge
    exact ⟨OrderedMap.mem_keys_erase_iff.2 ⟨hsource, hsourceIn⟩,
      OrderedMap.mem_keys_erase_iff.2 ⟨htarget, htargetIn⟩⟩

/-- Two nodes that are there may be joined, even if that replaces another edge. -/
theorem insertEdge (h : editor.graph.Tidy) (edge : Edge) (hnamed : edge.id ≠ "")
    (hsource : edge.source ∈ editor.graph.nodeIds) (htarget : edge.target ∈ editor.graph.nodeIds) :
    Graph.Tidy ⟨editor.graph.nodes, editor.graph.edges.insert edge.id edge⟩ := by
  have hcases : ∀ id stored, (editor.graph.edges.insert edge.id edge).get? id = some stored →
      id = edge.id ∧ stored = edge ∨ editor.graph.edges.get? id = some stored := by
    intro id stored hstored
    rw [OrderedMap.get?_insert] at hstored
    split at hstored
    · rename_i hid
      exact .inl ⟨hid, (Option.some.inj hstored).symm⟩
    · exact .inr hstored
  constructor
  case node_id => exact h.node_id
  case edge_id =>
    intro id stored hstored
    rcases hcases id stored hstored with ⟨rfl, rfl⟩ | hold
    · rfl
    · exact h.edge_id id stored hold
  case node_named => exact h.node_named
  case edge_named =>
    intro id stored hstored
    rcases hcases id stored hstored with ⟨rfl, rfl⟩ | hold
    · exact hnamed
    · exact h.edge_named id stored hold
  case joins =>
    intro id stored hstored
    rcases hcases id stored hstored with ⟨rfl, rfl⟩ | hold
    · exact ⟨hsource, htarget⟩
    · exact h.joins id stored hold

theorem clearErrors (h : editor.graph.Tidy) : editor.clearErrors.graph.Tidy := by
  have hold : ∀ id node, editor.clearErrors.graph.nodes.get? id = some node →
      ∃ old, editor.graph.nodes.get? id = some old ∧ node.id = old.id := by
    intro id node hnode
    rw [Editor.clearErrors, Editor.withNodes, OrderedMap.get?_mapValues] at hnode
    obtain ⟨old, hold, rfl⟩ := Option.map_eq_some_iff.1 hnode
    exact ⟨old, hold, rfl⟩
  constructor
  case node_id =>
    intro id node hnode
    obtain ⟨old, hold, hid⟩ := hold id node hnode
    rw [hid, h.node_id id old hold]
  case edge_id => exact h.edge_id
  case node_named =>
    intro id node hnode
    obtain ⟨old, hold, -⟩ := hold id node hnode
    exact h.node_named id old hold
  case edge_named => exact h.edge_named
  case joins =>
    intro id edge hedge
    have hkeys : editor.clearErrors.graph.nodeIds = editor.graph.nodeIds :=
      OrderedMap.keys_mapValues _
    rw [hkeys]
    exact h.joins id edge hedge

theorem apply (h : editor.graph.Tidy) {edit : Edit} {edited : Edited}
    (hedit : editor.apply edit = .ok edited) : edited.editor.graph.Tidy := by
  cases Editor.applies_of_apply hedit with
  | nodeAdded stageType config given id position token hid =>
      refine h.insertNode rfl ?_
      rw [hid]
      split
      · exact Editor.newNodeId_ne_empty stageType token
      · rename_i hgiven
        exact fun hempty => hgiven (by rw [hempty]; rfl)
  | nodeRemoved id => exact h.removeNode id
  | configured id config node hnode | moved id position node hnode =>
      exact h.insertNode (h.node_id id node hnode) (h.node_named id node hnode)
  | connected => exact h
  | edgeAdded source target hsource htarget =>
      have hnew := Editor.newEdgeId_ne_empty source target
      refine h.insertEdge ⟨_, source, target⟩ hnew ?_ ?_
      · simpa [Graph.nodeIds, OrderedMap.contains] using hsource
      · simpa [Graph.nodeIds, OrderedMap.contains] using htarget
  | edgeRemoved id edge hedge =>
      refine h.withoutEdges rfl fun other stored hstored => ?_
      exact ((Editor.get?_edges_foldl_dropEdge [(id, edge)]).1 hstored).2
  | cleared => exact h.clearErrors

/-- Whatever is done, a tidy graph stays tidy. -/
theorem performAll (h : editor.graph.Tidy) (edits : List Edit) :
    (editor.performAll edits).graph.Tidy := by
  induction edits generalizing editor with
  | nil => exact h
  | cons edit rest ih =>
      refine ih ?_
      rw [Editor.perform]
      split
      · rename_i edited hedit
        exact h.apply hedit
      · exact h

end Graph.Tidy

end StageChain
