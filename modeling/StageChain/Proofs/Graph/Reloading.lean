import StageChain.Proofs.Graph.Loading
import StageChain.Proofs.Graph.Tidy

/-!
# Loading what was saved

The saved form of a graph lists its nodes and edges with all that they hold. Loading reads them back
except that it trims the ids of nodes, and only those: the ends of edges stay as they are. So the
saved form of a tidy graph loads exactly if the trimmed ids of its nodes are different and not empty
(`exists_load_iff`), and `ReloadsAs` says what it loads as.
-/

namespace StageChain

/-- What a node is loaded as: its id is trimmed, and null and nothing given are replaced. -/
def Node.reloaded (node : Node) : Node where
  id := Text.trim node.id
  stageType := node.stageType
  config := if node.config = .null then .object [] else node.config
  position := Editor.initialPosition node.position
  error := node.error

namespace Graph

variable {graph loaded : Graph}

/-- What a graph is loaded as from its saved form: all its nodes, under their trimmed ids, and all
its edges as they were. -/
structure ReloadsAs (graph loaded : Graph) : Prop where
  nodes : loaded.nodes.entries =
    graph.nodes.values.map fun node => (Text.trim node.id, node.reloaded)
  edges : loaded.edges = graph.edges

/-! ## Single nodes and edges -/

/-- The entries of the saved form of a node. -/
def savedNode (node : Node) : Entries Value :=
  [("id", .text node.id), ("stage_type", .text node.stageType), ("config", node.config),
    ("position", .object node.position), ("error", node.error)]

theorem savedId_savedNode (node : Node) : savedId (savedNode node) = Text.trim node.id := rfl

theorem savedStageType_savedNode (node : Node) :
    savedStageType (savedNode node) = node.stageType := by
  have hfirst : Value.field (savedNode node) "stage_type" = .text node.stageType := rfl
  have hsecond : Value.field (savedNode node) "stageType" = .null := rfl
  have hdata : nodeData (savedNode node) = [] := rfl
  simp only [savedStageType, hfirst, hsecond, hdata]
  by_cases hempty : node.stageType = ""
  · rw [hempty]
    rfl
  · have hvoid : (Value.text node.stageType).isVoid = false := by
      simpa [Value.isVoid] using hempty
    simp only [List.find?_cons, hvoid, Bool.not_false]
    rfl

theorem savedConfig_savedNode (node : Node) :
    savedConfig (savedNode node) = node.reloaded.config := by
  have hgiven : Entries.get? "config" (savedNode node) = some node.config := rfl
  simp only [savedConfig, hgiven, Option.orElse_some, Node.reloaded]
  split
  · rename_i hnull
    rw [if_pos (Option.some.inj hnull)]
  · rename_i config hnot hconfig
    rw [← Option.some.inj hconfig, if_neg fun hnull => hnot ?_]
    rw [← Option.some.inj hconfig, hnull]
  · rename_i hnone
    cases hnone

theorem savedPosition_savedNode (id : String) (node : Node) :
    savedPosition id (savedNode node) = .ok node.reloaded.position := by
  have hgiven : Value.field (savedNode node) "position" = .object node.position := rfl
  rw [savedPosition, hgiven, Node.reloaded, Editor.initialPosition, Value.given?, Value.isVoid]
  by_cases hempty : node.position.isEmpty = true
  · simp [hempty]
  · simp [hempty]

theorem loadNode_savedNode (nodes : OrderedMap Node) (node : Node) :
    loadNode nodes (savedNode node) =
      if (Text.trim node.id).isEmpty then .error .noId
      else if nodes.contains (Text.trim node.id) then .error (.duplicateId (Text.trim node.id))
      else .ok (nodes.insert (Text.trim node.id) node.reloaded) := by
  unfold loadNode
  simp only [savedId_savedNode, savedPosition_savedNode, savedStageType_savedNode,
    savedConfig_savedNode, bind, Except.bind]
  rfl

theorem savedEdge_saved {edge : Edge} (index : Nat) (hnamed : edge.id ≠ "") :
    savedEdge index [("id", .text edge.id), ("source", .text edge.source),
      ("target", .text edge.target)] = edge := by
  have hid : savedEdgeId index [("id", .text edge.id), ("source", .text edge.source),
      ("target", .text edge.target)] = edge.id := by
    have hvoid : (Value.text edge.id).isVoid = false := by simpa [Value.isVoid] using hnamed
    have hfield : Value.field [("id", .text edge.id), ("source", .text edge.source),
      ("target", .text edge.target)] "id" = .text edge.id := rfl
    rw [savedEdgeId, hfield, Value.given?, if_neg (by simp [hvoid])]
    rfl
  rw [savedEdge, hid]
  rfl

/-! ## All nodes and edges -/

/-- Nodes that come after others have ids that are not empty when trimmed, and new ones. -/
def Reloadable (taken : List String) (nodes : List Node) : Prop :=
  (∀ node ∈ nodes, Text.trim node.id ≠ "") ∧
    (taken ++ nodes.map fun node => Text.trim node.id).Nodup

theorem savedEntries_list {saved : Entries Value} {key : String} {items : List Value}
    (h : Value.field saved key = .list items) : savedEntries saved key = .ok items := by
  rw [savedEntries, h, Value.given?, Value.isVoid]
  cases items <;> rfl

theorem loadNodes_eq_ok_iff {index : Nat} {nodes result : OrderedMap Node} {list : List Node} :
    loadNodes index nodes (list.map Node.toValue) = .ok result ↔
      Reloadable nodes.keys list ∧
        result.entries = nodes.entries ++
          list.map fun node => (Text.trim node.id, node.reloaded) := by
  induction list generalizing index nodes with
  | nil =>
      have hnodup : nodes.keys.Nodup := nodes.nodup
      have hnil : loadNodes index nodes (([] : List Node).map Node.toValue) = .ok nodes := rfl
      rw [hnil]
      constructor
      · rintro ⟨⟩
        simpa [Reloadable] using hnodup
      · rintro ⟨-, hentries⟩
        cases result
        cases nodes
        simp_all
  | cons node rest ih =>
      have hcons : loadNodes index nodes ((node :: rest).map Node.toValue) =
          (loadNode nodes (savedNode node)).bind fun nodes =>
            loadNodes (index + 1) nodes (rest.map Node.toValue) := rfl
      rw [hcons, loadNode_savedNode]
      by_cases hempty : Text.trim node.id = ""
      · simp [hempty, Except.bind, Reloadable]
      by_cases hmem : Text.trim node.id ∈ nodes.keys
      · have hcontains : nodes.contains (Text.trim node.id) = true := by
          simpa [OrderedMap.contains] using hmem
        refine iff_of_false (by simp [hempty, hcontains, Except.bind]) fun h => ?_
        exact List.disjoint_of_nodup_append h.1.2 hmem (by simp)
      · have hcontains : nodes.contains (Text.trim node.id) = false := by
          simpa [OrderedMap.contains] using hmem
        have hreloadable : Reloadable nodes.keys (node :: rest) ↔
            Reloadable (nodes.keys ++ [Text.trim node.id]) rest := by
          simp [Reloadable, hempty]
        simp only [String.isEmpty_iff, hempty, hcontains, if_false, Except.bind, ih,
          OrderedMap.keys_insert_of_not_mem hmem, OrderedMap.entries_insert_of_not_mem hmem,
          hreloadable, List.map_cons, List.append_assoc, List.singleton_append, Bool.false_eq_true]

theorem loadEdges_saved (index : Nat) (edges : OrderedMap Edge) {list : List Edge}
    (hnamed : ∀ edge ∈ list, edge.id ≠ "") :
    ∃ result, loadEdges index edges (list.map Edge.toValue) = .ok result ∧
      result.entries = (list.map fun edge => (edge.id, edge)).foldl
        (fun entries pair => Entries.insert pair.1 pair.2 entries) edges.entries := by
  induction list generalizing index edges with
  | nil => exact ⟨edges, rfl, rfl⟩
  | cons edge rest ih =>
      obtain ⟨result, hload, hentries⟩ :=
        ih (index + 1) (edges.insert edge.id edge)
          fun other hother => hnamed other (List.mem_cons_of_mem _ hother)
      have hcons : loadEdges index edges ((edge :: rest).map Edge.toValue) =
          loadEdges (index + 1) (edges.insert edge.id edge) (rest.map Edge.toValue) := by
        have hedge := savedEdge_saved index (hnamed edge List.mem_cons_self)
        rw [List.map_cons, Edge.toValue, loadEdges, hedge]
      exact ⟨result, hcons.trans hload, hentries⟩

/-- The values of a map under keys that they hold themselves make up its entries. -/
theorem map_values_eq_entries {α : Type} {map : OrderedMap α} {key : α → String}
    (h : ∀ id value, map.get? id = some value → key value = id) :
    map.values.map (fun value => (key value, value)) = map.entries := by
  rw [OrderedMap.values, List.map_map]
  refine (List.map_congr_left fun entry hentry => ?_).trans (List.map_id _)
  obtain ⟨id, value⟩ := entry
  simp [h id value (OrderedMap.mem_entries_iff.1 hentry)]

/-- The edges of a graph that keeps them under their ids are loaded as they are. -/
theorem loadEdges_edgeList (hid : ∀ id edge, graph.edges.get? id = some edge → edge.id = id)
    (hnamed : ∀ id edge, graph.edges.get? id = some edge → id ≠ "") :
    loadEdges 0 .empty (graph.edgeList.map Edge.toValue) = .ok graph.edges := by
  have hnames : ∀ edge ∈ graph.edgeList, edge.id ≠ "" := by
    intro edge hedge
    obtain ⟨id, hget⟩ := OrderedMap.mem_values_iff.1 hedge
    rw [hid id edge hget]
    exact hnamed id edge hget
  obtain ⟨result, hload, hentries⟩ := loadEdges_saved 0 .empty hnames
  have hsame : result.entries = graph.edges.entries := by
    rw [hentries, edgeList, map_values_eq_entries hid]
    exact Entries.collect_of_nodup graph.edges.nodup
  rw [hload]
  cases result
  cases hedges : graph.edges
  simp_all

/-- To load a saved graph is to load its nodes and its edges. -/
theorem ofValue_toValue (graph : Graph) : ofValue graph.toValue =
    (loadNodes 0 .empty (graph.nodes.values.map Node.toValue)).bind fun nodes =>
      (loadEdges 0 .empty (graph.edgeList.map Edge.toValue)).bind fun edges =>
        .ok ⟨nodes, edges⟩ := by
  have hnodes : savedEntries [("nodes", .list (graph.nodes.values.map Node.toValue)),
      ("edges", .list (graph.edgeList.map Edge.toValue))] "nodes" =
        .ok (graph.nodes.values.map Node.toValue) := savedEntries_list rfl
  have hedges : savedEntries [("nodes", .list (graph.nodes.values.map Node.toValue)),
      ("edges", .list (graph.edgeList.map Edge.toValue))] "edges" =
        .ok (graph.edgeList.map Edge.toValue) := savedEntries_list rfl
  rw [toValue, ofValue, hnodes, hedges]
  rfl

namespace Tidy

/-- The ids of the nodes that are stored are the ids under which they are. -/
theorem map_id_values (h : graph.Tidy) : graph.nodes.values.map (·.id) = graph.nodeIds := by
  have hentries := congrArg (List.map Prod.fst) (map_values_eq_entries h.node_id)
  simpa [Function.comp_def, nodeIds, OrderedMap.keys, Entries.keys] using hentries

theorem reloadable_iff (h : graph.Tidy) : Reloadable [] graph.nodes.values ↔
    (∀ id ∈ graph.nodeIds, Text.trim id ≠ "") ∧ (graph.nodeIds.map Text.trim).Nodup := by
  rw [Reloadable, ← h.map_id_values]
  simp [Function.comp_def]

theorem load_eq_ok_iff (h : graph.Tidy) {editor : Editor} :
    Editor.load graph.toValue = .ok editor ↔
      ((∀ id ∈ graph.nodeIds, Text.trim id ≠ "") ∧ (graph.nodeIds.map Text.trim).Nodup) ∧
        ∃ loaded, editor = .ofGraph loaded ∧ graph.ReloadsAs loaded := by
  rw [Editor.load, ofValue_toValue, loadEdges_edgeList h.edge_id h.edge_named, ← h.reloadable_iff]
  constructor
  · intro hload
    cases hnodes : loadNodes 0 .empty (graph.nodes.values.map Node.toValue) with
    | error fault => simp [hnodes, Except.bind, Except.map] at hload
    | ok nodes =>
        rw [hnodes] at hload
        obtain ⟨hreloadable, hentries⟩ := loadNodes_eq_ok_iff.1 hnodes
        exact ⟨hreloadable, ⟨nodes, graph.edges⟩, (Except.ok.inj hload).symm, hentries, rfl⟩
  · rintro ⟨hreloadable, ⟨nodes, edges⟩, rfl, hentries, hedges⟩
    have hnodes : loadNodes 0 .empty (graph.nodes.values.map Node.toValue) = .ok nodes :=
      loadNodes_eq_ok_iff.2 ⟨hreloadable, hentries⟩
    obtain rfl : edges = graph.edges := hedges
    rw [hnodes]
    rfl

/-- The saved form of a tidy graph loads exactly if its ids are different and not empty when they
are trimmed. -/
theorem exists_load_iff (h : graph.Tidy) :
    (∃ editor, Editor.load graph.toValue = .ok editor) ↔
      (∀ id ∈ graph.nodeIds, Text.trim id ≠ "") ∧ (graph.nodeIds.map Text.trim).Nodup := by
  simp only [h.load_eq_ok_iff]
  constructor
  · rintro ⟨-, hids, -⟩
    exact hids
  · intro hids
    let entries := graph.nodes.values.map fun node => (Text.trim node.id, node.reloaded)
    have hkeys : Entries.keys entries = graph.nodeIds.map Text.trim := by
      rw [← h.map_id_values]
      simp [entries, Entries.keys, Function.comp_def]
    exact ⟨_, hids, ⟨⟨entries, hkeys ▸ hids.2⟩, graph.edges⟩, rfl, rfl, rfl⟩

end Tidy

/-! ## What is loaded -/

namespace ReloadsAs

theorem edgeList_eq (h : graph.ReloadsAs loaded) : loaded.edgeList = graph.edgeList :=
  congrArg OrderedMap.values h.edges

theorem nodeIds_eq (h : graph.ReloadsAs loaded) (htidy : graph.Tidy) :
    loaded.nodeIds = graph.nodeIds.map Text.trim := by
  rw [← htidy.map_id_values, nodeIds, OrderedMap.keys, h.nodes]
  simp [Entries.keys, Function.comp_def]

/-- Whatever is loaded is trimmed. -/
theorem trim_eq (h : graph.ReloadsAs loaded) (htidy : graph.Tidy) {id : String}
    (hid : id ∈ loaded.nodeIds) : Text.trim id = id := by
  rw [h.nodeIds_eq htidy] at hid
  obtain ⟨old, -, rfl⟩ := List.mem_map.1 hid
  exact Text.trim_trim old

theorem get?_trim (h : graph.ReloadsAs loaded) (htidy : graph.Tidy) {id : String} {node : Node}
    (hnode : graph.nodes.get? id = some node) :
    loaded.nodes.get? (Text.trim id) = some node.reloaded := by
  rw [← OrderedMap.mem_entries_iff, h.nodes, ← htidy.node_id id node hnode]
  exact List.mem_map.2 ⟨node, OrderedMap.mem_values_iff.2 ⟨id, hnode⟩, rfl⟩

end ReloadsAs

end Graph

end StageChain
