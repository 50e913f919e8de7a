import StageChain.Proofs.Graph.Reloading

/-!
# Loaded graphs are in normal form

Loading fills in what a saved graph leaves open: it looks for types and configurations in several
places, trims the ids of nodes, makes ids for edges and puts defaults for what counts as nothing
given. What it makes is `Normal`: everything is filled in. The saved form of a graph loads as the
same graph exactly if the graph is normal, `normal_iff_load`, so that loading is done once and for
all: `load_toValue_of_load`.
-/

namespace StageChain

/-! ## What is shown of values -/

theorem Decimal.significant_ne_nil (d : Decimal) : d.significant ≠ [] := by
  unfold significant
  split
  · simp
  · assumption

theorem Decimal.render_ne_nil (layout : DecimalLayout) (d : Decimal) : d.render layout ≠ [] := by
  have hdigits := d.significant_ne_nil
  simp only [render]
  split
  · split
    · unfold positional
      split <;> simp [hdigits]
    · simp
  · split <;> simp [exponentText]

theorem Double.text_ne_empty (x : Double) : x.text ≠ "" := by
  have hchars : x.chars ≠ [] := by
    cases x with
    | nan => decide
    | infinite negative => cases negative <;> decide
    | finite negative m =>
        have hmagnitude := Decimal.render_ne_nil fullLayout m.shortest
        cases negative
        · exact hmagnitude
        · exact List.cons_ne_nil _ _
  simpa [text] using hchars

/-- What counts as something given is shown as some text. -/
theorem Value.display_ne_empty {value : Value} (h : value.isVoid = false) :
    value.display ≠ "" := by
  cases value with
  | null => cases h
  | bool b => cases b <;> decide
  | int n =>
      have hdigits : Nat.toDigits 10 n.natAbs ≠ [] := Nat.toDigits_ne_nil
      show String.ofList (Text.integerChars n) ≠ ""
      unfold Text.integerChars
      split <;> simp [hdigits]
  | float x => exact x.text_ne_empty
  | text s => simpa [isVoid, display] using h
  | list items => simp [display, listing]
  | object entries => simp [display, listing]

namespace Graph

variable {graph : Graph} {saved : Entries Value}

/-! ## Normal graphs -/

/-- A node that is stored under an id, with everything filled in. -/
structure NormalNode (id : String) (node : Node) : Prop where
  node_id : node.id = id
  trimmed : Text.trim id = id
  named : id ≠ ""
  configured : node.config ≠ .null
  placed : node.position ≠ []

/-- A graph with everything filled in: nodes and edges are stored under their ids, which are not
empty, nodes have trimmed ids, a configuration and a position. Edges may join nodes that are not
there. -/
structure Normal (graph : Graph) : Prop where
  node : ∀ id node, graph.nodes.get? id = some node → NormalNode id node
  edge_id : ∀ id edge, graph.edges.get? id = some edge → edge.id = id
  edge_named : ∀ id edge, graph.edges.get? id = some edge → id ≠ ""

/-! ## What is loaded is normal -/

theorem savedConfig_ne_null (saved : Entries Value) : savedConfig saved ≠ .null := by
  simp only [savedConfig]
  split
  · simp
  · assumption
  · simp

theorem savedPosition_ne_nil {id : String} {position : Entries Value}
    (h : savedPosition id saved = .ok position) : position ≠ [] := by
  unfold savedPosition Value.given? at h
  split at h
  · cases h
    exact List.cons_ne_nil _ _
  · rename_i entries hgiven
    cases h
    rintro rfl
    split at hgiven
    · cases hgiven
    · rename_i hvoid
      rw [Option.some.inj hgiven] at hvoid
      exact hvoid rfl
  · cases h

theorem savedEdgeId_ne_empty (index : Nat) (saved : Entries Value) :
    savedEdgeId index saved ≠ "" := by
  unfold savedEdgeId Value.given?
  split
  · rename_i value hgiven
    split at hgiven
    · cases hgiven
    · rename_i hvoid
      rw [← Option.some.inj hgiven]
      exact Value.display_ne_empty (by simpa using hvoid)
  · simp

/-- A node that is loaded is stored under its trimmed id with everything filled in. -/
theorem exists_of_loadNode {nodes loaded : OrderedMap Node}
    (h : loadNode nodes saved = .ok loaded) :
    ∃ node, NormalNode (savedId saved) node ∧ loaded = nodes.insert (savedId saved) node := by
  simp only [loadNode, bind, Except.bind] at h
  split at h
  · cases h
  rename_i hnamed
  split at h
  · cases h
  split at h
  · cases h
  rename_i position hposition
  refine ⟨_, ⟨rfl, Text.trim_trim _, ?_, savedConfig_ne_null saved, savedPosition_ne_nil hposition⟩,
    (Except.ok.inj h).symm⟩
  simpa using hnamed

theorem normalNode_of_loadNodes {index : Nat} {nodes loaded : OrderedMap Node} {items : List Value}
    (hnodes : ∀ id node, nodes.get? id = some node → NormalNode id node)
    (h : loadNodes index nodes items = .ok loaded) :
    ∀ id node, loaded.get? id = some node → NormalNode id node := by
  induction items generalizing index nodes with
  | nil =>
      cases h
      exact hnodes
  | cons item rest ih =>
      cases item with
      | object saved =>
          simp only [loadNodes, bind, Except.bind] at h
          split at h
          · cases h
          rename_i next hnext
          obtain ⟨new, hnew, rfl⟩ := exists_of_loadNode hnext
          refine ih (fun id node hnode => ?_) h
          rw [OrderedMap.get?_insert] at hnode
          split at hnode
          · rename_i hid
            rwa [hid, ← Option.some.inj hnode]
          · exact hnodes id node hnode
      | _ => cases h

theorem edge_of_loadEdges {index : Nat} {edges loaded : OrderedMap Edge} {items : List Value}
    (hedges : ∀ id edge, edges.get? id = some edge → edge.id = id ∧ id ≠ "")
    (h : loadEdges index edges items = .ok loaded) :
    ∀ id edge, loaded.get? id = some edge → edge.id = id ∧ id ≠ "" := by
  induction items generalizing index edges with
  | nil =>
      cases h
      exact hedges
  | cons item rest ih =>
      cases item with
      | object saved =>
          refine ih (fun id edge hedge => ?_) h
          rw [OrderedMap.get?_insert] at hedge
          split at hedge
          · rename_i hid
            rw [hid, ← Option.some.inj hedge]
            exact ⟨rfl, savedEdgeId_ne_empty index saved⟩
          · exact hedges id edge hedge
      | _ => cases h

/-- A graph that is loaded has everything filled in. -/
theorem normal_of_ofValue {payload : Value} (h : ofValue payload = .ok graph) : graph.Normal := by
  have hnone : ∀ {α : Type} (id : String), (OrderedMap.empty : OrderedMap α).get? id = none :=
    fun _ => rfl
  obtain ⟨saved, nodes, edges, rfl, hfrom⟩ := exists_loadedFrom_of_ofValue h
  have hstored := edge_of_loadEdges (fun id edge hedge => by simp [hnone] at hedge) hfrom.loadEdges
  exact {
    node := normalNode_of_loadNodes (fun id node hnode => by simp [hnone] at hnode) hfrom.loadNodes
    edge_id := fun id edge hedge => (hstored id edge hedge).1
    edge_named := fun id edge hedge => (hstored id edge hedge).2 }

/-! ## What is normal is loaded as it is -/

theorem NormalNode.reloaded {id : String} {node : Node} (h : NormalNode id node) :
    node.reloaded = node := by
  have hid : Text.trim node.id = node.id := by rw [h.node_id, h.trimmed]
  have hplaced : node.position.isEmpty = false := by simpa using h.placed
  rw [Node.reloaded, Editor.initialPosition, hid, if_neg h.configured, hplaced]
  rfl

theorem Normal.node_id (h : graph.Normal) :
    ∀ id node, graph.nodes.get? id = some node → node.id = id :=
  fun id node hnode => (h.node id node hnode).node_id

/-- The nodes of a normal graph are loaded as they are. -/
theorem Normal.loadNodes (h : graph.Normal) :
    Graph.loadNodes 0 .empty (graph.nodes.values.map Node.toValue) = .ok graph.nodes := by
  have hnode : ∀ node ∈ graph.nodes.values, NormalNode node.id node := by
    intro node hmem
    obtain ⟨id, hget⟩ := OrderedMap.mem_values_iff.1 hmem
    have hnormal := h.node id node hget
    rwa [hnormal.node_id]
  have hentries : graph.nodes.values.map (fun node => (Text.trim node.id, node.reloaded)) =
      graph.nodes.entries := by
    rw [← map_values_eq_entries h.node_id]
    refine List.map_congr_left fun node hmem => ?_
    rw [(hnode node hmem).trimmed, (hnode node hmem).reloaded]
  refine loadNodes_eq_ok_iff.2 ⟨⟨fun node hmem => ?_, ?_⟩, ?_⟩
  · rw [(hnode node hmem).trimmed]
    exact (hnode node hmem).named
  · have hkeys := congrArg (List.map Prod.fst) hentries
    rw [List.map_map] at hkeys
    have hnodup : (graph.nodes.values.map fun node => Text.trim node.id).Nodup :=
      hkeys ▸ graph.nodes.nodup
    exact hnodup
  · rw [hentries]
    rfl

/-- The saved form of a graph loads as this very graph exactly if the graph is normal. -/
theorem normal_iff_load : graph.Normal ↔ ofValue graph.toValue = .ok graph := by
  refine ⟨fun h => ?_, normal_of_ofValue⟩
  rw [ofValue_toValue, h.loadNodes, loadEdges_edgeList h.edge_id h.edge_named]
  rfl

end Graph

/-- What is loaded is in normal form, and its saved form loads as the same graph, with the same
nodes and edges in the same order. -/
theorem Editor.load_toValue_of_load {payload : Value} {editor : Editor}
    (h : Editor.load payload = .ok editor) :
    editor.graph.Normal ∧ Editor.load editor.toValue = .ok editor := by
  unfold Editor.load at h
  cases hgraph : Graph.ofValue payload with
  | error fault => simp [hgraph, Except.map] at h
  | ok graph =>
      rw [hgraph] at h
      cases h
      have hnormal := Graph.normal_of_ofValue hgraph
      refine ⟨hnormal, ?_⟩
      show (Graph.ofValue graph.toValue).map Editor.ofGraph = .ok (.ofGraph graph)
      rw [Graph.normal_iff_load.1 hnormal]
      rfl

/-- A saved graph in two styles: a number for an id, a nested type and configuration, and three
edges of which one has the id that is made for another. -/
def flowSaved : Value :=
  .object [
    ("nodes", .list [
      .object [("id", .int 7), ("position", .object []),
        ("data", .object [("stageType", .text "$match"), ("config", .null)])],
      .object [("id", .text " b "), ("stage_type", .text ""), ("stageType", .text "$limit"),
        ("config", .object [("limit", .int 4)]), ("position", .object [("x", .int 1)]),
        ("error", .text "limit: is required")]]),
    ("edges", .list [
      .object [("source", .int 7), ("target", .text "b")],
      .object [("id", .text "edge_0"), ("source", .text "b"), ("target", .text "ghost")],
      .object [("id", .bool false), ("source", .text "b"), ("target", .null)]])]

/-- What `flowSaved` loads as. -/
def flowLoaded : Graph where
  nodes := ⟨[
    ("7", ⟨"7", "$match", .object [], Value.origin, .null⟩),
    ("b", ⟨"b", "$limit", .object [("limit", .int 4)], [("x", .int 1)],
      .text "limit: is required"⟩)], by decide⟩
  edges := ⟨[
    ("edge_0", ⟨"edge_0", "b", "ghost"⟩), ("edge_2", ⟨"edge_2", "b", "None"⟩)], by decide⟩

theorem load_flowSaved : Editor.load flowSaved = .ok (.ofGraph flowLoaded) := rfl

theorem load_toValue_flowSaved :
    Editor.load flowSaved = .ok (.ofGraph flowLoaded) ∧ flowLoaded.Normal ∧
      Editor.load flowLoaded.toValue = .ok (.ofGraph flowLoaded) :=
  ⟨load_flowSaved, Editor.load_toValue_of_load load_flowSaved⟩

end StageChain
