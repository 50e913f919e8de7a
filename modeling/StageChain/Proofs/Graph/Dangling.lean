import StageChain.Proofs.Graph.Connecting
import StageChain.Proofs.Graph.Normal
import StageChain.Proofs.Graph.Removal

/-!
# Dangling edges

An edge dangles if it has an end that is not a node. No operation makes such an edge: two nodes have
to be there to be connected, and a node that is removed takes all its edges with it. So an edge that
dangles was loaded like that: `dangled_before_performAll`.

Compiling reports all edges that dangle, whatever else is wrong with the graph, as long as there is
a node: `tellsDangling_of_load`. A graph without nodes is the empty chain before its edges are
looked at.
-/

namespace StageChain

/-! ## Edges that dangle -/

namespace Graph

variable {graph later last : Graph} {edge : Edge}

theorem isDangling_eq_true_iff : graph.isDangling edge = true ↔
    edge.source ∉ graph.nodeIds ∨ edge.target ∉ graph.nodeIds := by
  rw [isDangling, Bool.not_eq_true', Bool.and_eq_false_iff, OrderedMap.contains_eq_false_iff,
    OrderedMap.contains_eq_false_iff]
  rfl

theorem hasDanglingEdge_iff_get? : graph.HasDanglingEdge ↔
    ∃ id edge, graph.edges.get? id = some edge ∧ graph.isDangling edge = true := by
  constructor
  · rintro ⟨edge, hedge, hends⟩
    obtain ⟨id, hget⟩ := OrderedMap.mem_values_iff.1 hedge
    exact ⟨id, edge, hget, isDangling_eq_true_iff.2 hends⟩
  · rintro ⟨id, edge, hget, hdangling⟩
    exact ⟨edge, OrderedMap.mem_values_iff.2 ⟨id, hget⟩, isDangling_eq_true_iff.1 hdangling⟩

/-- An edge of the later graph that dangles was there before, with the same id and the same ends,
and dangled then. -/
def AddsNoDangling (graph later : Graph) : Prop :=
  ∀ id edge, later.edges.get? id = some edge → later.isDangling edge = true →
    graph.edges.get? id = some edge ∧ graph.isDangling edge = true

theorem AddsNoDangling.refl (graph : Graph) : graph.AddsNoDangling graph :=
  fun _ _ hedge hdangling => ⟨hedge, hdangling⟩

theorem AddsNoDangling.trans (hfirst : graph.AddsNoDangling later)
    (hsecond : later.AddsNoDangling last) : graph.AddsNoDangling last := by
  intro id edge hedge hdangling
  obtain ⟨hbefore, hdangled⟩ := hsecond id edge hedge hdangling
  exact hfirst id edge hbefore hdangled

/-- Where no edge dangled before, none does. -/
theorem AddsNoDangling.not_hasDanglingEdge (h : graph.AddsNoDangling later)
    (hnone : ¬ graph.HasDanglingEdge) : ¬ later.HasDanglingEdge := by
  intro hlater
  obtain ⟨id, edge, hedge, hdangling⟩ := hasDanglingEdge_iff_get?.1 hlater
  exact hnone (hasDanglingEdge_iff_get?.2 ⟨id, edge, h id edge hedge hdangling⟩)

/-! ## What is reported of them -/

theorem linearize_of_hasDanglingEdge (hne : graph.nodeIds ≠ []) (h : graph.HasDanglingEdge) :
    graph.linearize = .error (.dangling graph.danglingEdges) := by
  simp [linearize, hne, hasDanglingEdge_iff.1 h]

theorem failsAs_dangling_iff : FailsAs graph.linearize "dangling" ↔
    graph.nodeIds ≠ [] ∧ graph.HasDanglingEdge := by
  by_cases hne : graph.nodeIds = []
  · have horder : graph.linearize = .ok [] := by simp [linearize, hne]
    rw [horder]
    exact iff_of_false not_failsAs_ok fun h => h.1 hne
  · rw [(verdict_linearize hne).dangling_iff, and_iff_right hne]

end Graph

/-! ## Operations make none -/

namespace Editor

variable {editor : Editor} {edit : Edit} {id key : String} {edge : Edge}

/-- A node stays unless it is removed. -/
theorem mem_nodeIds_perform (h : id ∈ editor.graph.nodeIds) :
    id ∈ (editor.perform edit).graph.nodeIds ∨ edit = .removeNode id := by
  cases hedit : editor.apply edit with
  | error fault =>
      rw [perform_of_error hedit]
      exact .inl h
  | ok edited =>
      rw [perform_of_ok hedit]
      cases applies_of_apply hedit with
      | connected | edgeAdded | edgeRemoved => exact .inl h
      | nodeAdded | configured | moved => exact .inl (OrderedMap.mem_keys_insert_iff.2 (.inr h))
      | nodeRemoved other =>
          by_cases hid : id = other
          · exact .inr (by rw [hid])
          · have hdetached : (editor.detached other).graph.nodes = editor.graph.nodes :=
              nodes_foldl_dropEdge _
            refine .inl (OrderedMap.mem_keys_erase_iff.2 ⟨hid, ?_⟩)
            rw [hdetached]
            exact h
      | cleared =>
          have hkeys : editor.clearErrors.graph.nodeIds = editor.graph.nodeIds :=
            (sameStages_clearErrors editor).nodeIds
          exact .inl (hkeys.symm ▸ h)

/-- A node that is there can be removed, and takes all its edges with it. -/
theorem exists_removeNode_detached (h : id ∈ editor.graph.nodeIds) :
    ∃ edited, editor.removeNode id = .ok edited ∧
      ∀ edge ∈ edited.editor.graph.edgeList, edge.source ≠ id ∧ edge.target ≠ id := by
  obtain ⟨edited, hedited, hwithout⟩ := exists_removeNode h
  refine ⟨edited, hedited, fun edge hedge => ?_⟩
  rw [hwithout.edgeList, List.mem_filter, Bool.not_eq_true'] at hedge
  exact touches_eq_false_iff.1 hedge.2

/-- An edge that is there after an operation does not touch a node that is gone since. -/
theorem ends_ne_of_gone (h : id ∈ editor.graph.nodeIds)
    (hgone : id ∉ (editor.perform edit).graph.nodeIds)
    (hedge : (editor.perform edit).graph.edges.get? key = some edge) :
    edge.source ≠ id ∧ edge.target ≠ id := by
  obtain rfl := (mem_nodeIds_perform h).resolve_left hgone
  obtain ⟨edited, hedited, huntouched⟩ := exists_removeNode_detached h
  have happly : editor.apply (.removeNode id) = .ok edited := hedited
  rw [perform_of_ok happly] at hedge
  exact huntouched edge (OrderedMap.mem_values_iff.2 ⟨key, hedge⟩)

theorem addsNoDangling_perform (editor : Editor) (edit : Edit) :
    editor.graph.AddsNoDangling (editor.perform edit).graph := by
  intro id edge hedge hdangling
  rw [Graph.isDangling_eq_true_iff] at hdangling ⊢
  rcases get?_edges_of_perform hedge with hold | ⟨hmade, -⟩
  · refine ⟨hold, ?_⟩
    by_contra hjoined
    obtain ⟨hsource, htarget⟩ := not_or.1 hjoined
    -- an end that was a node and is none any more was removed, and the edge with it
    rcases hdangling with hgone | hgone
    · exact (ends_ne_of_gone (not_not.1 hsource) hgone hedge).1 rfl
    · exact (ends_ne_of_gone (not_not.1 htarget) hgone hedge).2 rfl
  · obtain ⟨rfl, hsource, htarget, -⟩ := made?_eq_some_iff.1 hmade
    -- connecting removes no node
    have hstays : ∀ node ∈ editor.graph.nodeIds,
        node ∈ (editor.perform (.addEdge edge.source edge.target)).graph.nodeIds :=
      fun node hnode => (mem_nodeIds_perform hnode).resolve_right (by simp)
    rcases hdangling with hgone | hgone
    · exact absurd (hstays _ hsource) hgone
    · exact absurd (hstays _ htarget) hgone

theorem addsNoDangling_performAll (edits : List Edit) :
    editor.graph.AddsNoDangling (editor.performAll edits).graph := by
  induction edits generalizing editor with
  | nil => exact .refl _
  | cons edit rest ih => exact (addsNoDangling_perform editor edit).trans ih

theorem not_hasDanglingEdge_empty : ¬ Editor.empty.graph.HasDanglingEdge := nofun

/-- Whatever is done to an editor, and at each step of it, an edge that dangles did so before, and
removing a node leaves no edge of it. So an editor that starts out empty has no edge that dangles,
and listing its chain never fails for one. -/
theorem dangled_before_performAll (editor : Editor) (edits : List Edit) :
    (∀ edit, (editor.performAll edits).graph.AddsNoDangling
      ((editor.performAll edits).perform edit).graph) ∧
    editor.graph.AddsNoDangling (editor.performAll edits).graph ∧
    ¬ (Editor.empty.performAll edits).graph.HasDanglingEdge ∧
    ¬ Graph.FailsAs (Editor.empty.performAll edits).graph.linearize "dangling" ∧
    (∀ id ∈ (editor.performAll edits).graph.nodeIds, ∃ edited,
      (editor.performAll edits).removeNode id = .ok edited ∧
        ∀ edge ∈ edited.editor.graph.edgeList, edge.source ≠ id ∧ edge.target ≠ id) := by
  have hnone : ¬ (Editor.empty.performAll edits).graph.HasDanglingEdge :=
    (addsNoDangling_performAll edits).not_hasDanglingEdge not_hasDanglingEdge_empty
  refine ⟨addsNoDangling_perform _, addsNoDangling_performAll edits, hnone, ?_, ?_⟩
  · rw [Graph.failsAs_dangling_iff]
    exact fun h => hnone h.2
  · exact fun id hid => exists_removeNode_detached hid

/-- A third node for `flowLoaded`, and an edge to it. -/
def flowEdits : List Edit := [.addNode "$skip" .null "c" [] "", .addEdge "b" "c"]

/-- One of the edges that dangle after these operations, and the removal of a node with three edges,
of which two dangle. -/
theorem dangled_before_flowEdits :
    ((ofGraph flowLoaded).performAll flowEdits).HasEdge "edge_0" "b" "ghost" ∧
      ((ofGraph flowLoaded).performAll flowEdits).graph.isDangling ⟨"edge_0", "b", "ghost"⟩ = true ∧
      (ofGraph flowLoaded).HasEdge "edge_0" "b" "ghost" ∧
      flowLoaded.isDangling ⟨"edge_0", "b", "ghost"⟩ = true ∧
      ∃ edited, ((ofGraph flowLoaded).performAll flowEdits).removeNode "b" = .ok edited ∧
        ∀ edge ∈ edited.editor.graph.edgeList, edge.source ≠ "b" ∧ edge.target ≠ "b" := by
  obtain ⟨-, hrun, -, -, hremoves⟩ := dangled_before_performAll (ofGraph flowLoaded) flowEdits
  have hedge : ((ofGraph flowLoaded).performAll flowEdits).HasEdge "edge_0" "b" "ghost" := by
    decide +kernel
  have hdangling : ((ofGraph flowLoaded).performAll flowEdits).graph.isDangling
      ⟨"edge_0", "b", "ghost"⟩ = true := by decide +kernel
  obtain ⟨hbefore, hdangled⟩ := hrun _ _ hedge hdangling
  exact ⟨hedge, hdangling, hbefore, hdangled, hremoves "b" (by decide +kernel)⟩

end Editor

/-! ## Loaded graphs -/

namespace Graph

variable {graph : Graph} {payload : Value}

/-- Every saved node that is loaded adds a node. -/
theorem keys_loadNodes_eq_nil_iff {index : Nat} {nodes loaded : OrderedMap Node}
    {items : List Value} (h : loadNodes index nodes items = .ok loaded) :
    loaded.keys = [] ↔ nodes.keys = [] ∧ items = [] := by
  induction items generalizing index nodes with
  | nil =>
      cases h
      simp
  | cons item rest ih =>
      cases item with
      | object saved =>
          simp only [loadNodes, bind, Except.bind] at h
          split at h
          · cases h
          rename_i next hnext
          obtain ⟨new, -, rfl⟩ := exists_of_loadNode hnext
          have hnew : (nodes.insert (savedId saved) new).keys ≠ [] :=
            List.ne_nil_of_mem (OrderedMap.mem_keys_insert_iff.2 (.inl rfl))
          rw [ih h]
          simp [hnew]
      | _ => cases h

/-- A loaded graph has a node exactly if one was saved. -/
theorem nodeIds_eq_nil_iff_of_ofValue (h : ofValue payload = .ok graph) : graph.nodeIds = [] ↔
    ∃ saved, payload = .object saved ∧ savedEntries saved "nodes" = .ok [] := by
  obtain ⟨saved, nodes, edges, rfl, hfrom⟩ := exists_loadedFrom_of_ofValue h
  have hkeys : graph.nodeIds = [] ↔ nodes = [] :=
    (keys_loadNodes_eq_nil_iff hfrom.loadNodes).trans (and_iff_right rfl)
  simp [hkeys, hfrom.savedNodes]

/-- The ids that are reported are those of the edges that dangle. -/
theorem Normal.mem_danglingEdges_iff (h : graph.Normal) (id : String) :
    id ∈ graph.danglingEdges ↔
      ∃ edge, graph.edges.get? id = some edge ∧ graph.isDangling edge = true := by
  rw [danglingEdges, List.mem_map]
  constructor
  · rintro ⟨edge, hedge, rfl⟩
    obtain ⟨hmem, hdangling⟩ := List.mem_filter.1 hedge
    obtain ⟨key, hget⟩ := OrderedMap.mem_values_iff.1 hmem
    obtain rfl := h.edge_id key edge hget
    exact ⟨edge, hget, hdangling⟩
  · rintro ⟨edge, hget, hdangling⟩
    exact ⟨edge, List.mem_filter.2 ⟨OrderedMap.mem_values_iff.2 ⟨id, hget⟩, hdangling⟩,
      h.edge_id id edge hget⟩

/-- Compiling reports the edges that dangle, and gives no order and no pipeline. -/
def ReportsDangling (graph : Graph) : Prop :=
  graph.compile = .ok ⟨[], .error (.structural "dangling"
    ("Edges reference unknown nodes: " ++ ChainFault.listed graph.danglingEdges) [])⟩

/-- What compiling tells of a graph that was loaded with edges that dangle. -/
structure TellsDangling (payload : Value) (graph : Graph) : Prop where
  /-- They are reported exactly if there is a node. -/
  reports_iff : graph.ReportsDangling ↔ graph.nodeIds ≠ []
  /-- None is left out of the report, and no other edge is in it. -/
  mem_iff : ∀ id, id ∈ graph.danglingEdges ↔
    ∃ edge, graph.edges.get? id = some edge ∧ graph.isDangling edge = true
  /-- Without a node they are passed over, and the pipeline is empty. -/
  passesOver_iff : graph.compile = .ok ⟨[], .ok .empty⟩ ↔ graph.nodeIds = []
  /-- There is a node exactly if one was saved. -/
  nodeIds_iff : graph.nodeIds = [] ↔
    ∃ saved, payload = .object saved ∧ savedEntries saved "nodes" = .ok []

/-- Compiling a loaded graph with edges that dangle reports all of them, whatever else is wrong with
the graph, unless there is no node at all. -/
theorem tellsDangling_of_load {editor : Editor} (h : Editor.load payload = .ok editor)
    (hdangling : editor.graph.HasDanglingEdge) : TellsDangling payload editor.graph := by
  obtain ⟨graph, hgraph, rfl⟩ := Editor.exists_of_load h
  have hreports : graph.nodeIds ≠ [] → graph.ReportsDangling := fun hne =>
    compile_eq_of_reports (.noChain _ (linearize_of_hasDanglingEdge hne hdangling))
  have hpasses : graph.nodeIds = [] → graph.compile = .ok ⟨[], .ok .empty⟩ :=
    compile_of_nodeIds_eq_nil
  constructor
  case reports_iff =>
    refine ⟨fun hreported hnil => ?_, hreports⟩
    cases (hpasses hnil).symm.trans hreported
  case mem_iff => exact (normal_of_ofValue hgraph).mem_danglingEdges_iff
  case passesOver_iff =>
    refine ⟨fun hpassed => ?_, hpasses⟩
    by_contra hne
    cases hpassed.symm.trans (hreports hne)
  case nodeIds_iff => exact nodeIds_eq_nil_iff_of_ofValue hgraph

theorem hasDanglingEdge_flowLoaded : flowLoaded.HasDanglingEdge :=
  ⟨⟨"edge_0", "b", "ghost"⟩, by decide, .inr (by decide)⟩

/-- A node of this graph branches, and its dangling edges are what is reported. -/
theorem tellsDangling_flowLoaded :
    Editor.load flowSaved = .ok (.ofGraph flowLoaded) ∧ flowLoaded.HasDanglingEdge ∧
      flowLoaded.BranchesAt "b" ∧ flowLoaded.danglingEdges = ["edge_0", "edge_2"] ∧
      flowLoaded.ReportsDangling :=
  ⟨load_flowSaved, hasDanglingEdge_flowLoaded, by decide, by decide,
    (tellsDangling_of_load load_flowSaved hasDanglingEdge_flowLoaded).reports_iff.2 (by decide)⟩

/-- A saved graph with an edge and no nodes. -/
def nodelessSaved : Value :=
  .object [("nodes", .list []), ("edges", .list [.object [("id", .text "e"),
    ("source", .text "a"), ("target", .text "b")]])]

/-- What `nodelessSaved` loads as. -/
def nodelessLoaded : Graph where
  nodes := .empty
  edges := ⟨[("e", ⟨"e", "a", "b"⟩)], by decide⟩

/-- The edge dangles, and the graph compiles as the empty pipeline. -/
theorem not_reportsDangling_nodelessLoaded :
    Editor.load nodelessSaved = .ok (.ofGraph nodelessLoaded) ∧ nodelessLoaded.HasDanglingEdge ∧
      nodelessLoaded.compile = .ok ⟨[], .ok .empty⟩ ∧ ¬ nodelessLoaded.ReportsDangling := by
  have hload : Editor.load nodelessSaved = .ok (.ofGraph nodelessLoaded) := rfl
  have hdangling : nodelessLoaded.HasDanglingEdge :=
    ⟨⟨"e", "a", "b"⟩, by decide, .inl (by decide)⟩
  have hcompile : nodelessLoaded.compile = .ok ⟨[], .ok .empty⟩ := compile_of_nodeIds_eq_nil rfl
  refine ⟨hload, hdangling, hcompile, fun hreports => ?_⟩
  cases hcompile.symm.trans hreports

end Graph

end StageChain
