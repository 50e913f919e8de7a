import StageChain.Proofs.Graph.Faults
import StageChain.Proofs.Pipeline.Compilation

/-!
# Graphs that compile alike

Two graphs are `Alike` if the same ids have the same stages and if as many edges go from any node to
any other. The order in which nodes and edges were added, the ids of edges, and the positions and
errors of nodes may all differ. `Alike.compilesAlike` says that such graphs give the same result:
only the nodes of a structural fault may be told in another order.

The checks before the walk count edges at nodes, so their answers are permuted at most:
`Alike.retold_linearize`. The walk itself does not see any order, since by then no two edges start
at the same node: `Alike.walk_eq`.
-/

namespace StageChain.Graph

variable {graph other : Graph} {order left : List String} {id start : String}

/-- Two graphs differ only in the order of nodes and edges, in the ids of edges, and in what
compiling does not look at. -/
structure Alike (graph other : Graph) : Prop where
  stages : ∀ id, other.stageAt id = graph.stageAt id
  ends : (other.edgeList.map Edge.ends).Perm (graph.edgeList.map Edge.ends)

/-! ## Chains -/

/-- Two answers are the same chain, or faults of the same kind with the same nodes. -/
inductive Retold : Except ChainFault (List String) → Except ChainFault (List String) → Prop where
  | chain (order : List String) : Retold (.ok order) (.ok order)
  | fault (fault other : ChainFault) (hkind : other.kind = fault.kind)
      (hnodes : other.nodeIds.Perm fault.nodeIds) : Retold (.error fault) (.error other)

namespace Alike

theorem symm (h : graph.Alike other) : other.Alike graph where
  stages := fun id => (h.stages id).symm
  ends := h.ends.symm

theorem mem_nodeIds_iff (h : graph.Alike other) : id ∈ other.nodeIds ↔ id ∈ graph.nodeIds := by
  rw [Graph.mem_nodeIds_iff, Graph.mem_nodeIds_iff, h.stages]

theorem stageOf_eq (h : graph.Alike other) (id : String) :
    other.stageOf id = graph.stageOf id := by
  rw [stageOf, h.stages, stageOf]

theorem nodeIds_perm (h : graph.Alike other) : other.nodeIds.Perm graph.nodeIds :=
  (List.perm_ext_iff_of_nodup other.nodup_nodeIds graph.nodup_nodeIds).2 fun _ => h.mem_nodeIds_iff

theorem leads_iff (h : graph.Alike other) {a b : String} :
    other.Leads a b ↔ graph.Leads a b := h.ends.mem_iff

theorem outDegree_eq (h : graph.Alike other) (id : String) :
    other.outDegree id = graph.outDegree id := by
  have hsources := h.ends.map Prod.fst
  simp only [List.map_map] at hsources
  rw [outDegree_eq_count, outDegree_eq_count]
  exact hsources.count_eq id

theorem inDegree_eq (h : graph.Alike other) (id : String) :
    other.inDegree id = graph.inDegree id := by
  have htargets := h.ends.map Prod.snd
  simp only [List.map_map] at htargets
  rw [inDegree_eq_count, inDegree_eq_count]
  exact htargets.count_eq id

theorem hasDanglingEdge (h : graph.Alike other) (hdangling : graph.HasDanglingEdge) :
    other.HasDanglingEdge := by
  obtain ⟨edge, hedge, hout⟩ := hdangling
  obtain ⟨twin, htwin, hends⟩ := List.mem_map.1 (h.ends.mem_iff.2 (List.mem_map_of_mem hedge))
  obtain ⟨hsource, htarget⟩ := Prod.mk.inj hends
  refine ⟨twin, htwin, ?_⟩
  rwa [hsource, htarget, h.mem_nodeIds_iff, h.mem_nodeIds_iff]

theorem isEmpty_danglingEdges (h : graph.Alike other) :
    other.danglingEdges.isEmpty = graph.danglingEdges.isEmpty := by
  rw [Bool.eq_iff_iff, List.isEmpty_iff, List.isEmpty_iff, ← not_iff_not, ← Ne.eq_def,
    ← Ne.eq_def, ← hasDanglingEdge_iff, ← hasDanglingEdge_iff]
  exact ⟨h.symm.hasDanglingEdge, h.hasDanglingEdge⟩

theorem branchingNodes_perm (h : graph.Alike other) :
    other.branchingNodes.Perm graph.branchingNodes := by
  simp only [branchingNodes, h.outDegree_eq, h.inDegree_eq]
  exact h.nodeIds_perm.filter _

theorem startNodes_perm (h : graph.Alike other) : other.startNodes.Perm graph.startNodes := by
  simp only [startNodes, h.inDegree_eq]
  exact h.nodeIds_perm.filter _

/-- Where no two edges start at the same node, the one that starts at a node is found in any
order of the edges. -/
theorem successor?_eq (h : graph.Alike other) (hgraph : graph.Unbranched)
    (hother : other.Unbranched) (id : String) :
    successor? other.edgeList id = successor? graph.edgeList id := by
  refine Option.ext fun target => ⟨fun hsucc => ?_, fun hsucc => ?_⟩
  · exact hgraph.successor?_eq (h.leads_iff.1 (mem_ends_of_successor? hsucc))
  · exact hother.successor?_eq (h.leads_iff.2 (mem_ends_of_successor? hsucc))

/-- A walk takes the same way, and leaves the same nodes in the order of the other graph. -/
theorem walk_eq (h : graph.Alike other) (hgraph : graph.Unbranched) (hother : other.Unbranched)
    (hwalk : walk graph.edgeList graph.nodeIds start = .ok (order, left)) :
    walk other.edgeList other.nodeIds start = .ok (order, other.nodeIds.diff order) ∧
      (other.nodeIds.diff order).Perm left := by
  obtain ⟨hfollows, hhead, hnodup, hsub, rfl⟩ := (walk_eq_ok_iff graph.nodup_nodeIds).1 hwalk
  have hsuccessor := h.successor?_eq hgraph hother
  refine ⟨(walk_eq_ok_iff other.nodup_nodeIds).2 ⟨⟨?_, ?_⟩, hhead, hnodup, ?_, rfl⟩, ?_⟩
  · simpa only [hsuccessor] using hfollows.leads
  · simpa only [hsuccessor] using hfollows.stops
  · exact fun id hid => h.mem_nodeIds_iff.2 (hsub hid)
  · exact h.nodeIds_perm.diff_right order

theorem retold_walkFrom (h : graph.Alike other) (hgraph : graph.Unbranched)
    (hother : other.Unbranched) (hstart : start ∈ graph.startNodes) :
    Retold (graph.walkFrom start) (other.walkFrom start) := by
  obtain ⟨order, left, hwalk⟩ := hgraph.exists_walk_start hstart
  obtain ⟨htwin, hperm⟩ := h.walk_eq hgraph hother hwalk
  simp only [walkFrom, hwalk, htwin, bind, Except.bind, List.isEmpty_iff]
  cases left with
  | nil =>
      rw [if_pos rfl, if_pos hperm.eq_nil]
      exact .chain order
  | cons id left =>
      rw [if_neg (List.cons_ne_nil _ _), if_neg fun hnone => ?_]
      · exact .fault _ _ rfl hperm
      · rw [hnone] at hperm
        exact List.cons_ne_nil _ _ (List.nil_perm.1 hperm)

/-- Alike graphs are the same chain or have faults of the same kind with the same nodes: each check
finds the same nodes in some order, so the same check is the first to find any. -/
theorem retold_linearize (h : graph.Alike other) : Retold graph.linearize other.linearize := by
  unfold linearize
  rw [h.nodeIds_perm.isEmpty_eq, h.isEmpty_danglingEdges, h.branchingNodes_perm.isEmpty_eq]
  split
  · exact .chain []
  split
  · exact .fault _ _ rfl (.refl _)
  rename_i hdangling
  split
  · exact .fault _ _ rfl h.branchingNodes_perm
  rename_i hbranch
  have hgraph : graph.Unbranched := unbranched (by simpa using hdangling) (by simpa using hbranch)
  rw [← h.isEmpty_danglingEdges] at hdangling
  rw [← h.branchingNodes_perm.isEmpty_eq] at hbranch
  have hother : other.Unbranched := unbranched (by simpa using hdangling) (by simpa using hbranch)
  have hperm := h.startNodes_perm
  cases hstarts : graph.startNodes with
  | nil =>
      rw [hstarts] at hperm
      rw [hperm.eq_nil]
      exact .fault _ _ rfl h.nodeIds_perm
  | cons first rest =>
      rw [hstarts] at hperm
      cases rest with
      | nil =>
          rw [List.perm_singleton.1 hperm]
          exact h.retold_walkFrom hgraph hother (hstarts ▸ List.mem_singleton_self first)
      | cons second rest =>
          obtain ⟨first', second', rest', hstarts'⟩ :
              ∃ first' second' rest', other.startNodes = first' :: second' :: rest' := by
            have hlength := hperm.length_eq
            match hother : other.startNodes with
            | first' :: second' :: rest' => exact ⟨first', second', rest', rfl⟩
            | [_] | [] => simp [hother] at hlength
          rw [hstarts'] at hperm ⊢
          exact .fault _ _ rfl hperm

end Alike

/-! ## Reports -/

/-- What compiling two graphs gives is the same, but for the message of a structural fault and the
order of its nodes. -/
structure CompilesAlike (graph other : Graph) : Prop where
  compiled_iff : ∀ order pipeline,
    other.compile = .ok ⟨order, .ok pipeline⟩ ↔ graph.compile = .ok ⟨order, .ok pipeline⟩
  structural : ∀ order kind message nodeIds,
    graph.compile = .ok ⟨order, .error (.structural kind message nodeIds)⟩ →
      ∃ message' nodeIds', nodeIds'.Perm nodeIds ∧
        other.compile = .ok ⟨order, .error (.structural kind message' nodeIds')⟩
  invalid_iff : ∀ order field message nodeId,
    other.compile = .ok ⟨order, .error (.validation field message nodeId)⟩ ↔
      graph.compile = .ok ⟨order, .error (.validation field message nodeId)⟩
  overlong_iff : ∀ numeral, other.compile = .error numeral ↔ graph.compile = .error numeral

theorem compile_of_linearize_error {fault : ChainFault} (h : graph.linearize = .error fault) :
    graph.compile = .ok ⟨[], .error (.structural fault.kind fault.message fault.nodeIds)⟩ := by
  rw [compile, h]
  rfl

/-- However nodes and edges were added, named, placed and marked, a graph compiles to the same
pipeline with the same order and the same nodes left out, or has the same node and field refused, or
has a structural fault of the same kind with the same nodes. -/
theorem Alike.compilesAlike (h : graph.Alike other) : graph.CompilesAlike other := by
  have hretold := h.retold_linearize
  cases hgraph : graph.linearize with
  | ok order =>
      rw [hgraph] at hretold
      cases hother : other.linearize with
      | error fault =>
          rw [hother] at hretold
          cases hretold
      | ok order' =>
          rw [hother] at hretold
          cases hretold
          have hsame : other.compile = graph.compile := by
            simp only [compile, hgraph, hother, assemble_congr h.stageOf_eq]
          constructor
          · exact fun order pipeline => by rw [hsame]
          · exact fun order kind message nodeIds hreport =>
              ⟨message, nodeIds, .refl _, hsame.trans hreport⟩
          · exact fun order field message nodeId => by rw [hsame]
          · exact fun numeral => by rw [hsame]
  | error fault =>
      rw [hgraph] at hretold
      cases hother : other.linearize with
      | ok order =>
          rw [hother] at hretold
          cases hretold
      | error fault' =>
          rw [hother] at hretold
          cases hretold with
          | fault _ _ hkind hnodes =>
              have hreport := compile_of_linearize_error hgraph
              have hreport' := compile_of_linearize_error hother
              constructor
              · intro order pipeline
                simp [hreport, hreport']
              · intro order kind message nodeIds hstructural
                rw [hreport] at hstructural
                cases hstructural
                exact ⟨fault'.message, fault'.nodeIds, hnodes, by rw [hreport', hkind]⟩
              · intro order field message nodeId
                simp [hreport, hreport']
              · intro numeral
                simp [hreport, hreport']

/-- Two nodes that skip a document each, in the order in which they follow each other. -/
def skipTwice : Graph where
  nodes := ⟨["a", "b"].map fun id =>
    (id, ⟨id, "$skip", .object [("skip", .int 1)], Value.origin, .null⟩), by decide⟩
  edges := ⟨[("first", ⟨"first", "a", "b"⟩)], by decide⟩

/-- The same two nodes, added the other way round, placed elsewhere and marked as wrong. -/
def skipTwiceTurned : Graph where
  nodes := ⟨["b", "a"].map fun id =>
    (id, ⟨id, "$skip", .object [("skip", .int 1)], [], .text "wrong"⟩), by decide⟩
  edges := ⟨[("joined", ⟨"joined", "a", "b"⟩)], by decide⟩

theorem alike_skipTwiceTurned : skipTwice.Alike skipTwiceTurned where
  stages := by
    intro id
    simp only [stageAt, skipTwice, skipTwiceTurned, OrderedMap.get?, Entries.get?, List.map_cons,
      List.map_nil, List.lookup_cons, List.lookup_nil]
    by_cases ha : id = "a"
    · simp [ha]
    · by_cases hb : id = "b"
      · simp [hb]
      · simp [beq_false_of_ne ha, beq_false_of_ne hb]
  ends := by decide

theorem compile_skipTwice : skipTwice.compile =
    .ok ⟨["a", "b"], .ok ⟨["a", "b"].map fun id => ⟨id, ⟨"$skip", .int 1⟩⟩, []⟩⟩ := by
  have horder : skipTwice.linearize = .ok ["a", "b"] := by
    refine (linearize_eq_ok_iff (by decide)).2 ⟨by decide, fun id => ?_, by decide⟩
    simp [nodeIds, skipTwice, OrderedMap.keys, Entries.keys]
  have hassemble : skipTwice.assemble ["a", "b"] =
      .ok ⟨["a", "b"].map fun id => ⟨id, ⟨"$skip", .int 1⟩⟩, []⟩ := rfl
  rw [compile, horder]
  simp only [hassemble]

/-- The turned graph compiles to the pipeline of the other one. -/
theorem compilesAlike_skipTwiceTurned :
    skipTwice.Alike skipTwiceTurned ∧ skipTwice.CompilesAlike skipTwiceTurned ∧
      skipTwiceTurned.compile =
        .ok ⟨["a", "b"], .ok ⟨["a", "b"].map fun id => ⟨id, ⟨"$skip", .int 1⟩⟩, []⟩⟩ := by
  have halike := alike_skipTwiceTurned
  have hcompiles := halike.compilesAlike
  exact ⟨halike, hcompiles, (hcompiles.compiled_iff _ _).2 compile_skipTwice⟩

end StageChain.Graph
