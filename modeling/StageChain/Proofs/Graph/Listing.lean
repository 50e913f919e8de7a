import Mathlib.Logic.Relation
import StageChain.Proofs.Graph.Walk

/-!
# Graphs that are a single chain

`Graph.IsListing` says without any search when a list of nodes shows a graph as a single chain: it
has every node once, and its consecutive pairs are the ends of the edges, each as often as there are
edges. `linearize_eq_ok_iff` says that `Graph.linearize` finds exactly these lists. There is at most
one of them, and none if the graph branches, has a cycle or falls apart.
-/

namespace StageChain

/-- The source and the target of an edge. -/
def Edge.ends (edge : Edge) : String × String := (edge.source, edge.target)

/-! ## Consecutive pairs of a list -/

section Consecutive

variable {α : Type} {items : List α}

theorem map_fst_zip_tail (items : List α) :
    (items.zip items.tail).map Prod.fst = items.dropLast := by
  induction items with
  | nil => rfl
  | cons first rest ih =>
      cases rest with
      | nil => rfl
      | cons second rest =>
          simp only [List.tail_cons] at ih
          simp [ih]

theorem map_snd_zip_tail (items : List α) : (items.zip items.tail).map Prod.snd = items.tail :=
  List.map_snd_zip (by simp)

/-- A list without repetition repeats no pair. -/
theorem nodup_zip_tail (h : items.Nodup) : (items.zip items.tail).Nodup := by
  refine List.Nodup.of_map Prod.fst ?_
  rw [map_fst_zip_tail]
  exact h.sublist (List.dropLast_sublist _)

/-- A relation holds along a list when it holds for each consecutive pair. -/
theorem isChain_iff_forall_mem_zip_tail {R : α → α → Prop} :
    items.IsChain R ↔ ∀ pair ∈ items.zip items.tail, R pair.1 pair.2 := by
  induction items with
  | nil => simp
  | cons first rest ih =>
      cases rest with
      | nil => simp
      | cons second rest =>
          rw [List.isChain_cons_cons, ih]
          simp

/-- An item with nothing after it is the last one. -/
theorem getLast?_eq_some_of_not_mem_dropLast {item : α} (h : item ∈ items)
    (hlast : item ∉ items.dropLast) : items.getLast? = some item := by
  have hne : items ≠ [] := List.ne_nil_of_mem h
  rw [← List.dropLast_append_getLast hne, List.mem_append] at h
  rw [List.getLast?_eq_getLast_of_ne_nil hne]
  simpa [eq_comm] using h.resolve_left hlast

/-- The last of items without repetition does not come earlier. -/
theorem not_mem_dropLast_of_getLast? {item : α} (hnodup : items.Nodup)
    (h : items.getLast? = some item) : item ∉ items.dropLast := by
  obtain ⟨init, rfl⟩ := List.getLast?_eq_some_iff.1 h
  rw [List.dropLast_concat]
  intro hmem
  exact (List.nodup_append.1 hnodup).2.2 item hmem item (by simp) rfl

end Consecutive

namespace Graph

variable {graph : Graph} {edges : List Edge} {order : List String} {id : String}

/-! ## Successors -/

theorem mem_ends_of_successor? {a b : String} (h : successor? edges a = some b) :
    (a, b) ∈ edges.map Edge.ends := by
  obtain ⟨edge, hedge, rfl⟩ := Option.map_eq_some_iff.1 h
  have hmem := List.mem_of_getLast? hedge
  rw [List.mem_filter, beq_iff_eq] at hmem
  obtain ⟨hmem, rfl⟩ := hmem
  exact List.mem_map_of_mem hmem

theorem successor?_eq_none_iff {a : String} :
    successor? edges a = none ↔ a ∉ edges.map (·.source) := by
  simp [successor?]

/-- Where no two edges have the same source, an edge gives the successor of its source: nothing is
lost by keeping only the last edge of a source. -/
theorem successor?_of_mem_ends {a b : String} (hsources : (edges.map (·.source)).Nodup)
    (h : (a, b) ∈ edges.map Edge.ends) : successor? edges a = some b := by
  obtain ⟨edge, hedge, hends⟩ := List.mem_map.1 h
  cases hends
  cases hsucc : successor? edges edge.source with
  | none => exact absurd (List.mem_map_of_mem hedge) (successor?_eq_none_iff.1 hsucc)
  | some target =>
      obtain ⟨other, hother, heq⟩ := List.mem_map.1 (mem_ends_of_successor? hsucc)
      obtain ⟨hsource, rfl⟩ := Prod.mk.inj heq
      rw [List.inj_on_of_nodup_map hsources hother hedge hsource]

/-- An order of all sources is followed by the edges exactly when its consecutive pairs are the
ends of the edges. -/
theorem follows_iff_perm_ends (hnodup : order.Nodup) (hsources : (edges.map (·.source)).Nodup)
    (hsub : edges.map (·.source) ⊆ order) :
    Follows edges order ↔ (edges.map Edge.ends).Perm (order.zip order.tail) := by
  have hends : (edges.map Edge.ends).Nodup := by
    refine List.Nodup.of_map Prod.fst ?_
    rwa [List.map_map]
  rw [List.perm_ext_iff_of_nodup hends (nodup_zip_tail hnodup)]
  constructor
  · intro h pair
    constructor
    · intro hpair
      have hsucc := successor?_of_mem_ends hsources hpair
      have hmem : pair.1 ∈ order := hsub (by
        obtain ⟨edge, hedge, rfl⟩ := List.mem_map.1 hpair
        exact List.mem_map_of_mem hedge)
      -- the last node leads nowhere, so the source of an edge comes earlier
      have hinit : pair.1 ∈ order.dropLast := by
        by_contra hlast
        rw [h.stops _ (getLast?_eq_some_of_not_mem_dropLast hmem hlast)] at hsucc
        cases hsucc
      rw [← map_fst_zip_tail] at hinit
      obtain ⟨other, hother, heq⟩ := List.mem_map.1 hinit
      have hnext := isChain_iff_forall_mem_zip_tail.1 h.leads other hother
      rw [heq, hsucc] at hnext
      rwa [show pair = other from Prod.ext heq.symm (Option.some.inj hnext)]
    · intro hpair
      exact mem_ends_of_successor? (isChain_iff_forall_mem_zip_tail.1 h.leads pair hpair)
  · intro h
    constructor
    · exact isChain_iff_forall_mem_zip_tail.2 fun pair hpair =>
        successor?_of_mem_ends hsources ((h pair).2 hpair)
    · intro last hlast
      rw [successor?_eq_none_iff]
      intro hmem
      obtain ⟨edge, hedge, rfl⟩ := List.mem_map.1 hmem
      refine not_mem_dropLast_of_getLast? hnodup hlast ?_
      rw [← map_fst_zip_tail]
      exact List.mem_map.2 ⟨edge.ends, (h _).1 (List.mem_map_of_mem hedge), rfl⟩

/-! ## The checks before the walk -/

theorem outDegree_eq_count : graph.outDegree id = (graph.edgeList.map (·.source)).count id := by
  rw [outDegree, List.count, List.countP_map]
  rfl

theorem inDegree_eq_count : graph.inDegree id = (graph.edgeList.map (·.target)).count id := by
  rw [inDegree, List.count, List.countP_map]
  rfl

theorem danglingEdges_eq_nil_iff :
    graph.danglingEdges = [] ↔
      ∀ edge ∈ graph.edgeList, edge.source ∈ graph.nodeIds ∧ edge.target ∈ graph.nodeIds := by
  simp [danglingEdges, isDangling, nodeIds, OrderedMap.contains]

theorem branchingNodes_eq_nil_iff :
    graph.branchingNodes = [] ↔
      ∀ id ∈ graph.nodeIds, graph.outDegree id ≤ 1 ∧ graph.inDegree id ≤ 1 := by
  simp only [branchingNodes, List.filter_eq_nil_iff, Bool.or_eq_true, decide_eq_true_eq, not_or,
    Nat.not_le, Nat.lt_succ_iff]

theorem nodup_nodeIds (graph : Graph) : graph.nodeIds.Nodup := graph.nodes.nodup

/-- No two edges share an end of one kind where each of these ends is a node and no node is that end
of several edges. -/
theorem nodup_map_of_count_le {end_ : Edge → String}
    (hnode : ∀ edge ∈ graph.edgeList, end_ edge ∈ graph.nodeIds)
    (hle : ∀ id ∈ graph.nodeIds, (graph.edgeList.map end_).count id ≤ 1) :
    (graph.edgeList.map end_).Nodup := by
  refine List.nodup_iff_count_le_one.2 fun id => ?_
  by_cases hmem : id ∈ graph.edgeList.map end_
  · obtain ⟨edge, hedge, rfl⟩ := List.mem_map.1 hmem
    exact hle _ (hnode edge hedge)
  · rw [List.count_eq_zero.2 hmem]
    omega

/-- Without dangling edges and branches no two edges have the same source. -/
theorem nodup_sources (hdangling : graph.danglingEdges = []) (hbranch : graph.branchingNodes = []) :
    (graph.edgeList.map (·.source)).Nodup := by
  rw [danglingEdges_eq_nil_iff] at hdangling
  rw [branchingNodes_eq_nil_iff] at hbranch
  refine nodup_map_of_count_le (fun edge hedge => (hdangling edge hedge).1) fun id hid => ?_
  rw [← outDegree_eq_count]
  exact (hbranch id hid).1

/-- Without dangling edges and branches no two edges have the same target. -/
theorem nodup_targets (hdangling : graph.danglingEdges = []) (hbranch : graph.branchingNodes = []) :
    (graph.edgeList.map (·.target)).Nodup := by
  rw [danglingEdges_eq_nil_iff] at hdangling
  rw [branchingNodes_eq_nil_iff] at hbranch
  refine nodup_map_of_count_le (fun edge hedge => (hdangling edge hedge).2) fun id hid => ?_
  rw [← inDegree_eq_count]
  exact (hbranch id hid).2

/-- A graph with nodes is listed when all checks pass and the walk from its only start leaves
nothing. -/
theorem linearize_eq_ok_iff_walk (hne : graph.nodeIds ≠ []) :
    graph.linearize = .ok order ↔
      graph.danglingEdges = [] ∧ graph.branchingNodes = [] ∧
        ∃ start, graph.startNodes = [start] ∧
          walk graph.edgeList graph.nodeIds start = .ok (order, []) := by
  unfold linearize
  by_cases hdangling : graph.danglingEdges = []
  · by_cases hbranch : graph.branchingNodes = []
    · cases hstarts : graph.startNodes with
      | nil => simp [hne, hdangling, hbranch]
      | cons start rest =>
          cases rest with
          | nil =>
              cases hwalk : walk graph.edgeList graph.nodeIds start with
              | error fault => simp [hne, hdangling, hbranch, walkFrom, hwalk, bind, Except.bind]
              | ok found =>
                  obtain ⟨order', left⟩ := found
                  cases left with
                  | nil => simp [hne, hdangling, hbranch, walkFrom, hwalk, bind, Except.bind]
                  | cons id left =>
                      simp [hne, hdangling, hbranch, walkFrom, hwalk, bind, Except.bind]
          | cons second rest => simp [hne, hdangling, hbranch]
    · simp [hne, hdangling, hbranch]
  · simp [hne, hdangling]

/-! ## Listings -/

/-- A list of nodes shows a graph as a single chain: it has every node once, and its consecutive
pairs are the ends of the edges, each as often as there are edges. -/
structure IsListing (graph : Graph) (order : List String) : Prop where
  nodup : order.Nodup
  mem_iff : ∀ id, id ∈ order ↔ id ∈ graph.nodeIds
  ends : (graph.edgeList.map Edge.ends).Perm (order.zip order.tail)

namespace IsListing

theorem perm_nodeIds (h : graph.IsListing order) : order.Perm graph.nodeIds :=
  (List.perm_ext_iff_of_nodup h.nodup graph.nodup_nodeIds).2 h.mem_iff

/-- Every node but the last has one edge out. -/
theorem sources (h : graph.IsListing order) :
    (graph.edgeList.map (·.source)).Perm order.dropLast := by
  have hends := h.ends.map Prod.fst
  rwa [map_fst_zip_tail, List.map_map] at hends

/-- Every node but the first has one edge in. -/
theorem targets (h : graph.IsListing order) :
    (graph.edgeList.map (·.target)).Perm order.tail := by
  have hends := h.ends.map Prod.snd
  rwa [map_snd_zip_tail, List.map_map] at hends

theorem outDegree_le (h : graph.IsListing order) (id : String) : graph.outDegree id ≤ 1 := by
  rw [outDegree_eq_count, h.sources.count_eq]
  exact List.nodup_iff_count_le_one.1 (h.nodup.sublist (List.dropLast_sublist _)) id

theorem inDegree_le (h : graph.IsListing order) (id : String) : graph.inDegree id ≤ 1 := by
  rw [inDegree_eq_count, h.targets.count_eq]
  exact List.nodup_iff_count_le_one.1 (h.nodup.sublist (List.tail_sublist _)) id

theorem danglingEdges (h : graph.IsListing order) : graph.danglingEdges = [] := by
  refine danglingEdges_eq_nil_iff.2 fun edge hedge => ⟨?_, ?_⟩
  · exact (h.mem_iff _).1 ((List.dropLast_sublist _).subset
      (h.sources.mem_iff.1 (List.mem_map_of_mem hedge)))
  · exact (h.mem_iff _).1 (List.mem_of_mem_tail
      (h.targets.mem_iff.1 (List.mem_map_of_mem hedge)))

theorem branchingNodes (h : graph.IsListing order) : graph.branchingNodes = [] :=
  branchingNodes_eq_nil_iff.2 fun id _ => ⟨h.outDegree_le id, h.inDegree_le id⟩

/-- The only node without an edge into it is the first one. -/
theorem startNodes {start : String} {rest : List String} (h : graph.IsListing (start :: rest)) :
    graph.startNodes = [start] := by
  have hstarts : ∀ id, (graph.inDegree id == 0) = !(rest.contains id) := by
    intro id
    rw [inDegree_eq_count, h.targets.count_eq, List.tail_cons]
    by_cases hmem : id ∈ rest
    · simpa [hmem] using (List.count_pos_iff.2 hmem).ne'
    · simp [hmem, List.count_eq_zero.2 hmem]
  obtain ⟨hstart, -⟩ := List.nodup_cons.1 h.nodup
  refine List.perm_singleton.1 ((h.perm_nodeIds.symm.filter _).trans ?_)
  simp only [hstarts, List.filter_cons, List.contains_eq_mem, hstart, decide_false, Bool.not_false,
    if_true]
  rw [List.filter_eq_nil_iff.2 (by simp)]

theorem follows (h : graph.IsListing order) : Follows graph.edgeList order := by
  refine (follows_iff_perm_ends h.nodup ?_ ?_).2 h.ends
  · exact h.sources.nodup_iff.2 (h.nodup.sublist (List.dropLast_sublist _))
  · exact fun id hid => (List.dropLast_sublist _).subset (h.sources.mem_iff.1 hid)

end IsListing

/-- The lists that show a graph with nodes as a single chain are the ones that are found. -/
theorem linearize_eq_ok_iff (hne : graph.nodeIds ≠ []) :
    graph.linearize = .ok order ↔ graph.IsListing order := by
  rw [linearize_eq_ok_iff_walk hne]
  constructor
  · rintro ⟨hdangling, hbranch, start, -, hwalk⟩
    obtain ⟨hfollows, -, hnodup, hsub, hleft⟩ := (walk_eq_ok_iff graph.nodup_nodeIds).1 hwalk
    have hmem : ∀ id, id ∈ order ↔ id ∈ graph.nodeIds := by
      refine fun id => ⟨fun hid => hsub hid, fun hid => ?_⟩
      -- a node outside the order would be left by the walk
      by_contra hout
      have hdiff := List.mem_diff_of_mem hid hout
      rw [← hleft] at hdiff
      cases hdiff
    have hsources := nodup_sources hdangling hbranch
    refine ⟨hnodup, hmem, (follows_iff_perm_ends hnodup hsources fun id hid => ?_).1 hfollows⟩
    obtain ⟨edge, hedge, rfl⟩ := List.mem_map.1 hid
    exact (hmem _).2 (danglingEdges_eq_nil_iff.1 hdangling edge hedge).1
  · intro h
    cases order with
    | nil => exact absurd (List.nil_perm.1 h.perm_nodeIds) hne
    | cons start rest =>
        refine ⟨h.danglingEdges, h.branchingNodes, start, h.startNodes, ?_⟩
        refine (walk_eq_ok_iff graph.nodup_nodeIds).2
          ⟨h.follows, rfl, h.nodup, fun id hid => (h.mem_iff id).1 hid, ?_⟩
        rw [List.Nodup.sdiff_eq_filter graph.nodup_nodeIds, eq_comm, List.filter_eq_nil_iff]
        intro id hid hout
        exact of_decide_eq_true hout ((h.mem_iff id).2 hid)

/-- A graph is a single chain in at most one way. -/
theorem IsListing.unique {first second : List String} (hne : graph.nodeIds ≠ [])
    (hfirst : graph.IsListing first) (hsecond : graph.IsListing second) : first = second := by
  have hfound := (linearize_eq_ok_iff hne).2 hfirst
  rw [(linearize_eq_ok_iff hne).2 hsecond] at hfound
  exact (Except.ok.inj hfound).symm

end Graph

end StageChain
