import StageChain.Proofs.Graph.Faults
import StageChain.Proofs.Graph.Tidy

/-!
# Chains without one of their nodes

Removing a node takes away the edges that touch it and nothing else: `Without`. A chain is cut by
that into the nodes before and those after, which `IsSplit` describes as two runs with no edge
between them. If one run is empty then the other is a chain; if neither is then both have a first
node, and the graph is refused as disconnected.
-/

namespace StageChain

/-- A repetition-free list has, of the pairs of consecutive items, only those of its two parts that
do not touch the item between them. -/
theorem filter_zip_tail_append {α : Type} [DecidableEq α] {before after : List α} {item : α}
    (h : (before ++ item :: after).Nodup) :
    ((before ++ item :: after).zip (before ++ item :: after).tail).filter
        (fun pair => !(pair.1 == item || pair.2 == item)) =
      before.zip before.tail ++ after.zip after.tail := by
  induction before with
  | nil =>
      have hitem : item ∉ after := (List.nodup_cons.1 h).1
      have hrest : (after.zip after.tail).filter (fun pair => !(pair.1 == item || pair.2 == item)) =
          after.zip after.tail := by
        refine List.filter_eq_self.2 fun pair hpair => ?_
        have hfst : pair.1 ≠ item := ne_of_mem_of_not_mem (List.of_mem_zip hpair).1 hitem
        have hsnd : pair.2 ≠ item :=
          ne_of_mem_of_not_mem (List.mem_of_mem_tail (List.of_mem_zip hpair).2) hitem
        simp [hfst, hsnd]
      cases after with
      | nil => rfl
      | cons next after =>
          rw [List.nil_append, List.tail_cons, List.zip_cons_cons,
            List.filter_cons_of_neg (by simp)]
          exact hrest
  | cons first before ih =>
      obtain ⟨hfirst, hrest⟩ := List.nodup_cons.1 h
      have hne : first ≠ item := fun heq => hfirst (by simp [heq])
      cases before with
      | nil =>
          rw [List.singleton_append, List.tail_cons, List.zip_cons_cons,
            List.filter_cons_of_neg (by simp)]
          exact ih hrest
      | cons second before =>
          have hne' : second ≠ item := fun heq => by simp [heq] at hrest
          rw [List.cons_append, List.tail_cons, List.cons_append, List.zip_cons_cons,
            List.filter_cons_of_pos (by simp [hne, hne'])]
          exact congrArg _ (ih hrest)

namespace Graph

variable {graph next : Graph} {before after order : List String} {id : String}

/-- What is left of a graph without a node. -/
structure Without (graph : Graph) (id : String) (next : Graph) : Prop where
  nodeIds : next.nodeIds = graph.nodeIds.filter fun other => other ≠ id
  edgeList : next.edgeList = graph.edgeList.filter fun edge => !Editor.touches id edge
  stageOf : ∀ other, other ≠ id → next.stageOf other = graph.stageOf other

end Graph

namespace Editor

variable {editor : Editor} {id : String}

theorem entries_foldl_dropEdge (entries : Entries Edge) :
    (entries.foldl dropEdge editor).graph.edges.entries =
      editor.graph.edges.entries.filter fun entry => entry.1 ∉ Entries.keys entries := by
  induction entries generalizing editor with
  | nil => simp [Entries.keys]
  | cons dropped rest ih =>
      have herase : (editor.dropEdge dropped).graph.edges.entries =
          editor.graph.edges.entries.filter fun entry => entry.1 ≠ dropped.1 := rfl
      rw [List.foldl_cons, ih, herase, List.filter_filter]
      refine List.filter_congr fun entry _ => ?_
      have hkeys : entry.1 ∈ Entries.keys (dropped :: rest) ↔
          entry.1 = dropped.1 ∨ entry.1 ∈ Entries.keys rest := List.mem_cons
      simp [hkeys, Bool.and_comm]

/-- The edges of a graph that touch a node are those under the ids of such edges. -/
theorem edgeList_detached (editor : Editor) (id : String) :
    (editor.detached id).graph.edgeList =
      editor.graph.edgeList.filter fun edge => !touches id edge := by
  have hentries : (editor.detached id).graph.edges.entries =
      editor.graph.edges.entries.filter fun entry => !touches id entry.2 := by
    rw [detached, entries_foldl_dropEdge]
    refine List.filter_congr fun entry hentry => ?_
    simp [mem_keys_filter_touches hentry]
  rw [Graph.edgeList, OrderedMap.values, hentries, Graph.edgeList, OrderedMap.values,
    List.filter_map]
  rfl

/-- A node that is there can be removed. -/
theorem exists_removeNode (h : id ∈ editor.graph.nodeIds) :
    ∃ edited, editor.removeNode id = .ok edited ∧
      editor.graph.Without id edited.editor.graph := by
  obtain ⟨node, hnode⟩ := OrderedMap.mem_keys_iff.1 h
  have hfound : editor.node id = .ok node := by rw [Editor.node, hnode]
  refine ⟨((editor.detached id).withNodes
    ((editor.detached id).graph.nodes.erase id)).announced none, ?_, ?_, ?_, ?_⟩
  · simp only [removeNode, hfound, bind, Except.bind]
    rfl
  · simp only [announced, withNodes, detached, nodes_foldl_dropEdge, Graph.nodeIds,
      OrderedMap.keys, OrderedMap.erase, Entries.erase, Entries.keys]
    rw [List.filter_map]
    rfl
  · exact edgeList_detached editor id
  · intro other hother
    simp only [Graph.stageOf, Graph.stageAt, announced, withNodes, detached, nodes_foldl_dropEdge,
      OrderedMap.get?_erase, if_neg hother]

end Editor

namespace Graph

variable {graph next : Graph} {before after order : List String} {id : String}

/-- Two runs of nodes have every node once, and no edge goes from one run to the other. -/
structure IsSplit (graph : Graph) (before after : List String) : Prop where
  nodup : (before ++ after).Nodup
  mem_iff : ∀ id, id ∈ before ++ after ↔ id ∈ graph.nodeIds
  ends : (graph.edgeList.map Edge.ends).Perm (before.zip before.tail ++ after.zip after.tail)

theorem Without.isSplit (h : graph.Without id next)
    (hlisting : graph.IsListing (before ++ id :: after)) : next.IsSplit before after where
  nodup := hlisting.nodup.sublist ((List.Sublist.refl _).append (List.sublist_cons_self _ _))
  mem_iff := by
    intro other
    have hid : id ∉ before ++ after := (List.nodup_middle.1 hlisting.nodup).notMem
    rw [h.nodeIds, List.mem_filter, ← hlisting.mem_iff]
    by_cases hother : other = id
    · simpa [hother] using hid
    · simp [hother]
  ends := by
    have hleft := hlisting.ends.filter fun pair => !(pair.1 == id || pair.2 == id)
    rw [filter_zip_tail_append hlisting.nodup, List.filter_map] at hleft
    rw [h.edgeList]
    exact hleft

namespace IsSplit

theorem symm (h : graph.IsSplit before after) : graph.IsSplit after before where
  nodup := List.nodup_append_comm.1 h.nodup
  mem_iff := fun id => by rw [← h.mem_iff, List.mem_append, List.mem_append, or_comm]
  ends := h.ends.trans List.perm_append_comm

/-- A run alone is a chain. -/
theorem linearize_of_nil (h : graph.IsSplit order []) : graph.linearize = .ok order := by
  by_cases hne : graph.nodeIds = []
  · obtain rfl : order = [] := List.eq_nil_iff_forall_not_mem.2 fun id hid =>
      List.not_mem_nil (hne ▸ (h.mem_iff id).1 (List.mem_append_left _ hid))
    simp [linearize, hne]
  · refine (linearize_eq_ok_iff hne).2 ⟨by simpa using h.nodup, ?_, by simpa using h.ends⟩
    exact fun id => by simpa using h.mem_iff id

theorem sources (h : graph.IsSplit before after) :
    (graph.edgeList.map (·.source)).Perm (before.dropLast ++ after.dropLast) := by
  have hends := h.ends.map Prod.fst
  rwa [List.map_append, map_fst_zip_tail, map_fst_zip_tail, List.map_map] at hends

theorem targets (h : graph.IsSplit before after) :
    (graph.edgeList.map (·.target)).Perm (before.tail ++ after.tail) := by
  have hends := h.ends.map Prod.snd
  rwa [List.map_append, map_snd_zip_tail, map_snd_zip_tail, List.map_map] at hends

theorem danglingEdges (h : graph.IsSplit before after) : graph.danglingEdges = [] := by
  refine danglingEdges_eq_nil_iff.2 fun edge hedge => ⟨?_, ?_⟩
  · have hmem := h.sources.mem_iff.1 (List.mem_map_of_mem hedge)
    have hsub := (List.dropLast_sublist before).append (List.dropLast_sublist after)
    exact (h.mem_iff _).1 (hsub.subset hmem)
  · have hmem := h.targets.mem_iff.1 (List.mem_map_of_mem hedge)
    have hsub := (List.tail_sublist before).append (List.tail_sublist after)
    exact (h.mem_iff _).1 (hsub.subset hmem)

theorem branchingNodes (h : graph.IsSplit before after) : graph.branchingNodes = [] := by
  refine branchingNodes_eq_nil_iff.2 fun id _ => ⟨?_, ?_⟩
  · have hsub := (List.dropLast_sublist before).append (List.dropLast_sublist after)
    rw [outDegree_eq_count, h.sources.count_eq]
    exact List.nodup_iff_count_le_one.1 (h.nodup.sublist hsub) id
  · have hsub := (List.tail_sublist before).append (List.tail_sublist after)
    rw [inDegree_eq_count, h.targets.count_eq]
    exact List.nodup_iff_count_le_one.1 (h.nodup.sublist hsub) id

/-- The first node of each run has no edge into it. -/
theorem mem_startNodes {first : String} {rest : List String}
    (h : graph.IsSplit (first :: rest) after) : first ∈ graph.startNodes := by
  refine List.mem_filter.2 ⟨(h.mem_iff _).1 (by simp), ?_⟩
  have hnot : first ∉ rest ++ after.tail := by
    have hnodup := (List.nodup_cons.1 h.nodup).1
    exact fun hmem =>
      hnodup (((List.Sublist.refl rest).append (List.tail_sublist after)).subset hmem)
  rw [inDegree_eq_count, h.targets.count_eq]
  simpa using List.count_eq_zero.2 hnot

/-- Two runs with nodes have two first nodes. -/
theorem failsAs_disconnected (h : graph.IsSplit before after) (hbefore : before ≠ [])
    (hafter : after ≠ []) : FailsAs graph.linearize "disconnected" := by
  obtain ⟨first, before, rfl⟩ := List.exists_cons_of_ne_nil hbefore
  obtain ⟨second, after, rfl⟩ := List.exists_cons_of_ne_nil hafter
  have hfirst := h.mem_startNodes
  have hsecond := h.symm.mem_startNodes
  have hne : first ≠ second := fun heq => by simpa [heq] using h.nodup
  have hnodes : graph.nodeIds ≠ [] := List.ne_nil_of_mem ((h.mem_iff first).1 (by simp))
  simp only [linearize, h.danglingEdges, h.branchingNodes, List.isEmpty_iff, hnodes]
  cases hstarts : graph.startNodes with
  | nil => simp [hstarts] at hfirst
  | cons start rest =>
      cases rest with
      | nil =>
          rw [hstarts, List.mem_singleton] at hfirst hsecond
          exact absurd (hfirst.trans hsecond.symm) hne
      | cons third rest => simp [FailsAs, ChainFault.kind]

end IsSplit

end Graph

end StageChain
