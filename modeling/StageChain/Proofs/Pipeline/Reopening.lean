import StageChain.Proofs.Graph.Faults
import StageChain.Proofs.Graph.Reloading

/-!
# Compiling a graph that was saved and loaded

An editor `Reopens` if its saved form loads and the graph that is loaded gives the same report. As
loading trims the ids of nodes and leaves the ends of edges alone, that is so if all ids are trimmed
already. `reopens_iff` says when else, whatever was done in the editor: an id that changes must not
be the end of an edge, or the edge dangles, and it must not show in the report.
-/

namespace StageChain

namespace ChainFault

theorem message_manyStarts_ne (nodes : List String) (start : String) (left : List String) :
    (manyStarts nodes).message ≠ (unreachable start left).message := by
  -- the messages start with different characters
  have hfirst : ∀ first second third name rest : String,
      "Pipeline has " ++ first ++ second ++ third ≠
        "Stages not reachable from " ++ name ++ ": " ++ rest := by
    intro first second third name rest hsame
    have hheads := congrArg (fun text => text.toList.head?) hsame
    have hleft : "Pipeline has ".toList.head? = some 'P' := by decide
    have hright : "Stages not reachable from ".toList.head? = some 'S' := by decide
    simp only [String.toList_append, List.head?_append, hleft, hright, Option.some_or] at hheads
    exact absurd (Option.some.inj hheads) (by decide)
  exact hfirst _ _ _ _ _

theorem unreachable_start_inj {start other : String} {left : List String}
    (h : (unreachable start left).message = (unreachable other left).message) : start = other := by
  have hparts : "Stages not reachable from " ++ start ++ ": " ++ listed left =
      "Stages not reachable from " ++ other ++ ": " ++ listed left := h
  exact (String.append_right_inj _).1
    ((String.append_left_inj _).1 ((String.append_left_inj _).1 hparts))

end ChainFault

namespace Graph

variable {graph loaded : Graph} {id : String}

/-! ## Graphs with a node on its own -/

/-- No edge touches the node. -/
def IsApart (graph : Graph) (id : String) : Prop :=
  ∀ edge ∈ graph.edgeList, edge.source ≠ id ∧ edge.target ≠ id

/-- What listing gives for a graph with a node on its own, if it neither dangles nor branches. -/
inductive ListsApart (graph : Graph) (id : String) : Except ChainFault (List String) → Prop where
  | alone (hnodeIds : graph.nodeIds = [id]) (hedges : graph.edgeList.map Edge.ends = []) :
      ListsApart graph id (.ok [id])
  | manyStarts (hid : id ∈ graph.startNodes) :
      ListsApart graph id (.error (.manyStarts graph.startNodes))
  | unreachable (left : List String) : ListsApart graph id (.error (.unreachable id left))

theorem IsApart.not_branchesAt (h : graph.IsApart id) : ¬ graph.BranchesAt id := by
  have hout : graph.outDegree id = 0 :=
    List.countP_eq_zero.2 fun edge hedge => by simpa using (h edge hedge).1
  have hin : graph.inDegree id = 0 :=
    List.countP_eq_zero.2 fun edge hedge => by simpa using (h edge hedge).2
  simp [BranchesAt, hout, hin]

theorem Tidy.ends_mem_nodeIds (h : graph.Tidy) {edge : Edge} (hedge : edge ∈ graph.edgeList) :
    edge.source ∈ graph.nodeIds ∧ edge.target ∈ graph.nodeIds := by
  obtain ⟨id, hget⟩ := OrderedMap.mem_values_iff.1 hedge
  exact h.joins id edge hget

theorem Tidy.danglingEdges_eq_nil (h : graph.Tidy) : graph.danglingEdges = [] :=
  danglingEdges_eq_nil_iff.2 fun _ hedge => h.ends_mem_nodeIds hedge

/-- Edges are only at nodes. -/
theorem Tidy.mem_nodeIds_of_branchesAt (h : graph.Tidy) (hbranch : graph.BranchesAt id) :
    id ∈ graph.nodeIds := by
  by_contra hout
  refine IsApart.not_branchesAt (fun edge hedge => ?_) hbranch
  obtain ⟨hsource, htarget⟩ := h.ends_mem_nodeIds hedge
  exact ⟨fun hsame => hout (hsame ▸ hsource), fun hsame => hout (hsame ▸ htarget)⟩

/-- A chain with a node on its own is that node. -/
theorem IsListing.eq_singleton_of_isApart {order : List String} (h : graph.IsListing order)
    (hid : id ∈ graph.nodeIds) (hapart : graph.IsApart id) : order = [id] := by
  have hsource : id ∉ order.dropLast := by
    rw [← h.sources.mem_iff, List.mem_map]
    rintro ⟨edge, hedge, hsame⟩
    exact (hapart edge hedge).1 hsame
  have htarget : id ∉ order.tail := by
    rw [← h.targets.mem_iff, List.mem_map]
    rintro ⟨edge, hedge, hsame⟩
    exact (hapart edge hedge).2 hsame
  have hmem := (h.mem_iff id).2 hid
  cases order with
  | nil => cases hmem
  | cons first rest =>
      obtain rfl : id = first := (List.mem_cons.1 hmem).resolve_right htarget
      cases rest with
      | nil => rfl
      | cons second rest => exact absurd List.mem_cons_self hsource

theorem listsApart_linearize (hdangling : ¬ graph.HasDanglingEdge)
    (hbranch : ¬ ∃ id ∈ graph.nodeIds, graph.BranchesAt id) (hid : id ∈ graph.nodeIds)
    (hapart : graph.IsApart id) : graph.ListsApart id graph.linearize := by
  have hstart : id ∈ graph.startNodes := by
    refine mem_startNodes_iff.2 ⟨hid, fun before hleads => ?_⟩
    obtain ⟨edge, hedge, hends⟩ := List.mem_map.1 hleads
    exact (hapart edge hedge).2 (Prod.mk.inj hends).2
  have hverdict := verdict_linearize (List.ne_nil_of_mem hid)
  generalize graph.linearize = result at hverdict
  cases hverdict with
  | dangling h => exact absurd h hdangling
  | branching _ h => exact absurd h hbranch
  | noStart _ _ hcycles => exact absurd (hcycles id hid) (not_onCycle_of_start hstart)
  | manyStarts => exact .manyStarts hstart
  | unreachable start left _ _ hstarts =>
      rw [hstarts, List.mem_singleton] at hstart
      rw [← hstart]
      exact .unreachable left
  | chain order hlisting =>
      obtain rfl := hlisting.eq_singleton_of_isApart hid hapart
      have hids := List.singleton_perm.1 hlisting.perm_nodeIds
      exact .alone hids.symm (List.perm_nil.1 hlisting.ends)

theorem linearize_of_branches (hdangling : graph.danglingEdges = [])
    (hbranch : graph.branchingNodes ≠ []) :
    graph.linearize = .error (.branching graph.branchingNodes) := by
  have hne : graph.nodeIds ≠ [] := by
    intro hnone
    exact hbranch (by simp [branchingNodes, hnone])
  simp [linearize, hne, hdangling, hbranch]

/-! ## What reports name -/

/-- A report of a structural fault is that of a graph that is no chain. -/
theorem linearize_of_compile_structural {order : List String} {fault : ChainFault}
    (h : graph.compile = .ok ⟨order, .error fault.failure⟩) :
    ∃ found, graph.linearize = .error found ∧ found.failure = fault.failure := by
  have hreports := graph.reports_compile
  rw [h] at hreports
  generalize hfailure : fault.failure = failure at hreports
  cases hreports with
  | noChain found hfound => exact ⟨found, hfound, rfl⟩
  | invalid => cases hfailure

/-- An order has only nodes in it. -/
theorem mem_nodeIds_of_order {order : List String} {outcome : Except Failure Pipeline}
    (h : graph.compile = .ok ⟨order, outcome⟩) : ∀ id ∈ order, id ∈ graph.nodeIds := by
  have hreports := graph.reports_compile
  rw [h] at hreports
  cases hreports with
  | noChain => simp
  | invalid _ _ _ _ horder | compiled _ _ horder =>
      exact fun id hid => ((order_of_linearize horder).2 id).1 hid

/-- A structural fault is told with nodes. -/
theorem mem_nodeIds_of_fault {fault : ChainFault} (h : graph.linearize = .error fault) :
    ∀ id ∈ fault.nodeIds, id ∈ graph.nodeIds := by
  have hne : graph.nodeIds ≠ [] := by
    intro hnone
    simp [linearize, hnone] at h
  have hverdict := verdict_linearize hne
  rw [h] at hverdict
  cases hverdict with
  | dangling => exact fun id hid => absurd hid List.not_mem_nil
  | branching => exact fun id hid => List.mem_of_mem_filter hid
  | noStart => exact fun id hid => hid
  | manyStarts => exact fun id hid => List.mem_of_mem_filter hid
  | unreachable start left _ _ _ hleaves => exact fun id hid => hleaves.sublist.subset hid

/-- From the report of a graph that falls apart, its start is known. -/
theorem start_mem_of_failure {start : String} {left : List String} {fault : ChainFault}
    (h : graph.linearize = .error fault)
    (hfailure : fault.failure = (ChainFault.unreachable start left).failure) :
    start ∈ graph.nodeIds := by
  have hne : graph.nodeIds ≠ [] := by
    intro hnone
    simp [linearize, hnone] at h
  obtain ⟨hkind, hmessage, hnodes⟩ := Failure.structural.inj hfailure
  have hverdict := verdict_linearize hne
  rw [h] at hverdict
  cases hverdict with
  | dangling | branching | noStart => simp [ChainFault.kind] at hkind
  | manyStarts => exact absurd hmessage (ChainFault.message_manyStarts_ne _ _ _)
  | unreachable found left' _ _ hstarts =>
      obtain rfl : left' = left := hnodes
      obtain rfl := ChainFault.unreachable_start_inj hmessage
      exact List.mem_of_mem_filter (hstarts ▸ List.mem_singleton_self found)

/-- A report tells of a node on its own: it is in the order, or the fault is about it. So the same
report is not given by a graph without it. -/
theorem ListsApart.mem_nodeIds (h : graph.ListsApart id graph.linearize)
    (hsame : loaded.compile = graph.compile) : graph.IsOverlong ∨ id ∈ loaded.nodeIds := by
  by_cases hoverlong : graph.IsOverlong
  · exact .inl hoverlong
  refine .inr ?_
  generalize hlinearize : graph.linearize = result at h
  cases h with
  | alone =>
      obtain ⟨report, hreport, -⟩ := (graph.compile_exact.2.2).2 hoverlong
      have horder : report.order = [id] := by
        have hreports := graph.reports_compile
        rw [hreport] at hreports
        cases hreports with
        | noChain fault hfault => cases hlinearize.symm.trans hfault
        | invalid _ _ _ _ hfound | compiled _ _ hfound =>
            exact (Except.ok.inj (hlinearize.symm.trans hfound)).symm
      refine mem_nodeIds_of_order (hsame.trans hreport) id ?_
      rw [horder]
      exact List.mem_singleton_self id
  | manyStarts hid =>
      have hreport := compile_eq_of_reports (.noChain _ hlinearize)
      obtain ⟨found, hfound, hfailure⟩ := linearize_of_compile_structural (hsame.trans hreport)
      obtain ⟨-, -, hnodes⟩ := Failure.structural.inj hfailure
      refine mem_nodeIds_of_fault hfound id ?_
      rw [hnodes]
      exact hid
  | unreachable left =>
      have hreport := compile_eq_of_reports (.noChain _ hlinearize)
      obtain ⟨found, hfound, hfailure⟩ := linearize_of_compile_structural (hsame.trans hreport)
      exact start_mem_of_failure hfound hfailure

/-! ## What is loaded compiles the same -/

theorem compileStage_emptyObject (type : String) :
    compileStage type (.object []) = compileStage type .null := by
  unfold compileStage
  cases StageKind.ofType? type with
  | none => rfl
  | some kind => cases kind <;> rfl

namespace ReloadsAs

theorem stageOf_trim (h : graph.ReloadsAs loaded) (htidy : graph.Tidy)
    (hid : id ∈ graph.nodeIds) : loaded.stageOf (Text.trim id) = graph.stageOf id := by
  obtain ⟨node, hnode⟩ := OrderedMap.mem_keys_iff.1 hid
  have hconfig : compileStage node.stageType node.reloaded.config =
      compileStage node.stageType node.config := by
    rw [Node.reloaded]
    split
    · rename_i hnull
      rw [hnull, compileStage_emptyObject]
    · rfl
  rw [stageOf_of_get? hnode, stageOf_of_get? (h.get?_trim htidy hnode)]
  exact congrArg some hconfig

/-- Where all ids are trimmed, nothing changes that compiling looks at. -/
theorem compile_eq_of_trimmed (h : graph.ReloadsAs loaded) (htidy : graph.Tidy)
    (htrimmed : ∀ id ∈ graph.nodeIds, Text.trim id = id) : loaded.compile = graph.compile := by
  have hnodeIds : loaded.nodeIds = graph.nodeIds := by
    rw [h.nodeIds_eq htidy]
    exact (List.map_congr_left htrimmed).trans (List.map_id _)
  refine compile_congr h.edges hnodeIds fun id => ?_
  by_cases hid : id ∈ graph.nodeIds
  · rw [← h.stageOf_trim htidy hid, htrimmed id hid]
  · rw [stageOf_of_not_mem hid, stageOf_of_not_mem (hnodeIds ▸ hid)]

/-- An edge dangles if loading changes the id of a node that it touches. -/
theorem hasDanglingEdge (h : graph.ReloadsAs loaded) (htidy : graph.Tidy)
    (hchanged : Text.trim id ≠ id) (htouched : ¬ graph.IsApart id) :
    loaded.HasDanglingEdge := by
  have hout : id ∉ loaded.nodeIds := fun hin => hchanged (h.trim_eq htidy hin)
  simp only [IsApart, not_forall, not_and_or, not_not, exists_prop] at htouched
  obtain ⟨edge, hedge, hend⟩ := htouched
  refine ⟨edge, h.edgeList_eq ▸ hedge, hend.imp ?_ ?_⟩
  · exact fun hsource => hsource ▸ hout
  · exact fun htarget => htarget ▸ hout

theorem branchesAt_iff (h : graph.ReloadsAs loaded) :
    loaded.BranchesAt id ↔ graph.BranchesAt id := by
  rw [BranchesAt, BranchesAt, outDegree, outDegree, inDegree, inDegree, h.edgeList_eq]

/-- The nodes that branch stay the same, as long as no edge touches a node whose id changes. -/
theorem branchingNodes_eq (h : graph.ReloadsAs loaded) (htidy : graph.Tidy)
    (hdistinct : (graph.nodeIds.map Text.trim).Nodup)
    (hapart : ∀ id ∈ graph.nodeIds, Text.trim id ≠ id → graph.IsApart id) :
    loaded.branchingNodes = graph.branchingNodes := by
  have htrimmed : ∀ id ∈ graph.nodeIds, graph.BranchesAt id → Text.trim id = id := by
    intro id hid hbranch
    by_contra hchanged
    exact (hapart id hid hchanged).not_branchesAt hbranch
  -- an edge at a trimmed id is at a node, which is the one with the id that is trimmed to it
  have hsame : ∀ id ∈ graph.nodeIds, graph.BranchesAt (Text.trim id) ↔ graph.BranchesAt id := by
    intro id hid
    constructor
    · intro hbranch
      have hin := htidy.mem_nodeIds_of_branchesAt hbranch
      have hid' := List.inj_on_of_nodup_map hdistinct hin hid (Text.trim_trim id)
      rwa [← hid']
    · intro hbranch
      rwa [htrimmed id hid hbranch]
  calc loaded.branchingNodes
      = (graph.nodeIds.map Text.trim).filter fun id => graph.BranchesAt id := by
        simp only [branchingNodes_eq_filter, h.nodeIds_eq htidy, h.branchesAt_iff]
    _ = (graph.nodeIds.filter fun id => graph.BranchesAt id).map Text.trim := by
        rw [List.filter_map]
        exact congrArg _ (List.filter_congr fun id hid => decide_eq_decide.2 (hsame id hid))
    _ = graph.nodeIds.filter fun id => graph.BranchesAt id := by
        refine (List.map_congr_left fun id hid => ?_).trans (List.map_id _)
        obtain ⟨hin, hbranch⟩ := List.mem_filter.1 hid
        exact htrimmed id hin (of_decide_eq_true hbranch)
    _ = graph.branchingNodes := branchingNodes_eq_filter.symm

/-- A branching graph stays as it is told, as long as no edge touches a node whose id changes. -/
theorem compile_eq_of_branches (h : graph.ReloadsAs loaded) (htidy : graph.Tidy)
    (hdistinct : (graph.nodeIds.map Text.trim).Nodup)
    (hapart : ∀ id ∈ graph.nodeIds, Text.trim id ≠ id → graph.IsApart id)
    (hbranch : ∃ id ∈ graph.nodeIds, graph.BranchesAt id) : loaded.compile = graph.compile := by
  have hnodes := h.branchingNodes_eq htidy hdistinct hapart
  have hfound : graph.branchingNodes ≠ [] := exists_branchesAt_iff.1 hbranch
  -- an id that is the end of an edge is a node's and stays as it is
  have hkept : ∀ id ∈ graph.nodeIds, ¬ graph.IsApart id → id ∈ loaded.nodeIds := by
    intro id hid htouched
    rw [h.nodeIds_eq htidy]
    by_contra hout
    exact htouched (hapart id hid fun htrimmed => hout (List.mem_map.2 ⟨id, hid, htrimmed⟩))
  have hdangling : loaded.danglingEdges = [] := by
    refine danglingEdges_eq_nil_iff.2 fun edge hedge => ?_
    rw [h.edgeList_eq] at hedge
    obtain ⟨hsource, htarget⟩ := htidy.ends_mem_nodeIds hedge
    exact ⟨hkept _ hsource fun hapart => (hapart edge hedge).1 rfl,
      hkept _ htarget fun hapart => (hapart edge hedge).2 rfl⟩
  have hloaded := linearize_of_branches hdangling (hnodes ▸ hfound)
  have hgraph := linearize_of_branches htidy.danglingEdges_eq_nil hfound
  rw [compile_eq_of_reports (.noChain _ hloaded), compile_eq_of_reports (.noChain _ hgraph), hnodes]

/-- A single node without a report has none under another id either. -/
theorem compile_eq_of_isOverlong (h : graph.ReloadsAs loaded) (htidy : graph.Tidy)
    (hid : id ∈ graph.nodeIds) (hapart : graph.IsApart id) (hoverlong : graph.IsOverlong) :
    loaded.compile = graph.compile := by
  obtain ⟨before, stop, after, numeral, horder, hbefore, hnumeral⟩ := hoverlong
  have hlisting := (linearize_eq_ok_iff (List.ne_nil_of_mem hid)).1 horder
  have hsingle := hlisting.eq_singleton_of_isApart hid hapart
  obtain ⟨rfl, rfl, rfl⟩ : before = [] ∧ stop = id ∧ after = [] := by
    cases before with
    | nil => simpa using hsingle
    | cons first rest => simp at hsingle
  have hnodeIds : graph.nodeIds = [stop] := (List.singleton_perm.1 hlisting.perm_nodeIds).symm
  have hnodeIds' : loaded.nodeIds = [Text.trim stop] := by
    rw [h.nodeIds_eq htidy, hnodeIds]
    rfl
  have hlisting' : loaded.IsListing [Text.trim stop] := by
    refine ⟨List.nodup_singleton _, fun other => by rw [hnodeIds'], ?_⟩
    rw [h.edgeList_eq]
    exact hlisting.ends
  have horder' : loaded.linearize = .ok [Text.trim stop] :=
    (linearize_eq_ok_iff (by simp [hnodeIds'])).2 hlisting'
  have hnumeral' : loaded.stageOf (Text.trim stop) = some (.error (.overlong numeral)) :=
    (h.stageOf_trim htidy hid).trans hnumeral
  calc loaded.compile = .error numeral :=
        compile_eq_of_reports (.overlong [] [] _ numeral horder' (by simp) hnumeral')
    _ = graph.compile :=
        (compile_eq_of_reports (.overlong [] [] _ numeral horder hbefore hnumeral)).symm

end ReloadsAs

/-! ## The main theorem -/

/-- The ids of nodes that loading changes do not show: they stay different and not empty, no edge
touches such a node, and the report of the graph is about branches, or there is none. -/
structure Conceals (graph : Graph) : Prop where
  named : ∀ id ∈ graph.nodeIds, Text.trim id ≠ ""
  distinct : (graph.nodeIds.map Text.trim).Nodup
  apart : ∀ id ∈ graph.nodeIds, Text.trim id ≠ id → graph.IsApart id
  unseen : (∃ id ∈ graph.nodeIds, graph.BranchesAt id) ∨ graph.IsOverlong

namespace ReloadsAs

/-- The report stays the same exactly if all ids do or none of those that change shows. -/
theorem compile_eq_iff (h : graph.ReloadsAs loaded) (htidy : graph.Tidy)
    (hnamed : ∀ id ∈ graph.nodeIds, Text.trim id ≠ "")
    (hdistinct : (graph.nodeIds.map Text.trim).Nodup) :
    loaded.compile = graph.compile ↔
      (∀ id ∈ graph.nodeIds, Text.trim id = id) ∨ graph.Conceals := by
  by_cases htrimmed : ∀ id ∈ graph.nodeIds, Text.trim id = id
  · exact iff_of_true (h.compile_eq_of_trimmed htidy htrimmed) (.inl htrimmed)
  rw [or_iff_right htrimmed]
  simp only [not_forall, exists_prop] at htrimmed
  obtain ⟨id, hid, hchanged⟩ := htrimmed
  have hnotdangling : ¬ graph.HasDanglingEdge := fun hdangling =>
    hasDanglingEdge_iff.1 hdangling htidy.danglingEdges_eq_nil
  constructor
  · intro hsame
    have hapart : ∀ id ∈ graph.nodeIds, Text.trim id ≠ id → graph.IsApart id := by
      intro id hid hchanged
      by_contra htouched
      -- the loaded graph is told to dangle, and this one does not
      have hne : loaded.nodeIds ≠ [] := by
        rw [h.nodeIds_eq htidy]
        exact List.ne_nil_of_mem (List.mem_map_of_mem hid)
      obtain ⟨fault, hfault, hkind⟩ :=
        (verdict_linearize hne).dangling_iff.2 (h.hasDanglingEdge htidy hchanged htouched)
      have hreport := hsame.symm.trans (compile_eq_of_reports (.noChain fault hfault))
      obtain ⟨found, hfound, hfailure⟩ := linearize_of_compile_structural hreport
      have hfails : FailsAs graph.linearize "dangling" :=
        ⟨found, hfound, (Failure.structural.inj hfailure).1.trans hkind⟩
      exact hnotdangling ((verdict_linearize (List.ne_nil_of_mem hid)).dangling_iff.1 hfails)
    refine ⟨hnamed, hdistinct, hapart, ?_⟩
    by_cases hbranch : ∃ id ∈ graph.nodeIds, graph.BranchesAt id
    · exact .inl hbranch
    · have hlists := listsApart_linearize hnotdangling hbranch hid (hapart id hid hchanged)
      refine .inr ((hlists.mem_nodeIds hsame).resolve_right fun hin => ?_)
      exact hchanged (h.trim_eq htidy hin)
  · intro hconceals
    rcases hconceals.unseen with hbranch | hoverlong
    · exact h.compile_eq_of_branches htidy hdistinct hconceals.apart hbranch
    · exact h.compile_eq_of_isOverlong htidy hid (hconceals.apart id hid hchanged) hoverlong

end ReloadsAs

end Graph

/-- The saved form of the graph loads, and what is loaded compiles to the same report, or to none as
well. -/
def Editor.Reopens (editor : Editor) : Prop :=
  ∃ loaded, Editor.load editor.toValue = .ok loaded ∧ loaded.graph.compile = editor.graph.compile

theorem Graph.Tidy.reopens_iff_conceals {editor : Editor} (h : editor.graph.Tidy) :
    editor.Reopens ↔
      (∀ id ∈ editor.graph.nodeIds, Text.trim id = id) ∨ editor.graph.Conceals := by
  constructor
  · rintro ⟨loaded, hload, hsame⟩
    obtain ⟨⟨hnamed, hdistinct⟩, graph, rfl, hreloads⟩ := h.load_eq_ok_iff.1 hload
    exact (hreloads.compile_eq_iff h hnamed hdistinct).1 hsame
  · intro hids
    have hkept : (∀ id ∈ editor.graph.nodeIds, Text.trim id ≠ "") ∧
        (editor.graph.nodeIds.map Text.trim).Nodup := by
      rcases hids with htrimmed | hconceals
      · constructor
        · intro id hid
          rw [htrimmed id hid]
          obtain ⟨node, hnode⟩ := OrderedMap.mem_keys_iff.1 hid
          exact h.node_named id node hnode
        · rw [List.map_congr_left htrimmed, List.map_id']
          exact editor.graph.nodup_nodeIds
      · exact ⟨hconceals.named, hconceals.distinct⟩
    obtain ⟨loaded, hload⟩ := h.exists_load_iff.2 hkept
    obtain ⟨-, graph, rfl, hreloads⟩ := h.load_eq_ok_iff.1 hload
    exact ⟨_, hload, (hreloads.compile_eq_iff h hkept.1 hkept.2).2 hids⟩

/-- Whatever is done in an editor that starts out empty: its saved form loads exactly if the ids of
its nodes are different and not empty when they are trimmed, and it reopens with the same report
exactly if they are trimmed already or those that are not do not show. -/
theorem Editor.reopens_iff (edits : List Edit) :
    ((∃ loaded, Editor.load (Editor.empty.performAll edits).toValue = .ok loaded) ↔
      (∀ id ∈ (Editor.empty.performAll edits).graph.nodeIds, Text.trim id ≠ "") ∧
        ((Editor.empty.performAll edits).graph.nodeIds.map Text.trim).Nodup) ∧
      ((Editor.empty.performAll edits).Reopens ↔
        (∀ id ∈ (Editor.empty.performAll edits).graph.nodeIds, Text.trim id = id) ∨
          (Editor.empty.performAll edits).graph.Conceals) := by
  have htidy : (Editor.empty.performAll edits).graph.Tidy := Graph.Tidy.empty.performAll edits
  exact ⟨htidy.exists_load_iff, htidy.reopens_iff_conceals⟩

/-- Joins two new nodes, the first of which has an id that starts with a blank. -/
def blankBefore : List Edit :=
  [.addNode "$limit" .null " a" [] "", .addNode "$skip" .null "b" [] "", .addEdge " a" "b"]

/-- The graph that `blankBefore` makes. -/
def blankBeforeGraph : Graph where
  nodes := ⟨[(" a", ⟨" a", "$limit", .object [("limit", .int 10)], Value.origin, .null⟩),
    ("b", ⟨"b", "$skip", .object [("skip", .int 0)], Value.origin, .null⟩)], by decide⟩
  edges := ⟨[(Editor.newEdgeId " a" "b", ⟨Editor.newEdgeId " a" "b", " a", "b"⟩)],
    List.nodup_singleton _⟩

theorem graph_blankBefore : (Editor.empty.performAll blankBefore).graph = blankBeforeGraph := rfl

theorem compile_blankBeforeGraph : blankBeforeGraph.compile =
    .ok ⟨[" a", "b"], .ok ⟨[⟨" a", "$limit", .int 10⟩, ⟨"b", "$skip", .int 0⟩], []⟩⟩ := by
  have horder : blankBeforeGraph.linearize = .ok [" a", "b"] := by
    refine (Graph.linearize_eq_ok_iff (by decide)).2 ⟨by decide, fun id => ?_, .refl _⟩
    simp [Graph.nodeIds, blankBeforeGraph, OrderedMap.keys, Entries.keys]
  have hassemble : blankBeforeGraph.assemble [" a", "b"] =
      .ok ⟨[⟨" a", "$limit", .int 10⟩, ⟨"b", "$skip", .int 0⟩], []⟩ := rfl
  rw [Graph.compile, horder]
  simp only [hassemble]

/-- Not every graph reopens: this one is a chain until it is saved and dangles when it is loaded. -/
theorem not_reopens_blankBefore :
    (Editor.empty.performAll blankBefore).graph.compile =
        .ok ⟨[" a", "b"], .ok ⟨[⟨" a", "$limit", .int 10⟩, ⟨"b", "$skip", .int 0⟩], []⟩⟩ ∧
      (∃ loaded, Editor.load (Editor.empty.performAll blankBefore).toValue = .ok loaded) ∧
        ¬ (Editor.empty.performAll blankBefore).Reopens := by
  have htidy : (Editor.empty.performAll blankBefore).graph.Tidy :=
    Graph.Tidy.empty.performAll blankBefore
  have htrim : Text.trim " a" = "a" := by decide
  refine ⟨compile_blankBeforeGraph, htidy.exists_load_iff.2 ?_, fun hreopens => ?_⟩
  · rw [graph_blankBefore]
    exact ⟨by decide, by decide⟩
  · rcases htidy.reopens_iff_conceals.1 hreopens with htrimmed | hconceals
    · have hsame := htrimmed " a" (by rw [graph_blankBefore]; decide)
      exact absurd (htrim.symm.trans hsame) (by decide)
    · rw [graph_blankBefore] at hconceals
      have hapart := hconceals.apart " a" (by decide) (by rw [htrim]; decide)
      exact (hapart _ (List.mem_singleton_self _)).1 rfl

end StageChain
