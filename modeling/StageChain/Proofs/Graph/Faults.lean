import Mathlib.Dynamics.PeriodicPts.Lemmas
import StageChain.Proofs.Graph.Shape

/-!
# What is wrong with a graph that is no chain

The faults that `Graph.linearize` finds are stated here on the graph as a whole, by its edges and by
what can be reached along them. `Verdict` says what each answer means, and `classifies_linearize`
is the main theorem: which kind of fault is found, for which nodes, and that a walk never comes back
to a node.

Two facts turn counts at single nodes into facts about the graph. A walk from a node without an edge
in does not meet a node twice (`exists_walk`). And nodes that are each led to from one of them lie
on cycles (`onCycle_of_predecessors`).
-/

namespace StageChain.Graph

open Relation

variable {graph : Graph} {a b c id start : String} {order left remaining : List String}

/-! ## Faults of a graph -/

/-- An edge has an end that is not a node. -/
def HasDanglingEdge (graph : Graph) : Prop :=
  ∃ edge ∈ graph.edgeList, edge.source ∉ graph.nodeIds ∨ edge.target ∉ graph.nodeIds

/-- A node has several edges out or in. -/
def BranchesAt (graph : Graph) (id : String) : Prop :=
  2 ≤ graph.outDegree id ∨ 2 ≤ graph.inDegree id

instance : DecidablePred graph.BranchesAt := fun id =>
  inferInstanceAs (Decidable (2 ≤ graph.outDegree id ∨ 2 ≤ graph.inDegree id))

/-- Some edges lead from a node back to it. -/
def OnCycle (graph : Graph) (id : String) : Prop := TransGen graph.Leads id id

/-- Some edges, or none, lead from a node to another. -/
def Reaches (graph : Graph) (source target : String) : Prop :=
  ReflTransGen graph.Leads source target

theorem hasDanglingEdge_iff : graph.HasDanglingEdge ↔ graph.danglingEdges ≠ [] := by
  rw [Ne, danglingEdges_eq_nil_iff, HasDanglingEdge]
  simp only [not_forall, not_and_or, exists_prop]

theorem branchingNodes_eq_filter :
    graph.branchingNodes = graph.nodeIds.filter fun id => graph.BranchesAt id := by
  refine List.filter_congr fun id _ => ?_
  rw [← Bool.decide_or]
  rfl

theorem exists_branchesAt_iff :
    (∃ id ∈ graph.nodeIds, graph.BranchesAt id) ↔ graph.branchingNodes ≠ [] := by
  rw [branchingNodes_eq_filter, Ne, List.filter_eq_nil_iff]
  simp

theorem inDegree_eq_zero_iff : graph.inDegree id = 0 ↔ ∀ a, ¬ graph.Leads a id := by
  rw [inDegree_eq_count, List.count_eq_zero]
  constructor
  · intro hnone a hleads
    exact hnone (List.mem_map.2 ((List.mem_map.1 hleads).imp fun edge hedge =>
      ⟨hedge.1, (Prod.mk.inj hedge.2).2⟩))
  · intro hnone hmem
    obtain ⟨edge, hedge, rfl⟩ := List.mem_map.1 hmem
    exact hnone edge.source (List.mem_map_of_mem hedge)

theorem mem_startNodes_iff :
    id ∈ graph.startNodes ↔ id ∈ graph.nodeIds ∧ ∀ a, ¬ graph.Leads a id := by
  rw [startNodes, List.mem_filter, beq_iff_eq, inDegree_eq_zero_iff]

/-- No edge ends at a start, so no cycle comes by. -/
theorem not_onCycle_of_start (h : id ∈ graph.startNodes) : ¬ graph.OnCycle id := by
  intro hcycle
  obtain ⟨last, -, hleads⟩ := TransGen.tail'_iff.1 hcycle
  exact (mem_startNodes_iff.1 h).2 last hleads

/-! ## Graphs without dangling edges and branches -/

/-- Edges lead from nodes to nodes, and no two start or end at the same one. -/
structure Unbranched (graph : Graph) : Prop where
  source_mem : ∀ {a b}, graph.Leads a b → a ∈ graph.nodeIds
  target_mem : ∀ {a b}, graph.Leads a b → b ∈ graph.nodeIds
  target_eq : ∀ {a b c}, graph.Leads a b → graph.Leads a c → b = c
  source_eq : ∀ {a b c}, graph.Leads a c → graph.Leads b c → a = b
  successor?_eq : ∀ {a b}, graph.Leads a b → successor? graph.edgeList a = some b

theorem unbranched (hdangling : graph.danglingEdges = []) (hbranch : graph.branchingNodes = []) :
    graph.Unbranched := by
  have hsources := nodup_sources hdangling hbranch
  have htargets := nodup_targets hdangling hbranch
  have hends := danglingEdges_eq_nil_iff.1 hdangling
  constructor
  case source_mem =>
    intro a b h
    obtain ⟨edge, hedge, hpair⟩ := List.mem_map.1 h
    cases hpair
    exact (hends edge hedge).1
  case target_mem =>
    intro a b h
    obtain ⟨edge, hedge, hpair⟩ := List.mem_map.1 h
    cases hpair
    exact (hends edge hedge).2
  case target_eq =>
    intro a b c hb hc
    have hsucc := successor?_of_mem_ends hsources hb
    exact Option.some.inj (hsucc.symm.trans (successor?_of_mem_ends hsources hc))
  case source_eq =>
    intro a b c ha hb
    obtain ⟨first, hfirst, hpair⟩ := List.mem_map.1 ha
    obtain ⟨second, hsecond, hpair'⟩ := List.mem_map.1 hb
    cases hpair
    obtain ⟨rfl, htarget⟩ := Prod.mk.inj hpair'
    rw [List.inj_on_of_nodup_map htargets hfirst hsecond htarget.symm]
  case successor?_eq => exact fun h => successor?_of_mem_ends hsources h

/-- Among nodes that are each led to from one of them, each lies on a cycle: to go back from a node
to the one before it is injective on them, so by going back often enough one returns. -/
theorem Unbranched.onCycle_of_predecessors (h : graph.Unbranched) {nodes : List String}
    (hpred : ∀ id ∈ nodes, ∃ before ∈ nodes, graph.Leads before id) :
    ∀ id ∈ nodes, graph.OnCycle id := by
  have hchoice : ∀ node : { id // id ∈ nodes },
      ∃ before : { id // id ∈ nodes }, graph.Leads before.1 node.1 := by
    rintro ⟨id, hid⟩
    obtain ⟨before, hbefore, hleads⟩ := hpred id hid
    exact ⟨⟨before, hbefore⟩, hleads⟩
  choose back hback using hchoice
  have hinjective : Function.Injective back := by
    intro first second hsame
    have hsecond := hback second
    rw [← hsame] at hsecond
    exact Subtype.ext (h.target_eq (hback first) hsecond)
  have hiterate : ∀ (n : Nat) node, TransGen graph.Leads (back^[n + 1] node).1 node.1 := by
    intro n
    induction n with
    | zero => exact fun node => .single (hback node)
    | succ n ih =>
        intro node
        rw [Function.iterate_succ_apply]
        exact (ih (back node)).tail (hback node)
  intro id hid
  obtain ⟨n, hpos, hreturns⟩ := Function.mem_periodicPts.1 (hinjective.mem_periodicPts ⟨id, hid⟩)
  obtain ⟨n, rfl⟩ := Nat.exists_eq_add_one_of_ne_zero (Nat.ne_of_gt hpos)
  have hpath := hiterate n ⟨id, hid⟩
  rwa [hreturns.eq] at hpath

/-- Where no node is a start, all nodes lie on cycles. -/
theorem Unbranched.onCycle_of_startNodes_eq_nil (h : graph.Unbranched)
    (hstarts : graph.startNodes = []) : ∀ id ∈ graph.nodeIds, graph.OnCycle id := by
  refine h.onCycle_of_predecessors fun id hid => ?_
  have hnot : id ∉ graph.startNodes := by simp [hstarts]
  simp only [mem_startNodes_iff, hid, true_and, not_forall, not_not] at hnot
  obtain ⟨before, hleads⟩ := hnot
  exact ⟨before, h.source_mem hleads, hleads⟩

/-! ## The walk from the only start -/

/-- A walk ends with an order, if no edge from a node that remains leads out of the nodes that will
remain after the next step. This stays so, since the node that is walked to next has no other edge
in. -/
theorem Unbranched.exists_walk (h : graph.Unbranched) {current : String}
    (hremaining : remaining.Nodup) (hcurrent : current ∈ remaining)
    (hinside : ∀ a ∈ remaining, ∀ b, graph.Leads a b → b ∈ remaining.erase current) :
    ∃ order left, walk graph.edgeList remaining current = .ok (order, left) := by
  induction remaining, current using walk.induct graph.edgeList with
  | case1 remaining current hmem hsucc => exact ⟨_, _, walk_of_none hmem hsucc⟩
  | case2 remaining current hmem next hsucc ih =>
      have hleads : graph.Leads current next := mem_ends_of_successor? hsucc
      obtain ⟨order, left, hwalk⟩ :=
        ih (hremaining.erase current) (hinside current hmem next hleads) fun a ha b hab => by
          have hb := hinside a (List.mem_of_mem_erase ha) b hab
          refine (List.mem_erase_of_ne ?_).2 hb
          rintro rfl
          rw [h.source_eq hab hleads] at ha
          exact hremaining.not_mem_erase ha
      exact ⟨current :: order, left, by rw [walk_of_some hmem hsucc, hwalk]; rfl⟩
  | case3 remaining current hmem => exact absurd hcurrent hmem

/-- The walk from a start ends with an order. -/
theorem Unbranched.exists_walk_start (h : graph.Unbranched) (hstart : start ∈ graph.startNodes) :
    ∃ order left, walk graph.edgeList graph.nodeIds start = .ok (order, left) := by
  obtain ⟨hmem, hfirst⟩ := mem_startNodes_iff.1 hstart
  refine h.exists_walk graph.nodup_nodeIds hmem fun a _ b hleads => ?_
  refine (List.mem_erase_of_ne ?_).2 (h.target_mem hleads)
  rintro rfl
  exact hfirst a hleads

/-- An order that is followed is not left by an edge. -/
theorem Follows.mem_of_successor? {edges : List Edge} (h : Follows edges order) (ha : a ∈ order)
    (hsucc : successor? edges a = some b) : b ∈ order := by
  have hinit : a ∈ order.dropLast := by
    by_contra hlast
    rw [h.stops _ (getLast?_eq_some_of_not_mem_dropLast ha hlast)] at hsucc
    cases hsucc
  rw [← map_fst_zip_tail] at hinit
  obtain ⟨pair, hpair, rfl⟩ := List.mem_map.1 hinit
  have hnext := isChain_iff_forall_mem_zip_tail.1 h.leads pair hpair
  obtain rfl := Option.some.inj (hnext.symm.trans hsucc)
  exact List.mem_of_mem_tail (List.of_mem_zip hpair).2

/-- The nodes of the walk from a node are those that are reached from it. -/
theorem Unbranched.mem_order_iff (h : graph.Unbranched) (hfollows : Follows graph.edgeList order)
    (hhead : order.head? = some start) : id ∈ order ↔ graph.Reaches start id := by
  obtain ⟨rest, rfl⟩ := List.head?_eq_some_iff.1 hhead
  constructor
  · have hchain : (start :: rest).IsChain graph.Leads :=
      hfollows.leads.imp fun _ _ => mem_ends_of_successor?
    exact reflTransGen_of_isChain hchain id
  · intro hreach
    induction hreach with
    | refl => exact List.mem_cons_self
    | tail _ hleads ih => exact hfollows.mem_of_successor? ih (h.successor?_eq hleads)

/-- What the walk from the only start leaves are the nodes that are not reached from it. -/
structure Leaves (graph : Graph) (start : String) (left : List String) : Prop where
  sublist : left.Sublist graph.nodeIds
  mem_iff : ∀ id, id ∈ left ↔ id ∈ graph.nodeIds ∧ ¬ graph.Reaches start id
  onCycle : ∀ id ∈ left, graph.OnCycle id

theorem Unbranched.leaves_of_walk (h : graph.Unbranched) (hstarts : graph.startNodes = [start])
    (hwalk : walk graph.edgeList graph.nodeIds start = .ok (order, left)) :
    graph.Leaves start left := by
  obtain ⟨hfollows, hhead, -, -, rfl⟩ := (walk_eq_ok_iff graph.nodup_nodeIds).1 hwalk
  have hmem : ∀ id, id ∈ graph.nodeIds.diff order ↔
      id ∈ graph.nodeIds ∧ ¬ graph.Reaches start id := by
    intro id
    rw [graph.nodup_nodeIds.mem_sdiff_iff, h.mem_order_iff hfollows hhead]
  refine ⟨List.diff_sublist _ _, hmem, h.onCycle_of_predecessors fun id hid => ?_⟩
  obtain ⟨hnode, hreach⟩ := (hmem id).1 hid
  -- the node is not the start, so an edge leads to it, and from a node that is not reached either
  have hnot : id ∉ graph.startNodes := by
    rw [hstarts, List.mem_singleton]
    rintro rfl
    exact hreach .refl
  simp only [mem_startNodes_iff, hnode, true_and, not_forall, not_not] at hnot
  obtain ⟨before, hleads⟩ := hnot
  refine ⟨before, (hmem before).2 ⟨h.source_mem hleads, fun hbefore => ?_⟩, hleads⟩
  exact hreach (hbefore.tail hleads)

/-! ## Verdicts -/

/-- What the answers of `linearize` mean. -/
inductive Verdict (graph : Graph) : Except ChainFault (List String) → Prop where
  | dangling (hdangling : graph.HasDanglingEdge) :
      Verdict graph (.error (.dangling graph.danglingEdges))
  | branching (hdangling : ¬ graph.HasDanglingEdge)
      (hbranch : ∃ id ∈ graph.nodeIds, graph.BranchesAt id) :
      Verdict graph (.error (.branching (graph.nodeIds.filter fun id => graph.BranchesAt id)))
  | noStart (hdangling : ¬ graph.HasDanglingEdge)
      (hbranch : ¬ ∃ id ∈ graph.nodeIds, graph.BranchesAt id)
      (hcycles : ∀ id ∈ graph.nodeIds, graph.OnCycle id) :
      Verdict graph (.error (.noStart graph.nodeIds))
  | manyStarts (hdangling : ¬ graph.HasDanglingEdge)
      (hbranch : ¬ ∃ id ∈ graph.nodeIds, graph.BranchesAt id)
      (hstarts : 2 ≤ graph.startNodes.length) :
      Verdict graph (.error (.manyStarts graph.startNodes))
  | unreachable (start : String) (left : List String) (hdangling : ¬ graph.HasDanglingEdge)
      (hbranch : ¬ ∃ id ∈ graph.nodeIds, graph.BranchesAt id)
      (hstarts : graph.startNodes = [start]) (hleaves : graph.Leaves start left) :
      Verdict graph (.error (.unreachable start left))
  | chain (order : List String) (hlisting : graph.IsListing order) : Verdict graph (.ok order)

/-- What the walk from the only start of a graph gives. -/
theorem Unbranched.walkFrom_cases (h : graph.Unbranched) (hstarts : graph.startNodes = [start]) :
    (∃ order, graph.walkFrom start = .ok order) ∨
      ∃ left, graph.Leaves start left ∧
        graph.walkFrom start = .error (.unreachable start left) := by
  obtain ⟨order, left, hwalk⟩ := h.exists_walk_start (hstarts ▸ List.mem_singleton_self start)
  cases left with
  | nil => exact .inl ⟨order, by simp [walkFrom, hwalk, bind, Except.bind]⟩
  | cons id left =>
      exact .inr ⟨_, h.leaves_of_walk hstarts hwalk, by simp [walkFrom, hwalk, bind, Except.bind]⟩

/-- A graph with nodes is answered by the first fault that it has. -/
theorem verdict_linearize (hne : graph.nodeIds ≠ []) : graph.Verdict graph.linearize := by
  by_cases hdangling : graph.danglingEdges = []
  case neg =>
    have hresult : graph.linearize = .error (.dangling graph.danglingEdges) := by
      simp [linearize, hne, hdangling]
    rw [hresult]
    exact .dangling (hasDanglingEdge_iff.2 hdangling)
  have hnodangling : ¬ graph.HasDanglingEdge := fun h => hasDanglingEdge_iff.1 h hdangling
  by_cases hbranch : graph.branchingNodes = []
  case neg =>
    have hresult : graph.linearize = .error (.branching graph.branchingNodes) := by
      simp [linearize, hne, hdangling, hbranch]
    rw [hresult, branchingNodes_eq_filter]
    exact .branching hnodangling (exists_branchesAt_iff.2 hbranch)
  have hnobranch : ¬ ∃ id ∈ graph.nodeIds, graph.BranchesAt id :=
    fun h => exists_branchesAt_iff.1 h hbranch
  have hunbranched := unbranched hdangling hbranch
  cases hstarts : graph.startNodes with
  | nil =>
      have hresult : graph.linearize = .error (.noStart graph.nodeIds) := by
        simp [linearize, hne, hdangling, hbranch, hstarts]
      rw [hresult]
      exact .noStart hnodangling hnobranch (hunbranched.onCycle_of_startNodes_eq_nil hstarts)
  | cons start rest =>
      cases rest with
      | nil =>
          have hresult : graph.linearize = graph.walkFrom start := by
            simp [linearize, hne, hdangling, hbranch, hstarts]
          rcases hunbranched.walkFrom_cases hstarts with ⟨order, hwalk⟩ | ⟨left, hleaves, hwalk⟩
          · rw [hresult, hwalk]
            exact .chain order ((linearize_eq_ok_iff hne).1 (hresult.trans hwalk))
          · rw [hresult, hwalk]
            exact .unreachable start left hnodangling hnobranch hstarts hleaves
      | cons second rest =>
          have hresult : graph.linearize = .error (.manyStarts graph.startNodes) := by
            simp [linearize, hne, hdangling, hbranch, hstarts]
          rw [hresult]
          exact .manyStarts hnodangling hnobranch (by simp [hstarts])

/-- An answer is a refusal with a fault of some kind. -/
def FailsAs (result : Except ChainFault (List String)) (kind : String) : Prop :=
  ∃ fault, result = .error fault ∧ fault.kind = kind

theorem failsAs_error_iff {fault : ChainFault} {kind : String} :
    FailsAs (.error fault) kind ↔ fault.kind = kind := by
  simp [FailsAs]

theorem not_failsAs_error {fault : ChainFault} {kind : String} (h : fault.kind ≠ kind) :
    ¬ FailsAs (.error fault) kind :=
  fun hfails => h (failsAs_error_iff.1 hfails)

theorem not_failsAs_ok {kind : String} : ¬ FailsAs (.ok order) kind := by
  simp [FailsAs]

theorem IsListing.not_hasDanglingEdge (h : graph.IsListing order) : ¬ graph.HasDanglingEdge :=
  fun hdangling => hasDanglingEdge_iff.1 hdangling h.danglingEdges

theorem IsListing.not_branchesAt (h : graph.IsListing order) :
    ¬ ∃ id ∈ graph.nodeIds, graph.BranchesAt id :=
  fun hbranch => exists_branchesAt_iff.1 hbranch h.branchingNodes

namespace Verdict

variable {result : Except ChainFault (List String)}

theorem dangling_iff (h : graph.Verdict result) :
    FailsAs result "dangling" ↔ graph.HasDanglingEdge := by
  cases h with
  | dangling hdangling => exact iff_of_true (failsAs_error_iff.2 rfl) hdangling
  | branching hdangling | noStart hdangling | manyStarts hdangling | unreachable _ _ hdangling =>
      exact iff_of_false (not_failsAs_error (by simp [ChainFault.kind])) hdangling
  | chain order hlisting => exact iff_of_false not_failsAs_ok hlisting.not_hasDanglingEdge

theorem branch_iff (h : graph.Verdict result) (hnodangling : ¬ graph.HasDanglingEdge) :
    FailsAs result "branch" ↔ ∃ id ∈ graph.nodeIds, graph.BranchesAt id := by
  cases h with
  | dangling hdangling => exact absurd hdangling hnodangling
  | branching _ hbranch => exact iff_of_true (failsAs_error_iff.2 rfl) hbranch
  | noStart _ hbranch | manyStarts _ hbranch | unreachable _ _ _ hbranch =>
      exact iff_of_false (not_failsAs_error (by simp [ChainFault.kind])) hbranch
  | chain order hlisting => exact iff_of_false not_failsAs_ok hlisting.not_branchesAt

/-- A start lies on no cycle, and neither does the first node of a chain. -/
theorem cycle_iff (h : graph.Verdict result) (hne : graph.nodeIds ≠ [])
    (hnodangling : ¬ graph.HasDanglingEdge)
    (hnobranch : ¬ ∃ id ∈ graph.nodeIds, graph.BranchesAt id) :
    FailsAs result "cycle" ↔ ∀ id ∈ graph.nodeIds, graph.OnCycle id := by
  have hstart : ∀ id ∈ graph.startNodes, ¬ ∀ id ∈ graph.nodeIds, graph.OnCycle id :=
    fun id hid hall => not_onCycle_of_start hid (hall id (mem_startNodes_iff.1 hid).1)
  cases h with
  | dangling hdangling => exact absurd hdangling hnodangling
  | branching _ hbranch => exact absurd hbranch hnobranch
  | noStart _ _ hcycles => exact iff_of_true (failsAs_error_iff.2 rfl) hcycles
  | manyStarts _ _ hstarts =>
      refine iff_of_false (not_failsAs_error (by simp [ChainFault.kind])) ?_
      exact hstart _ (List.getElem_mem (Nat.lt_of_lt_of_le Nat.zero_lt_two hstarts))
  | unreachable start left _ _ hstarts =>
      refine iff_of_false (not_failsAs_error (by simp [ChainFault.kind])) ?_
      exact hstart start (hstarts ▸ List.mem_singleton_self start)
  | chain order hlisting =>
      obtain ⟨id, hid⟩ := List.exists_mem_of_ne_nil _ hne
      exact iff_of_false not_failsAs_ok fun hall => hlisting.not_cyclic ⟨id, hall id hid⟩

theorem disconnected_iff (h : graph.Verdict graph.linearize) (hne : graph.nodeIds ≠ [])
    (hnodangling : ¬ graph.HasDanglingEdge)
    (hnobranch : ¬ ∃ id ∈ graph.nodeIds, graph.BranchesAt id)
    (hnocycles : ¬ ∀ id ∈ graph.nodeIds, graph.OnCycle id) :
    FailsAs graph.linearize "disconnected" ↔ ¬ ∃ order, graph.IsListing order := by
  simp only [← linearize_eq_ok_iff hne]
  generalize graph.linearize = result at h
  cases h with
  | dangling hdangling => exact absurd hdangling hnodangling
  | branching _ hbranch => exact absurd hbranch hnobranch
  | noStart _ _ hcycles => exact absurd hcycles hnocycles
  | manyStarts | unreachable => exact iff_of_true (failsAs_error_iff.2 rfl) nofun
  | chain order => exact iff_of_false not_failsAs_ok fun hnone => hnone ⟨order, rfl⟩

end Verdict

/-! ## The main theorem -/

/-- Which kind of fault a graph is refused with, and for which nodes: each kind is looked for only
where those before it do not apply. -/
structure Classifies (graph : Graph) : Prop where
  dangling_iff : FailsAs graph.linearize "dangling" ↔ graph.HasDanglingEdge
  branch_iff : ¬ graph.HasDanglingEdge →
    (FailsAs graph.linearize "branch" ↔ ∃ id ∈ graph.nodeIds, graph.BranchesAt id)
  /-- A branch is told with all nodes that branch, in order. -/
  branch_nodeIds : ∀ fault, graph.linearize = .error fault → fault.kind = "branch" →
    fault.nodeIds = graph.nodeIds.filter fun id => graph.BranchesAt id
  cycle_iff : ¬ graph.HasDanglingEdge → (¬ ∃ id ∈ graph.nodeIds, graph.BranchesAt id) →
    (FailsAs graph.linearize "cycle" ↔ ∀ id ∈ graph.nodeIds, graph.OnCycle id)
  cycle_nodeIds : ∀ fault, graph.linearize = .error fault → fault.kind = "cycle" →
    fault.nodeIds = graph.nodeIds
  disconnected_iff : ¬ graph.HasDanglingEdge → (¬ ∃ id ∈ graph.nodeIds, graph.BranchesAt id) →
    (¬ ∀ id ∈ graph.nodeIds, graph.OnCycle id) →
      (FailsAs graph.linearize "disconnected" ↔ ¬ ∃ order, graph.IsListing order)
  /-- A graph that falls apart is told with its starts, if there are several, and else with the
  nodes that are not reached from the only one, which lie on cycles. -/
  disconnected_nodeIds : ∀ fault, graph.linearize = .error fault → fault.kind = "disconnected" →
    2 ≤ graph.startNodes.length ∧ fault.nodeIds = graph.startNodes ∨
      ∃ start, graph.startNodes = [start] ∧ graph.Leaves start fault.nodeIds
  /-- No walk comes back to a node. -/
  not_revisited : ∀ id, graph.linearize ≠ .error (.revisited id)
  /-- The walk from the only start ends, with an order that has a node for each of its steps. -/
  walk_ends : ¬ graph.HasDanglingEdge → (¬ ∃ id ∈ graph.nodeIds, graph.BranchesAt id) →
    ∀ start, graph.startNodes = [start] → ∃ order left,
      walk graph.edgeList graph.nodeIds start = .ok (order, left) ∧
        order.length ≤ graph.nodeIds.length

/-- A graph with nodes that is no single chain is refused with the first kind of fault that it has,
and with the nodes that have it. -/
theorem classifies_linearize (graph : Graph) (hne : graph.nodeIds ≠ []) : graph.Classifies := by
  have hverdict := verdict_linearize hne
  constructor
  case dangling_iff => exact hverdict.dangling_iff
  case branch_iff => exact hverdict.branch_iff
  case cycle_iff => exact hverdict.cycle_iff hne
  case disconnected_iff => exact hverdict.disconnected_iff hne
  case branch_nodeIds =>
    intro fault hfault hkind
    rw [hfault] at hverdict
    cases hverdict with
    | branching => rfl
    | dangling | noStart | manyStarts | unreachable => simp [ChainFault.kind] at hkind
  case cycle_nodeIds =>
    intro fault hfault hkind
    rw [hfault] at hverdict
    cases hverdict with
    | noStart => rfl
    | dangling | branching | manyStarts | unreachable => simp [ChainFault.kind] at hkind
  case disconnected_nodeIds =>
    intro fault hfault hkind
    rw [hfault] at hverdict
    cases hverdict with
    | manyStarts _ _ hstarts => exact .inl ⟨hstarts, rfl⟩
    | unreachable start left _ _ hstarts hleaves => exact .inr ⟨start, hstarts, hleaves⟩
    | dangling | branching | noStart => simp [ChainFault.kind] at hkind
  case not_revisited =>
    intro id hfault
    rw [hfault] at hverdict
    cases hverdict
  case walk_ends =>
    intro hdangling hbranch start hstarts
    rw [hasDanglingEdge_iff, not_not] at hdangling
    rw [exists_branchesAt_iff, not_not] at hbranch
    obtain ⟨order, left, hwalk⟩ :=
      (unbranched hdangling hbranch).exists_walk_start (hstarts ▸ List.mem_singleton_self start)
    obtain ⟨-, -, hnodup, hsub, -⟩ := (walk_eq_ok_iff graph.nodup_nodeIds).1 hwalk
    exact ⟨order, left, hwalk, (hnodup.subperm hsub).length_le⟩

/-- A chain of two nodes beside a cycle of two others. -/
def chainBesideCycle : Graph where
  nodes := ⟨["a", "c", "b", "d"].map fun id => (id, ⟨id, "$skip", .object [], [], .null⟩),
    by decide⟩
  edges := ⟨[("first", ⟨"first", "a", "b"⟩), ("there", ⟨"there", "c", "d"⟩),
    ("back", ⟨"back", "d", "c"⟩)], by decide⟩

theorem linearize_chainBesideCycle :
    chainBesideCycle.linearize = .error (.unreachable "a" ["c", "d"]) := by
  have hne : chainBesideCycle.nodeIds ≠ [] := by decide
  have hdangling : chainBesideCycle.danglingEdges = [] := by decide
  have hbranch : chainBesideCycle.branchingNodes = [] := by decide
  have hstarts : chainBesideCycle.startNodes = ["a"] := by decide
  have hnext : successor? chainBesideCycle.edgeList "a" = some "b" := by decide
  have hlast : successor? chainBesideCycle.edgeList "b" = none := by decide
  have hwalk : walk chainBesideCycle.edgeList chainBesideCycle.nodeIds "a" =
      .ok (["a", "b"], ["c", "d"]) := by
    rw [walk_of_some (by decide) hnext, walk_of_none (by decide) hlast]
    rfl
  simp [linearize, hne, hdangling, hbranch, hstarts, walkFrom, hwalk, bind, Except.bind]

/-- The chain beside the cycle falls apart, and is told with the nodes of the cycle. -/
theorem classifies_chainBesideCycle :
    chainBesideCycle.nodeIds ≠ [] ∧
      chainBesideCycle.linearize = .error (.unreachable "a" ["c", "d"]) ∧
        chainBesideCycle.Classifies ∧ chainBesideCycle.Leaves "a" ["c", "d"] := by
  have hne : chainBesideCycle.nodeIds ≠ [] := by decide
  have hclassifies := classifies_linearize chainBesideCycle hne
  have hfault := linearize_chainBesideCycle
  refine ⟨hne, hfault, hclassifies, ?_⟩
  rcases hclassifies.disconnected_nodeIds _ hfault rfl with ⟨hmany, -⟩ | ⟨start, hstarts, hleaves⟩
  · exact absurd hmany (by decide)
  · have hstart : chainBesideCycle.startNodes = ["a"] := by decide
    cases hstart.symm.trans hstarts
    exact hleaves

end StageChain.Graph
