import StageChain.Proofs.Graph.Listing

/-!
# Shapes that are no chain

A graph can fail to be a single chain because it branches, has a cycle, falls apart, has parallel
edges or an edge from a node to itself. Each of these is stated on the edges alone. The main
theorem, `linearize_exact`, says that a graph with nodes is listed exactly when it is a single
chain, by the only list that shows it, and never when it has one of these shapes.
-/

namespace StageChain.Graph

open Relation

variable {graph : Graph} {order : List String} {a b : String}

/-- An edge goes from one node to another. -/
def Leads (graph : Graph) (source target : String) : Prop :=
  (source, target) ∈ graph.edgeList.map Edge.ends

/-- A node has several edges out or in. -/
def Branches (graph : Graph) : Prop := ∃ id, 2 ≤ graph.outDegree id ∨ 2 ≤ graph.inDegree id

/-- Some edges lead from a node back to it. -/
def Cyclic (graph : Graph) : Prop := ∃ id, TransGen graph.Leads id id

/-- Two nodes are not connected, whichever way the edges are followed. -/
def Disconnected (graph : Graph) : Prop :=
  ∃ first ∈ graph.nodeIds, ∃ second ∈ graph.nodeIds, ¬ EqvGen graph.Leads first second

/-- Two edges have the same source and the same target. -/
def HasParallelEdges (graph : Graph) : Prop := ¬ (graph.edgeList.map Edge.ends).Nodup

/-- An edge ends where it starts. -/
def HasLoop (graph : Graph) : Prop := ∃ id, graph.Leads id id

/-- A graph has one of the shapes that no single chain has. -/
def IsMalformed (graph : Graph) : Prop :=
  graph.Branches ∨ graph.Cyclic ∨ graph.Disconnected ∨ graph.HasParallelEdges ∨ graph.HasLoop

/-- From the first item of a list along which a relation holds, every item is reached. -/
theorem reflTransGen_of_isChain {α : Type} {R : α → α → Prop} {first : α} {rest : List α}
    (h : (first :: rest).IsChain R) : ∀ item ∈ first :: rest, ReflTransGen R first item := by
  induction rest generalizing first with
  | nil =>
      intro item hitem
      obtain rfl := List.mem_singleton.1 hitem
      exact .refl
  | cons second rest ih =>
      obtain ⟨hstep, hrest⟩ := List.isChain_cons_cons.1 h
      intro item hitem
      rcases List.mem_cons.1 hitem with rfl | hitem
      · exact .refl
      · exact .head hstep (ih hrest item hitem)

namespace IsListing

theorem leads_iff (h : graph.IsListing order) :
    graph.Leads a b ↔ (a, b) ∈ order.zip order.tail := h.ends.mem_iff

/-- An edge goes from one place of the listing to the next. -/
theorem idxOf_of_leads (h : graph.IsListing order) (hleads : graph.Leads a b) :
    order.idxOf b = order.idxOf a + 1 := by
  obtain ⟨i, hi, hpair⟩ := List.mem_iff_getElem.1 (h.leads_iff.1 hleads)
  have hlength : i + 1 < order.length := by
    rw [List.length_zip, List.length_tail] at hi
    omega
  rw [List.getElem_zip, List.getElem_tail] at hpair
  obtain ⟨rfl, rfl⟩ := Prod.mk.inj hpair
  rw [h.nodup.idxOf_getElem, h.nodup.idxOf_getElem]

/-- Edges only lead forward in the listing. -/
theorem idxOf_lt_of_transGen (h : graph.IsListing order) (hpath : TransGen graph.Leads a b) :
    order.idxOf a < order.idxOf b := by
  induction hpath with
  | single hleads =>
      rw [h.idxOf_of_leads hleads]
      omega
  | tail _ hleads ih =>
      rw [h.idxOf_of_leads hleads]
      omega

theorem isChain_leads (h : graph.IsListing order) : order.IsChain graph.Leads :=
  isChain_iff_forall_mem_zip_tail.2 fun _ hpair => h.leads_iff.2 hpair

theorem not_branches (h : graph.IsListing order) : ¬ graph.Branches := by
  rintro ⟨id, hid⟩
  have hout := h.outDegree_le id
  have hin := h.inDegree_le id
  omega

theorem not_cyclic (h : graph.IsListing order) : ¬ graph.Cyclic := by
  rintro ⟨id, hpath⟩
  exact Nat.lt_irrefl _ (h.idxOf_lt_of_transGen hpath)

/-- All nodes are connected with the first one. -/
theorem not_disconnected (h : graph.IsListing order) : ¬ graph.Disconnected := by
  rintro ⟨first, hfirst, second, hsecond, hnot⟩
  rw [← h.mem_iff] at hfirst hsecond
  cases order with
  | nil => cases hfirst
  | cons start rest =>
      have hreach := reflTransGen_of_isChain h.isChain_leads
      have hconn : ∀ id ∈ start :: rest, EqvGen graph.Leads start id := fun id hid =>
        EqvGen.reflTransGen_le_eqvGen _ _ _ (hreach id hid)
      exact hnot (.trans _ _ _ (.symm _ _ (hconn first hfirst)) (hconn second hsecond))

theorem not_hasParallelEdges (h : graph.IsListing order) : ¬ graph.HasParallelEdges := by
  intro hparallel
  exact hparallel (h.ends.nodup_iff.2 (nodup_zip_tail h.nodup))

theorem not_hasLoop (h : graph.IsListing order) : ¬ graph.HasLoop := by
  rintro ⟨id, hleads⟩
  have hplace := h.idxOf_of_leads hleads
  omega

theorem not_isMalformed (h : graph.IsListing order) : ¬ graph.IsMalformed := by
  rintro (hshape | hshape | hshape | hshape | hshape)
  · exact h.not_branches hshape
  · exact h.not_cyclic hshape
  · exact h.not_disconnected hshape
  · exact h.not_hasParallelEdges hshape
  · exact h.not_hasLoop hshape

end IsListing

/-- A graph with nodes is listed exactly when it is a single chain, the list is the only one that
shows it as such, and a malformed graph is not listed at all. -/
theorem linearize_exact (graph : Graph) (hne : graph.nodeIds ≠ []) :
    (∀ order, graph.linearize = .ok order ↔ graph.IsListing order) ∧
      (∀ first second, graph.IsListing first → graph.IsListing second → first = second) ∧
      (graph.IsMalformed → ∃ fault, graph.linearize = .error fault) := by
  refine ⟨fun order => linearize_eq_ok_iff hne, fun first second => IsListing.unique hne, ?_⟩
  intro hshape
  cases hfound : graph.linearize with
  | error fault => exact ⟨fault, rfl⟩
  | ok order => exact absurd hshape ((linearize_eq_ok_iff hne).1 hfound).not_isMalformed

/-- Three nodes added last to first, joined by edges that were added out of order as well. -/
def shuffledChain : Graph where
  nodes := ⟨["c", "b", "a"].map fun id => (id, ⟨id, "$skip", .object [], [], .null⟩), by decide⟩
  edges := ⟨[("second", ⟨"second", "b", "c"⟩), ("first", ⟨"first", "a", "b"⟩)], by decide⟩

theorem linearize_shuffledChain :
    shuffledChain.nodeIds ≠ [] ∧ shuffledChain.linearize = .ok ["a", "b", "c"] := by
  refine ⟨by decide, ((linearize_exact shuffledChain (by decide)).1 _).2 ⟨by decide, ?_, ?_⟩⟩
  · intro id
    simp [nodeIds, shuffledChain, OrderedMap.keys, Entries.keys, or_comm, or_left_comm]
  · decide

end StageChain.Graph
