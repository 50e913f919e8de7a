import StageChain.Proofs.Graph.Standing

/-!
# Connecting nodes of a loaded graph

Connecting a pair that has an edge is to give this edge and to change nothing, and connecting any
pair is to keep all edges that are there. After a graph was loaded, neither holds in all cases.

A pair is given its edge exactly if that edge stands for the signature of the pair, see `standing?`:
`connects_performAll`. So it is given a second one where one of several edges of the pair has been
removed before. And a new edge takes the place of another edge if that one was loaded with the id
that is made for the new one: `addsOne_performAll`.
-/

namespace StageChain

/-- Each edge of a graph is an edge of a later one, with the same id and the same ends. -/
def Graph.KeepsEdges (graph later : Graph) : Prop :=
  ∀ id edge, graph.edges.get? id = some edge → later.edges.get? id = some edge

namespace Editor

variable {editor : Editor} {edits : List Edit} {source target id : String} {payload : Value}

/-- Connecting a pair gives an edge of the pair that is there, and changes neither the edges nor the
revision. -/
def Reuses (editor : Editor) (source target : String) : Prop :=
  ∃ edited id, editor.addEdge source target = .ok edited ∧ edited.id = some id ∧
    editor.HasEdge id source target ∧ edited.editor.graph.edges = editor.graph.edges ∧
      edited.editor.revision = editor.revision

/-- Connecting a pair makes an edge of the pair and counts a revision. -/
def Makes (editor : Editor) (source target : String) : Prop :=
  ∃ edited, editor.addEdge source target = .ok edited ∧
    edited.id = some (newEdgeId source target) ∧
      edited.editor.HasEdge (newEdgeId source target) source target ∧
        edited.editor.revision = editor.revision + 1

/-! ## What connecting does -/

theorem addEdge_of_registered (hsource : source ∈ editor.graph.nodeIds)
    (htarget : target ∈ editor.graph.nodeIds)
    (hregistered : editor.registered? source target = some id) :
    editor.addEdge source target = .ok (editor.quiet (some id)) := by
  simp [addEdge, OrderedMap.contains_iff.2 hsource, OrderedMap.contains_iff.2 htarget, hregistered]

theorem addEdge_of_fresh (hsource : source ∈ editor.graph.nodeIds)
    (htarget : target ∈ editor.graph.nodeIds)
    (hfresh : editor.registered? source target = none) :
    editor.addEdge source target =
      .ok ((editor.withEdge source target).announced (some (newEdgeId source target))) := by
  simp [addEdge, OrderedMap.contains_iff.2 hsource, OrderedMap.contains_iff.2 htarget, hfresh,
    withEdge]

/-- Connecting two nodes either gives what is registered or makes an edge. -/
theorem addEdge_cases {edited : Edited} (h : editor.addEdge source target = .ok edited) :
    source ∈ editor.graph.nodeIds ∧ target ∈ editor.graph.nodeIds ∧
      ((∃ id, editor.registered? source target = some id ∧
          edited = editor.quiet (some id)) ∨
        editor.registered? source target = none ∧
          edited = (editor.withEdge source target).announced (some (newEdgeId source target))) := by
  have happlies : editor.Applies (.addEdge source target) edited := applies_of_apply h
  cases happlies with
  | connected source target id hsource htarget hregistered =>
      exact ⟨OrderedMap.contains_iff.1 hsource, OrderedMap.contains_iff.1 htarget,
        .inl ⟨id, hregistered, rfl⟩⟩
  | edgeAdded source target hsource htarget hfresh =>
      exact ⟨OrderedMap.contains_iff.1 hsource, OrderedMap.contains_iff.1 htarget,
        .inr ⟨hfresh, rfl⟩⟩

theorem reuses_iff_registered : editor.Reuses source target ↔
    source ∈ editor.graph.nodeIds ∧ target ∈ editor.graph.nodeIds ∧
      ∃ id, editor.registered? source target = some id ∧
        editor.HasEdge id source target := by
  constructor
  · rintro ⟨edited, id, hedited, hid, hedge, -, hrevision⟩
    obtain ⟨hsource, htarget, ⟨other, hregistered, rfl⟩ | ⟨-, rfl⟩⟩ := addEdge_cases hedited
    · obtain rfl := Option.some.inj hid
      exact ⟨hsource, htarget, other, hregistered, hedge⟩
    · exact absurd hrevision (Nat.succ_ne_self _)
  · rintro ⟨hsource, htarget, id, hregistered, hedge⟩
    exact ⟨_, id, addEdge_of_registered hsource htarget hregistered, rfl, hedge, rfl, rfl⟩

theorem makes_iff_fresh : editor.Makes source target ↔
    source ∈ editor.graph.nodeIds ∧ target ∈ editor.graph.nodeIds ∧
      editor.registered? source target = none := by
  constructor
  · rintro ⟨edited, hedited, -, -, hrevision⟩
    obtain ⟨hsource, htarget, ⟨other, -, rfl⟩ | ⟨hfresh, -⟩⟩ := addEdge_cases hedited
    · exact absurd hrevision.symm (Nat.succ_ne_self _)
    · exact ⟨hsource, htarget, hfresh⟩
  · rintro ⟨hsource, htarget, hfresh⟩
    refine ⟨_, addEdge_of_fresh hsource htarget hfresh, rfl, ?_, rfl⟩
    exact (get?_edges_withEdge editor source target _).trans (if_pos rfl)

instance : Decidable (editor.Makes source target) := decidable_of_iff _ makes_iff_fresh.symm

/-- A loaded editor is that of a graph in normal form. -/
theorem exists_normal_of_load (h : Editor.load payload = .ok editor) :
    ∃ graph : Graph, graph.Normal ∧ editor = ofGraph graph := by
  obtain ⟨graph, hgraph, rfl⟩ := exists_of_load h
  exact ⟨graph, Graph.normal_of_ofValue hgraph, rfl⟩

/-! ## Reusing edges -/

/-- The id that counts for a pair after some operations is that of the edge that stands for it. -/
theorem registered?_performAll {graph : Graph} (hstored : (ofGraph graph).EdgesById)
    (hnamed : (ofGraph graph).Named) (edits : List Edit) (source target : String) :
    ((ofGraph graph).performAll edits).registered? source target =
      ((ofGraph graph).standing? (signature source target) edits).map Edge.id :=
  ((hnamed.performAll edits).registered?_eq source target).trans
    (get?_registry_performAll hstored hnamed edits _)

/-- What connecting a pair does after some operations on an editor. -/
structure Connects (editor : Editor) (edits : List Edit) (source target : String) : Prop where
  /-- An edge of the pair is given exactly if both are nodes and there is an edge of theirs under
  the id of the one that stands for their signature. -/
  reuses_iff : (editor.performAll edits).Reuses source target ↔
    source ∈ (editor.performAll edits).graph.nodeIds ∧
      target ∈ (editor.performAll edits).graph.nodeIds ∧
        ∃ edge, editor.standing? (signature source target) edits = some edge ∧
          (editor.performAll edits).HasEdge edge.id source target
  makes_iff : (editor.performAll edits).Makes source target ↔
    source ∈ (editor.performAll edits).graph.nodeIds ∧
      target ∈ (editor.performAll edits).graph.nodeIds ∧
        editor.standing? (signature source target) edits = none
  /-- Where the pair has an edge, none stands for its signature exactly if one with the signature
  has been removed and none made since. -/
  standing_iff : ∀ edge ∈ (editor.performAll edits).graph.edgeList, edge.ends = (source, target) →
    (editor.standing? (signature source target) edits = none ↔
      editor.Released (signature source target) edits)
  /-- Two nodes that have an edge are given an edge of theirs if there were no two edges of one
  signature at the start, no new edge has taken the id of another, and the pair is told from all
  other pairs. -/
  reuses : (editor.graph.edgeList.map Edge.signature).Nodup →
    (∀ before first second, before ++ [.addEdge first second] <+: edits →
      ¬ (editor.performAll before).IdTaken first second) →
    (editor.performAll edits).ToldFrom source target →
    source ∈ (editor.performAll edits).graph.nodeIds →
    target ∈ (editor.performAll edits).graph.nodeIds →
    (∃ edge ∈ (editor.performAll edits).graph.edgeList, edge.ends = (source, target)) →
      (editor.performAll edits).Reuses source target

/-- Where the registry has the edges that are there, a pair that has an edge is given one, as long
as it is told from the other pairs. -/
theorem Indexed.reuses (h : editor.Indexed) (hnamed : editor.Named) (hstored : editor.EdgesById)
    (htold : editor.ToldFrom source target) (hsource : source ∈ editor.graph.nodeIds)
    (htarget : target ∈ editor.graph.nodeIds)
    (hedge : ∃ edge ∈ editor.graph.edgeList, edge.ends = (source, target)) :
    editor.Reuses source target := by
  obtain ⟨edge, hedge, hends⟩ := hedge
  obtain ⟨id, hget⟩ := OrderedMap.mem_values_iff.1 hedge
  obtain ⟨rfl, rfl⟩ := Prod.mk.inj hends
  have hregistered := (h edge.signature id).2 ⟨edge, hget, rfl⟩
  exact reuses_iff_registered.2 ⟨hsource, htarget, id,
    (hnamed.registered?_eq _ _).trans hregistered, (h.hasEdge_iff hstored hregistered).2 htold⟩

/-- What connecting a pair does after a graph was loaded and edited: the edge that stands for the
pair is given, and a new one is made if none does. -/
theorem connects_performAll (h : Editor.load payload = .ok editor) (edits : List Edit)
    (source target : String) : editor.Connects edits source target := by
  obtain ⟨graph, hnormal, rfl⟩ := exists_normal_of_load h
  have hstored : (ofGraph graph).EdgesById := hnormal.edge_id
  have hnamed := named_ofGraph hnormal.edge_named
  have hregistered := registered?_performAll hstored hnamed edits source target
  constructor
  case reuses_iff =>
    rw [reuses_iff_registered, hregistered]
    refine and_congr_right fun _ => and_congr_right fun _ => ?_
    constructor
    · rintro ⟨id, hid, hedge⟩
      obtain ⟨edge, hstanding, rfl⟩ := Option.map_eq_some_iff.1 hid
      exact ⟨edge, hstanding, hedge⟩
    · rintro ⟨edge, hstanding, hedge⟩
      exact ⟨edge.id, by rw [hstanding]; rfl, hedge⟩
  case makes_iff => rw [makes_iff_fresh, hregistered, Option.map_eq_none_iff]
  case standing_iff =>
    intro edge hedge hends
    obtain ⟨rfl, rfl⟩ := Prod.mk.inj hends
    exact standing?_eq_none_iff hedge rfl
  case reuses =>
    intro hnodup hfree htold hsource htarget hedge
    exact ((indexed_ofGraph hnodup).performAll hnamed hfree).reuses (hnamed.performAll edits)
      (hstored.performAll edits) htold hsource htarget hedge

/-- A saved node that skips a document. -/
def savedSkip (id : String) : Value :=
  .object [("id", .text id), ("stage_type", .text "$skip"), ("config", .object [("skip", .int 1)])]

/-- What saved nodes that skip a document load as. -/
def skipNodes (ids : List String) : OrderedMap Node :=
  ids.foldl (fun nodes id =>
    nodes.insert id ⟨id, "$skip", .object [("skip", .int 1)], Value.origin, .null⟩) .empty

/-- A saved graph with two edges of one pair. -/
def parallelSaved : Value :=
  .object [("nodes", .list (["a", "b"].map savedSkip)),
    ("edges", .list (["e1", "e2"].map fun id => .object [("id", .text id),
      ("source", .text "a"), ("target", .text "b")]))]

/-- What `parallelSaved` loads as. -/
def parallelLoaded : Graph where
  nodes := skipNodes ["a", "b"]
  edges := ⟨["e1", "e2"].map fun id => (id, ⟨id, "a", "b"⟩), by decide⟩

theorem load_parallelSaved : Editor.load parallelSaved = .ok (ofGraph parallelLoaded) := rfl

/-- Once one of the two edges is removed the pair counts as released, and once it is connected again
it is given the edge that was made then. A pair of a chain is given its edge. -/
theorem connects_parallelLoaded :
    Editor.load parallelSaved = .ok (ofGraph parallelLoaded) ∧
      (ofGraph parallelLoaded).Released (signature "a" "b") [.removeEdge "e1"] ∧
      ((ofGraph parallelLoaded).performAll [.removeEdge "e1", .addEdge "a" "b"]).Reuses "a" "b" ∧
      Editor.load Graph.takenId = .ok (ofGraph Graph.takenIdLoaded) ∧
      ((ofGraph Graph.takenIdLoaded).performAll [.addEdge "a" "c"]).Reuses "a" "b" := by
  have hremoved := connects_performAll load_parallelSaved [.removeEdge "e1"] "a" "b"
  have hagain := connects_performAll load_parallelSaved [.removeEdge "e1", .addEdge "a" "b"] "a" "b"
  have hchain := connects_performAll Graph.load_takenId [.addEdge "a" "c"] "a" "b"
  refine ⟨load_parallelSaved, ?_, ?_, Graph.load_takenId, ?_⟩
  · exact (hremoved.standing_iff ⟨"e2", "a", "b"⟩ (by decide +kernel) rfl).1 (by decide +kernel)
  · exact hagain.reuses_iff.2 ⟨by decide +kernel, by decide +kernel,
      ⟨newEdgeId "a" "b", "a", "b"⟩, by decide +kernel, by decide +kernel⟩
  · refine hchain.reuses (by decide +kernel) ?_ (by decide +kernel) (by decide +kernel)
      (by decide +kernel) ⟨⟨"edge_1", "a", "b"⟩, by decide +kernel, rfl⟩
    rintro before first second hprefix ⟨edge, hedge, -⟩
    obtain rfl : before = [] := by simpa using hprefix.length_le
    obtain ⟨hsame, -⟩ := List.cons_prefix_cons.1 hprefix
    obtain ⟨rfl, rfl⟩ := Edit.addEdge.inj hsame
    have hnone : (ofGraph Graph.takenIdLoaded).graph.edges.get? (newEdgeId "a" "c") = none := by
      decide +kernel
    cases hnone.symm.trans hedge

/-- Once one of the two edges is removed, connecting the pair makes another one, although the pair
has an edge. -/
theorem not_reuses_parallelLoaded :
    Editor.load parallelSaved = .ok (ofGraph parallelLoaded) ∧
      ((ofGraph parallelLoaded).performAll [.removeEdge "e1"]).HasEdge "e2" "a" "b" ∧
      ((ofGraph parallelLoaded).performAll [.removeEdge "e1"]).Makes "a" "b" ∧
      ¬ ((ofGraph parallelLoaded).performAll [.removeEdge "e1"]).Reuses "a" "b" := by
  have hmakes : ((ofGraph parallelLoaded).performAll [.removeEdge "e1"]).Makes "a" "b" := by
    decide +kernel
  refine ⟨load_parallelSaved, by decide +kernel, hmakes, fun hreuses => ?_⟩
  obtain ⟨-, -, id, hregistered, -⟩ := reuses_iff_registered.1 hreuses
  cases (makes_iff_fresh.1 hmakes).2.2.symm.trans hregistered

/-! ## Keeping edges -/

/-- Every saved id is either made for the edge that has it or made for no pair at all. -/
def OwnIds (editor : Editor) : Prop :=
  ∀ id edge, editor.graph.edges.get? id = some edge →
    id = newEdgeId edge.source edge.target ∨ ∀ source target, id ≠ newEdgeId source target

theorem OwnIds.perform (h : editor.OwnIds) (edit : Edit) : (editor.perform edit).OwnIds := by
  intro id edge hedge
  rcases get?_edges_of_perform hedge with hold | ⟨hmade, rfl⟩
  · exact h id edge hold
  · exact .inl (made?_eq_some_iff.1 hmade).2.2.2

theorem OwnIds.performAll (h : editor.OwnIds) (edits : List Edit) :
    (editor.performAll edits).OwnIds := by
  induction edits generalizing editor with
  | nil => exact h
  | cons edit rest ih => exact ih (h.perform edit)

/-- No other edge has the id that is made for a pair, if no other edge has the fingerprint of the
pair. -/
theorem OwnIds.not_idTaken (h : editor.OwnIds)
    (hfree : ∀ edge ∈ editor.graph.edgeList, edge.ends ≠ (source, target) →
      Text.Sha1.fingerprint edge.signature ≠ Text.Sha1.fingerprint (signature source target)) :
    ¬ editor.IdTaken source target := by
  rintro ⟨edge, hedge, hends⟩
  rcases h _ edge hedge with hmade | hnot
  · refine hfree edge (OrderedMap.mem_values_iff.2 ⟨_, hedge⟩) hends ?_
    exact ((String.append_right_inj _).1 hmade).symm
  · exact hnot source target rfl

/-- The edges after a pair is connected: those from before, with a new one if it is made. -/
theorem get?_edges_perform_addEdge (editor : Editor) (source target id : String) :
    (editor.perform (.addEdge source target)).graph.edges.get? id =
      if editor.Makes source target ∧ id = newEdgeId source target then some ⟨id, source, target⟩
      else editor.graph.edges.get? id := by
  cases hedit : editor.apply (.addEdge source target) with
  | error fault =>
      rw [perform_of_error hedit, if_neg]
      rintro ⟨⟨edited, hedited, -⟩, -⟩
      cases hedit.symm.trans hedited
  | ok edited =>
      rw [perform_of_ok hedit]
      obtain ⟨hsource, htarget, ⟨other, hregistered, rfl⟩ | ⟨hfresh, rfl⟩⟩ := addEdge_cases hedit
      · rw [if_neg]
        · rfl
        · rintro ⟨hmakes, -⟩
          cases hregistered.symm.trans (makes_iff_fresh.1 hmakes).2.2
      · have hmakes := makes_iff_fresh.2 ⟨hsource, htarget, hfresh⟩
        refine (get?_edges_withEdge editor source target id).trans ?_
        by_cases hid : id = newEdgeId source target
        · rw [if_pos hid, if_pos ⟨hmakes, hid⟩, hid]
        · rw [if_neg hid, if_neg fun hnew => hid hnew.2]

/-- An edge is lost exactly where a new one is made with its id. -/
theorem keepsEdges_perform_iff (hstored : editor.EdgesById) (source target : String) :
    editor.graph.KeepsEdges (editor.perform (.addEdge source target)).graph ↔
      ¬ (editor.Makes source target ∧ editor.IdTaken source target) := by
  constructor
  · rintro hkeeps ⟨hmakes, edge, hedge, hends⟩
    have hkept := hkeeps _ edge hedge
    rw [get?_edges_perform_addEdge, if_pos ⟨hmakes, rfl⟩] at hkept
    exact hends (by rw [← Option.some.inj hkept]; rfl)
  · intro hfree id edge hedge
    rw [get?_edges_perform_addEdge]
    split
    · rename_i hnew
      obtain ⟨hmakes, rfl⟩ := hnew
      -- the edge that has the id is one of the pair, so it is replaced by itself
      have hends : edge.ends = (source, target) := by
        by_contra hends
        exact hfree ⟨hmakes, edge, hedge, hends⟩
      obtain ⟨rfl, rfl⟩ := Prod.mk.inj hends
      rw [← hstored _ edge hedge]
    · exact hedge

/-- What connecting a pair after some operations on an editor does to the edges that are there. -/
structure AddsOne (editor : Editor) (edits : List Edit) (source target : String) : Prop where
  /-- An edge is lost exactly if a new edge is made, as none stands for the signature of the pair,
  and the id that is made for it is that of an edge of another pair. -/
  keepsEdges_iff : (editor.performAll edits).graph.KeepsEdges
      ((editor.performAll edits).perform (.addEdge source target)).graph ↔
    ¬ (source ∈ (editor.performAll edits).graph.nodeIds ∧
      target ∈ (editor.performAll edits).graph.nodeIds ∧
        editor.standing? (signature source target) edits = none ∧
          (editor.performAll edits).IdTaken source target)
  /-- No edge with another id is lost. -/
  keeps_others : ∀ id edge, (editor.performAll edits).graph.edges.get? id = some edge →
    id ≠ newEdgeId source target →
      ((editor.performAll edits).perform (.addEdge source target)).graph.edges.get? id = some edge
  /-- At most one edge is new. -/
  eq_new : ∀ id edge,
    ((editor.performAll edits).perform (.addEdge source target)).graph.edges.get? id = some edge →
      (editor.performAll edits).graph.edges.get? id = some edge ∨
        id = newEdgeId source target ∧ edge = ⟨id, source, target⟩
  /-- All edges are kept, if no edge was loaded with an id that is made for another pair, and no
  edge of another pair has the fingerprint of this one. -/
  keepsEdges : editor.OwnIds →
    (∀ edge ∈ (editor.performAll edits).graph.edgeList, edge.ends ≠ (source, target) →
      Text.Sha1.fingerprint edge.signature ≠ Text.Sha1.fingerprint (signature source target)) →
      (editor.performAll edits).graph.KeepsEdges
        ((editor.performAll edits).perform (.addEdge source target)).graph

/-- Connecting a pair after a graph was loaded and edited adds one edge at most, and replaces one at
most: that with the id of the new edge. -/
theorem addsOne_performAll (h : Editor.load payload = .ok editor) (edits : List Edit)
    (source target : String) : editor.AddsOne edits source target := by
  obtain ⟨graph, hnormal, rfl⟩ := exists_normal_of_load h
  have hstored : (ofGraph graph).EdgesById := hnormal.edge_id
  have hnamed := named_ofGraph hnormal.edge_named
  have hkeeps := keepsEdges_perform_iff (hstored.performAll edits) source target
  constructor
  case keepsEdges_iff =>
    rw [hkeeps, makes_iff_fresh, registered?_performAll hstored hnamed, Option.map_eq_none_iff]
    simp only [and_assoc]
  case keeps_others =>
    intro id edge hedge hid
    rwa [get?_edges_perform_addEdge, if_neg fun hnew => hid hnew.2]
  case eq_new =>
    intro id edge hedge
    rw [get?_edges_perform_addEdge] at hedge
    split at hedge
    · rename_i hnew
      exact .inr ⟨hnew.2, (Option.some.inj hedge).symm⟩
    · exact .inl hedge
  case keepsEdges =>
    intro hown hfree
    exact hkeeps.2 fun hlost => (hown.performAll edits).not_idTaken hfree hlost.2

/-- A saved graph in which an edge has the id that is made for another pair. -/
def borrowedSaved : Value :=
  .object [("nodes", .list (["a", "b", "c"].map savedSkip)),
    ("edges", .list [.object [("id", .text "edge_3d53ebc7571c"), ("source", .text "b"),
      ("target", .text "c")]])]

/-- What `borrowedSaved` loads as. -/
def borrowedLoaded : Graph where
  nodes := skipNodes ["a", "b", "c"]
  edges := ⟨[("edge_3d53ebc7571c", ⟨"edge_3d53ebc7571c", "b", "c"⟩)], by decide⟩

theorem load_borrowedSaved : Editor.load borrowedSaved = .ok (ofGraph borrowedLoaded) := rfl

theorem ownIds_parallelLoaded : (ofGraph parallelLoaded).OwnIds := by
  intro id edge hedge
  have hid : id ∈ ["e1", "e2"] := Entries.mem_keys_of_get? hedge
  refine .inr fun source target hmade => ?_
  -- the second character of an id that is made is a letter
  have hchars := congrArg (fun id => id.toList[1]?) hmade
  simp only [List.mem_cons, List.not_mem_nil, or_false] at hid
  rcases hid with rfl | rfl <;> simp [newEdgeId] at hchars

/-- Connecting a pair for which another id is made keeps the edge, and connecting one the other way
round keeps those that were there. -/
theorem addsOne_borrowedLoaded :
    Editor.load borrowedSaved = .ok (ofGraph borrowedLoaded) ∧
      (ofGraph borrowedLoaded).graph.KeepsEdges
        ((ofGraph borrowedLoaded).perform (.addEdge "a" "c")).graph ∧
      Editor.load parallelSaved = .ok (ofGraph parallelLoaded) ∧
      (ofGraph parallelLoaded).graph.KeepsEdges
        ((ofGraph parallelLoaded).perform (.addEdge "b" "a")).graph := by
  have hadds := addsOne_performAll load_borrowedSaved [] "a" "c"
  have hturned := addsOne_performAll load_parallelSaved [] "b" "a"
  refine ⟨load_borrowedSaved, hadds.keepsEdges_iff.2 ?_, load_parallelSaved,
    hturned.keepsEdges ownIds_parallelLoaded (by decide +kernel)⟩
  rintro ⟨-, -, -, edge, hedge, -⟩
  have hnone : (ofGraph borrowedLoaded).graph.edges.get? (newEdgeId "a" "c") = none := by
    decide +kernel
  cases hnone.symm.trans hedge

/-- Connecting the pair for which the id is made puts the new edge in the place of the one that has
it. -/
theorem not_keepsEdges_borrowedLoaded :
    Editor.load borrowedSaved = .ok (ofGraph borrowedLoaded) ∧
      (ofGraph borrowedLoaded).HasEdge "edge_3d53ebc7571c" "b" "c" ∧
      ((ofGraph borrowedLoaded).perform (.addEdge "a" "b")).HasEdge "edge_3d53ebc7571c" "a" "b" ∧
      ¬ (ofGraph borrowedLoaded).graph.KeepsEdges
        ((ofGraph borrowedLoaded).perform (.addEdge "a" "b")).graph := by
  have hafter : ((ofGraph borrowedLoaded).perform (.addEdge "a" "b")).HasEdge
      "edge_3d53ebc7571c" "a" "b" := by decide +kernel
  have hbefore : (ofGraph borrowedLoaded).HasEdge "edge_3d53ebc7571c" "b" "c" := by decide
  refine ⟨load_borrowedSaved, hbefore, hafter, fun hkeeps => ?_⟩
  exact absurd (hafter.symm.trans (hkeeps _ _ hbefore)) (by decide)

end Editor

end StageChain
