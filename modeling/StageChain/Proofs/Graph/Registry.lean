import StageChain.Proofs.Graph.Edits
import StageChain.Proofs.Graph.Listing

/-!
# The registry of an editor

An editor keeps the ids of its edges twice: in the edges themselves, and in a registry by signature
that is kept up on its own. `WellKept` says that the two agree, and `wellKept_performAll` that they
do so whatever is done to an editor that starts out empty.

The ids of edges are fingerprints of their signatures. An edge whose fingerprint is that of another
edge would take its place, so all this holds as long as the fingerprints of different signatures
that are in use are different: `CollisionFree`.
-/

namespace StageChain

/-- The signature of the two nodes that an edge connects. -/
def Edge.signature (edge : Edge) : String := Editor.signature edge.source edge.target

/-- The signature of the pair of nodes that an operation is to connect. -/
def Edit.signature? : Edit → Option String
  | .addEdge source target => some (Editor.signature source target)
  | _ => none

namespace Editor

variable {editor : Editor} {id : String}

/-! ## Operations in a row -/

/-- The editor after an operation; one that fails leaves it as it is. -/
def perform (editor : Editor) (edit : Edit) : Editor :=
  match editor.apply edit with
  | .ok edited => edited.editor
  | .error _ => editor

theorem perform_of_ok {edit : Edit} {edited : Edited} (h : editor.apply edit = .ok edited) :
    editor.perform edit = edited.editor := by
  rw [perform, h]

theorem perform_of_error {edit : Edit} {fault : EditFault}
    (h : editor.apply edit = .error fault) : editor.perform edit = editor := by
  rw [perform, h]

/-- The editor after some operations. -/
def performAll (editor : Editor) (edits : List Edit) : Editor := edits.foldl perform editor

/-- The signatures in use in an operation: those of all edges, and that of the pair of nodes that is
to be connected. -/
def inUse (editor : Editor) (edit : Edit) : List String :=
  editor.graph.edgeList.map Edge.signature ++ edit.signature?.toList

/-- Different signatures have different fingerprints. -/
def ToldApart (signatures : List String) : Prop :=
  ∀ first ∈ signatures, ∀ second ∈ signatures,
    Text.Sha1.fingerprint first = Text.Sha1.fingerprint second → first = second

instance (signatures : List String) : Decidable (ToldApart signatures) :=
  inferInstanceAs (Decidable (∀ first ∈ signatures, ∀ second ∈ signatures, _ → _))

/-- In each of the operations, different signatures in use have different fingerprints. -/
def CollisionFree : Editor → List Edit → Prop
  | _, [] => True
  | editor, edit :: rest =>
    ToldApart (editor.inUse edit) ∧ CollisionFree (editor.perform edit) rest

instance decidableCollisionFree : (editor : Editor) → (edits : List Edit) →
    Decidable (CollisionFree editor edits)
  | _, [] => isTrue trivial
  | editor, edit :: rest =>
    have := decidableCollisionFree (editor.perform edit) rest
    inferInstanceAs (Decidable (_ ∧ _))

/-! ## The registry and the edges -/

/-- The editor with a new edge for a pair of nodes. -/
def withEdge (editor : Editor) (source target : String) : Editor :=
  { editor with
    graph := { editor.graph with
      edges := editor.graph.edges.insert (newEdgeId source target)
        ⟨newEdgeId source target, source, target⟩ }
    registry := editor.registry.insert (signature source target) (newEdgeId source target) }

theorem get?_edges_withEdge (editor : Editor) (source target id : String) :
    (editor.withEdge source target).graph.edges.get? id =
      if id = newEdgeId source target then some ⟨newEdgeId source target, source, target⟩
      else editor.graph.edges.get? id := OrderedMap.get?_insert

theorem get?_registry_withEdge (editor : Editor) (source target sig : String) :
    (editor.withEdge source target).registry.get? sig =
      if sig = signature source target then some (newEdgeId source target)
      else editor.registry.get? sig := OrderedMap.get?_insert

/-- No edge is registered with an empty id, which would not count. -/
def Named (editor : Editor) : Prop := ∀ signature, editor.registry.get? signature ≠ some ""

theorem Named.registered?_eq (h : editor.Named) (source target : String) :
    editor.registered? source target = editor.registry.get? (signature source target) := by
  unfold registered?
  cases hid : editor.registry.get? (signature source target) with
  | none => rfl
  | some id =>
      have hne : id ≠ "" := fun hempty => h _ (hempty ▸ hid)
      simp [hne]

theorem newEdgeId_ne_empty (source target : String) : newEdgeId source target ≠ "" := by
  intro hempty
  exact absurd (String.append_eq_empty_iff.1 hempty).1 (by decide)

/-- A signature is registered with an id exactly if the edge with this id has the signature. -/
def Indexed (editor : Editor) : Prop :=
  ∀ signature id, editor.registry.get? signature = some id ↔
    ∃ edge, editor.graph.edges.get? id = some edge ∧ edge.signature = signature

namespace Indexed

/-- Two edges with one signature are the same. -/
theorem id_eq (h : editor.Indexed) {other : String} {first second : Edge}
    (hfirst : editor.graph.edges.get? id = some first)
    (hsecond : editor.graph.edges.get? other = some second)
    (hsame : first.signature = second.signature) : id = other := by
  have hid := (h second.signature id).2 ⟨first, hfirst, hsame⟩
  have hother := (h second.signature other).2 ⟨second, hsecond, rfl⟩
  exact Option.some.inj (hid.symm.trans hother)

/-- A signature that is not registered is that of no edge. -/
theorem signature_ne (h : editor.Indexed) {sig : String} {edge : Edge}
    (hfresh : editor.registry.get? sig = none) (hedge : editor.graph.edges.get? id = some edge) :
    edge.signature ≠ sig := by
  intro hsame
  cases hfresh.symm.trans ((h sig id).2 ⟨edge, hedge, hsame⟩)

/-- An edge may be dropped with its entry in the registry, as no other edge has its signature. -/
theorem dropEdge (h : editor.Indexed) {edge : Edge}
    (hedge : editor.graph.edges.get? id = some edge) : (editor.dropEdge (id, edge)).Indexed := by
  have hedges : ∀ other, (editor.dropEdge (id, edge)).graph.edges.get? other =
      if other = id then none else editor.graph.edges.get? other := fun _ => OrderedMap.get?_erase
  have hregistry : ∀ signature, (editor.dropEdge (id, edge)).registry.get? signature =
      if signature = edge.signature then none else editor.registry.get? signature :=
    fun _ => OrderedMap.get?_erase
  intro signature other
  rw [hregistry, hedges]
  constructor
  · intro hregistered
    split at hregistered
    · cases hregistered
    · rename_i hne
      obtain ⟨stored, hstored, rfl⟩ := (h signature other).1 hregistered
      refine ⟨stored, ?_, rfl⟩
      rw [if_neg, hstored]
      rintro rfl
      rw [hedge] at hstored
      exact hne (by rw [Option.some.inj hstored])
  · rintro ⟨stored, hstored, rfl⟩
    split at hstored
    · cases hstored
    · rename_i hne
      rw [if_neg fun hsame => hne (h.id_eq hstored hedge hsame)]
      exact (h stored.signature other).2 ⟨stored, hstored, rfl⟩

/-- Two nodes may be connected whose signature is not registered and does not clash. -/
theorem connect (h : editor.Indexed) {source target : String}
    (hfresh : editor.registry.get? (signature source target) = none)
    (hnew : editor.graph.edges.get? (newEdgeId source target) = none) :
    (editor.withEdge source target).Indexed := by
  intro sig id
  rw [get?_registry_withEdge, get?_edges_withEdge]
  by_cases hsig : sig = signature source target
  · rw [if_pos hsig]
    constructor
    · intro hid
      obtain rfl := Option.some.inj hid
      exact ⟨_, if_pos rfl, hsig.symm⟩
    · rintro ⟨edge, hedge, hsame⟩
      split at hedge
      · rename_i hid
        rw [hid]
      · exact absurd (hsame.trans hsig) (h.signature_ne hfresh hedge)
  · rw [if_neg hsig, h]
    constructor
    · rintro ⟨edge, hedge, hsame⟩
      refine ⟨edge, ?_, hsame⟩
      rw [if_neg, hedge]
      rintro rfl
      cases hnew.symm.trans hedge
    · rintro ⟨edge, hedge, hsame⟩
      split at hedge
      · obtain rfl := Option.some.inj hedge
        exact absurd hsame.symm hsig
      · exact ⟨edge, hedge, hsame⟩

end Indexed

/-- What is kept when an edge that is there is dropped is kept when different edges are dropped one
after another. -/
theorem foldl_dropEdge_induction {motive : Editor → Prop} {entries : Entries Edge}
    (hdrop : ∀ (editor : Editor) (id : String) (edge : Edge), motive editor →
      editor.graph.edges.get? id = some edge → motive (editor.dropEdge (id, edge)))
    (hnodup : (Entries.keys entries).Nodup)
    (hentries : ∀ entry ∈ entries, editor.graph.edges.get? entry.1 = some entry.2)
    (h : motive editor) : motive (entries.foldl Editor.dropEdge editor) := by
  induction entries generalizing editor with
  | nil => exact h
  | cons entry rest ih =>
      obtain ⟨hnew, hrest⟩ := List.nodup_cons.1 hnodup
      have hnext := hdrop editor entry.1 entry.2 h (hentries entry List.mem_cons_self)
      refine ih hrest (fun other hother => ?_) hnext
      have hne : other.1 ≠ entry.1 := fun hsame => hnew (hsame ▸ List.mem_map_of_mem hother)
      have hstored : (editor.dropEdge entry).graph.edges.get? other.1 =
          if other.1 = entry.1 then none else editor.graph.edges.get? other.1 :=
        OrderedMap.get?_erase
      rw [hstored, if_neg hne]
      exact hentries other (List.mem_cons_of_mem _ hother)

/-- What is kept when an edge is dropped is kept when all edges of a node are. -/
theorem detached_induction {motive : Editor → Prop}
    (hdrop : ∀ (editor : Editor) (id : String) (edge : Edge), motive editor →
      editor.graph.edges.get? id = some edge → motive (editor.dropEdge (id, edge)))
    (h : motive editor) (id : String) : motive (editor.detached id) := by
  refine foldl_dropEdge_induction hdrop ?_ (fun entry hentry => ?_) h
  · exact editor.graph.edges.nodup.sublist (List.filter_sublist.map _)
  · exact OrderedMap.mem_entries_iff.1 (List.mem_of_mem_filter hentry)

theorem Indexed.detached (h : editor.Indexed) (id : String) : (editor.detached id).Indexed :=
  detached_induction (fun _ _ _ h hedge => h.dropEdge hedge) h id

theorem Named.dropEdge (h : editor.Named) (entry : String × Edge) :
    (editor.dropEdge entry).Named := by
  intro signature hempty
  have hget : (editor.dropEdge entry).registry.get? signature =
      if signature = entry.2.signature then none else editor.registry.get? signature :=
    OrderedMap.get?_erase
  rw [hget] at hempty
  split at hempty
  · cases hempty
  · exact h signature hempty

/-- Every operation that succeeds registers nothing with an empty id. -/
theorem Named.apply (h : editor.Named) {edit : Edit} {edited : Edited}
    (hedit : editor.apply edit = .ok edited) : edited.editor.Named := by
  cases applies_of_apply hedit with
  | nodeAdded | configured | moved | connected | cleared => exact h
  | nodeRemoved id => exact detached_induction (fun _ _ _ h _ => h.dropEdge _) h id
  | edgeRemoved id edge => exact h.dropEdge (id, edge)
  | edgeAdded source target =>
      intro sig hempty
      have hget := get?_registry_withEdge editor source target sig
      rw [show (editor.withEdge source target).registry.get? sig = some "" from hempty] at hget
      split at hget
      · exact newEdgeId_ne_empty source target (Option.some.inj hget).symm
      · exact h sig hget.symm

theorem Named.perform (h : editor.Named) (edit : Edit) : (editor.perform edit).Named := by
  unfold Editor.perform
  cases hedit : editor.apply edit with
  | ok edited => exact h.apply hedit
  | error fault => exact h

theorem Named.performAll (h : editor.Named) (edits : List Edit) :
    (editor.performAll edits).Named := by
  induction edits generalizing editor with
  | nil => exact h
  | cons edit rest ih => exact ih (h.perform edit)

/-! ## The invariant -/

/-- Nodes and edges are stored under their ids, and the registry has the edges that are there. -/
structure WellKept (editor : Editor) : Prop where
  node_id : ∀ id node, editor.graph.nodes.get? id = some node → node.id = id
  edge_id : ∀ id edge, editor.graph.edges.get? id = some edge → edge.id = id
  /-- The id of an edge is made from its signature. -/
  made : ∀ id edge, editor.graph.edges.get? id = some edge →
    id = newEdgeId edge.source edge.target
  /-- A signature is registered with an id exactly if the edge with this id has the signature. -/
  registry_iff : ∀ signature id, editor.registry.get? signature = some id ↔
    ∃ edge, editor.graph.edges.get? id = some edge ∧ edge.signature = signature

namespace WellKept

theorem indexed (h : editor.WellKept) : editor.Indexed := h.registry_iff

theorem named (h : editor.WellKept) : editor.Named := by
  intro signature hempty
  obtain ⟨edge, hedge, -⟩ := (h.registry_iff signature "").1 hempty
  exact newEdgeId_ne_empty _ _ (h.made "" edge hedge).symm

theorem empty : Editor.empty.WellKept := by
  constructor <;> simp [Editor.empty, ofGraph, Graph.empty, registryOf, OrderedMap.empty,
    OrderedMap.get?, Entries.get?]

theorem announced (h : editor.WellKept) (id : Option String) :
    (editor.announced id).editor.WellKept := ⟨h.node_id, h.edge_id, h.made, h.registry_iff⟩

/-- Nodes may be changed that keep their ids. -/
theorem withNodes (h : editor.WellKept) {nodes : OrderedMap Node}
    (hnodes : ∀ id node, nodes.get? id = some node → node.id = id) :
    (editor.withNodes nodes).WellKept := ⟨hnodes, h.edge_id, h.made, h.registry_iff⟩

/-- A node may be stored under its own id. -/
theorem insertNode (h : editor.WellKept) {node : Node} (hid : node.id = id) :
    (editor.withNodes (editor.graph.nodes.insert id node)).WellKept := by
  refine h.withNodes fun other stored hstored => ?_
  rw [OrderedMap.get?_insert] at hstored
  split at hstored
  · rename_i hother
    rw [← Option.some.inj hstored, hid, hother]
  · exact h.node_id other stored hstored

theorem dropEdge (h : editor.WellKept) {edge : Edge}
    (hedge : editor.graph.edges.get? id = some edge) : (editor.dropEdge (id, edge)).WellKept := by
  have hold : ∀ other stored, (editor.dropEdge (id, edge)).graph.edges.get? other = some stored →
      editor.graph.edges.get? other = some stored := by
    intro other stored hstored
    have herase : (editor.dropEdge (id, edge)).graph.edges.get? other =
        if other = id then none else editor.graph.edges.get? other := OrderedMap.get?_erase
    rw [herase] at hstored
    split at hstored
    · cases hstored
    · exact hstored
  exact {
    node_id := h.node_id
    edge_id := fun other stored hstored => h.edge_id other stored (hold other stored hstored)
    made := fun other stored hstored => h.made other stored (hold other stored hstored)
    registry_iff := h.indexed.dropEdge hedge }

/-- The edges that touch a node may be dropped. -/
theorem detached (h : editor.WellKept) (id : String) : (editor.detached id).WellKept :=
  detached_induction (fun _ _ _ h hedge => h.dropEdge hedge) h id

/-- Two nodes may be connected whose signature is not registered and does not clash. -/
theorem connect (h : editor.WellKept) {source target : String}
    (hfresh : editor.registry.get? (signature source target) = none)
    (hnew : editor.graph.edges.get? (newEdgeId source target) = none) :
    (editor.withEdge source target).WellKept := by
  have hcases : ∀ id edge, (editor.withEdge source target).graph.edges.get? id = some edge →
      (id = newEdgeId source target ∧ edge = ⟨newEdgeId source target, source, target⟩) ∨
        editor.graph.edges.get? id = some edge := by
    intro id edge hedge
    rw [get?_edges_withEdge] at hedge
    split at hedge
    · rename_i hid
      exact .inl ⟨hid, (Option.some.inj hedge).symm⟩
    · exact .inr hedge
  constructor
  case node_id => exact h.node_id
  case edge_id =>
    intro id edge hedge
    rcases hcases id edge hedge with ⟨rfl, rfl⟩ | hold
    · rfl
    · exact h.edge_id id edge hold
  case made =>
    intro id edge hedge
    rcases hcases id edge hedge with ⟨rfl, rfl⟩ | hold
    · rfl
    · exact h.made id edge hold
  case registry_iff => exact h.indexed.connect hfresh hnew

/-- The id of a pair that is not registered is not in use, unless its fingerprint is. -/
theorem newEdgeId_fresh (h : editor.WellKept) {source target : String}
    (hfree : ∀ edge ∈ editor.graph.edgeList,
      Text.Sha1.fingerprint edge.signature = Text.Sha1.fingerprint (signature source target) →
        edge.signature = signature source target)
    (hfresh : editor.registry.get? (signature source target) = none) :
    editor.graph.edges.get? (newEdgeId source target) = none := by
  cases hedge : editor.graph.edges.get? (newEdgeId source target) with
  | none => rfl
  | some edge =>
      have hprint : Text.Sha1.fingerprint (signature source target) =
          Text.Sha1.fingerprint edge.signature :=
        (String.append_right_inj _).1 (h.made _ edge hedge)
      have hmem : edge ∈ editor.graph.edgeList :=
        List.mem_map.2 ⟨_, OrderedMap.mem_entries_iff.2 hedge, rfl⟩
      exact absurd (hfree edge hmem hprint.symm) (h.indexed.signature_ne hfresh hedge)

theorem mem_inUse_of_mem_edgeList {edit : Edit} {edge : Edge}
    (h : edge ∈ editor.graph.edgeList) : edge.signature ∈ editor.inUse edit :=
  List.mem_append_left _ (List.mem_map_of_mem h)

/-- Every operation that succeeds keeps the registry. -/
theorem apply (h : editor.WellKept) {edit : Edit} {edited : Edited}
    (hfree : ToldApart (editor.inUse edit)) (hedit : editor.apply edit = .ok edited) :
    edited.editor.WellKept := by
  cases applies_of_apply hedit with
  | nodeAdded =>
      apply WellKept.announced
      exact h.insertNode rfl
  -- the edges go first, and the node is not looked at by the registry
  | nodeRemoved id =>
      have hdetached := h.detached id
      refine (hdetached.withNodes fun other node hnode => ?_).announced _
      rw [OrderedMap.get?_erase] at hnode
      split at hnode
      · cases hnode
      · exact hdetached.node_id other node hnode
  | configured id config node hnode =>
      apply WellKept.announced
      exact h.insertNode (h.node_id id node hnode)
  | moved id position node hnode => exact h.insertNode (h.node_id id node hnode)
  | connected => exact h
  | edgeAdded source target _ _ hfresh =>
      rw [h.named.registered?_eq] at hfresh
      have hasked : signature source target ∈ editor.inUse (.addEdge source target) :=
        List.mem_append_right _ (List.mem_singleton_self _)
      have hnew := h.newEdgeId_fresh
        (fun edge hedge => hfree _ (mem_inUse_of_mem_edgeList hedge) _ hasked) hfresh
      exact (h.connect hfresh hnew).announced _
  | edgeRemoved id edge hedge => exact (h.dropEdge hedge).announced _
  | cleared =>
      refine h.withNodes fun id node hnode => ?_
      rw [OrderedMap.get?_mapValues] at hnode
      obtain ⟨old, hold, rfl⟩ := Option.map_eq_some_iff.1 hnode
      exact h.node_id id old hold

theorem perform (h : editor.WellKept) {edit : Edit} (hfree : ToldApart (editor.inUse edit)) :
    (editor.perform edit).WellKept := by
  unfold Editor.perform
  cases hedit : editor.apply edit with
  | ok edited => exact h.apply hfree hedit
  | error fault => exact h

theorem performAll (h : editor.WellKept) {edits : List Edit}
    (hfree : CollisionFree editor edits) : (editor.performAll edits).WellKept := by
  induction edits generalizing editor with
  | nil => exact h
  | cons edit rest ih => exact ih (h.perform hfree.1) hfree.2

/-- No two edges connect the same pair of nodes. -/
theorem nodup_ends (h : editor.WellKept) : (editor.graph.edgeList.map Edge.ends).Nodup := by
  have hentries : editor.graph.edges.entries.Nodup := editor.graph.edges.nodup.of_map _
  rw [Graph.edgeList, OrderedMap.values, List.map_map]
  refine hentries.map_on fun first hfirst second hsecond hends => ?_
  have hget := OrderedMap.mem_entries_iff.1 hfirst
  have hget' := OrderedMap.mem_entries_iff.1 hsecond
  obtain ⟨hsource, htarget⟩ := Prod.mk.inj hends
  have hsame : first.2.signature = second.2.signature := by
    rw [Edge.signature, Edge.signature, hsource, htarget]
  have hid := h.indexed.id_eq hget hget' hsame
  rw [hid] at hget
  exact Prod.ext hid (Option.some.inj (hget.symm.trans hget'))

end WellKept

/-- Whatever is done to an editor that starts out empty, nodes and edges are stored under their ids,
no two edges connect the same pair, and the registry has exactly the edges that are there, as long
as no two signatures in use have the same fingerprint. -/
theorem wellKept_performAll (edits : List Edit) (hfree : CollisionFree Editor.empty edits) :
    (Editor.empty.performAll edits).WellKept ∧
      ((Editor.empty.performAll edits).graph.edgeList.map Edge.ends).Nodup := by
  have hkept := WellKept.empty.performAll hfree
  exact ⟨hkept, hkept.nodup_ends⟩

/-- Three nodes are chained, one pair twice and one node with an unknown one, and the first node is
removed and connected again the other way round. -/
def rechained : List Edit :=
  ["a", "b", "c"].map (fun id => .addNode "$skip" .null id [] "") ++
    [.addEdge "a" "b", .addEdge "b" "c", .addEdge "a" "b", .addEdge "c" "d", .removeNode "a",
      .addNode "$skip" .null "a" [] "", .addEdge "c" "a"]

/-- Two edges are left, and the registry has them both. -/
theorem wellKept_rechained :
    CollisionFree Editor.empty rechained ∧ (Editor.empty.performAll rechained).WellKept ∧
      (Editor.empty.performAll rechained).graph.edgeList.map Edge.ends =
        [("b", "c"), ("c", "a")] ∧
      (Editor.empty.performAll rechained).registry.keys = ["b->c", "c->a"] := by
  have hfree : CollisionFree Editor.empty rechained := by decide +kernel
  exact ⟨hfree, (wellKept_performAll rechained hfree).1, by decide +kernel, by decide +kernel⟩

end Editor

end StageChain
