import StageChain.Proofs.Graph.Tidy

/-!
# What connecting two nodes gives

Connecting two nodes gives the id of an edge. A pair that is registered is not connected again, and
it is registered by its signature, which does not tell all pairs apart: ids may have an arrow in
them. `delivers_addEdge_iff` says that the id is that of an edge of the pair exactly if no edge of
another pair has its signature. `signature_injective` says that this takes an id with an arrow.
-/

namespace StageChain.Editor

variable {editor : Editor} {source target : String}

/-! ## Signatures -/

/-- The id has an arrow in it. -/
def HasArrow (id : String) : Prop := ['-', '>'] <:+: id.toList

instance : DecidablePred HasArrow := fun id =>
  inferInstanceAs (Decidable (['-', '>'] <:+: id.toList))

section Arrows

variable {first second rest rest' : List Char}

/-- Characters between an arrow and the same text with another arrow have an arrow, if there are
any. -/
theorem eq_nil_of_arrow {between : List Char}
    (h : '-' :: '>' :: rest = between ++ '-' :: '>' :: rest')
    (hfree : ¬ ['-', '>'] <:+: between) : between = [] := by
  match between with
  | [] => rfl
  | [c] => cases h
  | c :: d :: between =>
      simp only [List.cons_append, List.cons.injEq] at h
      obtain ⟨rfl, rfl, -⟩ := h
      exact absurd ⟨[], between, rfl⟩ hfree

/-- Texts without an arrow are told apart by the first arrow after them. -/
theorem append_arrow_inj (hfirst : ¬ ['-', '>'] <:+: first) (hsecond : ¬ ['-', '>'] <:+: second)
    (h : first ++ '-' :: '>' :: rest = second ++ '-' :: '>' :: rest') :
    first = second ∧ rest = rest' := by
  obtain rfl : first = second := by
    -- one of the two goes on to the arrow of the other, and has no arrow on the way
    obtain ⟨between, rfl, hrest⟩ | ⟨between, rfl, hrest⟩ := List.append_eq_append_iff.1 h
    · have hfree : ¬ ['-', '>'] <:+: between := fun harrow =>
        hsecond (harrow.trans (List.suffix_append first between).isInfix)
      rw [eq_nil_of_arrow hrest hfree, List.append_nil]
    · have hfree : ¬ ['-', '>'] <:+: between := fun harrow =>
        hfirst (harrow.trans (List.suffix_append second between).isInfix)
      rw [eq_nil_of_arrow hrest hfree, List.append_nil]
  obtain ⟨-, hrest⟩ := List.append_inj h rfl
  simpa using hrest

end Arrows

/-- Pairs whose sources have no arrow are told apart by their signatures. -/
theorem signature_injective {other next : String} (hsource : ¬ HasArrow source)
    (hother : ¬ HasArrow other) (h : signature source target = signature other next) :
    source = other ∧ target = next := by
  have hchars : source.toList ++ '-' :: '>' :: target.toList =
      other.toList ++ '-' :: '>' :: next.toList := by
    simpa [signature] using congrArg String.toList h
  obtain ⟨hsame, hnext⟩ := append_arrow_inj hsource hother hchars
  exact ⟨String.toList_inj.1 hsame, String.toList_inj.1 hnext⟩

/-! ## Edges that operations make -/

/-- The edge that an operation is to make: that of two nodes that are there. -/
def made? (editor : Editor) : Edit → Option Edge
  | .addEdge source target =>
    if source ∈ editor.graph.nodeIds ∧ target ∈ editor.graph.nodeIds then
      some ⟨newEdgeId source target, source, target⟩
    else none
  | _ => none

theorem made?_eq_some_iff {edit : Edit} {edge : Edge} :
    editor.made? edit = some edge ↔ edit = .addEdge edge.source edge.target ∧
      edge.source ∈ editor.graph.nodeIds ∧ edge.target ∈ editor.graph.nodeIds ∧
        edge.id = newEdgeId edge.source edge.target := by
  constructor
  · intro h
    cases edit with
    | addEdge source target =>
        simp only [made?, Option.ite_none_right_eq_some, Option.some.injEq] at h
        obtain ⟨⟨hsource, htarget⟩, rfl⟩ := h
        exact ⟨rfl, hsource, htarget, rfl⟩
    | _ => cases h
  · rintro ⟨rfl, hsource, htarget, hid⟩
    rw [made?, if_pos ⟨hsource, htarget⟩, ← hid]

/-- An operation that fails has no edge to make. -/
theorem made?_eq_none_of_refuses {edit : Edit} {fault : EditFault}
    (h : editor.Refuses edit fault) : editor.made? edit = none := by
  cases h with
  | unknownSource source target hsource => exact if_neg fun hends => hsource hends.1
  | unknownTarget source target _ htarget => exact if_neg fun hends => htarget hends.2
  | unknownNode edit id hnode =>
      cases edit with
      | removeNode | updateConfig | moveNode => rfl
      | addNode | addEdge | removeEdge | clearErrors => cases hnode
  | duplicateNode | unknownEdge => rfl

/-- An edge that is there after an operation was there before, or is the one that it makes. -/
theorem get?_edges_of_perform {edit : Edit} {id : String} {edge : Edge}
    (h : (editor.perform edit).graph.edges.get? id = some edge) :
    editor.graph.edges.get? id = some edge ∨ editor.made? edit = some edge ∧ edge.id = id := by
  cases hedit : editor.apply edit with
  | error fault =>
      rw [perform_of_error hedit] at h
      exact .inl h
  | ok edited =>
      rw [perform_of_ok hedit] at h
      cases applies_of_apply hedit with
      | nodeAdded | configured | moved | connected | cleared => exact .inl h
      | nodeRemoved => exact .inl (get?_edges_detached.1 h).1
      | edgeRemoved id edge => exact .inl ((get?_edges_foldl_dropEdge [(id, edge)]).1 h).2
      | edgeAdded source target hsource htarget =>
          simp only [announced, OrderedMap.get?_insert] at h
          split at h
          · rename_i hid
            obtain rfl := Option.some.inj h
            exact .inr ⟨made?_eq_some_iff.2 ⟨rfl, OrderedMap.contains_iff.1 hsource,
              OrderedMap.contains_iff.1 htarget, rfl⟩, hid.symm⟩
          · exact .inl h

/-! ## Connecting -/

/-- The editor has an edge of a pair under an id. -/
def HasEdge (editor : Editor) (id source target : String) : Prop :=
  editor.graph.edges.get? id = some ⟨id, source, target⟩

instance {id : String} : Decidable (editor.HasEdge id source target) :=
  inferInstanceAs (Decidable (_ = _))

/-- An edge with the signature of a pair connects this pair. -/
def ToldFrom (editor : Editor) (source target : String) : Prop :=
  ∀ edge ∈ editor.graph.edgeList, edge.signature = signature source target →
    edge.ends = (source, target)

instance : Decidable (editor.ToldFrom source target) :=
  inferInstanceAs (Decidable (∀ edge ∈ editor.graph.edgeList, _ → _))

/-- Edges are stored under their ids. -/
def EdgesById (editor : Editor) : Prop :=
  ∀ id edge, editor.graph.edges.get? id = some edge → edge.id = id

/-- The edge that a registered pair is given is that of the pair exactly if the pair is told from
all others. -/
theorem Indexed.hasEdge_iff (h : editor.Indexed) (hstored : editor.EdgesById) {id : String}
    (hregistered : editor.registry.get? (signature source target) = some id) :
    editor.HasEdge id source target ↔ editor.ToldFrom source target := by
  obtain ⟨edge, hedge, hsignature⟩ := (h _ id).1 hregistered
  constructor
  · intro hasked other hother hsame
    obtain ⟨key, hother⟩ := OrderedMap.mem_values_iff.1 hother
    obtain rfl : key = id := h.id_eq hother hasked hsame
    rw [Option.some.inj (hother.symm.trans hasked)]
    rfl
  · intro htold
    have hmem : edge ∈ editor.graph.edgeList := OrderedMap.mem_values_iff.2 ⟨id, hedge⟩
    obtain ⟨hsource, htarget⟩ := Prod.mk.inj (htold edge hmem hsignature)
    rw [HasEdge, hedge, ← hstored id edge hedge, ← hsource, ← htarget]

/-- A pair that is not registered has no edge with its signature. -/
theorem Indexed.toldFrom_of_fresh (h : editor.Indexed)
    (hfresh : editor.registry.get? (signature source target) = none) :
    editor.ToldFrom source target := by
  intro edge hedge hsame
  obtain ⟨key, hedge⟩ := OrderedMap.mem_values_iff.1 hedge
  exact absurd hsame (h.signature_ne hfresh hedge)

theorem WellKept.addEdge (h : editor.WellKept) (hsource : source ∈ editor.graph.nodeIds)
    (htarget : target ∈ editor.graph.nodeIds) :
    ∃ edited id, editor.addEdge source target = .ok edited ∧ edited.id = some id ∧
      (edited.editor.HasEdge id source target ↔ editor.ToldFrom source target) := by
  have hsource' : editor.graph.nodes.contains source = true := by
    simpa [Graph.nodeIds, OrderedMap.contains] using hsource
  have htarget' : editor.graph.nodes.contains target = true := by
    simpa [Graph.nodeIds, OrderedMap.contains] using htarget
  unfold Editor.addEdge
  rw [hsource', htarget', h.named.registered?_eq]
  cases hregistry : editor.registry.get? (signature source target) with
  | some id => exact ⟨_, id, rfl, rfl, h.indexed.hasEdge_iff h.edge_id hregistry⟩
  | none =>
      refine ⟨_, newEdgeId source target, rfl, rfl, fun _ => h.indexed.toldFrom_of_fresh hregistry,
        fun _ => ?_⟩
      rw [HasEdge]
      exact OrderedMap.get?_insert.trans (if_pos rfl)

/-- Pairs of nodes without arrows in their ids are told from each other. -/
theorem toldFrom_of_forall (h : editor.graph.Tidy)
    (hplain : ∀ id ∈ editor.graph.nodeIds, ¬ HasArrow id)
    (hsource : source ∈ editor.graph.nodeIds) : editor.ToldFrom source target := by
  intro edge hedge hsame
  obtain ⟨⟨key, _⟩, hentry, rfl⟩ := List.mem_map.1 hedge
  -- the edge starts at a node, so its source has no arrow either
  obtain ⟨hjoined, -⟩ := h.joins key _ (OrderedMap.mem_entries_iff.1 hentry)
  obtain ⟨hsource', htarget'⟩ :=
    signature_injective (hplain _ hjoined) (hplain _ hsource) hsame
  exact Prod.ext hsource' htarget'

/-- Whatever is done to an editor that starts out empty, connecting two of its nodes gives the id of
an edge, as long as no two signatures in use have the same fingerprint. This edge connects the two
nodes exactly if no edge of another pair has the signature of theirs, so it does if no node has an
arrow in its id. -/
theorem hasEdge_addEdge_iff (edits : List Edit) (source target : String)
    (hfree : CollisionFree Editor.empty edits)
    (hsource : source ∈ (Editor.empty.performAll edits).graph.nodeIds)
    (htarget : target ∈ (Editor.empty.performAll edits).graph.nodeIds) :
    (∃ edited id, (Editor.empty.performAll edits).addEdge source target = .ok edited ∧
      edited.id = some id ∧
      (edited.editor.HasEdge id source target ↔
        (Editor.empty.performAll edits).ToldFrom source target)) ∧
    ((∀ id ∈ (Editor.empty.performAll edits).graph.nodeIds, ¬ HasArrow id) →
      (Editor.empty.performAll edits).ToldFrom source target) :=
  ⟨(WellKept.empty.performAll hfree).addEdge hsource htarget, fun hplain =>
    toldFrom_of_forall (Graph.Tidy.empty.performAll edits) hplain hsource⟩

/-- Four nodes, two of them with arrows in their ids, and an edge. -/
def arrowed : List Edit :=
  ["a", "b->c", "a->b", "c"].map (fun id => .addNode "$skip" .null id [] "") ++
    [.addEdge "a" "b->c"]

/-- The pair `a` and `c` is told from the connected pair, and gets an edge of its own. -/
theorem hasEdge_arrowed :
    ∃ edited id, (Editor.empty.performAll arrowed).addEdge "a" "c" = .ok edited ∧
      edited.id = some id ∧ edited.editor.HasEdge id "a" "c" := by
  have hfree : CollisionFree Editor.empty arrowed := by decide +kernel
  obtain ⟨⟨edited, id, hedited, hid, hedge⟩, -⟩ :=
    hasEdge_addEdge_iff arrowed "a" "c" hfree (by decide +kernel) (by decide +kernel)
  exact ⟨edited, id, hedited, hid, hedge.2 (by decide +kernel)⟩

/-- Connecting `a->b` and `c` gives no edge of theirs, but the one that is there. -/
theorem not_hasEdge_arrowed :
    CollisionFree Editor.empty arrowed ∧
      "a->b" ∈ (Editor.empty.performAll arrowed).graph.nodeIds ∧
      "c" ∈ (Editor.empty.performAll arrowed).graph.nodeIds ∧
      ¬ ∃ edited id, (Editor.empty.performAll arrowed).addEdge "a->b" "c" = .ok edited ∧
        edited.id = some id ∧ edited.editor.HasEdge id "a->b" "c" := by
  have hfree : CollisionFree Editor.empty arrowed := by decide +kernel
  have hsource : "a->b" ∈ (Editor.empty.performAll arrowed).graph.nodeIds := by decide +kernel
  have htarget : "c" ∈ (Editor.empty.performAll arrowed).graph.nodeIds := by decide +kernel
  refine ⟨hfree, hsource, htarget, ?_⟩
  rintro ⟨edited, id, hedited, hid, hedge⟩
  obtain ⟨same, other, hsame, hother, hiff⟩ :=
    (WellKept.empty.performAll hfree).addEdge hsource htarget
  obtain rfl := Except.ok.inj (hedited.symm.trans hsame)
  obtain rfl := Option.some.inj (hid.symm.trans hother)
  exact absurd (hiff.1 hedge) (by decide +kernel)

end StageChain.Editor
