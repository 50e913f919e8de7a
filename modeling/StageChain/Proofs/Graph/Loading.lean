import StageChain.Graph.Editor
import StageChain.Proofs.Entries
import StageChain.Proofs.Pipeline.Compilation

/-!
# Which edges of a saved graph are loaded

A graph keeps its edges by id, and a saved edge without an id is named by its index. So the edges
of a saved graph are all loaded, in their order, exactly if no two of them have the same id in the
end: `load_edges_iff`. Where two have, the later one replaces the earlier one.
-/

namespace StageChain

/-- What is loaded is the editor of a graph. -/
theorem Editor.exists_of_load {payload : Value} {editor : Editor}
    (h : Editor.load payload = .ok editor) :
    ∃ graph, Graph.ofValue payload = .ok graph ∧ editor = ofGraph graph := by
  unfold Editor.load at h
  cases hgraph : Graph.ofValue payload with
  | error fault => simp [hgraph, Except.map] at h
  | ok graph =>
      rw [hgraph] at h
      exact ⟨graph, rfl, (Except.ok.inj h).symm⟩

namespace Graph

variable {graph : Graph} {objects : List (Entries Value)}

/-! ## The edges of a saved graph -/

/-- The saved edges, in order. -/
def savedEdges (objects : List (Entries Value)) : List Edge := objects.mapIdx savedEdge

/-- The ids of the saved edges, given or made from the index. -/
def savedEdgeIds (objects : List (Entries Value)) : List String := (savedEdges objects).map (·.id)

/-- The source and the target of a saved edge. -/
def savedEnds (saved : Entries Value) : String × String :=
  (savedText saved "source", savedText saved "target")

/-- The id that a saved edge is given. -/
def givenEdgeId? (saved : Entries Value) : Option String :=
  (Value.field saved "id").given?.map Value.display

/-- The id that an edge without one gets. -/
def indexEdgeId (index : Nat) : String := "edge_" ++ String.ofList (Nat.toDigits 10 index)

theorem savedEdgeId_eq (index : Nat) (saved : Entries Value) :
    savedEdgeId index saved = (givenEdgeId? saved).getD (indexEdgeId index) := by
  unfold savedEdgeId givenEdgeId?
  cases (Value.field saved "id").given? <;> rfl

theorem indexEdgeId_inj {i j : Nat} (h : indexEdgeId i = indexEdgeId j) : i = j := by
  have hdigits : Nat.toDigits 10 i = Nat.toDigits 10 j := by
    have hchars := congrArg String.toList h
    simpa [indexEdgeId] using hchars
  calc i = Nat.ofDigitChars 10 (Nat.toDigits 10 i) 0 := Nat.ofDigitChars_ten_toDigits.symm
    _ = Nat.ofDigitChars 10 (Nat.toDigits 10 j) 0 := by rw [hdigits]
    _ = j := Nat.ofDigitChars_ten_toDigits

theorem map_ends_savedEdges (objects : List (Entries Value)) :
    (savedEdges objects).map Edge.ends = objects.map savedEnds := by
  refine List.ext_getElem? fun index => ?_
  rw [List.getElem?_map, List.getElem?_map, savedEdges, List.getElem?_mapIdx, Option.map_map]
  rfl

/-- Two edges at different places have the same id if both give it, or if one gives the id that the
other gets for its index. -/
def Clashes (i j : Nat) (first second : Entries Value) : Prop :=
  match givenEdgeId? first, givenEdgeId? second with
  | some id, some other => id = other
  | some id, none => id = indexEdgeId j
  | none, some other => other = indexEdgeId i
  | none, none => False

theorem clashes_iff {i j : Nat} {first second : Entries Value} (hne : i ≠ j) :
    Clashes i j first second ↔ savedEdgeId i first = savedEdgeId j second := by
  rw [savedEdgeId_eq, savedEdgeId_eq, Clashes]
  cases givenEdgeId? first with
  | some id => cases givenEdgeId? second <;> simp
  | none =>
      cases givenEdgeId? second with
      | some other => simp [eq_comm]
      | none => simpa using fun h => hne (indexEdgeId_inj h)

/-- No two ids are the same exactly if no two edges clash. -/
theorem nodup_savedEdgeIds_iff :
    (savedEdgeIds objects).Nodup ↔ ∀ (i j : Nat) (first second : Entries Value), i < j →
      objects[i]? = some first → objects[j]? = some second → ¬ Clashes i j first second := by
  have hid : ∀ index, (savedEdgeIds objects)[index]? = objects[index]?.map (savedEdgeId index) := by
    intro index
    rw [savedEdgeIds, savedEdges, List.getElem?_map, List.getElem?_mapIdx, Option.map_map]
    rfl
  have hlength : (savedEdgeIds objects).length = objects.length := by
    simp [savedEdgeIds, savedEdges]
  rw [List.nodup_iff_getElem?_ne_getElem?]
  constructor
  · intro h i j first second hij hfirst hsecond hclash
    have hj : j < (savedEdgeIds objects).length := by
      rw [hlength]
      exact (List.getElem?_eq_some_iff.1 hsecond).1
    refine h i j hij hj ?_
    rw [hid, hid, hfirst, hsecond, Option.map_some, Option.map_some,
      (clashes_iff (Nat.ne_of_lt hij)).1 hclash]
  · intro h i j hij hj hsame
    rw [hlength] at hj
    have hfirst := List.getElem?_eq_getElem (Nat.lt_trans hij hj)
    have hsecond := List.getElem?_eq_getElem hj
    rw [hid, hid, hfirst, hsecond, Option.map_some, Option.map_some] at hsame
    exact h i j _ _ hij hfirst hsecond ((clashes_iff (Nat.ne_of_lt hij)).2 (Option.some.inj hsame))

theorem loadEdges_eq_ok {index : Nat} {edges loaded : OrderedMap Edge} {items : List Value}
    (h : loadEdges index edges items = .ok loaded) :
    ∃ objects : List (Entries Value), items = objects.map .object ∧
      loaded.entries = ((objects.mapIdx fun i saved => savedEdge (index + i) saved).map
        fun edge => (edge.id, edge)).foldl
          (fun entries pair => Entries.insert pair.1 pair.2 entries) edges.entries := by
  induction items generalizing index edges with
  | nil =>
      cases h
      exact ⟨[], rfl, rfl⟩
  | cons item rest ih =>
      cases item with
      | object saved =>
          obtain ⟨objects, hitems, hloaded⟩ := ih h
          refine ⟨saved :: objects, by rw [hitems]; rfl, ?_⟩
          rw [hloaded, List.mapIdx_cons, List.map_cons, List.foldl_cons]
          simp only [Nat.add_comm 1, Nat.add_assoc, Nat.add_zero]
          rfl
      | _ => cases h

/-! ## What is loaded -/

/-- Edges of a list leave or enter a node several times. -/
def Forks (ends : List (String × String)) : Prop :=
  ¬ (ends.map Prod.fst).Nodup ∨ ¬ (ends.map Prod.snd).Nodup

/-- An edge of a list has an end that is not a node. -/
def Dangles (nodeIds : List String) (ends : List (String × String)) : Prop :=
  ∃ pair ∈ ends, pair.1 ∉ nodeIds ∨ pair.2 ∉ nodeIds

theorem IsListing.not_forks {order : List String} (h : graph.IsListing order) :
    ¬ Forks (graph.edgeList.map Edge.ends) := by
  have hsources : (graph.edgeList.map Edge.ends).map Prod.fst = graph.edgeList.map (·.source) :=
    List.map_map
  have htargets : (graph.edgeList.map Edge.ends).map Prod.snd = graph.edgeList.map (·.target) :=
    List.map_map
  rintro (hfork | hfork)
  · rw [hsources, h.sources.nodup_iff] at hfork
    exact hfork (h.nodup.sublist (List.dropLast_sublist _))
  · rw [htargets, h.targets.nodup_iff] at hfork
    exact hfork (h.nodup.sublist (List.tail_sublist _))

theorem IsListing.not_dangles {order : List String} (h : graph.IsListing order) :
    ¬ Dangles graph.nodeIds (graph.edgeList.map Edge.ends) := by
  rintro ⟨pair, hpair, hout⟩
  obtain ⟨edge, hedge, rfl⟩ := List.mem_map.1 hpair
  obtain ⟨hsource, htarget⟩ := danglingEdges_eq_nil_iff.1 h.danglingEdges edge hedge
  exact hout.elim (absurd hsource) (absurd htarget)

/-- The saved edges and those of the graph that is loaded. -/
structure LoadsEdges (objects : List (Entries Value)) (graph : Graph) : Prop where
  /-- Of the edges with one id the last is kept, in the place of the first. -/
  entries : graph.edges.entries =
    Entries.collect ((savedEdges objects).map fun edge => (edge.id, edge))
  /-- All sources and targets are kept in order exactly if no two edges clash. -/
  ends_iff : graph.edgeList.map Edge.ends = objects.map savedEnds ↔
    ∀ (i j : Nat) (first second : Entries Value), i < j → objects[i]? = some first →
      objects[j]? = some second → ¬ Clashes i j first second
  /-- An edge is lost exactly if two clash. -/
  length_iff : graph.edgeList.length = objects.length ↔ (savedEdgeIds objects).Nodup
  /-- If none is lost, saved edges that fork or dangle do not load as a chain of nodes; a graph
  without nodes is the empty chain whatever its edges. -/
  noChain : graph.edgeList.length = objects.length →
    Forks (objects.map savedEnds) ∨ Dangles graph.nodeIds (objects.map savedEnds) →
      (∃ fault : ChainFault, graph.compile = .ok ⟨[], .error fault.failure⟩) ∨
        graph.nodeIds = [] ∧ graph.compile = .ok ⟨[], .ok ⟨[], []⟩⟩

theorem compile_of_nodeIds_eq_nil (h : graph.nodeIds = []) :
    graph.compile = .ok ⟨[], .ok ⟨[], []⟩⟩ := by
  have horder : graph.linearize = .ok [] := by simp [linearize, h]
  exact compile_eq_of_reports (.compiled [] _ horder (by simp) .nil)

theorem loadsEdges_of_entries (h : graph.edges.entries =
    Entries.collect ((savedEdges objects).map fun edge => (edge.id, edge))) :
    LoadsEdges objects graph := by
  have hkeys : Entries.keys ((savedEdges objects).map fun edge => (edge.id, edge)) =
      savedEdgeIds objects := by
    simp [Entries.keys, savedEdgeIds, Function.comp_def]
  have hlength : graph.edgeList.length = objects.length ↔ (savedEdgeIds objects).Nodup := by
    rw [← hkeys, ← Entries.length_collect_iff, ← h]
    simp [edgeList, OrderedMap.values, savedEdges]
  have hkept : (savedEdgeIds objects).Nodup →
      graph.edgeList.map Edge.ends = objects.map savedEnds := by
    intro hnodup
    rw [← hkeys] at hnodup
    rw [← map_ends_savedEdges, edgeList, OrderedMap.values, h, Entries.collect_of_nodup hnodup]
    simp [Function.comp_def]
  constructor
  case entries => exact h
  case length_iff => exact hlength
  case ends_iff =>
    rw [← nodup_savedEdgeIds_iff]
    refine ⟨fun hends => ?_, hkept⟩
    have hsame := congrArg List.length hends
    simp only [List.length_map] at hsame
    exact hlength.1 hsame
  case noChain =>
    intro hall hshape
    rw [← hkept (hlength.1 hall)] at hshape
    by_cases hne : graph.nodeIds = []
    · exact .inr ⟨hne, compile_of_nodeIds_eq_nil hne⟩
    · refine .inl ?_
      cases hfound : graph.linearize with
      | error fault => exact ⟨fault, compile_eq_of_reports (.noChain fault hfound)⟩
      | ok order =>
          have hlisting := (linearize_eq_ok_iff hne).1 hfound
          exact hshape.elim (absurd · hlisting.not_forks) (absurd · hlisting.not_dangles)

/-- What a graph is loaded from: an object with lists of nodes and of edges. -/
structure LoadedFrom (saved : Entries Value) (nodes edges : List Value) (graph : Graph) : Prop where
  savedNodes : savedEntries saved "nodes" = .ok nodes
  savedEdges : savedEntries saved "edges" = .ok edges
  loadNodes : loadNodes 0 .empty nodes = .ok graph.nodes
  loadEdges : loadEdges 0 .empty edges = .ok graph.edges

theorem exists_loadedFrom_of_ofValue {payload : Value} (h : ofValue payload = .ok graph) :
    ∃ saved nodes edges, payload = .object saved ∧ LoadedFrom saved nodes edges graph := by
  cases payload with
  | object saved =>
      simp only [ofValue, bind, Except.bind] at h
      split at h
      · cases h
      rename_i nodes hnodes
      split at h
      · cases h
      rename_i loadedNodes hloadNodes
      split at h
      · cases h
      rename_i edges hedges
      split at h
      · cases h
      rename_i loadedEdges hloadEdges
      cases h
      exact ⟨saved, nodes, edges, rfl, hnodes, hedges, hloadNodes, hloadEdges⟩
  | _ => cases h

theorem ofValue_eq_ok {payload : Value} (h : ofValue payload = .ok graph) :
    ∃ saved objects, payload = .object saved ∧
      savedEntries saved "edges" = .ok (objects.map .object) ∧ LoadsEdges objects graph := by
  obtain ⟨saved, nodes, edges, rfl, hfrom⟩ := exists_loadedFrom_of_ofValue h
  obtain ⟨objects, rfl, hentries⟩ := loadEdges_eq_ok hfrom.loadEdges
  simp only [Nat.zero_add] at hentries
  exact ⟨saved, objects, rfl, hfrom.savedEdges, loadsEdges_of_entries hentries⟩

/-- The edges of a saved graph that loads: all are kept in order exactly if no two clash, and then a
list of edges that forks or dangles does not compile as a chain of nodes. -/
theorem load_edges_iff {payload : Value} {editor : Editor} (h : Editor.load payload = .ok editor) :
    ∃ saved objects, payload = .object saved ∧
      savedEntries saved "edges" = .ok (objects.map .object) ∧
        LoadsEdges objects editor.graph := by
  unfold Editor.load at h
  cases hgraph : ofValue payload with
  | error fault => simp [hgraph, Except.map] at h
  | ok graph =>
      simp only [hgraph, Except.map, Except.ok.injEq] at h
      subst h
      exact ofValue_eq_ok hgraph

/-- The saved edges of `takenId`: the first has the id that the second gets for its index. -/
def takenIdEdges : List (Entries Value) :=
  [[("id", .text "edge_1"), ("source", .text "a"), ("target", .text "c")],
    [("source", .text "a"), ("target", .text "b")], [("source", .text "b"), ("target", .text "c")]]

/-- A saved graph with edges from its first node to both others. -/
def takenId : Value :=
  .object [
    ("nodes", .list (["a", "b", "c"].map fun id => .object [("id", .text id),
      ("stage_type", .text "$skip"), ("config", .object [("skip", .int 1)])])),
    ("edges", .list (takenIdEdges.map .object))]

/-- What `takenId` loads as: the first edge is replaced by the second. -/
def takenIdLoaded : Graph where
  nodes := ⟨["a", "b", "c"].map fun id =>
    (id, ⟨id, "$skip", .object [("skip", .int 1)], Value.origin, .null⟩), by decide⟩
  edges := ⟨[("edge_1", ⟨"edge_1", "a", "b"⟩), ("edge_2", ⟨"edge_2", "b", "c"⟩)], by decide⟩

theorem load_takenId : Editor.load takenId = .ok (.ofGraph takenIdLoaded) := rfl

theorem linearize_takenIdLoaded : takenIdLoaded.linearize = .ok ["a", "b", "c"] := by
  refine (linearize_eq_ok_iff (by decide)).2 ⟨by decide, fun id => ?_, by decide⟩
  simp [nodeIds, takenIdLoaded, OrderedMap.keys, Entries.keys]

/-- An edge of `takenId` is lost, since two of them clash. -/
theorem load_edges_iff_takenId :
    Editor.load takenId = .ok (.ofGraph takenIdLoaded) ∧ LoadsEdges takenIdEdges takenIdLoaded ∧
      ¬ (savedEdgeIds takenIdEdges).Nodup ∧ takenIdLoaded.edgeList.length = 2 := by
  obtain ⟨saved, objects, hsaved, hitems, hloads⟩ := load_edges_iff load_takenId
  cases hsaved
  have hobjects : objects = takenIdEdges := by
    have hmap : takenIdEdges.map Value.object = objects.map Value.object := Except.ok.inj hitems
    exact ((List.map_injective_iff.2 fun _ _ hsame => Value.object.inj hsame) hmap).symm
  rw [hobjects] at hloads
  exact ⟨load_takenId, hloads, by decide +kernel, rfl⟩

/-- Saved edges that fork can load as a chain, with one of them lost. -/
theorem forks_load_as_chain :
    Forks (takenIdEdges.map savedEnds) ∧ Editor.load takenId = .ok (.ofGraph takenIdLoaded) ∧
      takenIdLoaded.edgeList.map Edge.ends ≠ takenIdEdges.map savedEnds ∧
      takenIdLoaded.compile = .ok ⟨["a", "b", "c"],
        .ok ⟨["a", "b", "c"].map fun id => ⟨id, ⟨"$skip", .int 1⟩⟩, []⟩⟩ := by
  refine ⟨.inl (by decide +kernel), load_takenId, by decide +kernel, ?_⟩
  have hassemble : takenIdLoaded.assemble ["a", "b", "c"] =
      .ok ⟨["a", "b", "c"].map fun id => ⟨id, ⟨"$skip", .int 1⟩⟩, []⟩ := rfl
  rw [compile, linearize_takenIdLoaded]
  simp only [hassemble]

end Graph

end StageChain
