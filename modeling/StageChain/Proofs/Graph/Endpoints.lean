import StageChain.Proofs.Graph.Dangling
import StageChain.Proofs.Graph.Naming

/-!
# Edges of a saved graph and the nodes that they name

A saved edge names its nodes by the ids that these give. Loading trims the ids of the nodes, and the
ends of the edges stay as they are. So an edge joins the nodes that it names exactly if both names
are trimmed already, and dangles otherwise: `joins_of_load`.
-/

namespace StageChain

namespace Graph

variable {graph : Graph} {saved : Entries Value} {objects others : List (Entries Value)}
  {payload : Value} {id : String}

/-! ## Saved edges that name their nodes -/

/-- A node of a list gives this very text for its id. -/
def Names (objects : List (Entries Value)) (id : String) : Prop :=
  ∃ saved ∈ objects, Entries.get? "id" saved = some (.text id)

/-- Every edge of a list has a text of its own for an id and goes from one node to another by the
ids that these give. -/
structure NamesNodes (objects others : List (Entries Value)) : Prop where
  ids : ∃ ids : List String, others.map (Entries.get? "id") = ids.map (fun id => some (.text id)) ∧
    ids.Nodup ∧ "" ∉ ids
  ends : ∀ saved ∈ others, ∃ source target : String,
    Entries.get? "source" saved = some (.text source) ∧
      Entries.get? "target" saved = some (.text target) ∧
        Names objects source ∧ Names objects target

/-- A saved edge as it is given. -/
def givenEdge (saved : Entries Value) : Edge :=
  ⟨savedText saved "id", savedText saved "source", savedText saved "target"⟩

theorem savedText_of_text {key text : String} (h : Entries.get? key saved = some (.text text)) :
    savedText saved key = text := by
  rw [savedText, h]
  rfl

theorem savedEdge_of_text (h : Entries.get? "id" saved = some (.text id)) (hne : id ≠ "")
    (index : Nat) : savedEdge index saved = givenEdge saved := by
  have hvoid : (Value.text id).isVoid = false := by simpa [Value.isVoid] using hne
  have hid : savedEdgeId index saved = id := by
    rw [savedEdgeId, Value.field, h, Option.getD_some, Value.given?, hvoid]
    rfl
  rw [savedEdge, givenEdge, hid, savedText_of_text h]

/-- Saved edges with texts for ids are loaded as they are given, whatever their places. -/
theorem savedEdges_of_ids {ids : List String}
    (hids : others.map (Entries.get? "id") = ids.map fun id => some (.text id)) (hne : "" ∉ ids) :
    savedEdges others = others.map givenEdge ∧ savedEdgeIds others = ids := by
  have hid : ∀ saved ∈ others, ∃ id ∈ ids, Entries.get? "id" saved = some (.text id) := by
    intro saved hsaved
    have hmem : Entries.get? "id" saved ∈ ids.map fun id => some (Value.text id) :=
      hids ▸ List.mem_map_of_mem hsaved
    obtain ⟨id, hid, hsame⟩ := List.mem_map.1 hmem
    exact ⟨id, hid, hsame.symm⟩
  -- The index of an edge only makes an id where none is given.
  have hedges : savedEdges others = others.map givenEdge := by
    refine List.ext_getElem (by simp [savedEdges]) fun index hleft hright => ?_
    simp only [savedEdges, List.getElem_mapIdx, List.getElem_map]
    obtain ⟨id, hmem, htext⟩ := hid _ (List.getElem_mem (by simpa [savedEdges] using hleft))
    exact savedEdge_of_text htext (fun hempty => hne (hempty ▸ hmem)) index
  refine ⟨hedges, ?_⟩
  have htexts : others.map (fun saved => some (Value.text (givenEdge saved).id)) =
      ids.map fun id => some (.text id) := by
    rw [← hids]
    refine List.map_congr_left fun saved hsaved => ?_
    obtain ⟨id, -, htext⟩ := hid saved hsaved
    rw [htext, givenEdge, savedText_of_text htext]
  have hinjective : Function.Injective fun id => some (Value.text id) := by
    intro first second hsame
    simpa using hsame
  refine List.map_injective_iff.2 hinjective ?_
  rw [savedEdgeIds, hedges, List.map_map, List.map_map, ← htexts]
  rfl

/-- No saved edge is lost where each has an id of its own. -/
theorem edgeList_of_ids (hnames : NamesNodes objects others)
    (hloads : LoadsEdges others graph) : graph.edgeList = others.map givenEdge := by
  obtain ⟨ids, hids, hnodup, hne⟩ := hnames.ids
  obtain ⟨hedges, hsame⟩ := savedEdges_of_ids hids hne
  have hkeys : Entries.keys ((savedEdges others).map fun edge => (edge.id, edge)) = ids := by
    rw [← hsame]
    simp [Entries.keys, savedEdgeIds, Function.comp_def]
  have hentries := hloads.entries
  rw [Entries.collect_of_nodup (hkeys ▸ hnodup), hedges] at hentries
  simp [edgeList, OrderedMap.values, hentries, Function.comp_def]

/-! ## What they join -/

/-- What becomes of saved edges that name their nodes. -/
structure JoinsNamed (objects others : List (Entries Value)) (graph : Graph) : Prop where
  /-- All of them are there, in order, as they are given. -/
  edges : graph.edgeList = others.map givenEdge
  /-- The node that an edge names is there, under the trimmed name. -/
  named : ∀ saved ∈ objects, ∀ id, Entries.get? "id" saved = some (.text id) →
    ∃ node, graph.nodes.get? (Text.trim id) = some node ∧ LoadsAs saved (Text.trim id, node)
  /-- An edge dangles exactly if one of the two names is not trimmed. -/
  isDangling_iff : ∀ edge ∈ graph.edgeList, graph.isDangling edge = true ↔
    Text.trim edge.source ≠ edge.source ∨ Text.trim edge.target ≠ edge.target
  /-- So all edges join the nodes that they name exactly if all names are trimmed. -/
  hasDanglingEdge_iff : graph.HasDanglingEdge ↔ ∃ saved ∈ others,
    Text.trim (savedText saved "source") ≠ savedText saved "source" ∨
      Text.trim (savedText saved "target") ≠ savedText saved "target"

theorem Normal.trim_of_mem (h : graph.Normal) (hid : id ∈ graph.nodeIds) : Text.trim id = id := by
  obtain ⟨node, hnode⟩ := OrderedMap.mem_keys_iff.1 hid
  exact (h.node id node hnode).trimmed

/-- A node is found by the name that it gives exactly if the name is trimmed. -/
theorem mem_nodeIds_iff_trim (hnormal : graph.Normal)
    (hall : List.Forall₂ LoadsAs objects graph.nodes.entries) (hnames : Names objects id) :
    id ∈ graph.nodeIds ↔ Text.trim id = id := by
  refine ⟨hnormal.trim_of_mem, fun htrim => ?_⟩
  obtain ⟨saved, hsaved, htext⟩ := hnames
  obtain ⟨entry, hentry, hloads⟩ := exists_loadsAs hall hsaved
  have hkey : entry.1 = id := by
    rw [hloads.key, savedId, savedText_of_text htext, htrim]
  exact hkey ▸ List.mem_map_of_mem hentry

/-- Edges that name their nodes join them exactly if the names are trimmed. -/
theorem joins_of_load {editor : Editor} (hload : Editor.load payload = .ok editor)
    (hobjects : Lists payload "nodes" (objects.map .object))
    (hothers : Lists payload "edges" (others.map .object)) (hnames : NamesNodes objects others) :
    JoinsNamed objects others editor.graph := by
  obtain ⟨graph, hgraph, rfl⟩ := Editor.exists_of_load hload
  obtain ⟨saved, _, rfl, hedges, hloads⟩ := ofValue_eq_ok hgraph
  obtain rfl := Lists.unique ⟨saved, rfl, hedges⟩ hothers
  obtain ⟨_, hnodes, -, hall⟩ := exists_objects_of_load hload
  obtain rfl := hnodes.unique hobjects
  have hnormal := normal_of_ofValue hgraph
  have hedges := edgeList_of_ids hnames hloads
  have hdangling : ∀ edge ∈ graph.edgeList, graph.isDangling edge = true ↔
      Text.trim edge.source ≠ edge.source ∨ Text.trim edge.target ≠ edge.target := by
    intro edge hedge
    rw [hedges] at hedge
    obtain ⟨other, hother, rfl⟩ := List.mem_map.1 hedge
    obtain ⟨source, target, hsource, htarget, hfrom, hto⟩ := hnames.ends other hother
    rw [isDangling_eq_true_iff, givenEdge, savedText_of_text hsource, savedText_of_text htarget,
      mem_nodeIds_iff_trim hnormal hall hfrom, mem_nodeIds_iff_trim hnormal hall hto]
  constructor
  case edges => exact hedges
  case isDangling_iff => exact hdangling
  case named =>
    intro object hobject id htext
    obtain ⟨entry, hentry, hloads⟩ := exists_loadsAs hall hobject
    have hkey : entry.1 = Text.trim id := by rw [hloads.key, savedId, savedText_of_text htext]
    rw [← hkey]
    exact ⟨entry.2, OrderedMap.mem_entries_iff.1 hentry, hloads⟩
  case hasDanglingEdge_iff =>
    constructor
    · rintro ⟨edge, hedge, hends⟩
      have hnot := (hdangling edge hedge).1 (isDangling_eq_true_iff.2 hends)
      obtain ⟨other, hother, rfl⟩ := List.mem_map.1 (hedges ▸ hedge)
      exact ⟨other, hother, hnot⟩
    · rintro ⟨other, hother, hnot⟩
      have hedge : givenEdge other ∈ graph.edgeList := hedges ▸ List.mem_map_of_mem hother
      exact ⟨_, hedge, isDangling_eq_true_iff.1 ((hdangling _ hedge).2 hnot)⟩

/-- Three saved nodes, of which the first has a blank in front of its id. -/
def blankStartNodes : List (Entries Value) :=
  [" a", "b", "c"].map fun id =>
    [("id", .text id), ("stage_type", .text "$skip"), ("config", .object [("skip", .int 2)])]

/-- Edges from the first node to the second and from there to the third. -/
def blankStartEdges : List (Entries Value) :=
  [[("id", .text "e"), ("source", .text " a"), ("target", .text "b")],
    [("id", .text "f"), ("source", .text "b"), ("target", .text "c")]]

/-- The saved graph of these nodes and edges. -/
def blankStart : Value :=
  .object [("nodes", .list (blankStartNodes.map .object)),
    ("edges", .list (blankStartEdges.map .object))]

/-- What `blankStart` loads as. -/
def blankStartLoaded : Graph where
  nodes := ⟨["a", "b", "c"].map fun id =>
    (id, ⟨id, "$skip", .object [("skip", .int 2)], Value.origin, .null⟩), by decide⟩
  edges := ⟨[("e", ⟨"e", " a", "b"⟩), ("f", ⟨"f", "b", "c"⟩)], by decide⟩

theorem load_blankStart : Editor.load blankStart = .ok (.ofGraph blankStartLoaded) := rfl

theorem namesNodes_blankStart : NamesNodes blankStartNodes blankStartEdges where
  ids := ⟨["e", "f"], rfl, by decide, by decide⟩
  ends := by
    have hnames : ∀ id ∈ [" a", "b", "c"], Names blankStartNodes id := by
      intro id hid
      exact ⟨_, List.mem_map_of_mem hid, rfl⟩
    intro saved hsaved
    simp only [blankStartEdges, List.mem_cons, List.not_mem_nil, or_false] at hsaved
    rcases hsaved with rfl | rfl
    · exact ⟨" a", "b", rfl, rfl, hnames _ (by decide), hnames _ (by decide)⟩
    · exact ⟨"b", "c", rfl, rfl, hnames _ (by decide), hnames _ (by decide)⟩

theorem lists_blankStart :
    Lists blankStart "nodes" (blankStartNodes.map .object) ∧
      Lists blankStart "edges" (blankStartEdges.map .object) :=
  ⟨⟨_, rfl, rfl⟩, ⟨_, rfl, rfl⟩⟩

/-- The second edge joins its nodes, and the first does not. -/
theorem joins_of_load_blankStart :
    Editor.load blankStart = .ok (.ofGraph blankStartLoaded) ∧
      NamesNodes blankStartNodes blankStartEdges ∧
      JoinsNamed blankStartNodes blankStartEdges blankStartLoaded ∧
      blankStartLoaded.isDangling ⟨"f", "b", "c"⟩ = false ∧
      blankStartLoaded.isDangling ⟨"e", " a", "b"⟩ = true := by
  have hjoins : JoinsNamed blankStartNodes blankStartEdges blankStartLoaded :=
    joins_of_load load_blankStart lists_blankStart.1 lists_blankStart.2 namesNodes_blankStart
  refine ⟨load_blankStart, namesNodes_blankStart, hjoins, ?_, ?_⟩
  · rw [← Bool.not_eq_true, hjoins.isDangling_iff ⟨"f", "b", "c"⟩ (by decide)]
    decide +kernel
  · rw [hjoins.isDangling_iff ⟨"e", " a", "b"⟩ (by decide)]
    decide +kernel

/-- An edge can name its nodes as they are given and dangle. -/
theorem dangles_blankStart :
    NamesNodes blankStartNodes blankStartEdges ∧
      Editor.load blankStart = .ok (.ofGraph blankStartLoaded) ∧
      blankStartLoaded.HasDanglingEdge :=
  ⟨namesNodes_blankStart, load_blankStart, ⟨"e", " a", "b"⟩, by decide, .inl (by decide)⟩

end Graph

end StageChain
