import StageChain.Proofs.Graph.Loading

/-!
# Which nodes of a saved graph are loaded

The nodes of a saved graph are loaded one by one, in order, each under the trimmed text of its id.
If one of them cannot be loaded, none is, and the first that cannot says why: `loadNodes_cases`.
A node without an id is refused, and so is one whose id is taken. But null is shown as a word, so
that a node whose id is null has an id, although it gives none: `givesId_savedId_iff`. What becomes
of all nodes of a saved graph is `load_nodes_exact`.
-/

namespace StageChain

namespace Graph

variable {saved : Entries Value} {objects : List (Entries Value)} {items : List Value}
  {payload : Value} {nodes loaded : OrderedMap Node} {id : String} {index : Nat} {fault : LoadFault}

/-! ## A single node -/

/-- The trimmed id that a saved node gives: null gives none, and nor does a text of blanks. -/
def GivesId (saved : Entries Value) (id : String) : Prop :=
  ∃ value, Entries.get? "id" saved = some value ∧ value ≠ .null ∧
    Text.trim value.display = id ∧ id ≠ ""

/-- There is no id, or only blanks. -/
def LacksId (saved : Entries Value) : Prop :=
  ∀ value, Entries.get? "id" saved = some value → Text.trim value.display = ""

/-- The position is an object, if one is given. -/
def IsPlaced (saved : Entries Value) : Prop :=
  ∀ value, (Value.field saved "position").given? = some value → ∃ entries, value = .object entries

/-- What a saved node is loaded as, under its id. -/
structure LoadsAs (saved : Entries Value) (entry : String × Node) : Prop where
  key : entry.1 = savedId saved
  id : entry.2.id = savedId saved
  stageType : entry.2.stageType = savedStageType saved
  config : entry.2.config = savedConfig saved
  position : savedPosition (savedId saved) saved = .ok entry.2.position
  error : entry.2.error = Value.field saved "error"

theorem lacksId_iff : LacksId saved ↔ savedId saved = "" := by
  unfold LacksId savedId savedText
  cases Entries.get? "id" saved with
  | none => exact iff_of_true nofun rfl
  | some value => simp

/-- The id of a node that is loaded is one that is given, unless it is null. -/
theorem givesId_savedId_iff (hnamed : savedId saved ≠ "") :
    GivesId saved (savedId saved) ↔ Entries.get? "id" saved ≠ some .null := by
  cases hvalue : Entries.get? "id" saved with
  | none => exact absurd (lacksId_iff.1 fun value h => by simp [hvalue] at h) hnamed
  | some value =>
      have hid : savedId saved = Text.trim value.display := by rw [savedId, savedText, hvalue]
      constructor
      · rintro ⟨other, hother, hne, -⟩ hnull
        rw [hvalue, hnull] at hother
        exact hne (Option.some.inj hother).symm
      · intro hne
        exact ⟨value, hvalue, fun hnull => hne (by rw [hnull]), hid.symm, hnamed⟩

theorem isPlaced_iff (id : String) :
    IsPlaced saved ↔ ∃ position, savedPosition id saved = .ok position := by
  unfold IsPlaced savedPosition
  cases (Value.field saved "position").given? with
  | none => simp
  | some value => cases value <;> simp

theorem savedPosition_of_not_isPlaced (h : ¬ IsPlaced saved) (id : String) :
    savedPosition id saved = .error (.positionNotObject id) := by
  unfold IsPlaced at h
  unfold savedPosition
  cases hgiven : (Value.field saved "position").given? with
  | none => simp [hgiven] at h
  | some value => cases value <;> simp_all

/-- Why an item of the list of nodes, at an index, is refused after nodes with some ids. -/
inductive Refuses (taken : List String) (index : Nat) : Value → LoadFault → Prop where
  | notObject {item : Value} (hobject : ∀ saved, item ≠ .object saved) :
      Refuses taken index item (.entryNotObject "nodes" index)
  | noId {saved : Entries Value} (hlacks : LacksId saved) :
      Refuses taken index (.object saved) .noId
  | taken {saved : Entries Value} (hnamed : ¬ LacksId saved) (htaken : savedId saved ∈ taken) :
      Refuses taken index (.object saved) (.duplicateId (savedId saved))
  | notPlaced {saved : Entries Value} (hnamed : ¬ LacksId saved) (hfree : savedId saved ∉ taken)
      (hplaced : ¬ IsPlaced saved) :
      Refuses taken index (.object saved) (.positionNotObject (savedId saved))

/-- A saved node is added with all that it says, or it is refused. -/
theorem loadNode_cases (nodes : OrderedMap Node) (saved : Entries Value) (index : Nat) :
    (∃ node, loadNode nodes saved = .ok (nodes.insert (savedId saved) node) ∧
      LoadsAs saved (savedId saved, node) ∧ ¬ LacksId saved ∧ IsPlaced saved ∧
        savedId saved ∉ nodes.keys) ∨
      ∃ fault, loadNode nodes saved = .error fault ∧
        Refuses nodes.keys index (.object saved) fault := by
  by_cases hlacks : LacksId saved
  · refine .inr ⟨.noId, ?_, .noId hlacks⟩
    simp [loadNode, lacksId_iff.1 hlacks]
  have hnamed : (savedId saved).isEmpty = false := by simpa [lacksId_iff] using hlacks
  by_cases htaken : savedId saved ∈ nodes.keys
  · refine .inr ⟨_, ?_, .taken hlacks htaken⟩
    simp only [loadNode, hnamed, OrderedMap.contains_iff.2 htaken, if_true, if_false,
      Bool.false_eq_true]
  have hfree : nodes.contains (savedId saved) = false := OrderedMap.contains_eq_false_iff.2 htaken
  by_cases hplaced : IsPlaced saved
  · obtain ⟨position, hposition⟩ := (isPlaced_iff (savedId saved)).1 hplaced
    refine .inl ⟨⟨savedId saved, savedStageType saved, savedConfig saved, position,
      Value.field saved "error"⟩, ?_, ⟨rfl, rfl, rfl, rfl, hposition, rfl⟩, hlacks, hplaced, htaken⟩
    simp only [loadNode, hnamed, hfree, if_false, Bool.false_eq_true, hposition, bind, Except.bind]
  · refine .inr ⟨_, ?_, .notPlaced hlacks htaken hplaced⟩
    simp only [loadNode, hnamed, hfree, if_false, Bool.false_eq_true,
      savedPosition_of_not_isPlaced hplaced, bind, Except.bind]

/-! ## All nodes -/

/-- Saved nodes that can be loaded after nodes with some ids: each has an id and a place, and no two
ids are the same. -/
structure Accepts (taken : List String) (objects : List (Entries Value)) : Prop where
  named : ∀ saved ∈ objects, ¬ LacksId saved
  placed : ∀ saved ∈ objects, IsPlaced saved
  distinct : (taken ++ objects.map savedId).Nodup

/-- Nodes that can be loaded come before the first that is refused. -/
def RefusedFor (taken : List String) (index : Nat) (items : List Value) (fault : LoadFault) :
    Prop :=
  ∃ before item after, items = before.map .object ++ item :: after ∧ Accepts taken before ∧
    Refuses (taken ++ before.map savedId) (index + before.length) item fault

theorem accepts_nil (nodes : OrderedMap Node) : Accepts nodes.keys [] := by
  refine ⟨by simp, by simp, ?_⟩
  rw [List.map_nil, List.append_nil]
  exact nodes.nodup

theorem accepts_cons_iff {taken : List String} : Accepts taken (saved :: objects) ↔
    ¬ LacksId saved ∧ IsPlaced saved ∧ Accepts (taken ++ [savedId saved]) objects := by
  constructor
  · rintro ⟨hnamed, hplaced, hdistinct⟩
    rw [List.forall_mem_cons] at hnamed hplaced
    rw [List.map_cons, List.append_cons] at hdistinct
    exact ⟨hnamed.1, hplaced.1, hnamed.2, hplaced.2, hdistinct⟩
  · rintro ⟨hnamed, hplaced, hrest⟩
    refine ⟨List.forall_mem_cons.2 ⟨hnamed, hrest.named⟩,
      List.forall_mem_cons.2 ⟨hplaced, hrest.placed⟩, ?_⟩
    rw [List.map_cons, List.append_cons]
    exact hrest.distinct

/-- All nodes are loaded in order, or the first that is refused gives the fault. -/
theorem loadNodes_cases (index : Nat) (nodes : OrderedMap Node) (items : List Value) :
    (∃ loaded objects entries, loadNodes index nodes items = .ok loaded ∧
      items = objects.map .object ∧ Accepts nodes.keys objects ∧
        List.Forall₂ LoadsAs objects entries ∧ loaded.entries = nodes.entries ++ entries) ∨
      ∃ fault, loadNodes index nodes items = .error fault ∧
        RefusedFor nodes.keys index items fault := by
  -- Over the items, with any nodes before them: what is accepted is told from their ids alone.
  induction items generalizing index nodes with
  | nil =>
      exact .inl ⟨nodes, [], [], rfl, rfl, accepts_nil nodes, .nil, (List.append_nil _).symm⟩
  | cons item rest ih =>
      cases item with
      | object saved =>
          have hcons : loadNodes index nodes (.object saved :: rest) =
              (loadNode nodes saved).bind fun next => loadNodes (index + 1) next rest := rfl
          rw [hcons]
          rcases loadNode_cases nodes saved index with
            ⟨node, hnode, hloads, hnamed, hplaced, hfree⟩ | ⟨fault, hfault, hrefuses⟩
          · rw [hnode]
            have hkeys : (nodes.insert (savedId saved) node).keys = nodes.keys ++ [savedId saved] :=
              OrderedMap.keys_insert_of_not_mem hfree
            rcases ih (index + 1) (nodes.insert (savedId saved) node) with
              ⟨loaded, objects, entries, hloaded, hitems, haccepts, hall, hentries⟩ |
                ⟨fault, hfault, before, item, after, hitems, haccepts, hrefuses⟩
            · refine .inl ⟨loaded, saved :: objects, (savedId saved, node) :: entries, hloaded,
                by rw [hitems]; rfl, ?_, .cons hloads hall, ?_⟩
              · rw [hkeys] at haccepts
                exact accepts_cons_iff.2 ⟨hnamed, hplaced, haccepts⟩
              · rw [hentries, OrderedMap.entries_insert_of_not_mem hfree, List.append_assoc]
                rfl
            · refine .inr ⟨fault, hfault, saved :: before, item, after, by rw [hitems]; rfl, ?_, ?_⟩
              · rw [hkeys] at haccepts
                exact accepts_cons_iff.2 ⟨hnamed, hplaced, haccepts⟩
              · rw [hkeys] at hrefuses
                simpa [Nat.add_assoc, Nat.add_comm 1] using hrefuses
          · rw [hfault]
            exact .inr ⟨fault, rfl, [], _, rest, rfl, accepts_nil nodes, by simpa using hrefuses⟩
      | _ =>
          refine .inr ⟨_, rfl, [], _, rest, rfl, accepts_nil nodes, ?_⟩
          exact .notObject (by simp)

/-- Every saved node is among those that are loaded. -/
theorem exists_loadsAs {entries : Entries Node} (h : List.Forall₂ LoadsAs objects entries)
    (hmem : saved ∈ objects) : ∃ entry ∈ entries, LoadsAs saved entry := by
  induction h with
  | nil => cases hmem
  | @cons first entry rest entries hfirst hrest ih =>
      rcases List.mem_cons.1 hmem with rfl | hmem
      · exact ⟨entry, List.mem_cons_self, hfirst⟩
      · obtain ⟨other, hother, hloads⟩ := ih hmem
        exact ⟨other, List.mem_cons_of_mem _ hother, hloads⟩

/-! ## Whole graphs -/

/-- A saved graph lists these items under a key. -/
def Lists (payload : Value) (key : String) (items : List Value) : Prop :=
  ∃ saved, payload = .object saved ∧ savedEntries saved key = .ok items

theorem Lists.unique {key : String} {others : List (Entries Value)}
    (hfirst : Lists payload key (objects.map .object))
    (hsecond : Lists payload key (others.map .object)) : objects = others := by
  obtain ⟨saved, rfl, hobjects⟩ := hfirst
  obtain ⟨_, hsame, hothers⟩ := hsecond
  cases hsame
  exact List.map_injective_iff.2 (fun _ _ hobject => Value.object.inj hobject)
    (Except.ok.inj (hobjects.symm.trans hothers))

/-- Two nodes of a list have the same trimmed id. -/
def RepeatsId (items : List Value) : Prop :=
  ∃ (i j : Nat) (first second : Entries Value), i < j ∧ items[i]? = some (.object first) ∧
    items[j]? = some (.object second) ∧ savedId first = savedId second

/-- What becomes of the nodes of a saved graph. -/
structure LoadsNodes (payload : Value) : Prop where
  /-- What loads has all its nodes, in order and under different ids. The ids are those that are
  given, except where null is. -/
  accepts : ∀ editor, Editor.load payload = .ok editor → ∃ objects,
    Lists payload "nodes" (objects.map .object) ∧ Accepts [] objects ∧
      List.Forall₂ LoadsAs objects editor.graph.nodes.entries ∧
        ∀ saved ∈ objects,
          (GivesId saved (savedId saved) ↔ Entries.get? "id" saved ≠ some .null)
  /-- Nodes that can be loaded are, if the edges are objects. -/
  loads : ∀ objects others : List (Entries Value), Lists payload "nodes" (objects.map .object) →
    Lists payload "edges" (others.map .object) → Accepts [] objects →
      ∃ editor, Editor.load payload = .ok editor
  /-- Without an id, or with one for two nodes, nothing is loaded, and the first node that is
  refused says why. -/
  refuses : ∀ items, Lists payload "nodes" items →
    (∃ saved, .object saved ∈ items ∧ LacksId saved) ∨ RepeatsId items →
      ∃ fault, Editor.load payload = .error fault ∧ RefusedFor [] 0 items fault

theorem exists_loadEdges (index : Nat) (edges : OrderedMap Edge) (objects : List (Entries Value)) :
    ∃ loaded, loadEdges index edges (objects.map .object) = .ok loaded := by
  induction objects generalizing index edges with
  | nil => exact ⟨edges, rfl⟩
  | cons saved objects ih => exact ih (index + 1) _

theorem Accepts.not_lacksId_or_repeatsId (h : Accepts [] objects) :
    ¬ ((∃ saved, .object saved ∈ objects.map Value.object ∧ LacksId saved) ∨
      RepeatsId (objects.map .object)) := by
  rintro (⟨saved, hmem, hlacks⟩ | ⟨i, j, first, second, hij, hfirst, hsecond, hsame⟩)
  · obtain ⟨other, hother, heq⟩ := List.mem_map.1 hmem
    obtain rfl := Value.object.inj heq
    exact h.named other hother hlacks
  · have hnodup : (objects.map savedId).Nodup := h.distinct
    rw [List.nodup_iff_getElem?_ne_getElem?] at hnodup
    simp only [List.getElem?_map, Option.map_eq_some_iff, Value.object.injEq, exists_eq_right]
      at hfirst hsecond
    refine hnodup i j hij ?_ ?_
    · rw [List.length_map]
      exact (List.getElem?_eq_some_iff.1 hsecond).1
    · rw [List.getElem?_map, List.getElem?_map, hfirst, hsecond, Option.map_some, Option.map_some,
        hsame]

theorem Accepts.not_refusedFor {taken : List String} (h : Accepts taken objects) :
    ¬ RefusedFor taken index (objects.map .object) fault := by
  rintro ⟨before, item, after, hitems, -, hrefuses⟩
  obtain ⟨first, last, rfl, hbefore, hafter⟩ := List.map_eq_append_iff.1 hitems
  obtain rfl : first = before :=
    List.map_injective_iff.2 (fun _ _ hsame => Value.object.inj hsame) hbefore
  obtain ⟨saved, rest, rfl, rfl, -⟩ := List.map_eq_cons_iff.1 hafter
  have hmem : saved ∈ first ++ saved :: rest := by simp
  have hdistinct := h.distinct
  rw [List.map_append, List.map_cons, ← List.append_assoc] at hdistinct
  cases hrefuses with
  | notObject hobject => exact hobject saved rfl
  | noId hlacks => exact h.named saved hmem hlacks
  | taken _ htaken => exact List.disjoint_of_nodup_append hdistinct htaken List.mem_cons_self
  | notPlaced _ _ hplaced => exact hplaced (h.placed saved hmem)

/-- A graph that loads has all its saved nodes, in order. -/
theorem exists_objects_of_load {editor : Editor} (h : Editor.load payload = .ok editor) :
    ∃ objects, Lists payload "nodes" (objects.map .object) ∧ Accepts [] objects ∧
      List.Forall₂ LoadsAs objects editor.graph.nodes.entries := by
  obtain ⟨graph, hgraph, rfl⟩ := Editor.exists_of_load h
  obtain ⟨saved, nodes, edges, rfl, hfrom⟩ := exists_loadedFrom_of_ofValue hgraph
  rcases loadNodes_cases 0 .empty nodes with
    ⟨loaded, objects, entries, hloaded, rfl, haccepts, hall, hentries⟩ | ⟨fault, hfault, -⟩
  · obtain rfl : graph.nodes = loaded := Except.ok.inj (hfrom.loadNodes.symm.trans hloaded)
    have hsame : graph.nodes.entries = entries := hentries
    exact ⟨objects, ⟨saved, rfl, hfrom.savedNodes⟩, haccepts, hsame ▸ hall⟩
  · cases hfrom.loadNodes.symm.trans hfault

/-- What is loaded of the nodes of a saved graph, and what is refused. -/
theorem load_nodes_exact (payload : Value) : LoadsNodes payload where
  accepts := by
    intro editor hload
    obtain ⟨objects, hnodes, haccepts, hall⟩ := exists_objects_of_load hload
    refine ⟨objects, hnodes, haccepts, hall, fun saved hsaved => givesId_savedId_iff ?_⟩
    exact fun hempty => haccepts.named saved hsaved (lacksId_iff.2 hempty)
  loads := by
    rintro objects others ⟨saved, rfl, hnodes⟩ ⟨_, hsame, hedges⟩ haccepts
    cases hsame
    obtain ⟨loadedEdges, hloadedEdges⟩ := exists_loadEdges 0 .empty others
    rcases loadNodes_cases 0 .empty (objects.map .object) with
      ⟨loaded, _, _, hloaded, -⟩ | ⟨fault, -, hrefused⟩
    · refine ⟨.ofGraph ⟨loaded, loadedEdges⟩, ?_⟩
      simp only [Editor.load, ofValue, hnodes, hedges, hloaded, hloadedEdges, bind, Except.bind,
        Except.map]
    · exact absurd hrefused haccepts.not_refusedFor
  refuses := by
    rintro items ⟨saved, rfl, hitems⟩ hbad
    rcases loadNodes_cases 0 .empty items with
      ⟨loaded, objects, _, -, rfl, haccepts, -⟩ | ⟨fault, hfault, hrefused⟩
    · exact absurd hbad haccepts.not_lacksId_or_repeatsId
    · refine ⟨fault, ?_, hrefused⟩
      simp only [Editor.load, ofValue, hitems, hfault, bind, Except.bind, Except.map]

/-- A saved node whose id is null. -/
def nullNode : Entries Value := [("id", .null), ("stage_type", .text "$limit")]

/-- A node whose id is null is loaded, although it gives no id. -/
theorem loads_nullNode :
    (∀ id, ¬ GivesId nullNode id) ∧
      ∃ editor, Editor.load (.object [("nodes", .list [.object nullNode])]) = .ok editor ∧
        editor.graph.nodeIds = ["None"] := by
  refine ⟨?_, _, rfl, rfl⟩
  rintro id ⟨value, hvalue, hne, -⟩
  exact hne (Option.some.inj hvalue).symm

end Graph

end StageChain
