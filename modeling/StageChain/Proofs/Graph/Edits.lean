import StageChain.Graph.Editor
import StageChain.Pipeline.Report
import StageChain.Proofs.Entries

/-!
# What edits mean for the compiled pipeline

Compiling looks at the edges and at the type and the configuration of each node, and at nothing
else: `SameStages.compile_eq`. `Editor.Applies` says in one place what each operation of the editor
does where it succeeds, and `Editor.Refuses` what it fails for: `Editor.apply_eq_error_iff`. An
operation that tells no listener leaves the stages alone, and any other counts one revision and
tells of it once: `Editor.gives_of_apply`. No operation adds an error to a node:
`Editor.keepsErrors_of_apply`.
-/

namespace StageChain

namespace Graph

/-- What compiling looks at of a node. -/
def stageAt (graph : Graph) (id : String) : Option (String × Value) :=
  (graph.nodes.get? id).map fun node => (node.stageType, node.config)

/-- What compiling a node gives on its own, if the node is there. -/
def stageOf (graph : Graph) (id : String) : Option (Except Refusal CompiledStage) :=
  (graph.stageAt id).map fun (type, config) => compileStage type config

section Congruence

variable {graph other : Graph}

theorem stageOf_of_get? {id : String} {node : Node} (h : graph.nodes.get? id = some node) :
    graph.stageOf id = some (compileStage node.stageType node.config) := by
  rw [stageOf, stageAt, h]
  rfl

theorem mem_nodeIds_iff {id : String} : id ∈ graph.nodeIds ↔ (graph.stageAt id).isSome := by
  rw [stageAt, Option.isSome_map]
  constructor
  · intro h
    obtain ⟨node, hnode⟩ := Entries.exists_get?_of_mem_keys h
    exact Option.isSome_iff_exists.2 ⟨node, hnode⟩
  · intro h
    obtain ⟨node, hnode⟩ := Option.isSome_iff_exists.1 h
    exact Entries.mem_keys_of_get? hnode

theorem stageOf_of_not_mem {id : String} (h : id ∉ graph.nodeIds) : graph.stageOf id = none := by
  rw [mem_nodeIds_iff, Option.not_isSome_iff_eq_none] at h
  rw [stageOf, h, Option.map_none]

/-- Listing the chain looks at the edges and the ids of the nodes alone. -/
theorem linearize_congr (hedges : other.edges = graph.edges)
    (hnodeIds : other.nodeIds = graph.nodeIds) : other.linearize = graph.linearize := by
  have hcontains : ∀ id, other.nodes.contains id = graph.nodes.contains id := by
    intro id
    exact congrArg (·.contains id) hnodeIds
  have hdangling : other.isDangling = graph.isDangling := by
    funext edge
    simp only [isDangling, hcontains]
  have hedgeList : other.edgeList = graph.edgeList := congrArg OrderedMap.values hedges
  simp only [linearize, danglingEdges, branchingNodes, startNodes, walkFrom, outDegree, inDegree,
    hdangling, hedgeList, hnodeIds]
  rfl

/-- Assembly looks at what becomes of each node alone. -/
theorem assemble_congr (h : ∀ id, other.stageOf id = graph.stageOf id) (order : List String) :
    other.assemble order = graph.assemble order := by
  induction order with
  | nil => rfl
  | cons id rest ih =>
      have hstage := h id
      unfold assemble
      cases hnode : graph.nodes.get? id with
      | none =>
          have hnone : graph.stageOf id = none := by simp [stageOf, stageAt, hnode]
          rw [hnone, stageOf, stageAt, Option.map_eq_none_iff, Option.map_eq_none_iff] at hstage
          simp only [hstage]
      | some node =>
          rw [stageOf_of_get? hnode] at hstage
          cases htwin : other.nodes.get? id with
          | none => simp [stageOf, stageAt, htwin] at hstage
          | some twin =>
              rw [stageOf_of_get? htwin] at hstage
              simp only [Option.some.inj hstage, ih]

theorem compile_congr (hedges : other.edges = graph.edges)
    (hnodeIds : other.nodeIds = graph.nodeIds)
    (hstages : ∀ id, other.stageOf id = graph.stageOf id) : other.compile = graph.compile := by
  simp only [compile, linearize_congr hedges hnodeIds, assemble_congr hstages]

end Congruence

/-- Two graphs differ only in what compiling does not look at. -/
structure SameStages (graph other : Graph) : Prop where
  edges : other.edges = graph.edges
  nodeIds : other.nodeIds = graph.nodeIds
  stages : ∀ id, other.stageAt id = graph.stageAt id

namespace SameStages

variable {graph other : Graph}

theorem refl (graph : Graph) : graph.SameStages graph := ⟨rfl, rfl, fun _ => rfl⟩

theorem trans {third : Graph} (hfirst : graph.SameStages other) (hsecond : other.SameStages third) :
    graph.SameStages third where
  edges := hsecond.edges.trans hfirst.edges
  nodeIds := hsecond.nodeIds.trans hfirst.nodeIds
  stages := fun id => (hsecond.stages id).trans (hfirst.stages id)

/-- Compiling gives the same where the stages are the same. -/
theorem compile_eq (h : graph.SameStages other) : other.compile = graph.compile :=
  compile_congr h.edges h.nodeIds fun id => by rw [stageOf, h.stages, stageOf]

end SameStages

end Graph

namespace Editor

variable {editor : Editor}

/-- Nodes may be changed in what compiling does not look at. -/
theorem sameStages_withNodes {nodes : OrderedMap Node} (hkeys : nodes.keys = editor.graph.nodeIds)
    (hstages : ∀ id, (nodes.get? id).map (fun node => (node.stageType, node.config)) =
      editor.graph.stageAt id) : editor.graph.SameStages (editor.withNodes nodes).graph :=
  ⟨rfl, hkeys, hstages⟩

theorem sameStages_clearErrors (editor : Editor) :
    editor.graph.SameStages editor.clearErrors.graph := by
  refine sameStages_withNodes (OrderedMap.keys_mapValues _) fun id => ?_
  rw [OrderedMap.get?_mapValues, Option.map_map]
  rfl

theorem sameStages_mark (editor : Editor) (id : String) (message : Value) :
    editor.graph.SameStages (editor.mark id message).graph := by
  refine sameStages_withNodes (OrderedMap.keys_modify _) fun other => ?_
  rw [OrderedMap.get?_modify]
  split
  · rw [Option.map_map]
    rfl
  · rfl

theorem sameStages_insert {id : String} {old new : Node}
    (hget : editor.graph.nodes.get? id = some old) (htype : new.stageType = old.stageType)
    (hconfig : new.config = old.config) :
    editor.graph.SameStages (editor.withNodes (editor.graph.nodes.insert id new)).graph := by
  refine sameStages_withNodes (OrderedMap.keys_insert hget) fun other => ?_
  rw [OrderedMap.get?_insert, Graph.stageAt]
  split
  · rename_i hother
    rw [hother, hget, Option.map_some, Option.map_some, htype, hconfig]
  · rfl

/-! ## What operations do -/

theorem node_eq_ok {id : String} {node : Node} (h : editor.node id = .ok node) :
    editor.graph.nodes.get? id = some node := by
  unfold Editor.node at h
  split at h
  · rename_i found hfound
    rw [hfound, Except.ok.inj h]
  · cases h

/-- What is done with a node is done with one that is there. -/
theorem exists_node_of_bind {id : String} {f : Node → Except EditFault Edited} {edited : Edited}
    (h : editor.node id >>= f = .ok edited) :
    ∃ node, editor.graph.nodes.get? id = some node ∧ f node = .ok edited := by
  cases hnode : editor.node id with
  | error fault =>
      rw [hnode] at h
      cases h
  | ok node =>
      rw [hnode] at h
      exact ⟨node, node_eq_ok hnode, h⟩

/-- The editor without the edges that touch a node. -/
def detached (editor : Editor) (id : String) : Editor :=
  (editor.graph.edges.entries.filter fun entry => touches id entry.2).foldl dropEdge editor

/-- What operations do where they succeed. -/
inductive Applies (editor : Editor) : Edit → Edited → Prop where
  | nodeAdded (stageType : String) (config : Value) (given id : String)
      (position : Entries Value) (token : String)
      (hid : id = if given.isEmpty then newNodeId stageType token else given)
      (hfresh : editor.graph.nodes.contains id = false) :
      Applies editor (.addNode stageType config given position token)
        ((editor.withNodes (editor.graph.nodes.insert id
          ⟨id, stageType, initialConfig stageType config, initialPosition position,
            .null⟩)).announced (some id))
  | nodeRemoved (id : String) (node : Node) (hnode : editor.graph.nodes.get? id = some node) :
      Applies editor (.removeNode id)
        (((editor.detached id).withNodes
          ((editor.detached id).graph.nodes.erase id)).announced none)
  | configured (id : String) (config : Value) (node : Node)
      (hnode : editor.graph.nodes.get? id = some node) :
      Applies editor (.updateConfig id config)
        ((editor.withNodes (editor.graph.nodes.insert id
          { node with config := config, error := .null })).announced none)
  | moved (id : String) (position : Entries Value) (node : Node)
      (hnode : editor.graph.nodes.get? id = some node) :
      Applies editor (.moveNode id position)
        ((editor.withNodes (editor.graph.nodes.insert id
          { node with position := position })).quiet none)
  /-- An edge that is there already is given back. -/
  | connected (source target id : String)
      (hsource : editor.graph.nodes.contains source = true)
      (htarget : editor.graph.nodes.contains target = true)
      (hregistered : editor.registered? source target = some id) :
      Applies editor (.addEdge source target) (editor.quiet (some id))
  | edgeAdded (source target : String)
      (hsource : editor.graph.nodes.contains source = true)
      (htarget : editor.graph.nodes.contains target = true)
      (hfresh : editor.registered? source target = none) :
      Applies editor (.addEdge source target)
        (announced
          { editor with
            graph := { editor.graph with
              edges := editor.graph.edges.insert (newEdgeId source target)
                ⟨newEdgeId source target, source, target⟩ }
            registry := editor.registry.insert (signature source target)
              (newEdgeId source target) }
          (some (newEdgeId source target)))
  | edgeRemoved (id : String) (edge : Edge) (hedge : editor.graph.edges.get? id = some edge) :
      Applies editor (.removeEdge id) ((editor.dropEdge (id, edge)).announced none)
  | cleared : Applies editor .clearErrors (editor.clearErrors.quiet none)

theorem applies_of_apply {edit : Edit} {edited : Edited} (h : editor.apply edit = .ok edited) :
    editor.Applies edit edited := by
  cases edit with
  | addNode stageType config given position token =>
      simp only [apply, addNode] at h
      generalize hid : (if given.isEmpty = true then newNodeId stageType token else given) = id at h
      split at h
      · cases h
      · rename_i hfresh
        cases h
        exact .nodeAdded stageType config given id position token hid.symm (by simpa using hfresh)
  | removeNode id =>
      obtain ⟨node, hnode, hedited⟩ := exists_node_of_bind h
      cases hedited
      exact .nodeRemoved id node hnode
  | updateConfig id config =>
      obtain ⟨node, hnode, hedited⟩ := exists_node_of_bind h
      cases hedited
      exact .configured id config node hnode
  | moveNode id position =>
      obtain ⟨node, hnode, hedited⟩ := exists_node_of_bind h
      cases hedited
      exact .moved id position node hnode
  | addEdge source target =>
      simp only [apply, addEdge] at h
      split at h
      · cases h
      · rename_i hsource
        split at h
        · cases h
        · rename_i htarget
          have hsource : editor.graph.nodes.contains source = true := by simpa using hsource
          have htarget : editor.graph.nodes.contains target = true := by simpa using htarget
          split at h
          · rename_i id hregistered
            cases h
            exact .connected source target id hsource htarget hregistered
          · rename_i hfresh
            cases h
            exact .edgeAdded source target hsource htarget hfresh
  | removeEdge id =>
      simp only [apply, removeEdge] at h
      split at h
      · rename_i edge hedge
        cases h
        exact .edgeRemoved id edge hedge
      · cases h
  | clearErrors =>
      cases h
      exact .cleared

end Editor

/-! ## What operations are refused for -/

/-- The node that has to be there for an operation. -/
def Edit.node? : Edit → Option String
  | .removeNode id | .updateConfig id _ | .moveNode id _ => some id
  | _ => none

namespace Editor

variable {editor : Editor} {edit : Edit} {fault : EditFault}

/-- What operations are refused for. -/
inductive Refuses (editor : Editor) : Edit → EditFault → Prop where
  | duplicateNode (stageType : String) (config : Value) (given id : String)
      (position : Entries Value) (token : String)
      (hid : id = if given.isEmpty then newNodeId stageType token else given)
      (htaken : id ∈ editor.graph.nodeIds) :
      Refuses editor (.addNode stageType config given position token) (.duplicateNode id)
  | unknownNode (edit : Edit) (id : String) (hnode : edit.node? = some id)
      (hmissing : id ∉ editor.graph.nodeIds) : Refuses editor edit (.unknownNode id)
  | unknownSource (source target : String) (hsource : source ∉ editor.graph.nodeIds) :
      Refuses editor (.addEdge source target) (.unknownSource source)
  | unknownTarget (source target : String) (hsource : source ∈ editor.graph.nodeIds)
      (htarget : target ∉ editor.graph.nodeIds) :
      Refuses editor (.addEdge source target) (.unknownTarget target)
  | unknownEdge (id : String) (hmissing : id ∉ editor.graph.edges.keys) :
      Refuses editor (.removeEdge id) (.unknownEdge id)

theorem node_eq_error_iff {id : String} :
    editor.node id = .error fault ↔ id ∉ editor.graph.nodeIds ∧ fault = .unknownNode id := by
  rw [Graph.nodeIds, OrderedMap.mem_keys_iff, Editor.node]
  cases editor.graph.nodes.get? id with
  | none => simp [eq_comm]
  | some node => simp

/-- What is done with a node fails only if the node is not there, unless it fails itself. -/
theorem refuses_of_bind {id : String} {f : Node → Except EditFault Edited}
    (hid : edit.node? = some id) (hf : ∀ node, ∃ edited, f node = .ok edited)
    (h : editor.node id >>= f = .error fault) : editor.Refuses edit fault := by
  cases hnode : editor.node id with
  | error other =>
      rw [hnode] at h
      cases h
      obtain ⟨hmissing, rfl⟩ := node_eq_error_iff.1 hnode
      exact .unknownNode edit id hid hmissing
  | ok node =>
      obtain ⟨edited, hedited⟩ := hf node
      rw [hnode] at h
      cases hedited.symm.trans h

theorem refuses_of_apply (h : editor.apply edit = .error fault) : editor.Refuses edit fault := by
  cases edit with
  | addNode stageType config given position token =>
      simp only [apply, addNode] at h
      generalize hid : (if given.isEmpty = true then newNodeId stageType token else given) = id at h
      split at h
      · rename_i htaken
        cases h
        exact .duplicateNode stageType config given id position token hid.symm
          (OrderedMap.contains_iff.1 htaken)
      · cases h
  | removeNode id => exact refuses_of_bind rfl (fun _ => ⟨_, rfl⟩) h
  | updateConfig id config => exact refuses_of_bind rfl (fun _ => ⟨_, rfl⟩) h
  | moveNode id position => exact refuses_of_bind rfl (fun _ => ⟨_, rfl⟩) h
  | addEdge source target =>
      simp only [apply, addEdge, Bool.not_eq_true'] at h
      split at h
      · rename_i hsource
        cases h
        exact .unknownSource source target (OrderedMap.contains_eq_false_iff.1 hsource)
      · rename_i hsource
        have hsource : editor.graph.nodes.contains source = true := by simpa using hsource
        split at h
        · rename_i htarget
          cases h
          exact .unknownTarget source target (OrderedMap.contains_iff.1 hsource)
            (OrderedMap.contains_eq_false_iff.1 htarget)
        · split at h <;> cases h
  | removeEdge id =>
      simp only [apply, removeEdge] at h
      split at h
      · cases h
      · rename_i hmissing
        cases h
        refine .unknownEdge id fun hmem => ?_
        obtain ⟨edge, hedge⟩ := OrderedMap.mem_keys_iff.1 hmem
        rw [hedge] at hmissing
        cases hmissing
  | clearErrors => cases h

theorem apply_of_refuses (h : editor.Refuses edit fault) : editor.apply edit = .error fault := by
  cases h with
  | duplicateNode stageType config given id position token hid htaken =>
      subst hid
      exact if_pos (OrderedMap.contains_iff.2 htaken)
  | unknownNode edit id hnode hmissing =>
      have hfault : editor.node id = .error (.unknownNode id) :=
        node_eq_error_iff.2 ⟨hmissing, rfl⟩
      cases edit with
      | removeNode | updateConfig | moveNode =>
          cases hnode
          simp only [apply, removeNode, updateConfig, moveNode, hfault]
          rfl
      | addNode | addEdge | removeEdge | clearErrors => cases hnode
  | unknownSource source target hsource =>
      simp [apply, addEdge, OrderedMap.contains_eq_false_iff.2 hsource]
  | unknownTarget source target hsource htarget =>
      simp [apply, addEdge, OrderedMap.contains_iff.2 hsource,
        OrderedMap.contains_eq_false_iff.2 htarget]
  | unknownEdge id hmissing =>
      have hedge : editor.graph.edges.get? id = none := by
        cases hget : editor.graph.edges.get? id with
        | none => rfl
        | some edge => exact absurd (Entries.mem_keys_of_get? hget) hmissing
      simp only [apply, removeEdge, hedge]

/-- An operation fails exactly if it is refused. -/
theorem apply_eq_error_iff : editor.apply edit = .error fault ↔ editor.Refuses edit fault :=
  ⟨refuses_of_apply, apply_of_refuses⟩

/-! ## Changes that compiling looks at -/

/-- What operations give: nothing told and nothing changed that compiling looks at, or one more
revision, told once. -/
inductive Gives (editor : Editor) (edited : Edited) : Prop where
  | quiet (hnotices : edited.notices = []) (hrevision : edited.editor.revision = editor.revision)
      (hsame : editor.graph.SameStages edited.editor.graph)
  | announced (hnotices : edited.notices = [edited.editor])
      (hrevision : edited.editor.revision = editor.revision + 1)

theorem revision_foldl_dropEdge (entries : Entries Edge) :
    (entries.foldl dropEdge editor).revision = editor.revision := by
  induction entries generalizing editor with
  | nil => rfl
  | cons entry rest ih => exact ih

/-- Every operation that succeeds is quiet or announced. -/
theorem gives_of_apply {edit : Edit} {edited : Edited} (h : editor.apply edit = .ok edited) :
    editor.Gives edited := by
  cases applies_of_apply h with
  | nodeAdded | configured | edgeAdded | edgeRemoved => exact .announced rfl rfl
  | nodeRemoved id => exact .announced rfl (congrArg (· + 1) (revision_foldl_dropEdge _))
  | moved id position node hnode => exact .quiet rfl rfl (sameStages_insert hnode rfl rfl)
  | connected => exact .quiet rfl rfl (.refl _)
  | cleared => exact .quiet rfl rfl (sameStages_clearErrors editor)

end Editor

/-! ## Errors of nodes -/

namespace Graph

/-- What was found wrong with a node; null also where the node is not there. -/
def errorAt (graph : Graph) (id : String) : Value :=
  ((graph.nodes.get? id).map Node.error).getD .null

/-- The later graph has no error that the earlier one has not. -/
def KeepsErrors (graph later : Graph) : Prop :=
  ∀ id, later.errorAt id = .null ∨ later.errorAt id = graph.errorAt id

theorem KeepsErrors.refl (graph : Graph) : graph.KeepsErrors graph := fun _ => .inr rfl

theorem errorAt_of_get? {graph : Graph} {id : String} {node : Node}
    (h : graph.nodes.get? id = some node) : graph.errorAt id = node.error := by
  rw [errorAt, h]
  rfl

end Graph

namespace Editor

variable {editor : Editor} {id : String}

@[simp]
theorem errorAt_clearErrors (editor : Editor) (id : String) :
    editor.clearErrors.graph.errorAt id = .null := by
  simp only [Graph.errorAt, clearErrors, withNodes, OrderedMap.get?_mapValues, Option.map_map]
  cases editor.graph.nodes.get? id <;> rfl

/-- To mark a node changes no other error, and this one only if the node is there. -/
theorem errorAt_mark (editor : Editor) (id other : String) (message : Value) :
    (editor.mark id message).graph.errorAt other =
      if other = id ∧ (editor.graph.nodes.get? id).isSome then message
      else editor.graph.errorAt other := by
  simp only [Graph.errorAt, mark, withNodes, OrderedMap.get?_modify]
  by_cases hid : other = id
  · subst hid
    cases editor.graph.nodes.get? other <;> simp
  · simp [hid]

/-- A node that is put in place of one with the same error, or that has none, adds no error. -/
theorem keepsErrors_insert {node : Node}
    (h : node.error = .null ∨ node.error = editor.graph.errorAt id) :
    editor.graph.KeepsErrors (editor.withNodes (editor.graph.nodes.insert id node)).graph := by
  intro other
  simp only [Graph.errorAt, withNodes, OrderedMap.get?_insert] at h ⊢
  split
  · rename_i hother
    subst hother
    exact h
  · exact .inr rfl

theorem nodes_foldl_dropEdge (entries : Entries Edge) :
    (entries.foldl dropEdge editor).graph.nodes = editor.graph.nodes := by
  induction entries generalizing editor with
  | nil => rfl
  | cons entry rest ih => exact ih

/-- No operation finds anything wrong with a node. -/
theorem keepsErrors_of_apply {edit : Edit} {edited : Edited} (h : editor.apply edit = .ok edited) :
    editor.graph.KeepsErrors edited.editor.graph := by
  cases applies_of_apply h with
  | nodeAdded | configured => exact keepsErrors_insert (.inl rfl)
  | nodeRemoved id =>
      intro other
      simp only [Graph.errorAt, announced, withNodes, OrderedMap.get?_erase, detached,
        nodes_foldl_dropEdge]
      split
      · exact .inl rfl
      · exact .inr rfl
  | moved id position node hnode =>
      exact keepsErrors_insert (.inr (Graph.errorAt_of_get? hnode).symm)
  | connected | edgeAdded | edgeRemoved => exact .refl _
  | cleared => exact fun id => .inl (errorAt_clearErrors editor id)

end Editor

end StageChain
