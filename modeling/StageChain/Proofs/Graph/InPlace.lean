import StageChain.Proofs.Entries
import StageChain.Proofs.Graph.Registry

/-!
# Editing in place

Operations are given as functions that either fail or give the editor after them. Here they are
carried out step by step on a `Desk`, an editor that is changed in place and has listeners: each
check, each change of a node, an edge or the registry and each notice to a listener is a step of its
own, and what has been done stays done if a later step fails. `Work.run_perform` says that this
comes to the same. Listeners are taken to look on only: what one of them raises, or does to the
editor while it is told, has no part in this. A session is a listener that can fail, and
`Session.receive` has what comes of it.

So no operation is left half done: one that fails has changed nothing and told no one, and one that
is not quiet counts one revision and then tells every listener once, of the editor as it is after
the whole change. This is `Desk.performs_run`; over operations in a row, no revision is told twice
and none is left out: `Desk.informs_performAll`.
-/

namespace StageChain

namespace Editor

variable {editor : Editor}

/-- Applies a function to a node, if it is there. -/
def alterNode (editor : Editor) (id : String) (f : Node → Node) : Editor :=
  editor.withNodes (editor.graph.nodes.modify id f)

theorem alterNode_alterNode (editor : Editor) (id : String) (f g : Node → Node) :
    (editor.alterNode id f).alterNode id g = editor.alterNode id (g ∘ f) :=
  congrArg editor.withNodes (OrderedMap.modify_modify id f g editor.graph.nodes)

theorem alterNode_of_node {id : String} {node : Node} (h : editor.node id = .ok node)
    (f : Node → Node) :
    editor.alterNode id f = editor.withNodes (editor.graph.nodes.insert id (f node)) :=
  congrArg editor.withNodes (OrderedMap.modify_of_get? (node_eq_ok h) f)

theorem foldl_alterNode (f : Node → Node) (ids : List String) (editor : Editor) :
    ids.foldl (fun editor id => editor.alterNode id f) editor =
      editor.withNodes (ids.foldl (fun nodes id => nodes.modify id f) editor.graph.nodes) := by
  induction ids generalizing editor with
  | nil => rfl
  | cons id rest ih => exact ih (editor.alterNode id f)

end Editor

/-- An editor that is changed in place, its listeners in order, and what they have been told: who,
and the editor as it was then. -/
structure Desk (ι : Type) where
  editor : Editor
  listeners : List ι
  told : List (ι × Editor)

namespace Desk

variable {ι : Type}

/-- The desk after an operation: it has the editor after the operation, and the listeners have been
told of its notices. -/
def receive (desk : Desk ι) (edited : Edited) : Desk ι :=
  { desk with
    editor := edited.editor
    told := desk.told ++ edited.notices.flatMap fun notice => desk.listeners.map (·, notice) }

/-- What an operation comes to on a desk: its id and the desk after it, or its fault and the desk as
it was. -/
def outcome (desk : Desk ι) :
    Except EditFault Edited → Except EditFault (Option String) × Desk ι
  | .ok edited => (.ok edited.id, desk.receive edited)
  | .error fault => (.error fault, desk)

theorem receive_quiet (desk : Desk ι) (editor : Editor) (id : Option String) :
    desk.receive (editor.quiet id) = { desk with editor := editor } := by
  simp [receive, Editor.quiet]

theorem receive_announced (desk : Desk ι) (editor : Editor) (id : Option String) :
    desk.receive (editor.announced id) = { desk with
      editor := { editor with revision := editor.revision + 1 }
      told := desk.told ++
        desk.listeners.map (·, { editor with revision := editor.revision + 1 }) } := by
  simp [receive, Editor.announced]

end Desk

/-- Steps on a desk that may fail. What has been done before stays done. -/
abbrev Work (ι α : Type) := ExceptT EditFault (StateM (Desk ι)) α

namespace Work

variable {ι α β : Type}

/-- The result of work on a desk, and the desk after it. -/
def run (work : Work ι α) (desk : Desk ι) : Except EditFault α × Desk ι :=
  StateT.run (ExceptT.run work) desk

/-! ## Steps -/

/-- The editor as it is. -/
def editor : Work ι Editor := do return (← get).editor

/-- Changes the editor in place. -/
def change (f : Editor → Editor) : Work ι Unit :=
  modify fun desk => { desk with editor := f desk.editor }

/-- Stops with a fault if a condition holds. -/
def stopIf (condition : Bool) (fault : EditFault) : Work ι Unit :=
  if condition then throw fault else return ()

/-- Checks that a node is there. -/
def require (id : String) : Work ι Unit := do
  match (← editor).graph.nodes.get? id with
  | some _ => return ()
  | none => throw (.unknownNode id)

/-- Changes a node in place. -/
def alterNode (id : String) (f : Node → Node) : Work ι Unit :=
  change fun editor => editor.alterNode id f

/-- Puts an edge under its id. -/
def storeEdge (edge : Edge) : Work ι Unit :=
  change fun editor =>
    { editor with graph := { editor.graph with edges := editor.graph.edges.insert edge.id edge } }

/-- Takes away the edge under an id. -/
def deleteEdge (id : String) : Work ι Unit :=
  change fun editor =>
    { editor with graph := { editor.graph with edges := editor.graph.edges.erase id } }

/-- Registers the id of the edge between two nodes. -/
def register (source target id : String) : Work ι Unit :=
  change fun editor =>
    { editor with registry := editor.registry.insert (Editor.signature source target) id }

/-- Takes two nodes out of the registry. -/
def unregister (source target : String) : Work ι Unit :=
  change fun editor =>
    { editor with registry := editor.registry.erase (Editor.signature source target) }

/-- Takes away an edge, which has to be there, and its nodes out of the registry. -/
def dropEdge (id : String) : Work ι Unit := do
  match (← editor).graph.edges.get? id with
  | some edge =>
    deleteEdge id
    unregister edge.source edge.target
  | none => throw (.unknownEdge id)

/-- Shows the editor to a listener, which only looks. -/
def tell (listener : ι) : Work ι Unit :=
  modify fun desk => { desk with told := desk.told ++ [(listener, desk.editor)] }

/-- Counts a revision and tells the listeners, one after another. -/
def touch : Work ι Unit := do
  change fun editor => { editor with revision := editor.revision + 1 }
  (← get).listeners.forM tell

/-! ## Operations -/

def addNode (stageType : String) (config : Value) (given : String) (position : Entries Value)
    (token : String) : Work ι (Option String) := do
  let id := if given.isEmpty then Editor.newNodeId stageType token else given
  stopIf ((← editor).graph.nodes.contains id) (.duplicateNode id)
  change fun editor => editor.withNodes (editor.graph.nodes.insert id
    ⟨id, stageType, Editor.initialConfig stageType config, Editor.initialPosition position, .null⟩)
  touch
  return some id

/-- Drops the edges that touch the node one by one, and then takes away the node. -/
def removeNode (id : String) : Work ι (Option String) := do
  require id
  (← editor).graph.edges.entries.forM fun entry =>
    if Editor.touches id entry.2 then dropEdge entry.1 else pure ()
  change fun editor => editor.withNodes (editor.graph.nodes.erase id)
  touch
  return none

def updateConfig (id : String) (config : Value) : Work ι (Option String) := do
  require id
  alterNode id fun node => { node with config := config }
  alterNode id fun node => { node with error := .null }
  touch
  return none

def moveNode (id : String) (position : Entries Value) : Work ι (Option String) := do
  require id
  alterNode id fun node => { node with position := position }
  return none

def addEdge (source target : String) : Work ι (Option String) := do
  stopIf (!(← editor).graph.nodes.contains source) (.unknownSource source)
  stopIf (!(← editor).graph.nodes.contains target) (.unknownTarget target)
  match (← editor).registered? source target with
  | some id => return some id
  | none =>
    let id := Editor.newEdgeId source target
    storeEdge ⟨id, source, target⟩
    register source target id
    touch
    return some id

def removeEdge (id : String) : Work ι (Option String) := do
  dropEdge id
  touch
  return none

/-- Clears the errors of the nodes one by one. -/
def clearErrors : Work ι (Option String) := do
  (← editor).graph.nodeIds.forM fun id => alterNode id fun node => { node with error := .null }
  return none

/-- Performs an operation step by step. -/
def perform : Edit → Work ι (Option String)
  | .addNode stageType config id position token => addNode stageType config id position token
  | .removeNode id => removeNode id
  | .updateConfig id config => updateConfig id config
  | .moveNode id position => moveNode id position
  | .addEdge source target => addEdge source target
  | .removeEdge id => removeEdge id
  | .clearErrors => clearErrors

/-- The nodes before and after a node, one for each edge. -/
def neighbors (id : String) : Work ι Neighbors := do
  require id
  let incoming := ((← editor).graph.edgeList.filter (·.target == id)).map (·.source)
  let outgoing := ((← editor).graph.edgeList.filter (·.source == id)).map (·.target)
  return ⟨incoming, outgoing⟩

/-! ## What steps do -/

variable {desk next : Desk ι}

@[simp]
theorem run_pure (a : α) (desk : Desk ι) : run (pure a) desk = (.ok a, desk) := rfl

theorem run_bind (work : Work ι α) (f : α → Work ι β) (desk : Desk ι) :
    run (work >>= f) desk =
      match run work desk with
      | (.ok a, next) => run (f a) next
      | (.error fault, next) => (.error fault, next) := by
  show (match run work desk with
    | (result, next) => StateT.run (ExceptT.bindCont f result) next) = _
  obtain ⟨result, next⟩ := run work desk
  cases result <;> rfl

theorem run_bind_of_ok {work : Work ι α} {a : α} (h : run work desk = (.ok a, next))
    (f : α → Work ι β) : run (work >>= f) desk = run (f a) next := by
  rw [run_bind, h]

@[simp]
theorem run_editor (desk : Desk ι) : run editor desk = (.ok desk.editor, desk) := rfl

theorem run_change_bind (f : Editor → Editor) (g : Unit → Work ι α) (desk : Desk ι) :
    run (change f >>= g) desk = run (g ()) { desk with editor := f desk.editor } := rfl

/-- Nothing follows a check that fails. -/
theorem run_stopIf_bind (condition : Bool) (fault : EditFault) (f : Unit → Work ι α)
    (desk : Desk ι) :
    run (stopIf condition fault >>= f) desk =
      if condition then (.error fault, desk) else run (f ()) desk := by
  rw [run_bind]
  cases condition <;> rfl

/-- Nothing follows a node that is not there. -/
theorem run_require_bind (id : String) (f : Unit → Work ι α) (desk : Desk ι) :
    run (require id >>= f) desk =
      match desk.editor.node id with
      | .ok _ => run (f ()) desk
      | .error fault => (.error fault, desk) := by
  rw [run_bind, require, run_bind_of_ok (run_editor desk), Editor.node]
  cases desk.editor.graph.nodes.get? id <;> rfl

theorem run_dropEdge (id : String) (desk : Desk ι) :
    run (dropEdge id) desk =
      match desk.editor.graph.edges.get? id with
      | some edge => (.ok (), { desk with editor := desk.editor.dropEdge (id, edge) })
      | none => (.error (.unknownEdge id), desk) := by
  rw [dropEdge, run_bind_of_ok (run_editor desk)]
  cases desk.editor.graph.edges.get? id <;> rfl

theorem run_forM_cons (f : β → Work ι Unit) (item : β) (items : List β) (desk : Desk ι) :
    run ((item :: items).forM f) desk = run (f item >>= fun _ => items.forM f) desk := rfl

theorem run_tell (listeners : List ι) (desk : Desk ι) :
    run (listeners.forM tell) desk =
      (.ok (), { desk with told := desk.told ++ listeners.map (·, desk.editor) }) := by
  induction listeners generalizing desk with
  | nil => simp [List.forM]
  | cons listener rest ih =>
      have htell : run (tell listener) desk =
          (.ok (), { desk with told := desk.told ++ [(listener, desk.editor)] }) := rfl
      rw [run_forM_cons, run_bind_of_ok htell, ih]
      simp

theorem run_quiet (id : Option String) (desk : Desk ι) :
    run (pure id) desk = (.ok id, desk.receive (desk.editor.quiet id)) := by
  rw [run_pure, Desk.receive_quiet]

/-- To touch the editor and to give an id is to announce it with that id. -/
theorem run_touch (desk : Desk ι) (id : Option String) :
    run (do touch; return id) desk = (.ok id, desk.receive (desk.editor.announced id)) := by
  have hcount : run touch desk =
      run (desk.listeners.forM tell)
        { desk with editor := { desk.editor with revision := desk.editor.revision + 1 } } := rfl
  rw [run_tell] at hcount
  rw [run_bind_of_ok hcount, run_pure, Desk.receive_announced]

/-- The touching edges are dropped one by one, and each is there when it is its turn: the edges that
have been dropped had other ids. -/
theorem run_dropEdges (id : String) {entries : Entries Edge} (hnodup : (Entries.keys entries).Nodup)
    (hstored : ∀ entry ∈ entries, desk.editor.graph.edges.get? entry.1 = some entry.2) :
    run (entries.forM fun entry =>
        if Editor.touches id entry.2 then dropEdge entry.1 else pure ()) desk =
      (.ok (), { desk with
        editor := (entries.filter fun entry => Editor.touches id entry.2).foldl Editor.dropEdge
          desk.editor }) := by
  induction entries generalizing desk with
  | nil => rfl
  | cons entry rest ih =>
      obtain ⟨hnew, hrest⟩ := List.nodup_cons.1 hnodup
      obtain ⟨hentry, hothers⟩ := List.forall_mem_cons.1 hstored
      rw [run_forM_cons]
      by_cases htouches : Editor.touches id entry.2
      · have hdrop := run_dropEdge entry.1 desk
        rw [hentry] at hdrop
        have hfilter : ((entry :: rest).filter fun entry => Editor.touches id entry.2) =
            entry :: rest.filter fun entry => Editor.touches id entry.2 :=
          List.filter_cons_of_pos htouches
        rw [if_pos htouches, run_bind_of_ok hdrop, hfilter, List.foldl_cons]
        refine ih hrest fun other hother => ?_
        have hne : other.1 ≠ entry.1 := fun heq => hnew (heq ▸ List.mem_map_of_mem hother)
        rw [← hothers other hother]
        exact OrderedMap.get?_erase.trans (if_neg hne)
      · have hfilter : ((entry :: rest).filter fun entry => Editor.touches id entry.2) =
            rest.filter fun entry => Editor.touches id entry.2 := List.filter_cons_of_neg htouches
        rw [if_neg htouches, run_bind_of_ok (run_pure () desk), hfilter]
        exact ih hrest hothers

/-- Nodes are altered one by one. -/
theorem run_alterNodes (f : Node → Node) (ids : List String) (desk : Desk ι) :
    run (ids.forM fun id => alterNode id f) desk =
      (.ok (), { desk with
        editor := ids.foldl (fun editor id => editor.alterNode id f) desk.editor }) := by
  induction ids generalizing desk with
  | nil => rfl
  | cons id rest ih => exact ih { desk with editor := desk.editor.alterNode id f }

/-! ## What operations come to -/

theorem run_addNode (stageType : String) (config : Value) (given : String)
    (position : Entries Value) (token : String) (desk : Desk ι) :
    run (addNode stageType config given position token) desk =
      desk.outcome (desk.editor.addNode stageType config given position token) := by
  simp only [addNode, Editor.addNode, run_bind_of_ok (run_editor desk), run_stopIf_bind]
  generalize (if given.isEmpty = true then Editor.newNodeId stageType token else given) = id
  split
  · rfl
  · exact run_touch _ _

theorem run_updateConfig (id : String) (config : Value) (desk : Desk ι) :
    run (updateConfig id config) desk = desk.outcome (desk.editor.updateConfig id config) := by
  rw [updateConfig, run_require_bind, Editor.updateConfig]
  cases hnode : desk.editor.node id with
  | error fault => rfl
  | ok node =>
    simp only [alterNode, run_change_bind, Editor.alterNode_alterNode]
    rw [Editor.alterNode_of_node hnode]
    exact run_touch _ _

theorem run_moveNode (id : String) (position : Entries Value) (desk : Desk ι) :
    run (moveNode id position) desk = desk.outcome (desk.editor.moveNode id position) := by
  rw [moveNode, run_require_bind, Editor.moveNode]
  cases hnode : desk.editor.node id with
  | error fault => rfl
  | ok node =>
    simp only [alterNode, run_change_bind, Editor.alterNode_of_node hnode]
    exact run_quiet _ _

theorem run_addEdge (source target : String) (desk : Desk ι) :
    run (addEdge source target) desk = desk.outcome (desk.editor.addEdge source target) := by
  simp only [addEdge, Editor.addEdge, run_bind_of_ok (run_editor desk), run_stopIf_bind]
  split
  · rfl
  · split
    · rfl
    · cases desk.editor.registered? source target with
      | some id => exact run_quiet (some id) desk
      | none => exact run_touch _ _

theorem run_removeNode (id : String) (desk : Desk ι) :
    run (removeNode id) desk = desk.outcome (desk.editor.removeNode id) := by
  rw [removeNode, run_require_bind, Editor.removeNode]
  cases desk.editor.node id with
  | error fault => rfl
  | ok node =>
    have hstored : ∀ entry ∈ desk.editor.graph.edges.entries,
        desk.editor.graph.edges.get? entry.1 = some entry.2 :=
      fun entry hentry => OrderedMap.mem_entries_iff.1 hentry
    have hdrop := run_dropEdges id desk.editor.graph.edges.nodup hstored
    simp only [run_bind_of_ok (run_editor desk), run_bind_of_ok hdrop, run_change_bind]
    exact run_touch _ _

theorem run_removeEdge (id : String) (desk : Desk ι) :
    run (removeEdge id) desk = desk.outcome (desk.editor.removeEdge id) := by
  rw [removeEdge, run_bind, run_dropEdge, Editor.removeEdge]
  cases desk.editor.graph.edges.get? id with
  | none => rfl
  | some edge => exact run_touch _ _

theorem run_clearErrors (desk : Desk ι) :
    run clearErrors desk = desk.outcome (.ok (desk.editor.clearErrors.quiet none)) := by
  have hcleared : desk.editor.graph.nodeIds.foldl
      (fun editor id => editor.alterNode id fun node => { node with error := .null }) desk.editor =
        desk.editor.clearErrors := by
    rw [Editor.foldl_alterNode]
    exact congrArg desk.editor.withNodes (OrderedMap.foldl_modify_keys _ desk.editor.graph.nodes)
  rw [clearErrors, run_bind_of_ok (run_editor desk), run_bind_of_ok (run_alterNodes _ _ desk),
    hcleared]
  exact run_quiet _ _

/-- Step by step, an operation comes to what it is: it fails without a change, or has the editor and
the notices of the operation. -/
theorem run_perform (edit : Edit) (desk : Desk ι) :
    run (perform edit) desk = desk.outcome (desk.editor.apply edit) := by
  cases edit with
  | addNode stageType config given position token =>
      exact run_addNode stageType config given position token desk
  | removeNode id => exact run_removeNode id desk
  | updateConfig id config => exact run_updateConfig id config desk
  | moveNode id position => exact run_moveNode id position desk
  | addEdge source target => exact run_addEdge source target desk
  | removeEdge id => exact run_removeEdge id desk
  | clearErrors => exact run_clearErrors desk

theorem run_neighbors (id : String) (desk : Desk ι) :
    run (neighbors id) desk = (desk.editor.neighbors id, desk) := by
  rw [neighbors, run_require_bind, Editor.neighbors]
  cases desk.editor.node id <;> rfl

end Work

/-! ## All or nothing -/

namespace Editor

/-- No listener is told of the operation: it moves a node, clears errors, or connects a pair of
nodes that is registered as connected. -/
def IsQuiet (editor : Editor) : Edit → Prop
  | .moveNode .. | .clearErrors => True
  | .addEdge source target => ∃ id, editor.registered? source target = some id
  | _ => False

end Editor

namespace Desk

variable {ι : Type} {desk : Desk ι} {edit : Edit}

/-- What an operation on a desk comes to. -/
inductive Performs (desk : Desk ι) (edit : Edit) :
    Except EditFault (Option String) × Desk ι → Prop where
  /-- It is refused, and nothing is changed. -/
  | refused (fault : EditFault) (hrefuses : desk.editor.Refuses edit fault) :
      Performs desk edit (.error fault, desk)
  /-- It changes nothing that compiling looks at, and no listener is told. -/
  | quiet (id : Option String) (editor : Editor) (hquiet : desk.editor.IsQuiet edit)
      (hrevision : editor.revision = desk.editor.revision)
      (hregistry : editor.registry = desk.editor.registry)
      (hsame : desk.editor.graph.SameStages editor.graph)
      (happlies : desk.editor.Applies edit ⟨editor, id, []⟩) :
      Performs desk edit (.ok id, { desk with editor := editor })
  /-- It counts one revision, and each listener is told once of the editor as it is in the end. -/
  | announced (id : Option String) (editor : Editor) (hheard : ¬ desk.editor.IsQuiet edit)
      (hrevision : editor.revision = desk.editor.revision + 1)
      (happlies : desk.editor.Applies edit ⟨editor, id, [editor]⟩) :
      Performs desk edit (.ok id, { desk with
        editor := editor
        told := desk.told ++ desk.listeners.map (·, editor) })

theorem performs_of_quiet {id : Option String} {editor : Editor} (hquiet : desk.editor.IsQuiet edit)
    (hrevision : editor.revision = desk.editor.revision)
    (hregistry : editor.registry = desk.editor.registry)
    (hsame : desk.editor.graph.SameStages editor.graph)
    (happlies : desk.editor.Applies edit (editor.quiet id)) :
    Performs desk edit (desk.outcome (.ok (editor.quiet id))) := by
  rw [outcome, receive_quiet]
  exact .quiet id editor hquiet hrevision hregistry hsame happlies

theorem performs_of_announced {id : Option String} {editor : Editor}
    (hheard : ¬ desk.editor.IsQuiet edit) (hrevision : editor.revision = desk.editor.revision)
    (happlies : desk.editor.Applies edit (editor.announced id)) :
    Performs desk edit (desk.outcome (.ok (editor.announced id))) := by
  rw [outcome, receive_announced]
  exact .announced id _ hheard (congrArg (· + 1) hrevision) happlies

theorem performs_outcome (desk : Desk ι) (edit : Edit) :
    Performs desk edit (desk.outcome (desk.editor.apply edit)) := by
  cases happly : desk.editor.apply edit with
  | error fault => exact .refused fault (Editor.refuses_of_apply happly)
  | ok edited =>
      have happlies := Editor.applies_of_apply happly
      cases Editor.applies_of_apply happly with
      | nodeAdded | configured | edgeRemoved =>
          exact performs_of_announced not_false rfl happlies
      | edgeAdded source target hsource htarget hfresh =>
          refine performs_of_announced (fun hquiet => ?_) rfl happlies
          obtain ⟨id, hregistered⟩ := hquiet
          rw [hfresh] at hregistered
          cases hregistered
      | nodeRemoved id =>
          exact performs_of_announced not_false (Editor.revision_foldl_dropEdge _) happlies
      | moved id position node hnode =>
          exact performs_of_quiet trivial rfl rfl (Editor.sameStages_insert hnode rfl rfl) happlies
      | connected source target id _ _ hregistered =>
          exact performs_of_quiet ⟨id, hregistered⟩ rfl rfl (.refl _) happlies
      | cleared =>
          exact performs_of_quiet trivial rfl rfl (Editor.sameStages_clearErrors _) happlies

/-- An operation that is carried out step by step in place either fails without a trace, or is told
of when all is done, if at all. Step by step it comes to the same as at once, and so does asking for
neighbors, which changes nothing. -/
theorem performs_run (desk : Desk ι) :
    (∀ edit, (Work.perform edit).run desk = desk.outcome (desk.editor.apply edit) ∧
      Performs desk edit ((Work.perform edit).run desk)) ∧
    ∀ id, (Work.neighbors id).run desk = (desk.editor.neighbors id, desk) := by
  refine ⟨fun edit => ?_, fun id => Work.run_neighbors id desk⟩
  rw [Work.run_perform]
  exact ⟨rfl, performs_outcome desk edit⟩

/-! ## Operations in a row -/

/-- The desk after an operation. -/
def perform (desk : Desk ι) (edit : Edit) : Desk ι := ((Work.perform edit).run desk).2

/-- The desk after some operations. -/
def performAll (desk : Desk ι) (edits : List Edit) : Desk ι := edits.foldl perform desk

/-- From one desk to a later one, every listener has been told of every revision, in order and each
once. -/
structure Informs (desk next : Desk ι) (notices : List Editor) : Prop where
  listeners : next.listeners = desk.listeners
  told : next.told = desk.told ++ notices.flatMap fun notice => desk.listeners.map (·, notice)
  revision : next.editor.revision = desk.editor.revision + notices.length
  revisions : notices.map (·.revision) =
    List.range' (desk.editor.revision + 1) notices.length

theorem editor_performAll (edits : List Edit) (desk : Desk ι) :
    (desk.performAll edits).editor = desk.editor.performAll edits := by
  induction edits generalizing desk with
  | nil => rfl
  | cons edit rest ih =>
      have hedit : (desk.perform edit).editor = desk.editor.perform edit := by
        rw [perform, Work.run_perform, Editor.perform]
        cases desk.editor.apply edit <;> rfl
      show ((desk.perform edit).performAll rest).editor =
        (desk.editor.perform edit).performAll rest
      rw [ih, hedit]

theorem Informs.trans {next last : Desk ι} {first second : List Editor}
    (hfirst : desk.Informs next first) (hsecond : next.Informs last second) :
    desk.Informs last (first ++ second) where
  listeners := hsecond.listeners.trans hfirst.listeners
  told := by
    rw [hsecond.told, hfirst.told, hfirst.listeners, List.flatMap_append, List.append_assoc]
  revision := by
    rw [hsecond.revision, hfirst.revision, List.length_append, Nat.add_assoc]
  revisions := by
    rw [List.map_append, hfirst.revisions, hsecond.revisions, hfirst.revision, List.length_append,
      Nat.add_right_comm, List.range'_append_1]

theorem informs_perform (desk : Desk ι) (edit : Edit) :
    ∃ notices, desk.Informs (desk.perform edit) notices := by
  rw [perform, Work.run_perform]
  have hperforms := performs_outcome desk edit
  generalize desk.outcome (desk.editor.apply edit) = result at hperforms ⊢
  cases hperforms with
  | refused => exact ⟨[], rfl, by simp, rfl, rfl⟩
  | quiet id editor hquiet hrevision => exact ⟨[], rfl, by simp, hrevision, rfl⟩
  | announced id editor hheard hrevision =>
      exact ⟨[editor], rfl, by simp, hrevision, by simp [hrevision]⟩

/-- Whatever is done, every listener is told of every revision. -/
theorem informs_performAll (edits : List Edit) (desk : Desk ι) :
    ∃ notices, desk.Informs (desk.performAll edits) notices := by
  induction edits generalizing desk with
  | nil => exact ⟨[], rfl, by simp [performAll], rfl, rfl⟩
  | cons edit rest ih =>
      obtain ⟨first, hfirst⟩ := desk.informs_perform edit
      obtain ⟨second, hsecond⟩ := ih (desk.perform edit)
      exact ⟨first ++ second, hfirst.trans hsecond⟩

end Desk

end StageChain
