import StageChain.Proofs.Graph.Removal
import StageChain.Proofs.Pipeline.Compilation

/-!
# Pipelines of shortened chains

Removing the last node of a chain and compiling gives the stages that the pipeline of the whole
chain starts with, and removing the first node takes its stage, or its place among the nodes that
are left out, from the front. An inner node cannot be removed without breaking the chain. The main
theorem is `removeNode_of_linearize`; it is what makes a preview of a prefix the preview of a
shorter chain.
-/

namespace StageChain.Graph

variable {graph next : Graph} {order init rest : List String} {id first last : String}
  {pipeline : Pipeline}

section Congruence

variable (h : ∀ id ∈ order, next.stageOf id = graph.stageOf id)
include h

theorem passes_congr : ∀ id ∈ order, next.passes id = graph.passes id := fun id hid => by
  simp only [passes, compiles, isUntouched, h id hid]

/-- The pipeline of an order is made from the nodes of that order alone. -/
theorem IsPipelineOf.congr (hpipeline : graph.IsPipelineOf order pipeline) :
    next.IsPipelineOf order pipeline where
  nodeIds := by
    rw [hpipeline.nodeIds]
    exact List.filter_congr fun id hid => by simp only [compiles, h id hid]
  skipped := by
    rw [hpipeline.skipped]
    exact List.filter_congr fun id hid => by simp only [isUntouched, h id hid]
  stage := by
    intro index owned howned
    have howner : owned.owner ∈ pipeline.nodeIds :=
      List.mem_map_of_mem (List.mem_of_getElem? howned)
    rw [hpipeline.nodeIds] at howner
    rw [h _ (List.mem_of_mem_filter howner)]
    exact hpipeline.stage index owned howned

end Congruence

/-- A chain of nodes that are as in a graph where they pass compiles to their pipeline there. -/
theorem compile_of_isPipelineOf (horder : next.linearize = .ok order)
    (hstages : ∀ id ∈ order, next.stageOf id = graph.stageOf id)
    (hall : ∀ id ∈ order, graph.passes id = true) (hpipeline : graph.IsPipelineOf order pipeline) :
    next.compile = .ok ⟨order, .ok pipeline⟩ := by
  refine compile_eq_of_reports (.compiled order pipeline horder (fun id hid => ?_)
    (hpipeline.congr hstages))
  rw [passes_congr hstages id hid]
  exact hall id hid

/-! ## Pipelines of parts of an order -/

/-- Without its last node an order has the stages before that of the node. -/
theorem IsPipelineOf.dropLast (h : graph.IsPipelineOf (init ++ [last]) pipeline)
    (hlast : last ∉ init) :
    graph.IsPipelineOf init
      ⟨pipeline.stages.take (init.countP graph.compiles), pipeline.skipped.erase last⟩ where
  nodeIds := by
    have hnodeIds := h.nodeIds
    rw [List.filter_append] at hnodeIds
    rw [Pipeline.nodeIds, List.map_take, ← Pipeline.nodeIds, hnodeIds, List.countP_eq_length_filter,
      List.take_left]
  skipped := by
    have hout : last ∉ init.filter graph.isUntouched := fun hmem =>
      hlast (List.mem_of_mem_filter hmem)
    rw [h.skipped, List.filter_append, List.erase_append_right _ hout]
    cases huntouched : graph.isUntouched last <;> simp [huntouched]
  stage := by
    intro index owned howned
    refine h.stage index owned ?_
    rw [List.getElem?_take] at howned
    split at howned
    · exact howned
    · cases howned

/-- A pipeline has one stage or one left out node more at the front than another. -/
inductive Precedes (id : String) (rest : Pipeline) : Pipeline → Prop where
  | stage (stage : CompiledStage) :
      Precedes id rest { rest with stages := ⟨id, stage⟩ :: rest.stages }
  | skipped : Precedes id rest { rest with skipped := id :: rest.skipped }

/-- The pipeline of an order is that of the order without its first node, with that node in
front. -/
theorem IsPipelineOf.precedes {shorter : Pipeline} (h : graph.IsPipelineOf (first :: rest) pipeline)
    (hfirst : graph.passes first = true) (hshorter : graph.IsPipelineOf rest shorter) :
    Precedes first shorter pipeline := by
  unfold passes compiles isUntouched at hfirst
  cases hstage : graph.stageOf first with
  | none => simp [hstage] at hfirst
  | some result =>
      cases result with
      | ok stage =>
          rw [h.unique (hshorter.cons_stage hstage)]
          exact .stage stage
      | error refusal =>
          cases refusal with
          | untouched =>
              rw [h.unique (hshorter.cons_skipped hstage)]
              exact .skipped
          | invalid | overlong => simp [hstage] at hfirst

/-- An order of nodes that pass has a pipeline. -/
theorem exists_isPipelineOf (hmem : ∀ id ∈ order, id ∈ graph.nodeIds)
    (hall : ∀ id ∈ order, graph.passes id = true) :
    ∃ pipeline, graph.IsPipelineOf order pipeline := by
  have hassembled := assembled_assemble hmem
  generalize graph.assemble order = result at hassembled
  cases hassembled with
  | complete pipeline _ hpipeline => exact ⟨pipeline, hpipeline⟩
  | stopped before after id refusal fault horder _ hrefusal hstops =>
      have hpasses := hall id (by simp [horder])
      rw [passes_eq_false_of_stageOf hrefusal hstops.ne_untouched] at hpasses
      cases hpasses

/-! ## Chains without a node -/

/-- The chain is cut before its last node, and its pipeline after as many stages as the remaining
nodes have. -/
structure DropsLast (graph : Graph) (init : List String) (last : String) (next : Graph) : Prop where
  linearize : next.linearize = .ok init
  compile : ∀ pipeline, graph.compile = .ok ⟨init ++ [last], .ok pipeline⟩ →
    ∃ cut shorter, pipeline.upTo (init.countP graph.compiles) = .ok cut ∧
      next.compile = .ok ⟨init, .ok shorter⟩ ∧ shorter.stages = cut.stages ∧
      shorter.nodeIds = cut.nodeIds ∧ shorter.skipped = pipeline.skipped.erase last

/-- The first node of the chain is gone, and with it its stage or its place among the nodes that are
left out. -/
structure DropsFirst (graph : Graph) (first : String) (rest : List String) (next : Graph) : Prop
    where
  linearize : next.linearize = .ok rest
  compile : ∀ pipeline, graph.compile = .ok ⟨first :: rest, .ok pipeline⟩ →
    ∃ shorter, next.compile = .ok ⟨rest, .ok shorter⟩ ∧ Precedes first shorter pipeline

theorem Without.dropsLast (h : graph.Without last next)
    (hlisting : graph.IsListing (init ++ [last])) : graph.DropsLast init last next := by
  have hlast : last ∉ init := (List.nodup_middle.1 hlisting.nodup).notMem ∘ by simp
  have hlinearize := (h.isSplit hlisting).linearize_of_nil
  refine ⟨hlinearize, fun pipeline hcompile => ?_⟩
  obtain ⟨hall, hpipeline⟩ := isPipelineOf_of_compile hcompile
  have hcount : init.countP graph.compiles ≤ pipeline.size := by
    have hsize := congrArg List.length hpipeline.nodeIds
    rw [Pipeline.nodeIds, List.length_map, List.filter_append, List.length_append,
      ← List.countP_eq_length_filter] at hsize
    rw [Pipeline.size]
    omega
  refine ⟨pipeline.take (init.countP graph.compiles),
    ⟨pipeline.stages.take (init.countP graph.compiles), pipeline.skipped.erase last⟩, ?_, ?_, ?_⟩
  · rw [Pipeline.upTo, if_neg (by omega)]
    rfl
  · exact compile_of_isPipelineOf hlinearize
      (fun id hid => h.stageOf id (ne_of_mem_of_not_mem hid hlast))
      (fun id hid => hall id (List.mem_append_left _ hid)) (hpipeline.dropLast hlast)
  · simp [Pipeline.take, Pipeline.nodeIds]

theorem Without.dropsFirst (h : graph.Without first next)
    (hlisting : graph.IsListing (first :: rest)) : graph.DropsFirst first rest next := by
  have hfirst : first ∉ rest := (List.nodup_cons.1 hlisting.nodup).1
  have hsplit : next.IsSplit [] rest := h.isSplit hlisting
  have hlinearize := hsplit.symm.linearize_of_nil
  refine ⟨hlinearize, fun pipeline hcompile => ?_⟩
  obtain ⟨hall, hpipeline⟩ := isPipelineOf_of_compile hcompile
  have hrest : ∀ id ∈ rest, graph.passes id = true := fun id hid =>
    hall id (List.mem_cons_of_mem _ hid)
  obtain ⟨shorter, hshorter⟩ := exists_isPipelineOf
    (fun id hid => (hlisting.mem_iff id).1 (List.mem_cons_of_mem _ hid)) hrest
  refine ⟨shorter, ?_, hpipeline.precedes (hall first List.mem_cons_self) hshorter⟩
  exact compile_of_isPipelineOf hlinearize
    (fun id hid => h.stageOf id (ne_of_mem_of_not_mem hid hfirst)) hrest hshorter

/-- A node that is listed can be removed. At the end it takes the last of the chain and of its
pipeline with it, at the front the first, and between other nodes it leaves a graph that falls
apart. -/
theorem removeNode_of_linearize (editor : Editor) (order : List String)
    (horder : editor.graph.linearize = .ok order) :
    (∀ init last, order = init ++ [last] →
      ∃ edited, editor.removeNode last = .ok edited ∧
        editor.graph.DropsLast init last edited.editor.graph) ∧
      (∀ first rest, order = first :: rest →
        ∃ edited, editor.removeNode first = .ok edited ∧
          editor.graph.DropsFirst first rest edited.editor.graph) ∧
      (∀ before id after, order = before ++ id :: after → before ≠ [] → after ≠ [] →
        ∃ edited, editor.removeNode id = .ok edited ∧
          FailsAs edited.editor.graph.linearize "disconnected") := by
  have hremoves : ∀ before id after, order = before ++ id :: after →
      editor.graph.IsListing (before ++ id :: after) ∧
        ∃ edited, editor.removeNode id = .ok edited ∧
          editor.graph.Without id edited.editor.graph := by
    rintro before id after rfl
    have hmem := ((order_of_linearize horder).2 id).1 (by simp)
    have hlisting := (linearize_eq_ok_iff (List.ne_nil_of_mem hmem)).1 horder
    exact ⟨hlisting, Editor.exists_removeNode hmem⟩
  refine ⟨fun init last hcut => ?_, fun first rest hcut => ?_,
    fun before id after hcut hbefore hafter => ?_⟩
  · obtain ⟨hlisting, edited, hedited, hwithout⟩ := hremoves init last [] hcut
    exact ⟨edited, hedited, hwithout.dropsLast hlisting⟩
  · obtain ⟨hlisting, edited, hedited, hwithout⟩ := hremoves [] first rest hcut
    exact ⟨edited, hedited, hwithout.dropsFirst hlisting⟩
  · obtain ⟨hlisting, edited, hedited, hwithout⟩ := hremoves before id after hcut
    exact ⟨edited, hedited, (hwithout.isSplit hlisting).failsAs_disconnected hbefore hafter⟩

/-- Three nodes in a chain, the first of which is untouched. -/
def untouchedLimitSkip : Editor := .ofGraph {
  nodes := ⟨[("a", ⟨"a", "$unwind", .object [("path", .text "$")], Value.origin, .null⟩),
    ("b", ⟨"b", "$limit", .object [("limit", .int 5)], Value.origin, .null⟩),
    ("c", ⟨"c", "$skip", .object [("skip", .int 2)], Value.origin, .null⟩)], by decide⟩
  edges := ⟨[("first", ⟨"first", "a", "b"⟩), ("second", ⟨"second", "b", "c"⟩)], by decide⟩ }

theorem linearize_untouchedLimitSkip :
    untouchedLimitSkip.graph.linearize = .ok ["a", "b", "c"] := by
  refine (linearize_eq_ok_iff (by decide)).2 ⟨by decide, fun id => ?_, by decide⟩
  simp [nodeIds, untouchedLimitSkip, Editor.ofGraph, OrderedMap.keys, Entries.keys]

theorem compile_untouchedLimitSkip : untouchedLimitSkip.graph.compile =
    .ok ⟨["a", "b", "c"],
      .ok ⟨[⟨"b", ⟨"$limit", .int 5⟩⟩, ⟨"c", ⟨"$skip", .int 2⟩⟩], ["a"]⟩⟩ := by
  have hassemble : untouchedLimitSkip.graph.assemble ["a", "b", "c"] =
      .ok ⟨[⟨"b", ⟨"$limit", .int 5⟩⟩, ⟨"c", ⟨"$skip", .int 2⟩⟩], ["a"]⟩ := rfl
  rw [compile, linearize_untouchedLimitSkip]
  simp only [hassemble]

/-- Each node of the chain can be removed: the last takes its stage with it, the first its place
among those left out, and the inner one leaves no chain. -/
theorem removeNode_untouchedLimitSkip :
    (∃ edited, untouchedLimitSkip.removeNode "c" = .ok edited ∧
      edited.editor.graph.compile =
        .ok ⟨["a", "b"], .ok ⟨[⟨"b", ⟨"$limit", .int 5⟩⟩], ["a"]⟩⟩) ∧
      (∃ edited, untouchedLimitSkip.removeNode "a" = .ok edited ∧
        edited.editor.graph.compile =
          .ok ⟨["b", "c"],
            .ok ⟨[⟨"b", ⟨"$limit", .int 5⟩⟩, ⟨"c", ⟨"$skip", .int 2⟩⟩], []⟩⟩) ∧
      ∃ edited, untouchedLimitSkip.removeNode "b" = .ok edited ∧
        FailsAs edited.editor.graph.linearize "disconnected" := by
  obtain ⟨hlast, hfirst, hinner⟩ := removeNode_of_linearize untouchedLimitSkip _
    linearize_untouchedLimitSkip
  refine ⟨?_, ?_, hinner ["a"] "b" ["c"] rfl (by simp) (by simp)⟩
  · obtain ⟨edited, hedited, hdrops⟩ := hlast ["a", "b"] "c" rfl
    refine ⟨edited, hedited, ?_⟩
    obtain ⟨cut, shorter, hcut, hcompile, hstages, -, hskipped⟩ :=
      hdrops.compile _ compile_untouchedLimitSkip
    obtain rfl : cut = ⟨[⟨"b", ⟨"$limit", .int 5⟩⟩], []⟩ := (Except.ok.inj hcut).symm
    rw [hcompile]
    obtain ⟨stages, skipped⟩ := shorter
    obtain rfl : stages = _ := hstages
    obtain rfl : skipped = _ := hskipped
    rfl
  · obtain ⟨edited, hedited, hdrops⟩ := hfirst "a" ["b", "c"] rfl
    refine ⟨edited, hedited, ?_⟩
    obtain ⟨shorter, hcompile, hprecedes⟩ := hdrops.compile _ compile_untouchedLimitSkip
    rw [hcompile]
    generalize hwhole :
      (⟨[⟨"b", ⟨"$limit", .int 5⟩⟩, ⟨"c", ⟨"$skip", .int 2⟩⟩], ["a"]⟩ : Pipeline) = whole
      at hprecedes
    cases hprecedes with
    | stage stage => simp at hwhole
    | skipped =>
        obtain ⟨stages, skipped⟩ := shorter
        cases hwhole
        rfl

end StageChain.Graph
