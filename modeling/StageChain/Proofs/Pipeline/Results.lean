import StageChain.Proofs.Pipeline.Compilation

/-!
# The pipeline of a graph and its report

`Graph.pipeline` gives the pipeline that the report of a graph holds, or the failure. It replaces a
pipeline without stages by the empty one, and the nodes that were left out are then forgotten. So it
gives what the report holds, `DeliversReport`, exactly if there is a report and not every node of
the chain is untouched: `delivers_report_iff`.
-/

namespace StageChain.Graph

variable {graph : Graph} {order : List String} {report : Report} {pipeline : Pipeline}
  {numeral : Text.OverlongNumeral}

/-- The pipeline of a graph is what its report holds: the failure, or the same stages, owners and
nodes that are left out. -/
inductive DeliversReport (graph : Graph) : Prop where
  | failed (report : Report) (failure : Failure) (hreport : graph.compile = .ok report)
      (hfailure : report.failure? = some failure)
      (hdelivered : graph.pipeline = .ok (.error failure))
  | compiled (report : Report) (pipeline delivered : Pipeline)
      (hreport : graph.compile = .ok report) (hpipeline : report.pipeline? = some pipeline)
      (hdelivered : graph.pipeline = .ok (.ok delivered))
      (hstages : delivered.stages.map (·.stage) = pipeline.stages.map (·.stage))
      (hnodeIds : delivered.nodeIds = pipeline.nodeIds)
      (hskipped : delivered.skipped = pipeline.skipped)

/-- The graph is a chain of at least one node, and all of its nodes are untouched. -/
def IsUntouchedChain (graph : Graph) : Prop :=
  ∃ first rest, graph.linearize = .ok (first :: rest) ∧
    ∀ id ∈ first :: rest, graph.isUntouched id = true

theorem pipeline_of_compile (h : graph.compile = .ok report) :
    graph.pipeline = .ok report.result := by
  rw [Graph.pipeline, h]
  rfl

/-- There is no pipeline and no failure exactly if there is no report. -/
theorem pipeline_eq_error_iff :
    graph.pipeline = .error numeral ↔ graph.compile = .error numeral := by
  rw [Graph.pipeline]
  cases graph.compile <;> simp [Except.map]

/-- A pipeline with stages is given as it is. -/
theorem result_of_stages (h : pipeline.stages ≠ []) :
    (Report.mk order (.ok pipeline)).result = .ok pipeline := by
  have hsome : pipeline.stages.isEmpty = false := by simpa using h
  simp [Report.result, Except.map, hsome]

/-- A chain of untouched nodes compiles to no stages, and all its nodes are left out. -/
theorem isPipelineOf_of_untouched (h : ∀ id ∈ order, graph.isUntouched id = true) :
    graph.IsPipelineOf order ⟨[], order⟩ where
  nodeIds := by
    refine (List.filter_eq_nil_iff.2 fun id hid hcompiles => ?_).symm
    have huntouched := h id hid
    unfold isUntouched at huntouched
    unfold compiles at hcompiles
    split at hcompiles
    · rename_i hstage
      simp [hstage] at huntouched
    · cases hcompiles
  skipped := (List.filter_eq_self.2 h).symm
  stage := by simp

theorem compile_of_untouched (horder : graph.linearize = .ok order)
    (h : ∀ id ∈ order, graph.isUntouched id = true) :
    graph.compile = .ok ⟨order, .ok ⟨[], order⟩⟩ := by
  have hall : ∀ id ∈ order, graph.passes id = true := fun id hid => by simp [passes, h id hid]
  exact compile_eq_of_reports (.compiled order _ horder hall (isPipelineOf_of_untouched h))

/-- Where all nodes are untouched, they are forgotten. -/
theorem pipeline_of_untouched (horder : graph.linearize = .ok order)
    (h : ∀ id ∈ order, graph.isUntouched id = true) : graph.pipeline = .ok (.ok .empty) :=
  pipeline_of_compile (compile_of_untouched horder h)

/-! ## What is delivered -/

theorem DeliversReport.not_isOverlong (h : graph.DeliversReport) : ¬ graph.IsOverlong := by
  rw [isOverlong_iff]
  rintro ⟨numeral, hnone⟩
  cases h with
  | failed report _ hreport | compiled report _ _ hreport => cases hnone.symm.trans hreport

/-- The nodes of an untouched chain are left out in the report, and no longer so in the pipeline. -/
theorem DeliversReport.not_isUntouchedChain (h : graph.DeliversReport) :
    ¬ graph.IsUntouchedChain := by
  rintro ⟨first, rest, horder, hall⟩
  have hcompile := compile_of_untouched horder hall
  have hforgotten := pipeline_of_untouched horder hall
  cases h with
  | failed report failure hreport hfailure =>
      cases hcompile.symm.trans hreport
      cases hfailure
  | compiled report pipeline delivered hreport hpipeline hdelivered _ _ hskipped =>
      cases hcompile.symm.trans hreport
      cases hforgotten.symm.trans hdelivered
      cases hpipeline
      cases hskipped

/-- A pipeline that is given as it is delivers its report. -/
theorem deliversReport_of_result (hcompile : graph.compile = .ok ⟨order, .ok pipeline⟩)
    (hresult : (Report.mk order (.ok pipeline)).result = .ok pipeline) : graph.DeliversReport := by
  have hdelivered := pipeline_of_compile hcompile
  rw [hresult] at hdelivered
  exact .compiled _ pipeline pipeline hcompile rfl hdelivered rfl rfl rfl

theorem deliversReport (hreported : ¬ graph.IsOverlong) (htouched : ¬ graph.IsUntouchedChain) :
    graph.DeliversReport := by
  cases hcompile : graph.compile with
  | error numeral => exact absurd (isOverlong_iff.2 ⟨numeral, hcompile⟩) hreported
  | ok report =>
      have hreports := graph.reports_compile
      rw [hcompile] at hreports
      cases hreports with
      | noChain | invalid => exact .failed _ _ hcompile rfl (pipeline_of_compile hcompile)
      | compiled order pipeline horder hall hpipeline =>
          refine deliversReport_of_result hcompile ?_
          by_cases hstages : pipeline.stages = []
          case neg => exact result_of_stages hstages
          -- without stages no node compiles, so that there is no node at all
          have hnodeIds : order.filter graph.compiles = [] := by
            rw [← hpipeline.nodeIds, Pipeline.nodeIds, hstages]
            rfl
          have huntouched : ∀ id ∈ order, graph.isUntouched id = true := by
            intro id hid
            have hpasses := hall id hid
            rwa [passes, Bool.eq_false_iff.2 (List.filter_eq_nil_iff.1 hnodeIds id hid),
              Bool.false_or] at hpasses
          cases order with
          | nil =>
              obtain rfl := hpipeline.unique .nil
              rfl
          | cons first rest => exact absurd ⟨first, rest, horder, huntouched⟩ htouched

/-- The pipeline of a graph is what its report holds, unless there is none because of an overlong
numeral, with which neither is given, or the graph is a chain of untouched nodes: their report
leaves all of them out, and their pipeline has forgotten them. -/
theorem delivers_report_iff (graph : Graph) :
    (graph.DeliversReport ↔ ¬ graph.IsOverlong ∧ ¬ graph.IsUntouchedChain) ∧
      (∀ numeral, graph.pipeline = .error numeral ↔ graph.compile = .error numeral) ∧
      ∀ order, graph.linearize = .ok order → (∀ id ∈ order, graph.isUntouched id = true) →
        graph.compile = .ok ⟨order, .ok ⟨[], order⟩⟩ ∧ graph.pipeline = .ok (.ok .empty) := by
  refine ⟨⟨fun h => ⟨h.not_isOverlong, h.not_isUntouchedChain⟩, fun h => deliversReport h.1 h.2⟩,
    fun _ => pipeline_eq_error_iff, fun order horder hall => ?_⟩
  exact ⟨compile_of_untouched horder hall, pipeline_of_untouched horder hall⟩

/-- A filter without conditions, as it is when it is new. -/
def newFilter : Node :=
  ⟨"filter", "$match", StageKind.filter.definition.defaultConfig, Value.origin, .null⟩

/-- A limit of one digit more than are read. -/
def overlongLimit : Node := limitNode (.text (String.ofList (List.replicate 4301 '7')))

theorem compile_overlongLimit : (single overlongLimit).compile = .error ⟨4301⟩ := by
  have hdigits : ∀ c ∈ List.replicate 4301 '7', Text.isAsciiDigit c = true := by
    intro c hc
    rw [List.eq_of_mem_replicate hc]
    decide
  have hlong : Text.maxDigits < (List.replicate 4301 '7').length := by
    rw [List.length_replicate]
    decide
  have hrefused := compile_limit_of_overlong hdigits hlong
  rwa [List.length_replicate] at hrefused

/-- The report of a new filter leaves it out, and the pipeline does not know of it. For an overlong
limit there is neither a report nor a pipeline. -/
theorem not_delivers_reports :
    ((single newFilter).compile = .ok ⟨["filter"], .ok ⟨[], ["filter"]⟩⟩ ∧
      (single newFilter).pipeline = .ok (.ok ⟨[], []⟩) ∧ ¬ (single newFilter).DeliversReport) ∧
    ((single overlongLimit).pipeline = .error ⟨4301⟩ ∧
      ¬ (single overlongLimit).DeliversReport) := by
  have horder := linearize_single newFilter
  have hstage : (single newFilter).stageOf "filter" = some (.error .untouched) :=
    stageOf_single newFilter
  have hall : ∀ id ∈ ["filter"], (single newFilter).isUntouched id = true := by
    intro id hid
    rw [List.mem_singleton.1 hid, isUntouched, hstage]
  constructor
  · refine ⟨compile_of_untouched horder hall, pipeline_of_untouched horder hall, fun h => ?_⟩
    exact h.not_isUntouchedChain ⟨_, _, horder, hall⟩
  · refine ⟨pipeline_eq_error_iff.2 compile_overlongLimit, fun h => ?_⟩
    exact h.not_isOverlong (isOverlong_iff.2 ⟨_, compile_overlongLimit⟩)

end StageChain.Graph
