import StageChain.Proofs.Graph.Edits
import StageChain.Proofs.Graph.Listing
import StageChain.Proofs.Stage.Amount

/-!
# What compiling a graph reports

`Reports` says what the report of a graph is, in terms of its chain and of what becomes of each node
on its own. Compiling gives that report and no other: `compile_exact`. The exception is a graph that
holds an overlong numeral before any invalid node, for which there is no report at all.
-/

namespace StageChain.Graph

variable {graph : Graph} {order : List String} {id : String}

/-! ## Single nodes -/

/-- The node compiles to a stage. -/
def compiles (graph : Graph) (id : String) : Bool :=
  match graph.stageOf id with
  | some (.ok _) => true
  | _ => false

/-- The node is untouched. -/
def isUntouched (graph : Graph) (id : String) : Bool :=
  match graph.stageOf id with
  | some (.error .untouched) => true
  | _ => false

/-- The node does not stand in the way of a pipeline: it compiles or is left out. -/
def passes (graph : Graph) (id : String) : Bool := graph.compiles id || graph.isUntouched id

theorem passes_eq_false_of_stageOf {refusal : Refusal}
    (h : graph.stageOf id = some (.error refusal)) (hne : refusal ≠ .untouched) :
    graph.passes id = false := by
  cases refusal with
  | untouched => exact absurd rfl hne
  | invalid fault => simp [passes, compiles, isUntouched, h]
  | overlong numeral => simp [passes, compiles, isUntouched, h]

/-! ## Assembly -/

/-- The pipeline of an order: the stages of the nodes that compile, each owned by its node, and the
nodes that are left out. -/
structure IsPipelineOf (graph : Graph) (order : List String) (pipeline : Pipeline) : Prop where
  nodeIds : pipeline.nodeIds = order.filter graph.compiles
  skipped : pipeline.skipped = order.filter graph.isUntouched
  stage : ∀ (index : Nat) (owned : OwnedStage), pipeline.stages[index]? = some owned →
    graph.stageOf owned.owner = some (.ok owned.stage)

/-- What a refusal that stops the assembly at a node is put down to. -/
inductive Stops (id : String) : Refusal → AssemblyFault → Prop where
  | invalid (fault : StageFault) : Stops id (.invalid fault) (.invalidNode id fault)
  | overlong (numeral : Text.OverlongNumeral) : Stops id (.overlong numeral) (.overlong numeral)

/-- What the assembly of an order gives. -/
inductive Assembled (graph : Graph) (order : List String) : Except AssemblyFault Pipeline → Prop
    where
  | complete (pipeline : Pipeline) (hall : ∀ id ∈ order, graph.passes id = true)
      (hpipeline : graph.IsPipelineOf order pipeline) : Assembled graph order (.ok pipeline)
  | stopped (before after : List String) (id : String) (refusal : Refusal) (fault : AssemblyFault)
      (horder : order = before ++ id :: after)
      (hbefore : ∀ other ∈ before, graph.passes other = true)
      (hrefusal : graph.stageOf id = some (.error refusal)) (hstops : Stops id refusal fault) :
      Assembled graph order (.error fault)

theorem Stops.ne_untouched {refusal : Refusal} {fault : AssemblyFault}
    (h : Stops id refusal fault) : refusal ≠ .untouched := by
  cases h <;> simp

theorem IsPipelineOf.nil : graph.IsPipelineOf [] .empty where
  nodeIds := rfl
  skipped := rfl
  stage := by simp [Pipeline.empty]

/-- A node that compiles adds its stage at the front. -/
theorem IsPipelineOf.cons_stage {pipeline : Pipeline} {stage : CompiledStage}
    (h : graph.IsPipelineOf order pipeline) (hstage : graph.stageOf id = some (.ok stage)) :
    graph.IsPipelineOf (id :: order)
      { pipeline with stages := ⟨id, stage⟩ :: pipeline.stages } where
  nodeIds := by
    have hcompiles : graph.compiles id = true := by simp [compiles, hstage]
    rw [List.filter_cons_of_pos hcompiles, ← h.nodeIds]
    rfl
  skipped := by
    have huntouched : graph.isUntouched id = false := by simp [isUntouched, hstage]
    rw [List.filter_cons_of_neg (by simp [huntouched]), ← h.skipped]
  stage := by
    intro index owned howned
    cases index with
    | zero =>
        obtain rfl := Option.some.inj howned
        exact hstage
    | succ index => exact h.stage index owned howned

/-- An untouched node is left out. -/
theorem IsPipelineOf.cons_skipped {pipeline : Pipeline} (h : graph.IsPipelineOf order pipeline)
    (huntouched : graph.stageOf id = some (.error .untouched)) :
    graph.IsPipelineOf (id :: order) { pipeline with skipped := id :: pipeline.skipped } where
  nodeIds := by
    have hcompiles : graph.compiles id = false := by simp [compiles, huntouched]
    rw [List.filter_cons_of_neg (by simp [hcompiles]), ← h.nodeIds]
    rfl
  skipped := by
    have hskips : graph.isUntouched id = true := by simp [isUntouched, huntouched]
    rw [List.filter_cons_of_pos hskips, ← h.skipped]
  stage := h.stage

/-- What follows a node that passes decides how the assembly ends. -/
theorem Assembled.cons {result : Except AssemblyFault Pipeline} {add : Pipeline → Pipeline}
    (h : graph.Assembled order result) (hpasses : graph.passes id = true)
    (hadd : ∀ pipeline, graph.IsPipelineOf order pipeline →
      graph.IsPipelineOf (id :: order) (add pipeline)) :
    graph.Assembled (id :: order) (result.map add) := by
  cases h with
  | complete pipeline hall hpipeline =>
      refine .complete (add pipeline) ?_ (hadd pipeline hpipeline)
      intro other hother
      rcases List.mem_cons.1 hother with rfl | hrest
      · exact hpasses
      · exact hall other hrest
  | stopped before after stop refusal fault horder hbefore hrefusal hstops =>
      have hcut : id :: order = (id :: before) ++ stop :: after := by rw [horder]; rfl
      refine .stopped (id :: before) after stop refusal fault hcut ?_ hrefusal hstops
      intro other hother
      rcases List.mem_cons.1 hother with rfl | hrest
      · exact hpasses
      · exact hbefore other hrest

/-- The assembly of nodes that are there ends in one of the ways that `Assembled` lists. -/
theorem assembled_assemble (h : ∀ id ∈ order, id ∈ graph.nodeIds) :
    graph.Assembled order (graph.assemble order) := by
  induction order with
  | nil => exact .complete .empty (by simp) .nil
  | cons id rest ih =>
      have hrest := ih fun other hother => h other (List.mem_cons_of_mem _ hother)
      obtain ⟨node, hnode⟩ : ∃ node, graph.nodes.get? id = some node :=
        Entries.exists_get?_of_mem_keys (h id List.mem_cons_self)
      have hstage := stageOf_of_get? hnode
      unfold assemble
      simp only [hnode]
      cases hcompile : compileStage node.stageType node.config with
      | ok stage =>
          rw [hcompile] at hstage
          refine hrest.cons (by simp [passes, compiles, hstage]) fun pipeline hpipeline => ?_
          exact hpipeline.cons_stage hstage
      | error refusal =>
          rw [hcompile] at hstage
          cases refusal with
          | untouched =>
              refine hrest.cons (by simp [passes, isUntouched, hstage]) fun pipeline hpipeline => ?_
              exact hpipeline.cons_skipped hstage
          | invalid fault =>
              exact .stopped [] rest id _ _ rfl (by simp) hstage (.invalid fault)
          | overlong numeral =>
              exact .stopped [] rest id _ _ rfl (by simp) hstage (.overlong numeral)

/-- A pipeline of an order is the only one. -/
theorem IsPipelineOf.unique {first second : Pipeline} (hfirst : graph.IsPipelineOf order first)
    (hsecond : graph.IsPipelineOf order second) : first = second := by
  have hstages : first.stages = second.stages := by
    have hids : first.nodeIds = second.nodeIds := hfirst.nodeIds.trans hsecond.nodeIds.symm
    refine List.ext_getElem (by simpa [Pipeline.nodeIds] using congrArg List.length hids) ?_
    intro index hindex hindex'
    have howner : first.stages[index].owner = second.stages[index].owner := by
      have hsame := congrArg (·[index]?) hids
      simpa [Pipeline.nodeIds, hindex, hindex'] using hsame
    have hstage := hfirst.stage index _ (List.getElem?_eq_getElem hindex)
    rw [howner, hsecond.stage index _ (List.getElem?_eq_getElem hindex')] at hstage
    -- the owner of a stage decides which stage it is
    have hsame := Except.ok.inj (Option.some.inj hstage)
    calc first.stages[index] = ⟨first.stages[index].owner, first.stages[index].stage⟩ := rfl
      _ = second.stages[index] := by rw [howner, ← hsame]
  have hskipped : first.skipped = second.skipped := hfirst.skipped.trans hsecond.skipped.symm
  calc first = ⟨first.stages, first.skipped⟩ := rfl
    _ = second := by rw [hstages, hskipped]

/-- The first node that does not pass is found wherever the order is cut. -/
theorem find?_of_stop {before after : List String}
    (hbefore : ∀ other ∈ before, graph.passes other = true)
    (hid : graph.passes id = false) :
    (before ++ id :: after).find? (fun other => !graph.passes other) = some id := by
  have hnone : before.find? (fun other => !graph.passes other) = none :=
    List.find?_eq_none.2 fun other hother => by simp [hbefore other hother]
  rw [List.find?_append, hnone, List.find?_cons_of_pos (by simp [hid])]
  rfl

theorem Assembled.unique {first second : Except AssemblyFault Pipeline}
    (hfirst : graph.Assembled order first) (hsecond : graph.Assembled order second) :
    first = second := by
  have hfound : ∀ {before after : List String} {id : String} {refusal : Refusal}
      {fault : AssemblyFault}, order = before ++ id :: after →
      (∀ other ∈ before, graph.passes other = true) →
      graph.stageOf id = some (.error refusal) → Stops id refusal fault →
      order.find? (fun other => !graph.passes other) = some id := by
    intro before after id refusal fault horder hbefore hrefusal hstops
    rw [horder]
    exact find?_of_stop hbefore (passes_eq_false_of_stageOf hrefusal hstops.ne_untouched)
  have hmissing : (∀ id ∈ order, graph.passes id = true) →
      order.find? (fun other => !graph.passes other) = none :=
    fun hall => List.find?_eq_none.2 fun other hother => by simp [hall other hother]
  cases hfirst with
  | complete pipeline hall hpipeline =>
      cases hsecond with
      | complete other _ hother => rw [hpipeline.unique hother]
      | stopped before after id refusal fault horder hbefore hrefusal hstops =>
          cases (hmissing hall).symm.trans (hfound horder hbefore hrefusal hstops)
  | stopped before after id refusal fault horder hbefore hrefusal hstops =>
      have hid := hfound horder hbefore hrefusal hstops
      cases hsecond with
      | complete _ hall => cases (hmissing hall).symm.trans hid
      | stopped before' after' id' refusal' fault' horder' hbefore' hrefusal' hstops' =>
          obtain rfl : id = id' :=
            Option.some.inj (hid.symm.trans (hfound horder' hbefore' hrefusal' hstops'))
          obtain rfl : refusal = refusal' :=
            Except.error.inj (Option.some.inj (hrefusal.symm.trans hrefusal'))
          cases hstops with
          | invalid fault => cases hstops'; rfl
          | overlong numeral => cases hstops'; rfl

/-! ## Reports -/

/-- What compiling a graph gives: no order and why it is no chain, the order and the fault of the
first node that is not valid, or the order and its pipeline. A node with an overlong numeral that
comes before any invalid one leaves the graph without a report. -/
inductive Reports (graph : Graph) : Except Text.OverlongNumeral Report → Prop where
  | noChain (fault : ChainFault) (hfault : graph.linearize = .error fault) :
      Reports graph (.ok ⟨[], .error fault.failure⟩)
  | invalid (before after : List String) (id : String) (fault : StageFault)
      (horder : graph.linearize = .ok (before ++ id :: after))
      (hbefore : ∀ other ∈ before, graph.passes other = true)
      (hfault : graph.stageOf id = some (.error (.invalid fault))) :
      Reports graph
        (.ok ⟨before ++ id :: after, .error (.validation fault.field fault.message (some id))⟩)
  | overlong (before after : List String) (id : String) (numeral : Text.OverlongNumeral)
      (horder : graph.linearize = .ok (before ++ id :: after))
      (hbefore : ∀ other ∈ before, graph.passes other = true)
      (hnumeral : graph.stageOf id = some (.error (.overlong numeral))) :
      Reports graph (.error numeral)
  | compiled (order : List String) (pipeline : Pipeline) (horder : graph.linearize = .ok order)
      (hall : ∀ id ∈ order, graph.passes id = true)
      (hpipeline : graph.IsPipelineOf order pipeline) : Reports graph (.ok ⟨order, .ok pipeline⟩)

/-- The order of a graph has every node once. -/
theorem order_of_linearize (h : graph.linearize = .ok order) :
    order.Nodup ∧ ∀ id, id ∈ order ↔ id ∈ graph.nodeIds := by
  by_cases hne : graph.nodeIds = []
  · obtain rfl : [] = order := by simpa [linearize, hne] using h
    simp [hne]
  · have hlisting := (linearize_eq_ok_iff hne).1 h
    exact ⟨hlisting.nodup, hlisting.mem_iff⟩

theorem assembled_of_linearize (h : graph.linearize = .ok order) :
    graph.Assembled order (graph.assemble order) :=
  assembled_assemble fun id hid => ((order_of_linearize h).2 id).1 hid

theorem reports_compile (graph : Graph) : graph.Reports graph.compile := by
  unfold compile
  cases horder : graph.linearize with
  | error fault => exact .noChain fault horder
  | ok order =>
      have hassembled := assembled_of_linearize horder
      simp only
      generalize graph.assemble order = result at hassembled
      cases hassembled with
      | complete pipeline hall hpipeline => exact .compiled order pipeline horder hall hpipeline
      | stopped before after id refusal fault hcut hbefore hrefusal hstops =>
          subst hcut
          cases hstops with
          | invalid fault => exact .invalid before after id fault horder hbefore hrefusal
          | overlong numeral => exact .overlong before after id numeral horder hbefore hrefusal

theorem compile_eq_of_reports {result : Except Text.OverlongNumeral Report}
    (h : graph.Reports result) : graph.compile = result := by
  unfold compile
  cases h with
  | noChain fault hfault => rw [hfault]
  | invalid before after id fault horder hbefore hfault =>
      have hstopped : graph.Assembled (before ++ id :: after) (.error (.invalidNode id fault)) :=
        .stopped before after id _ _ rfl hbefore hfault (.invalid fault)
      simp only [horder, (assembled_of_linearize horder).unique hstopped]
      rfl
  | overlong before after id numeral horder hbefore hnumeral =>
      have hstopped : graph.Assembled (before ++ id :: after) (.error (.overlong numeral)) :=
        .stopped before after id _ _ rfl hbefore hnumeral (.overlong numeral)
      simp only [horder, (assembled_of_linearize horder).unique hstopped]
      rfl
  | compiled order pipeline horder hall hpipeline =>
      have hcomplete : graph.Assembled order (.ok pipeline) := .complete pipeline hall hpipeline
      simp only [horder, (assembled_of_linearize horder).unique hcomplete]

/-- A graph that compiles has a chain of nodes that pass, and their pipeline. -/
theorem isPipelineOf_of_compile {pipeline : Pipeline}
    (h : graph.compile = .ok ⟨order, .ok pipeline⟩) :
    (∀ id ∈ order, graph.passes id = true) ∧ graph.IsPipelineOf order pipeline := by
  have hreports := graph.reports_compile
  rw [h] at hreports
  cases hreports with
  | compiled _ _ _ hall hpipeline => exact ⟨hall, hpipeline⟩

/-- Where all nodes pass, those that compile and those that are left out make up the order. -/
theorem IsPipelineOf.perm {pipeline : Pipeline} (h : graph.IsPipelineOf order pipeline)
    (hall : ∀ id ∈ order, graph.passes id = true) :
    (pipeline.nodeIds ++ pipeline.skipped).Perm order := by
  have hother : order.filter graph.isUntouched = order.filter fun id => !graph.compiles id := by
    refine List.filter_congr fun id hid => ?_
    have hpasses := hall id hid
    unfold passes at hpasses
    unfold isUntouched compiles at hpasses ⊢
    split at hpasses <;> simp_all
  rw [h.nodeIds, h.skipped, hother]
  exact List.filter_append_perm graph.compiles order

/-- The graph holds an overlong numeral in a node before which no node is invalid. -/
def IsOverlong (graph : Graph) : Prop :=
  ∃ before id after numeral, graph.linearize = .ok (before ++ id :: after) ∧
    (∀ other ∈ before, graph.passes other = true) ∧
      graph.stageOf id = some (.error (.overlong numeral))

theorem isOverlong_iff : graph.IsOverlong ↔ ∃ numeral, graph.compile = .error numeral := by
  constructor
  · rintro ⟨before, id, after, numeral, horder, hbefore, hnumeral⟩
    have hreports := Reports.overlong before after id numeral horder hbefore hnumeral
    exact ⟨numeral, compile_eq_of_reports hreports⟩
  · rintro ⟨numeral, hcompile⟩
    have hreports := graph.reports_compile
    rw [hcompile] at hreports
    cases hreports with
    | overlong before after id _ horder hbefore hnumeral =>
        exact ⟨before, id, after, numeral, horder, hbefore, hnumeral⟩

/-- No node owns two stages of a pipeline that is run. -/
theorem nodup_of_result {report : Report} {pipeline : Pipeline}
    (hcompile : graph.compile = .ok report) (hresult : report.result = .ok pipeline) :
    pipeline.nodeIds.Nodup := by
  have hreports := graph.reports_compile
  rw [hcompile] at hreports
  cases hreports with
  | noChain | invalid => cases hresult
  | compiled order compiled horder hall hpipeline =>
      have hnodup : compiled.nodeIds.Nodup := by
        rw [hpipeline.nodeIds]
        exact (order_of_linearize horder).1.filter _
      simp only [Report.result, Except.map, Except.ok.injEq] at hresult
      split at hresult
      · rw [← hresult]
        exact List.nodup_nil
      · rw [← hresult]
        exact hnodup

/-- Compiling gives what `Reports` says and nothing else. The nodes of a pipeline and those that it
leaves out make up the order. There is a report, with a pipeline or a failure and never both, unless
the first node that does not pass holds an overlong numeral. -/
theorem compile_exact (graph : Graph) :
    (∀ result, graph.compile = result ↔ graph.Reports result) ∧
      (∀ order pipeline, graph.compile = .ok ⟨order, .ok pipeline⟩ →
        order.Nodup ∧ (pipeline.nodeIds ++ pipeline.skipped).Perm order) ∧
      ((∃ report, graph.compile = .ok report ∧
        (report.pipeline?.isSome ↔ report.failure? = none)) ↔ ¬ graph.IsOverlong) := by
  refine ⟨fun result => ⟨fun h => h ▸ graph.reports_compile, compile_eq_of_reports⟩, ?_, ?_⟩
  · intro order pipeline hcompile
    have hreports := graph.reports_compile
    rw [hcompile] at hreports
    cases hreports with
    | compiled _ _ horder hall hpipeline =>
        exact ⟨(order_of_linearize horder).1, hpipeline.perm hall⟩
  · rw [isOverlong_iff]
    constructor
    · rintro ⟨report, hreport, -⟩ ⟨numeral, hnone⟩
      cases hnone.symm.trans hreport
    · intro hreported
      cases hcompile : graph.compile with
      | error numeral => exact absurd ⟨numeral, hcompile⟩ hreported
      | ok report =>
          refine ⟨report, rfl, ?_⟩
          unfold Report.pipeline? Report.failure?
          cases report.outcome <;> simp

/-! ## Graphs of one node -/

/-- The graph of a node alone. -/
def single (node : Node) : Graph := ⟨OrderedMap.empty.insert node.id node, .empty⟩

theorem linearize_single (node : Node) : (single node).linearize = .ok [node.id] := by
  have hids : (single node).nodeIds = [node.id] := rfl
  refine (linearize_eq_ok_iff (by simp [hids])).2 ⟨by simp, by simp [hids], ?_⟩
  exact .nil

theorem stageOf_single (node : Node) :
    (single node).stageOf node.id = some (compileStage node.stageType node.config) := by
  refine stageOf_of_get? ?_
  rw [single, OrderedMap.get?_insert, if_pos rfl]

/-- A node that is refused as overlong leaves its graph without a report. -/
theorem compile_single_of_overlong {node : Node} {numeral : Text.OverlongNumeral}
    (h : compileStage node.stageType node.config = .error (.overlong numeral)) :
    (single node).compile = .error numeral := by
  refine compile_eq_of_reports (.overlong [] [] node.id numeral (linearize_single node) ?_ ?_)
  · simp
  · rw [stageOf_single, h]

/-- A node that compiles is the only stage of its graph. -/
theorem compile_single_of_ok {node : Node} {stage : CompiledStage}
    (h : compileStage node.stageType node.config = .ok stage) :
    (single node).compile = .ok ⟨[node.id], .ok ⟨[⟨node.id, stage⟩], []⟩⟩ := by
  have hstage : (single node).stageOf node.id = some (.ok stage) := by rw [stageOf_single, h]
  refine compile_eq_of_reports (.compiled _ _ (linearize_single node) ?_ ?_)
  · simp [passes, compiles, hstage]
  · exact IsPipelineOf.nil.cons_stage hstage

/-- A node that limits to an amount. -/
def limitNode (amount : Value) : Node :=
  ⟨"limit", "$limit", .object [("limit", amount)], Value.origin, .null⟩

theorem compile_limit_of_overlong {digits : List Char}
    (hdigits : ∀ c ∈ digits, Text.isAsciiDigit c = true) (hlong : Text.maxDigits < digits.length) :
    (single (limitNode (.text (String.ofList digits)))).compile = .error ⟨digits.length⟩ :=
  compile_single_of_overlong (Amount.compile_of_overlong "limit" hdigits hlong)

/-- Not every graph has a report: a limit of one digit more than are read has none. -/
theorem not_reported_overlong_limit :
    ¬ ∃ report,
      (single (limitNode (.text (String.ofList (List.replicate 4301 '7'))))).compile = .ok report ∧
        (report.pipeline?.isSome ↔ report.failure? = none) := by
  rintro ⟨report, hreport, -⟩
  have hlong : Text.maxDigits < (List.replicate 4301 '7').length := by
    rw [List.length_replicate]
    decide
  have hdigits : ∀ c ∈ List.replicate 4301 '7', Text.isAsciiDigit c = true := by
    intro c hc
    rw [List.eq_of_mem_replicate hc]
    decide
  rw [compile_limit_of_overlong hdigits hlong] at hreport
  cases hreport

end StageChain.Graph
