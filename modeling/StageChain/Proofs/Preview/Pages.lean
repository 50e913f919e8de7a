import StageChain.Proofs.Preview.RunStructure
import StageChain.Source.Database

/-!
# The pages of a result

A source is faithful to the stages that a preview adds if what they are added to has some fixed
documents: it drops as many as it is told to skip, keeps at most as many as it is told to, and
counts them in one row, or in none if there are none. The pages that are fetched from such a source
tile the documents, whatever page size is asked for: `pages_tile`.
-/

namespace StageChain

/-! ## Pages of a list -/

namespace Paging

variable {α : Type} {pageSize : Int} {items : List α} {size number : Nat}

/-- The page size that is used, as a number of documents. -/
def pageLength (pageSize : Int) : Nat := (clampPageSize pageSize).toNat

/-- A page of some items; pages are numbered from zero. -/
def pageOf (items : List α) (size number : Nat) : List α := (items.drop (number * size)).take size

theorem pageLength_pos (pageSize : Int) : 0 < pageLength pageSize := by
  simp only [pageLength, clampPageSize, maxPageSize]
  omega

theorem clampPageSize_eq (pageSize : Int) : clampPageSize pageSize = pageLength pageSize := by
  simp only [pageLength, clampPageSize, maxPageSize]
  omega

theorem skipped_eq (pageSize : Int) (number : Nat) :
    skipped pageSize (number + 1) = (number * pageLength pageSize : Nat) := by
  rw [skipped, clampPageSize_eq, Int.add_sub_cancel, Int.natCast_mul]

theorem pageOf_ne_nil_iff (hsize : 0 < size) :
    pageOf items size number ≠ [] ↔ number * size < items.length := by
  rw [pageOf, ← List.length_pos_iff, List.length_take, List.length_drop]
  omega

/-- There is more after a page exactly if the page after it is not empty. -/
theorem hasMore_iff (pageSize : Int) (items : List α) (number : Nat) :
    hasMore pageSize (number + 1) (pageOf items (pageLength pageSize) number).length items.length =
        true ↔ pageOf items (pageLength pageSize) (number + 1) ≠ [] := by
  have hpos := pageLength_pos pageSize
  rw [pageOf_ne_nil_iff hpos, hasMore, skipped_eq, decide_eq_true_iff, pageOf, List.length_take,
    List.length_drop, Nat.succ_mul]
  omega

/-- What is left of the items from a page on begins with that page. -/
theorem pageOf_append_drop (items : List α) (size number : Nat) :
    pageOf items size number ++ items.drop ((number + 1) * size) = items.drop (number * size) := by
  rw [pageOf, Nat.succ_mul, ← List.drop_drop, List.take_append_drop]

end Paging

/-! ## Faithful sources -/

/-- The rows that count some documents: none if there are none. -/
def countRows (documents : List Value) : List Value :=
  if documents.isEmpty then [] else [.object [("total", .int documents.length)]]

theorem totalOf_countRows (documents : List Value) :
    Database.totalOf (countRows documents) = .ok documents.length := by
  cases documents with
  | nil => rfl
  | cons first rest => rfl

/-- The stages have some documents as their result, and the source is faithful to what a preview
adds to the stages. -/
structure Source.Yields (source : Source) (stages documents : List Value) : Prop where
  page : ∀ (collection : String) (skip limit : Nat), 0 < limit →
    source.documents ⟨.page, collection,
      stages ++ [.object [("$skip", .int skip)], .object [("$limit", .int limit)]]⟩ =
        .ok ((documents.drop skip).take limit)
  count : ∀ collection : String,
    source.total ⟨.count, collection, stages ++ [.object [("$count", .text "total")]]⟩ =
      (Database.totalOf (countRows documents)).map .int

theorem Source.Yields.documents_pageRead {source : Source} {stages documents : List Value}
    (h : source.Yields stages documents) (collection : String) (pageSize : Int) (number : Nat) :
    source.documents (Source.pageRead collection stages pageSize (number + 1)) =
      .ok (Paging.pageOf documents (Paging.pageLength pageSize) number) := by
  have hpage : max 1 ((number : Int) + 1) = number + 1 := by omega
  rw [Source.pageRead, Paging.pageStages, hpage, Paging.skipped_eq, Paging.clampPageSize_eq]
  exact h.page collection _ _ (Paging.pageLength_pos pageSize)

theorem Source.Yields.total_countRead {source : Source} {stages documents : List Value}
    (h : source.Yields stages documents) (collection : String) :
    source.total (Source.countRead collection stages) = .ok (.int documents.length) := by
  rw [Source.countRead, Paging.countStages, h.count collection, totalOf_countRows]
  rfl

/-- A source that is faithful to the same documents for all stages. -/
def Source.listing (documents : List Value) : Source where
  documents read :=
    match read.stages.reverse with
    | .object [("$limit", .int limit)] :: .object [("$skip", .int skip)] :: _ =>
      .ok ((documents.drop skip.toNat).take limit.toNat)
    | _ => .ok []
  total _ := (Database.totalOf (countRows documents)).map .int
  barrier _ := .open

theorem Source.yields_listing (documents stages : List Value) :
    (Source.listing documents).Yields stages documents where
  page := by
    intro collection skip limit _
    simp [Source.listing]
  count := fun _ => rfl

/-! ## Fetching pages -/

namespace Orchestrator

variable {o : Orchestrator} {pipeline : Pipeline} {results : Nat → List Value} {index number : Nat}
  {page : Int}

/-- Each prefix of a pipeline has a result, to which the source is faithful, and all reads end in
time. -/
structure Serves (o : Orchestrator) (pipeline : Pipeline) (results : Nat → List Value) : Prop where
  inTime : o.isInstant = false
  passes : ∀ index < pipeline.size,
    o.isOpen (o.source.barrier (pipeline.take (index + 1)).documents) = true
  yields : ∀ index < pipeline.size,
    o.source.Yields (pipeline.take (index + 1)).documents (results index)

/-- The result of a stage in a run of some page that is waited for. -/
def pageResult? (o : Orchestrator) (pipeline : Pipeline) (index : Nat) (page : Int) :
    Option StageResult :=
  match (o.afterPage pipeline page).ending? o.tasks.length with
  | some (.finished run) => run.results[index]?
  | _ => none

/-- To fetch the pages of a stage from some page on, until there are no more, gives some documents
in order. -/
inductive Fetches (pipeline : Pipeline) (index : Nat) : Orchestrator → Int → List Value → Prop where
  | last (o : Orchestrator) (page : Int) (result : StageResult)
      (hresult : o.pageResult? pipeline index page = some result) (hlast : result.hasMore = false) :
      Fetches pipeline index o page result.documents
  | more (o : Orchestrator) (page : Int) (result : StageResult) (rest : List Value)
      (hresult : o.pageResult? pipeline index page = some result) (hmore : result.hasMore = true)
      (hrest : Fetches pipeline index (o.afterPage pipeline page) (page + 1) rest) :
      Fetches pipeline index o page (result.documents ++ rest)

/-- Fetching has at most one outcome. -/
theorem Fetches.unique {first second : List Value} (hfirst : Fetches pipeline index o page first)
    (hsecond : Fetches pipeline index o page second) : first = second := by
  induction hfirst generalizing second with
  | last o page result hresult hlast =>
      cases hsecond with
      | last _ _ other hother => rw [Option.some.inj (hresult.symm.trans hother)]
      | more _ _ other _ hother hmore =>
          obtain rfl := Option.some.inj (hresult.symm.trans hother)
          cases hlast.symm.trans hmore
  | more o page result rest hresult hmore _ ih =>
      cases hsecond with
      | last _ _ other hother hlast =>
          obtain rfl := Option.some.inj (hresult.symm.trans hother)
          cases hlast.symm.trans hmore
      | more _ _ other _ hother _ hrest =>
          obtain rfl := Option.some.inj (hresult.symm.trans hother)
          rw [ih hrest]

namespace Serves

theorem answerAt_eq (h : o.Serves pipeline results) (hindex : index < pipeline.size) :
    o.answerAt pipeline (number + 1) index =
      .fetched (Paging.pageOf (results index) (Paging.pageLength o.pageSize) number)
        (results index).length := by
  have hyields := h.yields index hindex
  simp only [answerAt, readsFor, conclusionOf, h.inTime, h.passes index hindex,
    hyields.documents_pageRead, hyields.total_countRead]
  rfl

/-- A run of a page ends with a result for each stage, which is that page of its documents. The
orchestrator goes on to serve the pipeline. -/
theorem run_page (h : o.Serves pipeline results) (hreachable : o.Reachable) (number : Nat) :
    (o.afterPage pipeline (number + 1)).Serves pipeline results ∧
      (o.afterPage pipeline (number + 1)).Reachable ∧
      (o.afterPage pipeline (number + 1)).pageSize = o.pageSize ∧
      ∀ index < pipeline.size, o.pageResult? pipeline index (number + 1) =
        some ((o.requestAt pipeline (number + 1) index).fetched
          (Paging.pageOf (results index) (Paging.pageLength o.pageSize) number)
          (results index).length) := by
  have hpage : 1 ≤ (number : Int) + 1 := by omega
  obtain ⟨hawait, hended⟩ := hreachable.coherent.sourced_afterPage pipeline hpage
  obtain ⟨ending, hending⟩ := hended.resolve_right (hawait.not_hangs fun index hindex =>
    .inl (h.passes index hindex))
  obtain ⟨run, rfl⟩ := (hawait.concludes hending).exists_run fun index hindex crash hcrash => by
    rw [h.answerAt_eq hindex] at hcrash
    cases hcrash
  refine ⟨⟨hawait.isInstant_eq.trans h.inTime, ?_, ?_⟩, ?_, hawait.pageSize_eq, ?_⟩
  · intro index hindex
    rw [hawait.source_eq, hawait.isOpen_eq]
    exact h.passes index hindex
  · rw [hawait.source_eq]
    exact h.yields
  · exact (hreachable.performAll [.start pipeline (number + 1)]).await _
  · intro index hindex
    have hstructure := hawait.runStructure hending
    obtain ⟨hlength, -⟩ := hstructure.complete fun index hindex => by
      rw [h.answerAt_eq hindex]
      exact ⟨_, _, rfl⟩
    have hresult := List.getElem?_eq_getElem (hlength.symm ▸ hindex : index < run.results.length)
    obtain ⟨-, -, houtcome⟩ := hstructure.owner index _ hresult
    rw [h.answerAt_eq hindex] at houtcome
    rw [pageResult?, hending]
    exact hresult.trans (congrArg some (StageRequest.Outcome.result.inj houtcome).symm)

/-- From each page on, fetching gives the documents that are not on an earlier page. -/
theorem fetches_drop {o : Orchestrator} (h : o.Serves pipeline results) (hreachable : o.Reachable)
    (hindex : index < pipeline.size) (number : Nat) :
    Fetches pipeline index o (number + 1)
      ((results index).drop (number * Paging.pageLength o.pageSize)) := by
  have hpos := Paging.pageLength_pos o.pageSize
  obtain ⟨hserves, hafter, hsize, hresult⟩ := h.run_page hreachable number
  have hmore := Paging.hasMore_iff o.pageSize (results index) number
  rw [← Paging.pageOf_append_drop]
  by_cases hnext : Paging.pageOf (results index) (Paging.pageLength o.pageSize) (number + 1) = []
  · have hleft : (results index).drop ((number + 1) * Paging.pageLength o.pageSize) = [] := by
      rw [← Decidable.not_not (p := _ = []), ← ne_eq, Paging.pageOf_ne_nil_iff hpos] at hnext
      exact List.drop_eq_nil_iff.2 (Nat.not_lt.1 hnext)
    rw [hleft, List.append_nil]
    refine .last o _ _ (hresult index hindex) ?_
    exact Bool.eq_false_iff.2 fun htrue => hmore.1 htrue hnext
  · have hless := (Paging.pageOf_ne_nil_iff hpos).1 hnext
    have hrest := hserves.fetches_drop hafter hindex (number + 1)
    rw [hsize] at hrest
    exact .more o _ _ _ (hresult index hindex) (hmore.2 hnext) hrest
termination_by (results index).length - number * Paging.pageLength o.pageSize
decreasing_by
  rw [hsize, Nat.succ_mul]
  rw [Nat.succ_mul] at hless
  omega

end Serves

/-- Pages tile the result of a stage, whatever page size is asked for. A page says that there are
more documents exactly if the page after it has any; and to fetch pages from the first one on until
there are no more comes to an end, with all documents of the result in their order. -/
theorem pages_tile (hreachable : o.Reachable) (h : o.Serves pipeline results)
    (hindex : index < pipeline.size) :
    (∀ page, 1 ≤ page → ∃ result next, o.pageResult? pipeline index page = some result ∧
      (o.afterPage pipeline page).pageResult? pipeline index (page + 1) = some next ∧
      (result.hasMore = true ↔ next.documents ≠ [])) ∧
      ∀ documents, Fetches pipeline index o 1 documents ↔ documents = results index := by
  constructor
  · intro page hpage
    obtain ⟨number, rfl⟩ : ∃ number : Nat, page = number + 1 := ⟨(page - 1).toNat, by omega⟩
    obtain ⟨hserves, hafter, hsize, hresult⟩ := h.run_page hreachable number
    obtain ⟨-, -, -, hnext⟩ := hserves.run_page hafter (number + 1)
    refine ⟨_, _, hresult index hindex, hnext index hindex, ?_⟩
    rw [hsize]
    exact Paging.hasMore_iff o.pageSize (results index) number
  · have hall := h.fetches_drop hreachable hindex 0
    rw [Nat.zero_mul, List.drop_zero] at hall
    intro documents
    constructor
    · intro hfetches
      exact hfetches.unique hall
    · rintro rfl
      exact hall

/-- An orchestrator that shows two of three documents on a page. -/
def threeByTwo : Orchestrator where
  collection := "orders"
  pageSize := 2
  timeout := .infinite false
  source := .listing [.int 1, .int 2, .int 3]
  released := []
  generation := 0
  held := none
  tasks := []
  latest := none
  log := []
  events := []

theorem pages_tile_threeByTwo :
    threeByTwo.Reachable ∧ threeByTwo.Serves threeStages (fun _ => [.int 1, .int 2, .int 3]) ∧
      1 < threeStages.size ∧
      Fetches threeStages 1 threeByTwo 1 [.int 1, .int 2, .int 3] ∧
      (threeByTwo.pageResult? threeStages 1 1).map StageResult.documents =
        some [.int 1, .int 2] := by
  have hcreate : create "orders" 2 (.infinite false) (.listing [.int 1, .int 2, .int 3]) =
      .ok threeByTwo := rfl
  have hreachable : threeByTwo.Reachable := ⟨_, _, _, _, _, [], hcreate, rfl⟩
  have hserves : threeByTwo.Serves threeStages fun _ => [.int 1, .int 2, .int 3] :=
    ⟨rfl, fun _ _ => rfl, fun _ _ => Source.yields_listing _ _⟩
  have hindex : 1 < threeStages.size := by decide
  obtain ⟨-, htile⟩ := pages_tile hreachable hserves hindex
  exact ⟨hreachable, hserves, hindex, (htile _).2 rfl, rfl⟩

end Orchestrator

end StageChain
