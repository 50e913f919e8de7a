import StageChain.Proofs.Json.Extended
import StageChain.Proofs.Snippet.PythonReading

/-!
# Snippets are read back as the documents

The bare stages of a pipeline are strict JSON. Read back, they are the stage documents with objects
for the doubles that are not finite, so the documents themselves if all doubles are finite. The
array in the code for the JavaScript driver and for the shell is read back as the documents, in JSON
with words for such doubles: `isJson_snippets`. The expression in Python code is read back as the
documents too: `isPython_snippet`.

A pipeline with an integer of more than `Text.maxDigits` digits has none of these texts, since such
an integer is not written.
-/

namespace StageChain

/-- No object in the parameters of a stage repeats a key. -/
def Pipeline.WellFormed (pipeline : Pipeline) : Prop :=
  ∀ owned ∈ pipeline.stages, owned.stage.params.WellFormed

/-- No integer in the stages has too many digits to be written. -/
def Pipeline.IsWritable (pipeline : Pipeline) : Prop := (Value.list pipeline.documents).IsWritable

theorem Pipeline.WellFormed.documents {pipeline : Pipeline} (h : pipeline.WellFormed) :
    (Value.list pipeline.documents).WellFormed := by
  obtain ⟨stages, skipped⟩ := pipeline
  unfold Pipeline.documents
  induction stages with
  | nil => trivial
  | cons owned stages ih =>
      obtain ⟨hfirst, hrest⟩ := List.forall_mem_cons.1 h
      exact ⟨⟨List.nodup_singleton _, hfirst, trivial⟩, ih hrest⟩

namespace Snippet

open Json

/-- A pipeline that looks for a double that is not a number, next to the number one, the flag for
true and an infinity. -/
def unordered : Pipeline where
  stages := [⟨"n1", "$match", .object [("a", .object [("$in", .list
    [.float .nan, .int 1, .bool true, .float (.infinite true)])])]⟩]
  skipped := []

theorem wellFormed_unordered : unordered.WellFormed := by
  simp [Pipeline.WellFormed, unordered, Value.WellFormed, Value.ItemsWellFormed,
    Value.EntriesWellFormed, Entries.keys]

theorem isWritable_unordered : unordered.IsWritable := by
  intro n hn
  obtain rfl : n = 1 := by
    simpa [unordered, Pipeline.documents, CompiledStage.document, Value.leaves, Value.itemLeaves,
      Value.entryLeaves] using hn
  decide

/-- A limit with one digit more than are written. -/
def hugeLimit : Pipeline where
  stages := [⟨"n1", "$limit", .int (10 ^ Text.maxDigits)⟩]
  skipped := []

theorem wellFormed_hugeLimit : hugeLimit.WellFormed := by
  simp [Pipeline.WellFormed, hugeLimit, Value.WellFormed]

theorem not_isWritable_hugeLimit : ¬ hugeLimit.IsWritable := by
  intro h
  have hwritten := h (10 ^ Text.maxDigits) List.mem_cons_self
  rw [Bool.eq_false_iff] at hwritten
  exact hwritten (Text.exceedsDigits_iff.2 (by decide +kernel))

/-! ## JSON -/

/-- What the JSON in the snippets of a pipeline is read as. -/
structure IsJson (pipeline : Pipeline) : Prop where
  /-- The bare stages are strict JSON. They are the documents up to objects for doubles that are not
  finite, and the documents themselves exactly if there are no such doubles. -/
  stages : ∃ text documents, (∀ collection, render .mql pipeline collection = .ok text) ∧
    Json.read .strict text = .ok (.list documents) ∧
      AreExtended pipeline.documents documents ∧
        (documents = pipeline.documents ↔ (Value.list pipeline.documents).IsFinite)
  /-- The array in code is JSON with words for those doubles, and it is the documents. -/
  array : ∃ array, Json.read .extended array = .ok (.list pipeline.documents) ∧
    ∀ collection,
      render .driver pipeline collection =
        .ok ("const pipeline = " ++ array ++ ";\n\nconst cursor = db.collection(" ++
          textLiteral (collectionName collection) ++
          ").aggregate(pipeline);\nconst results = await cursor.toArray();") ∧
      render .shell pipeline collection =
        .ok ("const pipeline = " ++ array ++ ";\n\n" ++ shellTarget (collectionName collection) ++
          ".aggregate(pipeline);")

theorem stagesLiteral_of_isWritable {pipeline : Pipeline} (h : pipeline.IsWritable) :
    stagesLiteral pipeline = .ok (write indented (.list pipeline.documents)) :=
  writeWithin_of_isWritable indented h fun hstrict => nomatch hstrict

theorem stagesLiteral_of_not_isWritable {pipeline : Pipeline} (h : ¬ pipeline.IsWritable) :
    stagesLiteral pipeline = .error .overlong :=
  writeWithin_of_not_isWritable indented h fun hstrict => nomatch hstrict

theorem isJson_of_isWritable {pipeline : Pipeline} (hwf : pipeline.WellFormed)
    (hwritable : pipeline.IsWritable) : IsJson pipeline := by
  constructor
  case stages =>
    obtain ⟨text, htext, hread⟩ := exists_writeWithin_extended indented hwf.documents hwritable
    refine ⟨text, extendedItems pipeline.documents, fun _ => htext, hread,
      areExtended_extendedItems pipeline.documents, ?_⟩
    have hself := extended_eq_self_iff (.list pipeline.documents)
    rwa [extended, Value.list.injEq] at hself
  case array =>
    have harray := stagesLiteral_of_isWritable hwritable
    have hread : Json.read .extended (write indented (.list pipeline.documents)) =
        .ok (.list pipeline.documents) :=
      Json.read_write rfl indented hwf.documents fun h => nomatch h
    refine ⟨_, hread, fun collection => ⟨?_, ?_⟩⟩
    · simp only [render, driver, harray, bind, Except.bind]
    · simp only [render, shell, harray, bind, Except.bind]

/-- The formats whose text is JSON or holds it. -/
def jsonFormats : List SnippetFormat := [.mql, .driver, .shell]

theorem render_of_not_isWritable {pipeline : Pipeline} (h : ¬ pipeline.IsWritable)
    {format : SnippetFormat} (hformat : format ∈ jsonFormats) (collection : String) :
    render format pipeline collection = .error .overlong := by
  have harray := stagesLiteral_of_not_isWritable h
  simp only [jsonFormats, List.mem_cons, List.not_mem_nil, or_false] at hformat
  rcases hformat with rfl | rfl | rfl
  · exact writeWithin_of_not_isWritable indented (mt isWritable_extended_iff.1 h)
      fun _ => isFinite_extended _
  · simp only [render, driver, harray, bind, Except.bind]
  · simp only [render, shell, harray, bind, Except.bind]

/-- The JSON in snippets is read back as the documents. Where an integer has too many digits there
is no snippet. -/
theorem isJson_snippets (pipeline : Pipeline) (hwf : pipeline.WellFormed) :
    (pipeline.IsWritable → IsJson pipeline) ∧
      (¬ pipeline.IsWritable → ∀ format ∈ jsonFormats, ∀ collection,
        render format pipeline collection = .error .overlong) :=
  ⟨isJson_of_isWritable hwf, fun h _ => render_of_not_isWritable h⟩

/-- The doubles of `unordered` that are not finite are objects in the bare stages. -/
theorem isJson_snippets_unordered : unordered.WellFormed ∧ IsJson unordered ∧
    render .mql unordered "" = .ok (write indented (.list [.object [("$match", .object [("a",
      .object [("$in", .list
        [namedDouble "NaN", .int 1, .bool true, namedDouble "-Infinity"])])])]])) :=
  ⟨wellFormed_unordered, (isJson_snippets unordered wellFormed_unordered).1 isWritable_unordered,
    by decide +kernel⟩

/-- The bare stages of `hugeLimit` are not written. -/
theorem not_isJson_hugeLimit :
    hugeLimit.WellFormed ∧ (∀ collection, render .mql hugeLimit collection =
      .error .overlong) ∧ ¬ IsJson hugeLimit := by
  have hrefused : ∀ collection, render .mql hugeLimit collection = .error .overlong :=
    render_of_not_isWritable not_isWritable_hugeLimit List.mem_cons_self
  refine ⟨wellFormed_hugeLimit, hrefused, fun h => ?_⟩
  obtain ⟨text, -, htext, -⟩ := h.stages
  cases (hrefused "").symm.trans (htext "")

/-! ## Python -/

/-- What the Python code of a pipeline is read as: its expression is the documents. -/
def IsPython (pipeline : Pipeline) : Prop :=
  ∃ expression, PythonLiteral.read expression = some (.list pipeline.documents) ∧
    ∀ collection, render .python pipeline collection =
      .ok ("pipeline = " ++ expression ++ "\n\nresults = list(db[" ++
        textLiteral (collectionName collection) ++ "].aggregate(pipeline))")

theorem render_python_of_not_isWritable {pipeline : Pipeline} (h : ¬ pipeline.IsWritable)
    (collection : String) : render .python pipeline collection = .error .overlong := by
  have hfault := WriteFault.find?_eq_overlong h fun hstrict : false = true => nomatch hstrict
  simp only [render, python, PythonLiteral.writeWithin, hfault, bind, Except.bind]

/-- The expression in Python code is read back as the documents. Where an integer has too many
digits there is no code. -/
theorem isPython_snippet (pipeline : Pipeline) (hwf : pipeline.WellFormed) :
    (pipeline.IsWritable → IsPython pipeline) ∧
      (¬ pipeline.IsWritable → ∀ collection,
        render .python pipeline collection = .error .overlong) := by
  refine ⟨fun hwritable => ?_, render_python_of_not_isWritable⟩
  refine ⟨_, PythonLiteral.read_write hwf.documents, fun collection => ?_⟩
  have hfault := WriteFault.find?_eq_none hwritable fun hstrict : false = true => nomatch hstrict
  simp only [render, python, PythonLiteral.writeWithin, hfault, bind, Except.bind]

theorem isPython_snippet_unordered : unordered.WellFormed ∧ IsPython unordered :=
  ⟨wellFormed_unordered, (isPython_snippet unordered wellFormed_unordered).1 isWritable_unordered⟩

/-- There is no Python code for `hugeLimit`. -/
theorem not_isPython_hugeLimit :
    hugeLimit.WellFormed ∧ (∀ collection, render .python hugeLimit collection =
      .error .overlong) ∧ ¬ IsPython hugeLimit := by
  have hrefused : ∀ collection, render .python hugeLimit collection = .error .overlong :=
    render_python_of_not_isWritable not_isWritable_hugeLimit
  refine ⟨wellFormed_hugeLimit, hrefused, ?_⟩
  rintro ⟨expression, -, hcode⟩
  cases (hrefused "").symm.trans (hcode "")

end Snippet

end StageChain
