import StageChain.Proofs.Double.Integers
import StageChain.Proofs.Pipeline.Compilation
import StageChain.Proofs.Snippet.JavaScriptReading
import StageChain.Proofs.Snippet.ReadBack
import StageChain.Proofs.Stage.WellFormed

/-!
# Integers in JavaScript code

The code for the JavaScript driver and for the shell declares the pipeline as a constant. Its value
is what JavaScript makes of the documents: every integer is rounded to a double, and what stands
under the key `__proto__` is no part of it. So an integer of the documents is found again, in its
place, exactly if it is a double and no key on the way to it is `__proto__`:
`Graph.declared_of_compile`. There is no code if an integer has too many digits to be written.
-/

namespace StageChain

/-! ## Places in a value -/

namespace Value

/-- One step into a value: to an item of a list or to an entry of an object. -/
inductive Step where
  | item (index : Nat)
  | entry (key : String)
deriving DecidableEq

/-- The part of a value that a step leads to. -/
def step? : Step → Value → Option Value
  | .item index, .list items => items[index]?
  | .entry key, .object entries => Entries.get? key entries
  | _, _ => none

/-- The part of a value at a place. -/
def at? : List Step → Value → Option Value
  | [], value => some value
  | step :: place, value => (step? step value).bind (at? place)

/-- At a place there is a double, and it is the integer. -/
def HoldsAt (value : Value) (place : List Step) (n : Int) : Prop :=
  ∃ x, value.at? place = some (.float x) ∧ x.toInt? = some n

end Value

namespace JavaScript

variable {value other part : Value} {items others : List Value}
  {entries replaced : List (String × Value)} {key : String} {step : Value.Step}
  {place : List Value.Step} {index : Nat} {n : Int}

theorem AreEvaluated.getElem? (h : AreEvaluated items others) (hpart : items[index]? = some part) :
    ∃ found, others[index]? = some found ∧ Evaluates part found := by
  induction items generalizing others index with
  | nil => cases hpart
  | cons item items ih =>
      cases h with
      | cons hitem hitems =>
          cases index with
          | zero =>
              cases hpart
              exact ⟨_, rfl, hitem⟩
          | succ index =>
              rw [List.getElem?_cons_succ] at hpart ⊢
              exact ih hitems hpart

theorem EntriesEvaluate.get? (h : EntriesEvaluate entries replaced)
    (hpart : Entries.get? key entries = some part) :
    ∃ found, Entries.get? key replaced = some found ∧ Evaluates part found := by
  induction entries generalizing replaced with
  | nil => cases hpart
  | cons entry entries ih =>
      cases h with
      | cons first hvalue hentries =>
          unfold Entries.get? at ih hpart ⊢
          rw [List.lookup_cons] at hpart ⊢
          split at hpart
          · cases hpart
            exact ⟨_, rfl, hvalue⟩
          · exact ih hentries hpart

/-- Steps lead to the same parts, except to what is given to the prototype. -/
theorem Evaluates.step? (h : Evaluates value other) (hpart : value.step? step = some part)
    (hstep : step ≠ .entry prototypeKey) :
    ∃ found, other.step? step = some found ∧ Evaluates part found := by
  cases h with
  | null | bool | int | float | text => cases step <;> cases hpart
  | list hitems =>
      cases step with
      | item index => exact hitems.getElem? hpart
      | entry key => cases hpart
  | object hentries =>
      cases step with
      | item index => cases hpart
      | entry key =>
          obtain ⟨found, hfound, hevaluated⟩ := hentries.get? hpart
          have hkey : key ≠ prototypeKey := fun hkey => hstep (congrArg Value.Step.entry hkey)
          refine ⟨found, ?_, hevaluated⟩
          simp only [Value.step?]
          rw [Entries.get?_erase, if_neg hkey, hfound]

/-- Nothing is named like the prototype. -/
theorem Evaluates.step?_prototype (h : Evaluates value other) :
    other.step? (.entry prototypeKey) = none := by
  cases h with
  | null | bool | int | float | text | list => rfl
  | object hentries =>
      simp only [Value.step?]
      rw [Entries.get?_erase, if_pos rfl]

/-- At every place that is not under the prototype there is what the part there is evaluated to. -/
theorem Evaluates.at? (h : Evaluates value other) (hpart : value.at? place = some part)
    (hplace : .entry prototypeKey ∉ place) :
    ∃ found, other.at? place = some found ∧ Evaluates part found := by
  induction place generalizing value other with
  | nil =>
      cases hpart
      exact ⟨other, rfl, h⟩
  | cons step place ih =>
      rw [List.mem_cons, not_or] at hplace
      obtain ⟨next, hnext, hpart⟩ := Option.bind_eq_some_iff.1 hpart
      obtain ⟨found, hfound, hevaluated⟩ := h.step? hnext (Ne.symm hplace.1)
      simp only [Value.at?, hfound, Option.bind_some]
      exact ih hevaluated hpart hplace.2

/-- There is nothing at the places under the prototype. -/
theorem Evaluates.at?_prototype (h : Evaluates value other) (hpart : value.at? place = some part)
    (hplace : .entry prototypeKey ∈ place) : other.at? place = none := by
  induction place generalizing value other with
  | nil => cases hplace
  | cons step place ih =>
      by_cases hstep : step = .entry prototypeKey
      · simp only [Value.at?, hstep, h.step?_prototype, Option.bind_none]
      · obtain ⟨next, hnext, hpart⟩ := Option.bind_eq_some_iff.1 hpart
        obtain ⟨found, hfound, hevaluated⟩ := h.step? hnext hstep
        simp only [Value.at?, hfound, Option.bind_some]
        exact ih hevaluated hpart ((List.mem_cons.1 hplace).resolve_left (Ne.symm hstep))

/-- An integer is evaluated to the double nearest to it. -/
theorem Evaluates.exists_of_int (h : Evaluates (.int n) other) :
    ∃ negative, Text.signed negative n.natAbs = n ∧
      other = .float (Double.ofDecimal negative n.natAbs 0) := by
  cases h with
  | int negative size => exact ⟨negative, by rw [Text.natAbs_signed], by rw [Text.natAbs_signed]⟩

/-- Evaluation keeps an integer exactly if it is a double and does not stand under the prototype. -/
theorem Evaluates.holdsAt_iff (h : Evaluates value other)
    (hpart : value.at? place = some (.int n)) :
    other.HoldsAt place n ↔ .entry prototypeKey ∉ place ∧ Double.Holds n := by
  by_cases hplace : .entry prototypeKey ∈ place
  · have hnone := h.at?_prototype hpart hplace
    simp [Value.HoldsAt, hnone, hplace]
  · obtain ⟨found, hfound, hevaluated⟩ := h.at? hpart hplace
    obtain ⟨negative, hsigned, rfl⟩ := hevaluated.exists_of_int
    simp [Value.HoldsAt, hfound, hplace, Double.toInt?_ofDecimal_iff hsigned]

/-- A constant that is given the JSON text of a value has what the value is evaluated to. -/
theorem exists_constant?_write (style : Json.Style) (hwf : value.WellFormed)
    (name after : String) :
    ∃ other, constant? name ("const " ++ name ++ " = " ++ Json.write style value ++ ";" ++ after) =
      some other ∧ Evaluates value other := by
  have hprefix : ("const " ++ name ++ " = ").toList.isPrefixOf?
      ("const " ++ name ++ " = " ++ Json.write style value ++ ";" ++ after).toList =
      some (Json.writeAt style 0 value ++ ';' :: after.toList) := by
    rw [List.isPrefixOf?_eq_some_iff_append_eq]
    simp [Json.write]
  have hfuel : (Json.writeAt style 0 value).length <
      2 * (Json.writeAt style 0 value ++ ';' :: after.toList).length + 2 := by
    rw [List.length_append]
    omega
  have hfinite : Json.Dialect.extended.nonFinite = false → value.IsFinite := by
    intro h
    cases h
  have hread := Json.readValue_writeAt (rfl : Json.Dialect.extended.limited = false) style value hwf
    hfinite hfuel (.cons (by decide) : Json.EndsNumber (';' :: after.toList))
  obtain ⟨other, hother, hevaluated⟩ := readValue_of_json hread
  refine ⟨other, ?_, hevaluated⟩
  simp only [constant?, hprefix, Option.bind_eq_bind, Option.bind_some,
    Json.skipSpace_of_readValue hread, hother]
  rfl

end JavaScript

/-! ## Compiled pipelines -/

/-- No object in the pipeline of a graph repeats a key, if none in the configurations does. -/
theorem Graph.wellFormed_of_compile {graph : Graph} {order : List String} {pipeline : Pipeline}
    (hwf : ∀ node ∈ graph.nodes.values, node.config.WellFormed)
    (h : graph.compile = .ok ⟨order, .ok pipeline⟩) : pipeline.WellFormed := by
  intro owned howned
  obtain ⟨index, hindex⟩ := List.mem_iff_getElem?.1 howned
  have hstage := (isPipelineOf_of_compile h).2.stage index owned hindex
  cases hnode : graph.nodes.get? owned.owner with
  | none => simp [stageOf, stageAt, hnode] at hstage
  | some node =>
      rw [stageOf_of_get? hnode] at hstage
      have hmem : node ∈ graph.nodes.values :=
        List.mem_map.2 ⟨_, OrderedMap.mem_entries_iff.2 hnode, rfl⟩
      exact ensures_compileStage node.stageType (hwf node hmem) _ (Option.some.inj hstage)

/-- What JavaScript code makes of a pipeline that it declares. -/
structure Pipeline.Declared (pipeline : Pipeline) (code : String) (value : Value) : Prop where
  constant : JavaScript.constant? "pipeline" code = some value
  evaluates : JavaScript.Evaluates (.list pipeline.documents) value
  /-- An integer is kept exactly if it is a double and does not stand under the prototype. -/
  holdsAt_iff : ∀ place n, (Value.list pipeline.documents).at? place = some (.int n) →
    (value.HoldsAt place n ↔ .entry JavaScript.prototypeKey ∉ place ∧ Double.Holds n)

namespace Snippet

/-- The declaration of a pipeline as a constant, if its integers can be written. -/
def declaration (pipeline : Pipeline) : Except WriteFault String :=
  (stagesLiteral pipeline).map fun stages => "const pipeline = " ++ stages ++ ";"

theorem exists_driver_eq (pipeline : Pipeline) (collection : String) :
    ∃ after, driver pipeline collection = (declaration pipeline).map (· ++ after) := by
  have hend : ";\n\nconst cursor = db.collection(" =
      ";" ++ "\n\nconst cursor = db.collection(" := by decide +kernel
  refine ⟨"\n\nconst cursor = db.collection(" ++ (textLiteral collection ++
    ").aggregate(pipeline);\nconst results = await cursor.toArray();"), ?_⟩
  unfold driver declaration
  cases stagesLiteral pipeline with
  | error fault => rfl
  | ok stages =>
      rw [hend]
      simp only [Except.map, bind, Except.bind, String.append_assoc]

theorem shell_eq (pipeline : Pipeline) (collection : String) :
    shell pipeline collection = (declaration pipeline).map
      (· ++ "\n\n" ++ shellTarget collection ++ ".aggregate(pipeline);") := by
  have hend : ";\n\n" = ";" ++ "\n\n" := by decide +kernel
  unfold shell declaration
  cases stagesLiteral pipeline with
  | error fault => rfl
  | ok stages =>
      rw [hend]
      simp only [Except.map, bind, Except.bind, String.append_assoc]

/-- The formats whose code declares the pipeline. -/
def codeFormats : List SnippetFormat := [.driver, .shell]

/-- Code for the driver and for the shell starts with the declaration. -/
theorem exists_render_eq {format : SnippetFormat} (hformat : format ∈ codeFormats)
    (pipeline : Pipeline) (collection : String) :
    ∃ after, render format pipeline collection = (declaration pipeline).map (· ++ after) := by
  rw [codeFormats, List.mem_cons, List.mem_singleton] at hformat
  rcases hformat with rfl | rfl
  · exact exists_driver_eq pipeline (collectionName collection)
  · refine ⟨"\n\n" ++ (shellTarget (collectionName collection) ++ ".aggregate(pipeline);"), ?_⟩
    simp only [render, shell_eq, String.append_assoc]

end Snippet

/-- Code declares every pipeline that repeats no key and whose integers can be written. -/
theorem Pipeline.WellFormed.exists_declared {pipeline : Pipeline} (hwf : pipeline.WellFormed)
    (hwritable : pipeline.IsWritable) {format : SnippetFormat}
    (hformat : format ∈ Snippet.codeFormats) (collection : String) :
    ∃ code value,
      Snippet.render format pipeline collection = .ok code ∧ pipeline.Declared code value := by
  obtain ⟨after, hcode⟩ := Snippet.exists_render_eq hformat pipeline collection
  obtain ⟨value, hconstant, hevaluates⟩ :=
    JavaScript.exists_constant?_write Json.indented hwf.documents "pipeline" after
  have hname : "const " ++ "pipeline" ++ " = " = "const pipeline = " := by decide +kernel
  rw [hname] at hconstant
  rw [Snippet.declaration, Snippet.stagesLiteral_of_isWritable hwritable] at hcode
  exact ⟨_, value, hcode, hconstant, hevaluates, fun _ _ => hevaluates.holdsAt_iff⟩

namespace Graph

variable {graph : Graph} {order : List String} {pipeline : Pipeline}

/-- The code of a compiled pipeline declares it, and keeps the integers that are doubles. There is
code unless an integer has too many digits to be written. -/
theorem declared_of_compile (hwf : ∀ node ∈ graph.nodes.values, node.config.WellFormed)
    (hcompile : graph.compile = .ok ⟨order, .ok pipeline⟩) :
    ∀ format ∈ Snippet.codeFormats, ∀ collection,
      (pipeline.IsWritable → ∃ code value,
        Snippet.render format pipeline collection = .ok code ∧ pipeline.Declared code value) ∧
      (¬ pipeline.IsWritable → Snippet.render format pipeline collection = .error .overlong) := by
  intro format hformat collection
  refine ⟨fun hwritable => ?_, fun hwritable => ?_⟩
  · exact (wellFormed_of_compile hwf hcompile).exists_declared hwritable hformat collection
  · exact Snippet.render_of_not_isWritable hwritable (List.mem_cons_of_mem _ hformat) collection

/-- The pipeline of a single limit. -/
def limitPipeline (n : Int) : Pipeline := ⟨[⟨"limit", "$limit", .int n⟩], []⟩

/-- Where the limit is in the documents. -/
def limitPlace : List Value.Step := [.item 0, .entry "$limit"]

theorem wellFormed_limitNode (n : Int) :
    ∀ node ∈ (single (limitNode (.int n))).nodes.values, node.config.WellFormed := by
  intro node hnode
  obtain rfl : node = limitNode (.int n) := List.mem_singleton.1 hnode
  exact Value.wellFormed_single "limit" trivial

theorem isWritable_limitPipeline {n : Int} (h : Text.exceedsDigits n = false) :
    (limitPipeline n).IsWritable := by
  intro m hm
  obtain rfl : m = n := by
    simpa [limitPipeline, Pipeline.documents, CompiledStage.document, Value.leaves,
      Value.itemLeaves, Value.entryLeaves] using hm
  exact h

theorem declared_limitFive :
    (single (limitNode (.int 5))).compile = .ok ⟨["limit"], .ok (limitPipeline 5)⟩ ∧
      ∃ code value, Snippet.render .driver (limitPipeline 5) "orders" = .ok code ∧
        (limitPipeline 5).Declared code value ∧ value.HoldsAt limitPlace 5 := by
  have hcompile : (single (limitNode (.int 5))).compile = .ok ⟨["limit"], .ok (limitPipeline 5)⟩ :=
    compile_single_of_ok rfl
  obtain ⟨code, value, hcode, hdeclared⟩ :=
    (declared_of_compile (wellFormed_limitNode 5) hcompile .driver (by decide) "orders").1
      (isWritable_limitPipeline (by decide +kernel))
  refine ⟨hcompile, code, value, hcode, hdeclared, (hdeclared.holdsAt_iff limitPlace 5 rfl).2 ?_⟩
  exact ⟨by decide, Double.holds_of_natAbs_le (by decide)⟩

/-- The limit `2 ^ 53 + 1` is one less in the code of its pipeline. -/
theorem rounded_limit :
    (single (limitNode (.int 9007199254740993))).compile =
        .ok ⟨["limit"], .ok (limitPipeline 9007199254740993)⟩ ∧
      ∃ code value, Snippet.render .driver (limitPipeline 9007199254740993) "" = .ok code ∧
        JavaScript.constant? "pipeline" code = some value ∧
          ¬ value.HoldsAt limitPlace 9007199254740993 ∧
            value.HoldsAt limitPlace 9007199254740992 := by
  have hcompile : (single (limitNode (.int 9007199254740993))).compile =
      .ok ⟨["limit"], .ok (limitPipeline 9007199254740993)⟩ := compile_single_of_ok rfl
  have hwf := wellFormed_of_compile (wellFormed_limitNode _) hcompile
  obtain ⟨code, value, hcode, hdeclared⟩ :=
    hwf.exists_declared (isWritable_limitPipeline (by decide +kernel))
      (by decide : SnippetFormat.driver ∈ Snippet.codeFormats) ""
  refine ⟨hcompile, code, value, hcode, hdeclared.constant, ?_, ?_⟩
  · rw [hdeclared.holdsAt_iff limitPlace _ rfl]
    rintro ⟨-, hholds⟩
    exact Double.not_holds_of_odd (by decide) (by decide) hholds
  · have hplace : .entry JavaScript.prototypeKey ∉ limitPlace := by decide
    obtain ⟨found, hfound, hevaluated⟩ := hdeclared.evaluates.at? rfl hplace
    obtain ⟨negative, hsigned, rfl⟩ := hevaluated.exists_of_int
    refine ⟨_, hfound, ?_⟩
    cases negative with
    | true => cases hsigned
    | false => decide +kernel

end Graph

end StageChain
