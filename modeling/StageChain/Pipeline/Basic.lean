import StageChain.Stage.Basic

/-!
# Pipelines

A pipeline is a list of compiled stages in order, each owned by a node, together with the nodes that
contributed none. Its prefixes are what a preview runs.
-/

namespace StageChain

/-- A compiled stage and the node that it comes from. -/
structure OwnedStage where
  owner : String
  stage : CompiledStage
deriving DecidableEq

/-- Owned stages in order, and the nodes that were left out. -/
structure Pipeline where
  stages : List OwnedStage
  skipped : List String
deriving DecidableEq

/-- Why a pipeline cannot be built or cut. -/
inductive PipelineFault where
  /-- The stages and the nodes are not equally many. -/
  | unowned
  /-- A length that no prefix has. -/
  | outside (length : Int) (size : Nat)
deriving DecidableEq

/-- What a fault says. -/
def PipelineFault.message : PipelineFault → String
  | unowned => "Every compiled stage needs exactly one owning node id."
  | outside length size =>
    "Prefix length " ++ String.ofList (Text.integerChars length) ++ " outside 0.." ++
      String.ofList (Nat.toDigits 10 size)

namespace Pipeline

/-- The pipeline without stages. -/
def empty : Pipeline := ⟨[], []⟩

instance : Inhabited Pipeline := ⟨empty⟩

/-- How many stages there are. -/
def size (pipeline : Pipeline) : Nat := pipeline.stages.length

/-- The owners of the stages, in order. -/
def nodeIds (pipeline : Pipeline) : List String := pipeline.stages.map (·.owner)

/-- Joins stages with their owners. -/
def ofLists (stages : List CompiledStage) (owners skipped : List String) :
    Except PipelineFault Pipeline :=
  if stages.length = owners.length then .ok ⟨owners.zipWith OwnedStage.mk stages, skipped⟩
  else .error .unowned

/-- The first stages; nodes that were left out are not kept. -/
def take (pipeline : Pipeline) (length : Nat) : Pipeline := ⟨pipeline.stages.take length, []⟩

/-- The first stages, if there are as many. -/
def upTo (pipeline : Pipeline) (length : Int) : Except PipelineFault Pipeline :=
  if length < 0 ∨ (pipeline.size : Int) < length then .error (.outside length pipeline.size)
  else .ok (pipeline.take length.toNat)

/-- The prefixes of length one and more, the shortest first. -/
def prefixes (pipeline : Pipeline) : List Pipeline :=
  (List.range pipeline.size).map fun index => pipeline.take (index + 1)

/-- The stage documents that a data source runs. -/
def documents (pipeline : Pipeline) : List Value := pipeline.stages.map (·.stage.document)

/-- The record of a pipeline in a report. -/
def toValue (pipeline : Pipeline) : Value :=
  .object [("stages", .list pipeline.documents), ("node_ids", .texts pipeline.nodeIds),
    ("skipped_node_ids", .texts pipeline.skipped)]

end Pipeline

end StageChain
