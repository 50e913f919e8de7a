import StageChain.Stage.Amount
import StageChain.Stage.Filter
import StageChain.Stage.Grouping
import StageChain.Stage.Ordering
import StageChain.Stage.Relation
import StageChain.Stage.Shape

/-!
# The catalog of stages

`StageKind` lists the kinds of stage, each with its type name, its description and the configuration
of a new node. `compileStage` compiles a configuration for a type name.
-/

namespace StageChain

/-- The kinds of stage. -/
inductive StageKind where
  | filter | group | project | sort | limit | skip | unwind | lookup | addFields | count
deriving DecidableEq

/-- How a kind of stage is presented. -/
structure StageDefinition where
  type : String
  name : String
  category : String
  description : String
  defaultConfig : Value

namespace StageKind

/-- All kinds, in the order of the catalog. -/
def all : List StageKind :=
  [filter, group, project, sort, limit, skip, unwind, lookup, addFields, count]

/-- The presentation of a kind. -/
def definition : StageKind → StageDefinition
  | filter => ⟨"$match", "Match", "filter", "Filter documents that match specified conditions",
      .object [("conditions", .list [])]⟩
  | group => ⟨"$group", "Group", "transform",
      "Group documents by specified expression and apply accumulators",
      .object [("_id", .null), ("accumulators", .list [])]⟩
  | project => ⟨"$project", "Project", "shape",
      "Reshape documents by including, excluding, or adding fields",
      .object [("fields", .list [.object [("name", .text "_id"), ("mode", .text "include")]])]⟩
  | sort => ⟨"$sort", "Sort", "shape", "Sort documents by specified field(s)",
      .object [("fields", .list [])]⟩
  | limit => ⟨"$limit", "Limit", "shape",
      "Limit the number of documents passed to the next stage", .object [("limit", .int 10)]⟩
  | skip => ⟨"$skip", "Skip", "shape", "Skip a specified number of documents",
      .object [("skip", .int 0)]⟩
  | unwind => ⟨"$unwind", "Unwind", "transform",
      "Deconstruct an array field to output a document for each element",
      .object [("path", .text "")]⟩
  | lookup => ⟨"$lookup", "Lookup", "join", "Perform a left outer join with another collection",
      .object [("from", .text ""), ("localField", .text ""), ("foreignField", .text ""),
        ("as", .text "joined")]⟩
  | addFields => ⟨"$addFields", "Add Fields", "transform",
      "Add new fields or modify existing fields", .object [("fields", .list [])]⟩
  | count => ⟨"$count", "Count", "shape", "Return a count of documents",
      .object [("count", .text "total")]⟩

/-- The kind with a type name. -/
def ofType? (type : String) : Option StageKind := all.find? fun kind => kind.definition.type == type

/-- The kinds of a category. -/
def ofCategory (category : String) : List StageKind :=
  all.filter fun kind => kind.definition.category == category

/-- Compiles a configuration for a kind. -/
def compile : StageKind → Value → Except Refusal CompiledStage
  | filter => Filter.compile
  | group => Grouping.compile
  | project => Projection.compile
  | sort => Ordering.compile
  | limit => Amount.compile "limit"
  | skip => Amount.compile "skip"
  | unwind => Unwind.compile
  | lookup => Join.compile
  | addFields => Addition.compile
  | count => Tally.compile

end StageKind

/-- Compiles a configuration for a type name. -/
def compileStage (type : String) (config : Value) : Except Refusal CompiledStage :=
  match StageKind.ofType? type with
  | some kind => kind.compile config
  | none => .error (.invalid (.unknownType type))

end StageChain
