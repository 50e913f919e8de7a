import StageChain.Pipeline.Basic
import StageChain.Snippet.Literal

/-!
# Snippets

A pipeline can be taken over into other programs as text in one of four formats: the bare stages,
code for the JavaScript driver, code for the shell, and Python code. A pipeline with an integer that
has too many digits to be written has no text in any format.
-/

namespace StageChain

/-- The formats of a snippet. -/
inductive SnippetFormat where
  | mql | driver | shell | python
deriving DecidableEq

namespace SnippetFormat

/-- All formats, in the order in which they are offered. -/
def all : List SnippetFormat := [mql, driver, shell, python]

/-- The name of a format. -/
def name : SnippetFormat → String
  | mql => "mql"
  | driver => "driver"
  | shell => "shell"
  | python => "python"

/-- The format with a name. -/
def ofName? (name : String) : Option SnippetFormat := all.find? (·.name == name)

/-- What is said about a name that no format has. -/
def unknownMessage (name : String) : String :=
  "Unknown export format '" ++ name ++ "'. Expected one of: " ++
    ", ".intercalate (all.map SnippetFormat.name)

end SnippetFormat

namespace Snippet

/-- The collection that stands for one that is not named. -/
def placeholder : String := "yourCollection"

/-- The collection that a snippet names. -/
def collectionName (collection : String) : String :=
  if collection.isEmpty then placeholder else collection

/-- Whether a character can start a plain name. -/
def isNameStart (c : Char) : Bool := c.isAlpha || c == '_' || c == '$'

/-- Whether a character can stand inside a plain name. -/
def isNamePart (c : Char) : Bool := isNameStart c || Text.isAsciiDigit c

/-- Whether a collection can be addressed by its plain name; a line break at the end is not looked
at. -/
def isPlainName : List Char → Bool
  | [] => false
  | c :: rest =>
    let left := rest.dropWhile isNamePart
    isNameStart c && (left == [] || left == ['\n'])

/-- A text literal in ASCII. -/
def textLiteral (text : String) : String := String.ofList (Json.writeText true text)

/-- The stages as a JavaScript array. -/
def stagesLiteral (pipeline : Pipeline) : Except WriteFault String :=
  Json.writeWithin false Json.indented (.list pipeline.documents)

/-- How the shell addresses a collection. -/
def shellTarget (collection : String) : String :=
  if isPlainName collection.toList then "db." ++ collection
  else "db.getCollection(" ++ textLiteral collection ++ ")"

/-- The bare stages as strict JSON. -/
def mql (pipeline : Pipeline) : Except WriteFault String :=
  Json.writeWithin true Json.indented (Json.extended (.list pipeline.documents))

/-- Code for the JavaScript driver. -/
def driver (pipeline : Pipeline) (collection : String) : Except WriteFault String := do
  let stages ← stagesLiteral pipeline
  .ok ("const pipeline = " ++ stages ++ ";\n\nconst cursor = db.collection(" ++
    textLiteral collection ++ ").aggregate(pipeline);\nconst results = await cursor.toArray();")

/-- Code for the shell. -/
def shell (pipeline : Pipeline) (collection : String) : Except WriteFault String := do
  let stages ← stagesLiteral pipeline
  .ok ("const pipeline = " ++ stages ++ ";\n\n" ++ shellTarget collection ++
    ".aggregate(pipeline);")

/-- Python code. -/
def python (pipeline : Pipeline) (collection : String) : Except WriteFault String := do
  let stages ← PythonLiteral.writeWithin (.list pipeline.documents)
  .ok ("pipeline = " ++ stages ++ "\n\nresults = list(db[" ++ textLiteral collection ++
    "].aggregate(pipeline))")

/-- The text of a pipeline in a format, for a collection that may be left open. -/
def render (format : SnippetFormat) (pipeline : Pipeline) (collection : String) :
    Except WriteFault String :=
  let collection := collectionName collection
  match format with
  | .mql => mql pipeline
  | .driver => driver pipeline collection
  | .shell => shell pipeline collection
  | .python => python pipeline collection

end Snippet

end StageChain
