import StageChain.Json.Writer
import StageChain.Source.Paging
import StageChain.Text.Quoted
import StageChain.Value.Display

/-!
# Data sources

A `Source` answers two kinds of read: the documents of a page and the total of a result. A read may
have to wait at a `Barrier`. It fails by a refusal, which is shown on the stage that was run, or by
a crash, which ends the run. A total can be any value; `countOf` is the count that it comes to, if it
comes to one.
-/

namespace StageChain

/-- What the failure of a read that nothing provides for is. -/
inductive Crash where
  /-- A failure with its own message. -/
  | raised (message : String)
  /-- A count that is a text but no numeral. -/
  | notNumeral (text : String)
  /-- A count that is a text with more digits than are read. -/
  | overlongCount (numeral : Text.OverlongNumeral)
  /-- A count that is not a number. -/
  | nanCount
  /-- A count that is infinite. -/
  | infiniteCount
  /-- A count of a kind that has no number. -/
  | notCountable (kind : String)
  /-- A row of a count without a total. -/
  | noTotal
deriving DecidableEq

/-- A text between quotes, cut off after 200 characters. -/
def quotedStart (text : String) : String := String.ofList ((Text.quote text).toList.take 200)

/-- What a crash says. -/
def Crash.message : Crash → String
  | raised message => message
  | notNumeral text => "invalid literal for int() with base 10: " ++ quotedStart text
  | overlongCount numeral => numeral.message
  | nanCount => "cannot convert float NaN to integer"
  | infiniteCount => "cannot convert float infinity to integer"
  | notCountable kind =>
    "int() argument must be a string, a bytes-like object or a real number, not '" ++ kind ++ "'"
  | noTotal => "total"

/-- How a read fails. -/
inductive ReadFault where
  /-- The data source refused or did not answer; the message may be empty. -/
  | refused (message : String)
  /-- Something went wrong that nothing provides for. -/
  | crashed (crash : Crash)
deriving DecidableEq

/-- What a read has to wait for. -/
inductive Barrier where
  /-- Nothing. -/
  | open
  /-- The release of a gate. -/
  | gate (name : String)
  /-- Something that never happens. -/
  | closed
deriving DecidableEq

/-- The two kinds of read. -/
inductive ReadKind where
  | page | count
deriving DecidableEq

/-- A read: its kind, its collection and the stages that are run. -/
structure Read where
  kind : ReadKind
  collection : String
  stages : List Value
deriving DecidableEq

namespace Read

/-- The name of a kind of read. -/
def kindName : ReadKind → String
  | .page => "page"
  | .count => "count"

/-- The line that records a read. -/
def line (read : Read) : String :=
  kindName read.kind ++ " " ++ read.collection ++ " " ++
    Json.write Json.inline (.list read.stages)

end Read

/-- What answers the reads of a preview. -/
structure Source where
  /-- The documents of a page. -/
  documents : Read → Except ReadFault (List Value)
  /-- The total of a result, as it is answered. -/
  total : Read → Except ReadFault Value
  /-- What both reads of a prefix wait for, given the stages of the prefix. -/
  barrier : List Value → Barrier

namespace Source

/-- The source whose results are all empty. -/
def none : Source := ⟨fun _ => .ok [], fun _ => .ok (.int 0), fun _ => .open⟩

instance : Inhabited Source := ⟨none⟩

/-- The read of a page. -/
def pageRead (collection : String) (stages : List Value) (pageSize page : Int) : Read :=
  ⟨.page, collection, Paging.pageStages stages pageSize page⟩

/-- The read of a count. -/
def countRead (collection : String) (stages : List Value) : Read :=
  ⟨.count, collection, Paging.countStages stages⟩

end Source

/-- The count that a total comes to: fractions are dropped, numerals are read. -/
def countOf : Value → Except ReadFault Int
  | .int n => .ok n
  | .bool b => .ok (if b then 1 else 0)
  | .float .nan => .error (.crashed .nanCount)
  | .float x =>
    match x.truncate? with
    | some n => .ok n
    | none => .error (.crashed .infiniteCount)
  | .text text =>
    match Text.liberalInt text with
    | .ok n => .ok n
    | .error .notNumeral => .error (.crashed (.notNumeral text))
    | .error (.overlong numeral) => .error (.crashed (.overlongCount numeral))
  | value => .error (.crashed (.notCountable value.kindName))

end StageChain
