import StageChain.Double.Rounding
import StageChain.Snippet.Format

/-!
# Command-line arguments

A command line is a command, a graph file and options. An option may be shortened as long as it is
not ambiguous, and its value is the next word or follows after an equals sign, where two dashes
stand for no value. The single letter of help may be followed only by itself. A word that names no
option is an argument if it looks like a negative number or holds a space. `Request.ofWords` reads a
command line or says that help was asked for or that it was misused.
-/

namespace StageChain

/-- Why a command line gives nothing to do. -/
inductive UsageStop where
  | help
  | misuse
deriving DecidableEq

/-- The exit code of a command line that gives nothing to do. -/
def UsageStop.exitCode : UsageStop → Nat
  | help => 0
  | misuse => 2

/-- The commands. -/
inductive CommandName where
  | compile | snippet | run
deriving DecidableEq

/-- What an option sets. -/
inductive OptionKey where
  | help | format | collection | uri | database | pageSize | timeout | page
deriving DecidableEq

/-- What a command line asks for. -/
structure Request where
  command : CommandName
  graph : String
  /-- The format of a snippet, unless it was given as no value. -/
  format : Option SnippetFormat
  collection : String
  uri : String
  database : String
  /-- The page size; zero stands for the one of the settings. -/
  pageSize : Int
  /-- The time that a stage may take; zero stands for the one of the settings. -/
  timeout : Double
  /-- The page, unless it was given as no value. -/
  page : Option Int

/-- The options of a command line by their names. -/
abbrev OptionTable := List (String × OptionKey)

/-- How a word names an option: in full, with a value after an equals sign, or with characters after
its single letter. -/
inductive Attached where
  | nothing
  | value (text : String)
  | letters (chars : List Char)
deriving DecidableEq

/-- What a word of a command line is. -/
inductive Word where
  | argument (text : String)
  | separator
  | option (key : OptionKey) (name : String) (attached : Attached)
  | unknownOption
deriving DecidableEq

namespace OptionTable

/-- The options that every command line has. -/
def general : OptionTable := [("-h", .help), ("--help", .help)]

/-- The options of a command. -/
def ofCommand : CommandName → OptionTable
  | .compile => general
  | .snippet => general ++ [("--format", .format), ("--collection", .collection)]
  | .run => general ++ [("--uri", .uri), ("--database", .database), ("--collection", .collection),
      ("--page-size", .pageSize), ("--timeout", .timeout), ("--page", .page)]

/-- The part of a word before its first equals sign and, if it has one, the part after it. -/
def splitEquals (chars : List Char) : List Char × Option (List Char) :=
  (chars.takeWhile (· != '='), (chars.dropWhile (· != '=')).tail?)

/-- What an equals sign attaches. -/
def attachedOf : Option (List Char) → Attached
  | some chars => .value (String.ofList chars)
  | none => .nothing

/-- The options that a word can be short for. -/
def candidates (table : OptionTable) (chars : List Char) : List Word :=
  match chars with
  | '-' :: '-' :: _ =>
    let (start, value) := splitEquals chars
    (table.filter fun entry => start.isPrefixOf entry.1.toList).map fun entry =>
      .option entry.2 entry.1 (attachedOf value)
  | _ =>
    (table.filter fun entry => entry.1.toList == chars.take 2).map fun entry =>
      .option entry.2 entry.1 (.letters (chars.drop 2))

/-- Whether a word looks like a negative number: digits of any script after a minus, with at most
one point and a digit after it. A line break at the end is not looked at. -/
def looksNegative (chars : List Char) : Bool :=
  let isDigit (c : Char) : Bool := (Text.decimalDigit? c).isSome
  let size := chars.tail
  let size := if size.getLast? == some '\n' then size.dropLast else size
  match size.dropWhile isDigit with
  | [] => !size.isEmpty
  | '.' :: places => !places.isEmpty && places.all isDigit
  | _ => false

/-- What a word is that starts with a minus and names no option in full. -/
def guess (table : OptionTable) (word : String) : Except UsageStop Word :=
  match table.candidates word.toList with
  | [option] => .ok option
  | [] =>
    if looksNegative word.toList || word.toList.contains ' ' then .ok (.argument word)
    else .ok .unknownOption
  | _ => .error .misuse

/-- What a word is. -/
def classify (table : OptionTable) (word : String) : Except UsageStop Word :=
  let (start, value) := splitEquals word.toList
  if word.toList.head? != some '-' then .ok (.argument word)
  else
    match table.lookup word, table.lookup (String.ofList start) with
    | some key, _ => .ok (.option key word .nothing)
    | none, some key => .ok (.option key (String.ofList start) (attachedOf value))
    | none, none => if word == "-" then .ok (.argument word) else table.guess word

/-- What the words are; after a separator all words are arguments. -/
def classifyAll (table : OptionTable) : List String → Except UsageStop (List Word)
  | [] => .ok []
  | "--" :: rest => .ok (.separator :: rest.map .argument)
  | word :: rest => do
    let first ← table.classify word
    let others ← table.classifyAll rest
    .ok (first :: others)

end OptionTable

namespace Request

/-- What the characters after the help letter lead to: help, if all of them repeat the letter. -/
def helpLetters (chars : List Char) : UsageStop := if chars.all (· == 'h') then .help else .misuse

/-- What the help option leads to, given its name. A value after an equals sign counts as more
characters after the letter, but there has to be one. -/
def helpStop (name : String) : Attached → UsageStop
  | .nothing => .help
  | .value text => if name == "-h" && !text.isEmpty then helpLetters text.toList else .misuse
  | .letters chars => helpLetters chars

/-- The page that a text names. -/
def pageOf? (text : String) : Option Int := (Text.liberalInt? text).filter (1 ≤ ·)

/-- Gives an option a value, unless it is not allowed. -/
def set? (request : Request) (key : OptionKey) (value : String) : Option Request :=
  match key with
  | .help => none
  | .format =>
    (SnippetFormat.ofName? value).map fun format => { request with format := some format }
  | .collection => some { request with collection := value }
  | .uri => some { request with uri := value }
  | .database => some { request with database := value }
  | .pageSize => (Text.liberalInt? value).map fun size => { request with pageSize := size }
  | .timeout => (Double.ofText? value).map fun timeout => { request with timeout := timeout }
  | .page => (pageOf? value).map fun page => { request with page := some page }

/-- Takes the value of an option away. -/
def unset (request : Request) : OptionKey → Request
  | .help => request
  | .format => { request with format := none }
  | .collection => { request with collection := "" }
  | .uri => { request with uri := "" }
  | .database => { request with database := "" }
  | .pageSize => { request with pageSize := 0 }
  | .timeout => { request with timeout := .zero }
  | .page => { request with page := none }

/-- Gives an option the value after its equals sign, where two dashes stand for none. -/
def attach? (request : Request) (key : OptionKey) (value : String) : Option Request :=
  if value = "--" then some (request.unset key) else request.set? key value

/-- A command line as far as it has been read. -/
structure Draft where
  request : Request
  /-- Whether the graph file has been named. -/
  hasGraph : Bool
  /-- Whether there was a word that has no place. -/
  hasExtra : Bool

/-- Takes over a request, unless a value was not allowed. -/
def Draft.take (draft : Draft) : Option Request → Except UsageStop Draft
  | some request => .ok { draft with request := request }
  | none => .error .misuse

/-- Names the graph file in a draft. -/
def Draft.setGraph (draft : Draft) (graph : String) : Draft :=
  { draft with request := { draft.request with graph := graph }, hasGraph := true }

/-- Notes a word that has no place. -/
def Draft.addExtra (draft : Draft) : Draft := { draft with hasExtra := true }

/-- Reads the words after the command. A separator is dropped next to the graph file. -/
def readWords (draft : Draft) : List Word → Except UsageStop Draft
  | [] => .ok draft
  | .unknownOption :: rest => readWords draft.addExtra rest
  | .option .help name attached :: _ => .error (helpStop name attached)
  | .option key _ (.value value) :: rest => do
    readWords (← draft.take (draft.request.attach? key value)) rest
  | .option key _ .nothing :: .argument value :: rest => do
    readWords (← draft.take (draft.request.set? key value)) rest
  | .option _ _ _ :: _ => .error .misuse
  | .separator :: .argument word :: rest =>
    if draft.hasGraph then readWords draft.addExtra rest
    else readWords (draft.setGraph word) rest
  | .separator :: rest => readWords draft.addExtra rest
  | .argument word :: .separator :: rest =>
    if draft.hasGraph then readWords draft.addExtra rest
    else readWords (draft.setGraph word) rest
  | .argument word :: rest =>
    if draft.hasGraph then readWords draft.addExtra rest
    else readWords (draft.setGraph word) rest

/-- The command with a name. -/
def commandOf? : String → Option CommandName
  | "compile" => some .compile
  | "export" => some .snippet
  | "run" => some .run
  | _ => none

/-- A command before its words are read. -/
def initial (command : CommandName) : Draft where
  request := {
    command := command
    graph := ""
    format := some .mql
    collection := ""
    uri := ""
    database := ""
    pageSize := 0
    timeout := .zero
    page := some 1 }
  hasGraph := false
  hasExtra := false

/-- Reads the words after a command, `extra` telling whether a word before it had no place. -/
def ofCommand (command : CommandName) (extra : Bool) (words : List String) :
    Except UsageStop Request := do
  let classified ← (OptionTable.ofCommand command).classifyAll words
  let draft ← readWords (initial command) classified
  if draft.hasGraph && !draft.hasExtra && !extra then .ok draft.request else .error .misuse

/-- Reads a command line, `extra` telling whether a word so far had no place. -/
def ofWordsAfter (extra : Bool) : List String → Except UsageStop Request
  | [] => .error .misuse
  | "--" :: _ => .error .misuse
  | word :: rest => do
    match ← OptionTable.general.classify word with
    | .argument name =>
      match commandOf? name with
      | some command => ofCommand command extra rest
      | none => .error .misuse
    | .option _ name attached => .error (helpStop name attached)
    | _ => ofWordsAfter true rest

/-- Reads a command line. -/
def ofWords (words : List String) : Except UsageStop Request := ofWordsAfter false words

end Request

end StageChain
