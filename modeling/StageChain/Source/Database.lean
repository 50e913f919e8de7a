import StageChain.Source.Scripted

/-!
# Databases

A database is addressed by a `Connection`. Its client can fail in several ways; `ClientFault.read`
says which of them are refusals of a read. The count of a result is the total of the first row that
the client gives.
-/

namespace StageChain

/-- Where a collection is found. -/
structure Connection where
  uri : String
  database : String
  collection : String
deriving DecidableEq

/-- What is missing from a connection. -/
inductive ConnectionFault where
  | noUri | noDatabase | noCollection
deriving DecidableEq

/-- What a fault says. -/
def ConnectionFault.message : ConnectionFault → String
  | noUri => "Connection string is required"
  | noDatabase => "Database name is required"
  | noCollection => "Collection name is required"

/-- The connection with the given parts, none of which may be empty. -/
def Connection.ofParts (uri database collection : String) : Except ConnectionFault Connection :=
  if uri.isEmpty then .error .noUri
  else if database.isEmpty then .error .noDatabase
  else if collection.isEmpty then .error .noCollection
  else .ok ⟨uri, database, collection⟩

/-- How the client of a database fails. -/
inductive ClientFaultKind where
  /-- The server refused the operation. -/
  | operation
  /-- The connection was lost. -/
  | reconnect
  /-- A document cannot be encoded. -/
  | document
  /-- A number is too large to be encoded. -/
  | overflow
  /-- Any other failure. -/
  | value
deriving DecidableEq

/-- A failure of the client with its text. -/
structure ClientFault where
  kind : ClientFaultKind
  text : String
deriving DecidableEq

namespace ClientFault

/-- The fault of a read: everything but an unforeseen failure is a refusal. -/
def read (fault : ClientFault) : ReadFault :=
  match fault.kind with
  | .value => .crashed (.raised fault.text)
  | _ => .refused fault.text

/-- The fault of a check that the server is there: only failures of the server are refusals. -/
def ping (database : String) (fault : ClientFault) : ReadFault :=
  match fault.kind with
  | .operation | .reconnect => .refused ("Cannot reach " ++ database ++ ": " ++ fault.text)
  | _ => .crashed (.raised fault.text)

end ClientFault

namespace Database

/-- The count that the rows of a client give; no row counts as zero. -/
def totalOf : List Value → Except ReadFault Int
  | [] => .ok 0
  | .object row :: _ =>
    match Entries.get? "total" row with
    | some total => countOf total
    | none => .error (.crashed .noTotal)
  | _ :: _ => .error (.crashed .noTotal)

/-- The answer of a client that gives documents and rows, or faults. -/
def answer (documents : Except ClientFault (List Value)) (rows : Except ClientFault (List Value)) :
    Answer where
  documents := documents.mapError ClientFault.read
  total := ((rows.mapError ClientFault.read).bind totalOf).map .int
  barrier := .open

/-- The default answer of a database: one document with the length of the prefix, counted by that
length, and nothing to count without stages. -/
def echo (stages : List Value) : Answer :=
  let length : Value := .int stages.length
  answer (.ok [.object [("k", length)]])
    (.ok (if stages.isEmpty then [] else [.object [("total", length)]]))

end Database

end StageChain
