import StageChain.Source.Basic

/-!
# Scripted data sources

A scripted source answers by the length of the prefix that is run: the answer at index `k - 1` is
for the prefix of length `k`. `Script.source` is the source of a list of answers, with a default
answer where the list has none.
-/

namespace StageChain

/-- The scripted answer for one prefix. -/
structure Answer where
  documents : Except ReadFault (List Value)
  total : Except ReadFault Value
  barrier : Barrier

namespace Script

/-- The scripted answer for a prefix of some length, if there is one. -/
def answer? (answers : List (Option Answer)) : (length : Nat) → Option Answer
  | 0 => none
  | index + 1 => (answers[index]?).join

/-- The answer for a prefix, given its stages. -/
def answer (answers : List (Option Answer)) (default : List Value → Answer)
    (stages : List Value) : Answer :=
  (answer? answers stages.length).getD (default stages)

/-- The stages of the prefix that a read is for. -/
def prefixOf (read : Read) : List Value :=
  match read.kind with
  | .page => read.stages.dropLast.dropLast
  | .count => read.stages.dropLast

/-- The source of a list of answers. -/
def source (answers : List (Option Answer)) (default : List Value → Answer) : Source where
  documents read := (answer answers default (prefixOf read)).documents
  total read := (answer answers default (prefixOf read)).total
  barrier stages := (answer answers default stages).barrier

/-- The default answer of a preview: one document with the length of the prefix and its last stage,
counted by that length. -/
def echo (stages : List Value) : Answer where
  documents :=
    .ok [.object [("k", .int stages.length), ("last", stages.getLast?.getD .null)]]
  total := .ok (.int stages.length)
  barrier := .open

end Script

end StageChain
