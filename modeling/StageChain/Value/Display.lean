import StageChain.Double.Text
import StageChain.Text.Quoted
import StageChain.Value.Basic

/-!
# Values in messages and names

`Value.display` is the text of a value where a name is expected or a message shows it: a text is
itself, and inside lists and objects texts are quoted. `Value.kindName` names the kind of a value.

Integers are shown with all their digits. The limit on digits, `Text.exceedsDigits`, is not asked for
here: what is shown comes from graphs, and a graph is read as JSON, within that limit.
-/

namespace StageChain.Value

mutual

/-- The listing form of a value, in which texts are quoted. -/
def listing : Value → String
  | null => "None"
  | bool b => if b then "True" else "False"
  | int n => String.ofList (Text.integerChars n)
  | float x => x.text
  | text s => Text.quote s
  | list items => "[" ++ ", ".intercalate (listingItems items) ++ "]"
  | object entries => "\x7b" ++ ", ".intercalate (listingEntries entries) ++ "\x7d"

/-- The listing forms of the values of a list. -/
def listingItems : List Value → List String
  | [] => []
  | item :: rest => item.listing :: listingItems rest

/-- The listing forms of entries. -/
def listingEntries : List (String × Value) → List String
  | [] => []
  | (key, value) :: rest => (Text.quote key ++ ": " ++ value.listing) :: listingEntries rest

end

/-- The text of a value: a text is itself, any other value is listed. -/
def display : Value → String
  | text s => s
  | value => value.listing

/-- The name of the kind of a value. -/
def kindName : Value → String
  | null => "NoneType"
  | bool _ => "bool"
  | int _ => "int"
  | float _ => "float"
  | text _ => "str"
  | list _ => "list"
  | object _ => "dict"

end StageChain.Value
