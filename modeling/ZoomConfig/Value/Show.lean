import ZoomConfig.Decimal.Layout
import ZoomConfig.Text.Quoted
import ZoomConfig.Value.Basic
/-!
Values as messages show them: `Number(5)`, `String("x")`, `Mapping {"k": Bool(true)}`.
-/
namespace ZoomConfig

/-- An integer plainly, a double in its shortest form. -/
def Number.text : Number → String
  | .int n => toString n
  | .float x => Decimal.documentLayout.write x

/-- The text of a boolean. -/
def boolText (b : Bool) : String := if b then "true" else "false"

/-- A tag as it is written, with its exclamation mark. -/
def tagText (tag : String) : String := "!" ++ tag

/-- The name in a written tag: the text after the exclamation mark, which may be missing. A mark
alone is a name of its own. -/
def tagName (text : String) : String :=
  match text.toList with
  | '!' :: c :: rest => String.ofList (c :: rest)
  | _ => text

namespace Value

mutual

/-- The value with its kind. -/
def describe : Value → String
  | .null => "Null"
  | .bool b => "Bool(" ++ boolText b ++ ")"
  | .number n => "Number(" ++ n.text ++ ")"
  | .string s => "String(" ++ Text.quoted s ++ ")"
  | .sequence items => "Sequence [" ++ describeItems items ++ "]"
  | .mapping entries => "Mapping \x7b" ++ describeEntries entries ++ "\x7d"
  | .tagged tag v =>
    "TaggedValue \x7b tag: " ++ tagText tag ++ ", value: " ++ describe v ++ " \x7d"

/-- Items between commas. -/
def describeItems : List Value → String
  | [] => ""
  | [v] => describe v
  | v :: rest => describe v ++ ", " ++ describeItems rest

/-- Entries between commas; keys that are text, booleans or numbers stand bare. -/
def describeEntries : List (Value × Value) → String
  | [] => ""
  | [(k, v)] => describeKey k ++ ": " ++ describe v
  | (k, v) :: rest => describeKey k ++ ": " ++ describe v ++ ", " ++ describeEntries rest

/-- A key without its kind where it is text, a boolean or a number. -/
def describeKey : Value → String
  | .string s => Text.quoted s
  | .bool b => boolText b
  | .number n => n.text
  | .null => "Null"
  | .sequence items => "Sequence [" ++ describeItems items ++ "]"
  | .mapping entries => "Mapping \x7b" ++ describeEntries entries ++ "\x7d"
  | .tagged tag v =>
    "TaggedValue \x7b tag: " ++ tagText tag ++ ", value: " ++ describe v ++ " \x7d"

end

end Value

end ZoomConfig
