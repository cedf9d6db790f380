import ZoomConfig.Json.Basic
/-!
JSON text.

`compact` writes a value without spaces. `pretty` gives every item and member a line of its own,
indented by two spaces for every container around it.
-/
namespace ZoomConfig.Json

/-- A digit of a number to base sixteen. -/
def hexDigit (n : Nat) : Char := (Nat.toDigits 16 (n % 16)).headD '0'

/-- One character between quotes. -/
def escape (c : Char) : List Char :=
  if c = '"' then ['\\', '"']
  else if c = '\\' then ['\\', '\\']
  else if c.toNat = 8 then ['\\', 'b']
  else if c.toNat = 12 then ['\\', 'f']
  else if c = '\n' then ['\\', 'n']
  else if c = '\r' then ['\\', 'r']
  else if c = '\t' then ['\\', 't']
  else if c.toNat < 32 then ['\\', 'u', '0', '0', hexDigit (c.toNat / 16), hexDigit c.toNat]
  else [c]

/-- Text between quotes. -/
def quote (s : String) : List Char := '"' :: s.toList.flatMap escape ++ ['"']

mutual

/-- The text of a value without spaces. -/
def chars : Json → List Char
  | .null => "null".toList
  | .bool b => (boolText b).toList
  | .number n => n.jsonText.toList
  | .string s => quote s
  | .array items => '[' :: itemChars items ++ [']']
  | .object members => '{' :: memberChars members ++ ['}']

/-- Items between commas. -/
def itemChars : List Json → List Char
  | [] => []
  | [j] => chars j
  | j :: rest => chars j ++ ',' :: itemChars rest

/-- Members between commas. -/
def memberChars : List (String × Json) → List Char
  | [] => []
  | [(n, j)] => quote n ++ ':' :: chars j
  | (n, j) :: rest => quote n ++ ':' :: chars j ++ ',' :: memberChars rest

end

/-- The text of a value without spaces. -/
def compact (j : Json) : String := String.ofList (chars j)

/-- A line's end and the indentation of the next line. -/
def newline (depth : Nat) : List Char := '\n' :: List.replicate (2 * depth) ' '

mutual

/-- The text of a value, indented by its depth. -/
def prettyChars (depth : Nat) : Json → List Char
  | .array [] => ['[', ']']
  | .array items =>
    '[' :: newline (depth + 1) ++ prettyItems (depth + 1) items ++ newline depth ++ [']']
  | .object [] => ['{', '}']
  | .object members =>
    '{' :: newline (depth + 1) ++ prettyMembers (depth + 1) members ++ newline depth ++ ['}']
  | .null => "null".toList
  | .bool b => (boolText b).toList
  | .number n => n.jsonText.toList
  | .string s => quote s

/-- Items on lines of their own. -/
def prettyItems (depth : Nat) : List Json → List Char
  | [] => []
  | [j] => prettyChars depth j
  | j :: rest => prettyChars depth j ++ ',' :: newline depth ++ prettyItems depth rest

/-- Members on lines of their own. -/
def prettyMembers (depth : Nat) : List (String × Json) → List Char
  | [] => []
  | [(n, j)] => quote n ++ ':' :: ' ' :: prettyChars depth j
  | (n, j) :: rest =>
    quote n ++ ':' :: ' ' :: prettyChars depth j ++ ',' :: newline depth ++ prettyMembers depth rest

end

/-- The text of a value on several lines. -/
def pretty (j : Json) : String := String.ofList (prettyChars 0 j)

end ZoomConfig.Json
