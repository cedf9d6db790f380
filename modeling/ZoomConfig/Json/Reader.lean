import ZoomConfig.Json.Basic
import ZoomConfig.Json.Number
/-!
Reading JSON text.

The grammar is the strict one: no comments, no commas at the end, no control characters in text, and
escapes beyond the basic plane only in pairs. Containers nest at most `maxDepth` deep. Of members
with one name the last counts.
-/
namespace ZoomConfig.Json

/-- How deep containers may nest. -/
def maxDepth : Nat := 127

/-- The text after white space. -/
def skipBlanks (cs : List Char) : List Char :=
  cs.dropWhile fun c => c = ' ' ∨ c = '\n' ∨ c = '\t' ∨ c = '\r'

/-- The value of a digit to base sixteen. -/
def hexValue? (c : Char) : Option Nat :=
  let n := c.toNat
  if c.isDigit then some (n - 48)
  else if 97 ≤ n ∧ n ≤ 102 then some (n - 87)
  else if 65 ≤ n ∧ n ≤ 70 then some (n - 55)
  else none

/-- The value of four digits to base sixteen. -/
def hexFour? (a b c d : Char) : Option Nat := do
  let a ← hexValue? a
  let b ← hexValue? b
  let c ← hexValue? c
  let d ← hexValue? d
  return ((a * 16 + b) * 16 + c) * 16 + d

/-- The character for the letter of a short escape. -/
def shortEscape? : Char → Option Char
  | '"' => some '"'
  | '\\' => some '\\'
  | '/' => some '/'
  | 'b' => some (Char.ofNat 8)
  | 'f' => some (Char.ofNat 12)
  | 'n' => some '\n'
  | 'r' => some '\r'
  | 't' => some '\t'
  | _ => none

/-- Text up to its closing quote, which is read too. -/
def readText : List Char → Option (List Char × List Char)
  | [] => none
  | '"' :: rest => some ([], rest)
  | '\\' :: 'u' :: a :: b :: c :: d :: '\\' :: 'u' :: a' :: b' :: c' :: d' :: rest => do
    let high ← hexFour? a b c d
    if 0xD800 ≤ high ∧ high < 0xDC00 then
      let low ← hexFour? a' b' c' d'
      if 0xDC00 ≤ low ∧ low < 0xE000 then
        let (text, rest) ← readText rest
        return (Char.ofNat (0x10000 + (high - 0xD800) * 0x400 + (low - 0xDC00)) :: text, rest)
      else none
    else if 0xDC00 ≤ high ∧ high < 0xE000 then none
    else
      let (text, rest) ← readText ('\\' :: 'u' :: a' :: b' :: c' :: d' :: rest)
      return (Char.ofNat high :: text, rest)
  | '\\' :: 'u' :: a :: b :: c :: d :: rest => do
    let n ← hexFour? a b c d
    if 0xD800 ≤ n ∧ n < 0xE000 then none
    else
      let (text, rest) ← readText rest
      return (Char.ofNat n :: text, rest)
  | '\\' :: c :: rest => do
    let c ← shortEscape? c
    let (text, rest) ← readText rest
    return (c :: text, rest)
  | c :: rest =>
    if c.toNat < 32 then none
    else do
      let (text, rest) ← readText rest
      return (c :: text, rest)

/-- Puts a member into an object, in the place of one with the same name. -/
def replaceMember (name : String) (value : Json) : List (String × Json) → List (String × Json)
  | [] => [(name, value)]
  | (n, v) :: rest =>
    if n = name then (n, value) :: rest else (n, v) :: replaceMember name value rest

mutual

/-- A value at the front of the text, at most `depth` containers deep. Every step reads a character
or is followed by one that does, so twice the length of the text is fuel enough. -/
def readValue : Nat → Nat → List Char → Option (Json × List Char)
  | 0, _, _ => none
  | fuel + 1, depth, cs =>
    match skipBlanks cs with
    | 'n' :: 'u' :: 'l' :: 'l' :: rest => some (.null, rest)
    | 't' :: 'r' :: 'u' :: 'e' :: rest => some (.bool true, rest)
    | 'f' :: 'a' :: 'l' :: 's' :: 'e' :: rest => some (.bool false, rest)
    | '"' :: rest => (readText rest).map fun (text, rest) => (.string (String.ofList text), rest)
    | '[' :: rest =>
      if depth = 0 then none
      else match skipBlanks rest with
        | ']' :: rest => some (.array [], rest)
        | rest => (readItems fuel (depth - 1) rest).map fun (items, rest) => (.array items, rest)
    | '{' :: rest =>
      if depth = 0 then none
      else match skipBlanks rest with
        | '}' :: rest => some (.object [], rest)
        | rest => (readMembers fuel (depth - 1) [] rest).map fun (ms, rest) => (.object ms, rest)
    | cs => (readNumber cs).map fun (n, rest) => (.number n, rest)

/-- Items up to the closing bracket. -/
def readItems : Nat → Nat → List Char → Option (List Json × List Char)
  | 0, _, _ => none
  | fuel + 1, depth, cs =>
    match readValue fuel depth cs with
    | none => none
    | some (item, rest) =>
      match skipBlanks rest with
      | ']' :: rest => some ([item], rest)
      | ',' :: rest => (readItems fuel depth rest).map fun (items, rest) => (item :: items, rest)
      | _ => none

/-- Members up to the closing brace, added to those already read. -/
def readMembers :
    Nat → Nat → List (String × Json) → List Char → Option (List (String × Json) × List Char)
  | 0, _, _, _ => none
  | fuel + 1, depth, members, cs =>
    match skipBlanks cs with
    | '"' :: rest =>
      match readText rest with
      | none => none
      | some (name, rest) =>
        match skipBlanks rest with
        | ':' :: rest =>
          match readValue fuel depth rest with
          | none => none
          | some (value, rest) =>
            let members := replaceMember (String.ofList name) value members
            match skipBlanks rest with
            | '}' :: rest => some (members, rest)
            | ',' :: rest => readMembers fuel depth members rest
            | _ => none
        | _ => none
    | _ => none

end

/-- The value that a text holds, with nothing but white space around it. -/
def parse? (text : String) : Option Json :=
  let cs := text.toList
  match readValue (2 * cs.length + 2) maxDepth cs with
  | some (value, rest) => if (skipBlanks rest).isEmpty then some value else none
  | none => none

end ZoomConfig.Json
