/-!
A place in a text.

A `Cursor` holds what follows the place and how far the place is from the start, in characters,
lines and columns. The readers of this folder take a cursor and give back the one behind what they
read.
-/
namespace ZoomConfig.Yaml

/-- Is the character one that a text may hold? The controls are not, the tab and the line breaks
apart. -/
def isAllowed (c : Char) : Bool :=
  let n := c.toNat
  n == 0x09 || n == 0x0A || n == 0x0D || (0x20 ≤ n && n ≤ 0x7E) || n == 0x85 ||
    (0xA0 ≤ n && n ≤ 0xD7FF) || (0xE000 ≤ n && n ≤ 0xFFFD && n != 0xFEFF) || 0x10000 ≤ n

/-- A space or a tab. -/
def isBlank (c : Char) : Bool := c == ' ' || c == '\t'

/-- The separators of lines and of paragraphs, the breaks that stay as they are in a scalar. -/
def isSeparator (c : Char) : Bool := c.toNat == 0x2028 || c.toNat == 0x2029

/-- A character that ends a line. -/
def isBreak (c : Char) : Bool :=
  c == '\n' || c == '\r' || c.toNat == 0x85 || isSeparator c

/-- Does the text begin with a blank or a line break, or is it at its end? -/
def atGap : List Char → Bool
  | [] => true
  | c :: _ => isBlank c || isBreak c

/-- A letter, digit, hyphen or underscore. -/
def isWordChar (c : Char) : Bool := c.isAlphanum || c == '_' || c == '-'

/-- What follows a place, and where it is. -/
structure Cursor where
  rest : List Char
  /-- How many characters follow. -/
  left : Nat
  index : Nat
  line : Nat
  column : Nat

namespace Cursor

/-- The start of a text. -/
def start (cs : List Char) : Cursor := ⟨cs, cs.length, 0, 0, 0⟩

/-- The place some characters further on the same line. -/
def advance (c : Cursor) (count : Nat) : Cursor :=
  ⟨c.rest.drop count, c.left - count, c.index + count, c.line, c.column + count⟩

/-- The longest run of characters of a class, and the place behind it. The class holds no breaks. -/
def span (c : Cursor) (p : Char → Bool) : List Char × Cursor :=
  let run := c.rest.takeWhile p
  (run, c.advance run.length)

/-- The place behind such a run. -/
def skip (c : Cursor) (p : Char → Bool) : Cursor := (c.span p).2

/-- The break that ends the line here, as a scalar keeps it, and the start of the next line. -/
def readBreak? (c : Cursor) : Option (Char × Cursor) :=
  match c.rest with
  | '\r' :: '\n' :: rest => some ('\n', ⟨rest, c.left - 2, c.index + 2, c.line + 1, 0⟩)
  | ch :: rest =>
    if isBreak ch then
      some (if isSeparator ch then ch else '\n', ⟨rest, c.left - 1, c.index + 1, c.line + 1, 0⟩)
    else none
  | [] => none

/-- Does a line that begins or ends a document start here? -/
def atDocumentMark (c : Cursor) : Bool :=
  c.column == 0 && match c.rest with
    | '-' :: '-' :: '-' :: rest => atGap rest
    | '.' :: '.' :: '.' :: rest => atGap rest
    | _ => false

/-- The place behind blanks and a comment, which has to be the end of a line or of the text. -/
def endOfLine? (c : Cursor) : Option Cursor :=
  let c := c.skip isBlank
  let c := if c.rest.head? = some '#' then c.skip (fun ch => !isBreak ch) else c
  match c.readBreak? with
  | some (_, next) => some next
  | none => if c.rest.isEmpty then some c else none

end Cursor

end ZoomConfig.Yaml
