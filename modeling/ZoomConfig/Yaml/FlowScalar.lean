import ZoomConfig.Json.Reader
import ZoomConfig.Yaml.Cursor
/-!
Scalars that stand on their lines, without quotes or in quotes.

Between two words of a scalar stands a gap of blanks and line breaks. Blanks on one line stay as
they are. Of line breaks a single one becomes a space, and of several all but the first are kept.

A plain scalar ends before a colon with a gap behind it, before a comment, before the mark of a
document and, outside brackets, before a line that is not indented enough; inside brackets also
before brackets and commas. Between single quotes a quote is written twice. Between double quotes a
backslash begins an escape: a letter for a character, `x`, `u` or `U` with the digits of a number, or
the end of a line, which is then left out.
-/
namespace ZoomConfig.Yaml

/-! ## Folding of lines -/

/-- The text that stands for a first line break and the further ones. -/
def foldBreaks (first : Char) (more : List Char) : List Char :=
  if first = '\n' then (if more.isEmpty then [' '] else more) else first :: more

/-- The breaks of empty lines up to the next line that holds something, and where that begins. In
front of the `margin` no line may hold a tab. -/
def readEmptyLines (margin : Nat) : Nat → Cursor → Option (List Char × Cursor)
  | 0, _ => none
  | fuel + 1, c =>
    let (blanks, next) := c.span isBlank
    if (blanks.take (margin - c.column)).contains '\t' then none
    else match next.readBreak? with
      | none => some ([], next)
      | some (b, next) =>
        (readEmptyLines margin fuel next).map fun (more, next) => (b :: more, next)

/-- A gap between two words. -/
structure Gap where
  /-- What the gap becomes in the scalar. -/
  text : List Char
  /-- Does it go over the end of a line? -/
  crossesLine : Bool
  /-- The place behind it. -/
  next : Cursor

/-- Reads the gap at a place. -/
def Gap.read? (margin : Nat) (c : Cursor) : Option Gap :=
  let (blanks, next) := c.span isBlank
  match next.readBreak? with
  | none => some ⟨blanks, false, next⟩
  | some (first, next) =>
    (readEmptyLines margin (next.left + 1) next).map fun (more, next) =>
      ⟨foldBreaks first more, true, next⟩

/-! ## Scalars without quotes -/

/-- A bracket or comma. -/
def isFlowIndicator (c : Char) : Bool := ",[]\x7b\x7d".toList.contains c

/-- The characters of a plain scalar up to a gap or its end. Inside brackets a colon may not stand
against a bracket, a comma or a question mark. -/
def plainRun? (inFlow : Bool) : List Char → Option (List Char)
  | [] => some []
  | c :: rest =>
    if isBlank c || isBreak c then some []
    else if inFlow && c == ':' && rest.head?.any (fun d => isFlowIndicator d || d == '?') then none
    else if (c == ':' && atGap rest) || (inFlow && isFlowIndicator c) then some []
    else (plainRun? inFlow rest).map (c :: ·)

/-- A plain scalar. -/
structure PlainScalar where
  text : List Char
  /-- Does the text go on behind it on a later line? -/
  endsLine : Bool
  /-- The place behind it and the gap that follows. -/
  next : Cursor

/-- Reads on behind a gap, which is part of the text if words follow it. Lines have to be indented
up to the `margin`. -/
def readPlain (inFlow : Bool) (margin : Nat) : Nat → Gap → Option PlainScalar
  | 0, _ => none
  | fuel + 1, gap =>
    let c := gap.next
    if c.atDocumentMark || c.rest.head? == some '#' then some ⟨[], gap.crossesLine, c⟩
    else do
      let run ← plainRun? inFlow c.rest
      if run.isEmpty then return ⟨[], gap.crossesLine, c⟩
      let text := gap.text ++ run
      let next := c.advance run.length
      if next.rest.isEmpty || !atGap next.rest then return ⟨text, false, next⟩
      let gap ← Gap.read? margin next
      if !inFlow && gap.next.column < margin then return ⟨text, gap.crossesLine, gap.next⟩
      let more ← readPlain inFlow margin fuel gap
      return { more with text := text ++ more.text }

/-- The plain scalar at a place. -/
def plainScalar? (inFlow : Bool) (margin : Nat) (c : Cursor) : Option PlainScalar :=
  readPlain inFlow margin (c.left + 1) ⟨[], false, c⟩

/-! ## Scalars in quotes -/

/-- The two kinds of quotes. -/
inductive Quote where
  | single
  | double
  deriving DecidableEq, Repr

/-- The character at both ends of a scalar. -/
def Quote.char : Quote → Char
  | .single => Char.ofNat 0x27
  | .double => Char.ofNat 0x22

/-- The character for the letter of an escape. -/
def escapedChar? : Char → Option Char
  | '0' => some (Char.ofNat 0)
  | 'a' => some (Char.ofNat 7)
  | 'b' => some (Char.ofNat 8)
  | 't' => some '\t'
  | '\t' => some '\t'
  | 'n' => some '\n'
  | 'v' => some (Char.ofNat 11)
  | 'f' => some (Char.ofNat 12)
  | 'r' => some '\r'
  | 'e' => some (Char.ofNat 27)
  | ' ' => some ' '
  | '"' => some '"'
  | '/' => some '/'
  | '\\' => some '\\'
  | 'N' => some (Char.ofNat 0x85)
  | '_' => some (Char.ofNat 0xA0)
  | 'L' => some (Char.ofNat 0x2028)
  | 'P' => some (Char.ofNat 0x2029)
  | _ => none

/-- How many digits follow the letter of an escape by number. -/
def escapeDigits? : Char → Option Nat
  | 'x' => some 2
  | 'u' => some 4
  | 'U' => some 8
  | _ => none

/-- The number that digits to base sixteen write. -/
def hexNumber? (cs : List Char) : Option Nat :=
  cs.foldlM (fun n c => (Json.hexValue? c).map (16 * n + ·)) 0

/-- The character with a number. The halves of pairs are none. -/
def charOfNumber? (n : Nat) : Option Char :=
  if 0xD800 ≤ n ∧ n ≤ 0xDFFF ∨ 0x10FFFF < n then none else some (Char.ofNat n)

/-- The character of the escape whose letter is at a place, and the place behind it. -/
def readEscape? (c : Cursor) : Option (Char × Cursor) :=
  match c.rest with
  | [] => none
  | letter :: rest =>
    match escapeDigits? letter with
    | some count =>
      let digits := rest.take count
      if digits.length < count then none
      else do
        let ch ← charOfNumber? (← hexNumber? digits)
        return (ch, c.advance (count + 1))
    | none => (escapedChar? letter).map fun ch => (ch, c.advance 1)

/-- The text up to the closing quote, and the place behind that. The marks of documents may not
stand inside. -/
def readQuoted (quote : Quote) : Nat → Cursor → Option (List Char × Cursor)
  | 0, _ => none
  | fuel + 1, c =>
    match c.rest with
    | [] => none
    | ch :: rest => do
      if ch = quote.char then
        if quote = .single ∧ rest.head? = some quote.char then
          let (text, next) ← readQuoted quote fuel (c.advance 2)
          return (quote.char :: text, next)
        else return ([], c.advance 1)
      else if quote = .double ∧ ch = '\\' then
        match (c.advance 1).readBreak? with
        | some (_, next) =>
          let (breaks, next) ← readEmptyLines 0 (next.left + 1) next
          if next.atDocumentMark then none
          else
            let (text, next) ← readQuoted quote fuel next
            return (breaks ++ text, next)
        | none =>
          let (escaped, next) ← readEscape? (c.advance 1)
          let (text, next) ← readQuoted quote fuel next
          return (escaped :: text, next)
      else if isBlank ch || isBreak ch then
        let gap ← Gap.read? 0 c
        if gap.next.atDocumentMark then none
        else
          let (text, next) ← readQuoted quote fuel gap.next
          return (gap.text ++ text, next)
      else
        let (text, next) ← readQuoted quote fuel (c.advance 1)
        return (ch :: text, next)

/-- The text of the quoted scalar at a place, and the place behind its closing quote. -/
def quotedScalar? (quote : Quote) (c : Cursor) : Option (String × Cursor) :=
  (readQuoted quote (c.left + 1) (c.advance 1)).map fun (text, next) =>
    (String.ofList text, next)

end ZoomConfig.Yaml
