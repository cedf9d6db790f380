import ZoomConfig.Yaml.Cursor
/-!
Scalars of indented lines, behind `|` or `>`.

A literal scalar keeps its line breaks, a folded one turns a single break between two lines that do
not begin with a blank into a space. The header may fix the indentation and say which breaks at the
end stay.
-/
namespace ZoomConfig.Yaml

/-- Which line breaks at the end stay: none, the first, or all. -/
inductive Chomping where
  | strip
  | clip
  | keep
  deriving DecidableEq, Repr

/-- The chomping that a sign stands for. -/
def Chomping.ofSign? : Char → Option Chomping
  | '-' => some .strip
  | '+' => some .keep
  | _ => none

/-- The header of a block scalar. -/
structure BlockHeader where
  chomping : Chomping
  /-- How much further than its parent the scalar is indented, if the header says it. -/
  increment : Option Nat

/-- A digit for the indentation, which may not be zero. No digit is none. -/
def increment? (c : Cursor) : Option (Option Nat × Cursor) :=
  match c.rest with
  | d :: _ =>
    if !d.isDigit then some (none, c)
    else if d = '0' then none
    else some (some (d.toNat - 48), c.advance 1)
  | [] => some (none, c)

/-- A sign for the chomping. No sign means that the first break stays. -/
def Chomping.read (c : Cursor) : Option Chomping × Cursor :=
  match c.rest.head?.bind Chomping.ofSign? with
  | some sign => (some sign, c.advance 1)
  | none => (none, c)

/-- Reads a header, sign and digit in either order, up to the end of its line. -/
def BlockHeader.read? (c : Cursor) : Option (BlockHeader × Cursor) := do
  let (first, c) := Chomping.read c
  let (increment, c) ← increment? c
  let (second, c) := if first.isNone && increment.isSome then Chomping.read c else (none, c)
  let next ← c.endOfLine?
  return (⟨(first.or second).getD .clip, increment⟩, next)

/-- Empty lines and the indentation of the line behind them. -/
structure Margin where
  breaks : List Char
  /-- The column furthest from the start that blanks reach. -/
  widest : Nat
  next : Cursor

/-- Reads empty lines and at most `indent` columns of spaces of the line behind them, all its spaces
if `indent` is not known. No tab may stand among them. -/
def Margin.read? (indent : Option Nat) : Nat → Cursor → Option Margin
  | 0, _ => none
  | fuel + 1, c =>
    let spaces := (c.rest.takeWhile (· == ' ')).length
    let next := c.advance (match indent with
      | none => spaces
      | some n => min spaces (n - c.column))
    if indent.all (next.column < ·) && next.rest.head? == some '\t' then none
    else match next.readBreak? with
      | none => some ⟨[], next.column, next⟩
      | some (b, c) => (Margin.read? indent fuel c).map fun m =>
          ⟨b :: m.breaks, max next.column m.widest, m.next⟩

/-- What joins two lines with one line break and further ones between them. In a folded scalar the
break between two lines that do not begin with a blank becomes a space or gives way to the others.
-/
def joinLines (literal beginsBlank : Bool) (lineBreak : Option Char) (more : List Char) :
    List Char :=
  if !literal && lineBreak == some '\n' && !beginsBlank then
    if more.isEmpty then [' '] else more
  else lineBreak.toList ++ more

/-- The lines of a scalar. -/
structure Lines where
  /-- The text without the last breaks. -/
  text : List Char
  /-- The break that ends the last line. -/
  lineBreak : Option Char
  /-- The breaks of the empty lines behind it. -/
  breaks : List Char
  /-- The place behind them. -/
  next : Cursor

/-- Reads lines as long as they are indented. `lineBreak` ended the line before, `beginsBlank` says
how that line began. -/
def Lines.read? (literal : Bool) (indent : Nat) :
    Nat → Option Char → Bool → Margin → Option Lines
  | 0, _, _, _ => none
  | fuel + 1, lineBreak, beginsBlank, margin =>
    let c := margin.next
    if c.column ≠ indent ∨ c.rest.isEmpty then some ⟨[], lineBreak, margin.breaks, c⟩
    else do
      let startsBlank := c.rest.head?.any isBlank
      let joint := joinLines literal (beginsBlank || startsBlank) lineBreak margin.breaks
      let (line, next) := c.span fun ch => !isBreak ch
      let (lineBreak, next) := match next.readBreak? with
        | some (b, next) => (some b, next)
        | none => (none, next)
      let margin ← Margin.read? (some indent) (next.left + 1) next
      let more ← Lines.read? literal indent fuel lineBreak startsBlank margin
      return { more with text := joint ++ line ++ more.text }

/-- The text of the block scalar at a place, and the place behind it. `parent` is the column of the
collection around it, if any. -/
def blockScalar? (parent : Option Nat) (c : Cursor) : Option (String × Cursor) := do
  let literal := c.rest.head? == some '|'
  let (header, c) ← BlockHeader.read? (c.advance 1)
  let fixed := header.increment.map (parent.getD 0 + ·)
  let margin ← Margin.read? fixed (c.left + 1) c
  let least := match parent with
    | none => 1
    | some n => n + 1
  let indent := fixed.getD (max margin.widest least)
  let lines ← Lines.read? literal indent (c.left + 1) none false margin
  let tail := match header.chomping with
    | .strip => []
    | .clip => lines.lineBreak.toList
    | .keep => lines.lineBreak.toList ++ lines.breaks
  return (String.ofList (lines.text ++ tail), lines.next)

end ZoomConfig.Yaml
