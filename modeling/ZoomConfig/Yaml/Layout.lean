import ZoomConfig.Yaml.BlockScalar
import ZoomConfig.Yaml.FlowScalar
import ZoomConfig.Yaml.Token
/-!
From characters to tokens.

Outside brackets the columns of a text are its structure: a token further right than the collection
around it may begin a collection, one further left ends some. A key without a question mark is known
as a key only at the colon behind it, so its token is put in front of what was already read. The
state of this is a `Layout`; `Token.ofText?` runs it over a text.
-/
namespace ZoomConfig.Yaml

/-- A node that becomes a key if a colon follows it. -/
structure PossibleKey where
  /-- Is anything but a key an error here? -/
  required : Bool
  /-- How many tokens stand before it. -/
  position : Nat
  /-- Where it begins. -/
  start : Cursor

/-- The state between two tokens. -/
structure Layout where
  cursor : Cursor
  /-- The columns of the open collections, the innermost first. -/
  indents : List Nat := []
  /-- The possible key within the innermost brackets. -/
  pending : Option PossibleKey := none
  /-- The possible keys outside of those brackets, one for each pair. -/
  outer : List (Option PossibleKey) := []
  /-- May a key begin here? -/
  allowsKey : Bool := true
  /-- The tokens read so far, the last one first. -/
  tokens : List Token := []
  /-- How many they are. -/
  count : Nat := 0

namespace Layout

/-- Is the place within brackets? -/
def inFlow (s : Layout) : Bool := !s.outer.isEmpty

/-- The column up to which lines of a node have to be indented. -/
def margin (s : Layout) : Nat :=
  match s.indents with
  | [] => 0
  | n :: _ => n + 1

/-- Adds a token. -/
def emit (s : Layout) (t : Token) : Layout :=
  { s with tokens := t :: s.tokens, count := s.count + 1 }

/-- Adds a token behind the first `position` ones. -/
def insert (s : Layout) (position : Nat) (t : Token) : Layout :=
  { s with tokens := s.tokens.insertIdx (s.count - position) t, count := s.count + 1 }

/-- Moves on by some characters of the line. -/
def advance (s : Layout) (count : Nat) : Layout := { s with cursor := s.cursor.advance count }

/-- Moves behind blanks, comments and line breaks. Tabs count as blanks only where no key may begin.
Behind a line break outside brackets a key may begin. -/
def skipGaps : Nat → Layout → Layout
  | 0, s => s
  | fuel + 1, s =>
    let tabs := s.inFlow || !s.allowsKey
    let c := s.cursor.skip fun ch => ch == ' ' || (tabs && ch == '\t')
    let c := if c.rest.head? == some '#' then c.skip (fun ch => !isBreak ch) else c
    match c.readBreak? with
    | none => { s with cursor := c }
    | some (_, c) => skipGaps fuel { s with cursor := c, allowsKey := s.allowsKey || !s.inFlow }

/-- Gives up the possible keys that began on an earlier line or more than 1024 characters ago. -/
def dropStaleKeys (s : Layout) : Option Layout := do
  let check : Option PossibleKey → Option (Option PossibleKey)
    | none => some none
    | some k =>
      if k.start.line < s.cursor.line ∨ k.start.index + 1024 < s.cursor.index then
        if k.required then none else some none
      else some (some k)
  let pending ← check s.pending
  let outer ← s.outer.mapM check
  return { s with pending, outer }

/-- Gives up the possible key. -/
def dropKey (s : Layout) : Option Layout :=
  if s.pending.any (·.required) then none else some { s with pending := none }

/-- Notes that the node that begins here may be a key. -/
def noteKey (s : Layout) : Option Layout :=
  if s.allowsKey then do
    let s ← s.dropKey
    let required := !s.inFlow && s.indents.head? == some s.cursor.column
    return { s with pending := some ⟨required, s.count, s.cursor⟩ }
  else some s

/-- Ends the collections that are indented further than a column. -/
def dedent (s : Layout) (column : Nat) : Layout :=
  if s.inFlow then s
  else
    let (ended, left) := s.indents.span (column < ·)
    { s with
      indents := left
      tokens := List.replicate ended.length .blockEnd ++ s.tokens
      count := s.count + ended.length }

/-- Ends all collections outside brackets. -/
def dedentAll (s : Layout) : Layout :=
  if s.inFlow then s
  else
    { s with
      indents := []
      tokens := List.replicate s.indents.length .blockEnd ++ s.tokens
      count := s.count + s.indents.length }

/-- Begins a collection at a column, behind the first `position` tokens, unless one is already open
there. -/
def indent (s : Layout) (column position : Nat) (t : Token) : Layout :=
  if !s.inFlow && s.indents.head?.all (· < column) then
    { s.insert position t with indents := column :: s.indents }
  else s

/-- Adds a token that ends what was open before the line. -/
def atLineStart (s : Layout) (t : Token) (next : Cursor) : Option Layout := do
  let s ← s.dedentAll.dropKey
  return { s.emit t with allowsKey := false, cursor := next }

/-- Opens brackets. -/
def openFlow (s : Layout) (t : Token) : Option Layout := do
  let s ← s.noteKey
  let s := { s.emit t with outer := s.pending :: s.outer, pending := none, allowsKey := true }
  return s.advance 1

/-- Closes brackets. -/
def closeFlow (s : Layout) (t : Token) : Option Layout := do
  let s ← s.dropKey
  let s := match s.outer with
    | [] => s
    | k :: rest => { s with pending := k, outer := rest }
  return { s.emit t with allowsKey := false }.advance 1

/-- A comma. -/
def flowEntry (s : Layout) : Option Layout := do
  let s ← s.dropKey
  return { s.emit .flowEntry with allowsKey := true }.advance 1

/-- The hyphen in front of an item. -/
def blockEntry (s : Layout) : Option Layout := do
  if !s.inFlow && !s.allowsKey then none
  else
    let s ← (s.indent s.cursor.column s.count .blockSequenceStart).dropKey
    return { s.emit .blockEntry with allowsKey := true }.advance 1

/-- The question mark in front of a key. -/
def explicitKey (s : Layout) : Option Layout := do
  if !s.inFlow && !s.allowsKey then none
  else
    let s ← (s.indent s.cursor.column s.count .blockMappingStart).dropKey
    return { s.emit .key with allowsKey := !s.inFlow }.advance 1

/-- The colon behind a key. -/
def keyValue (s : Layout) : Option Layout :=
  match s.pending with
  | some k =>
    let s := (s.insert k.position .key).indent k.start.column k.position .blockMappingStart
    some ({ s.emit .value with pending := none, allowsKey := false }.advance 1)
  | none =>
    if !s.inFlow && !s.allowsKey then none
    else
      let s := s.indent s.cursor.column s.count .blockMappingStart
      some ({ s.emit .value with allowsKey := !s.inFlow }.advance 1)

/-- The name behind an asterisk or ampersand, and the place behind it. -/
def name? (c : Cursor) : Option (String × Cursor) :=
  let (name, next) := (c.advance 1).span isWordChar
  let ends := atGap next.rest ||
    next.rest.head?.any fun ch => "?:,]\x7d%@".toList.contains ch || ch.toNat == 0x60
  if name.isEmpty || !ends then none else some (String.ofList name, next)

/-- A token that may begin a key. -/
def nodeToken (s : Layout) (read : Cursor → Option (Token × Cursor)) : Option Layout := do
  let s ← s.noteKey
  let (t, next) ← read s.cursor
  return { s.emit t with allowsKey := false, cursor := next }

/-- A plain scalar. If it ends behind a line break a key may follow. -/
def plain (s : Layout) : Option Layout := do
  let s ← s.noteKey
  let p ← plainScalar? s.inFlow s.margin s.cursor
  return { s.emit (.scalar ⟨String.ofList p.text, true⟩) with
    allowsKey := p.endsLine, cursor := p.next }

/-- A scalar in quotes. -/
def quoted (s : Layout) (quote : Quote) : Option Layout :=
  s.nodeToken fun c =>
    (quotedScalar? quote c).map fun (text, next) => (.scalar ⟨text, false⟩, next)

/-- A scalar of indented lines. -/
def block (s : Layout) : Option Layout := do
  let s ← s.dropKey
  let (text, next) ← blockScalar? s.indents.head? s.cursor
  return { s.emit (.scalar ⟨text, false⟩) with allowsKey := true, cursor := next }

/-- The token at a place that is not the end of the text. -/
def token (s : Layout) (c : Char) (rest : List Char) : Option Layout :=
  let free := s.inFlow || atGap rest
  if s.cursor.column = 0 ∧ c = '%' then do
    let (d, next) ← Directive.read? s.cursor
    s.atLineStart (.directive d) next
  else if s.cursor.atDocumentMark then
    s.atLineStart (if c = '-' then .documentStart else .documentEnd) (s.cursor.advance 3)
  else if c = '[' then s.openFlow .flowSequenceStart
  else if c = '\x7b' then s.openFlow .flowMappingStart
  else if c = ']' then s.closeFlow .flowSequenceEnd
  else if c = '\x7d' then s.closeFlow .flowMappingEnd
  else if c = ',' then s.flowEntry
  else if c = '-' ∧ atGap rest then s.blockEntry
  else if c = '?' ∧ free then s.explicitKey
  else if c = ':' ∧ free then s.keyValue
  else if c = '*' then s.nodeToken fun c => (name? c).map fun (n, next) => (.alias n, next)
  else if c = '&' then s.nodeToken fun c => (name? c).map fun (n, next) => (.anchor n, next)
  else if c = '!' then
    s.nodeToken fun c => (TagName.read? s.inFlow c).map fun (t, next) => (.tag t, next)
  else if (c = '|' ∨ c = '>') ∧ !s.inFlow then s.block
  else if c = Quote.single.char then s.quoted .single
  else if c = Quote.double.char then s.quoted .double
  else if isBlank c || "|>#%@".toList.contains c || c.toNat == 0x60 then none
  else s.plain

/-- The end of the text: no key may be pending, and all collections end. -/
def finish (s : Layout) : Option (List Token) := do
  let s ← s.dedentAll.dropKey
  return s.tokens.reverse

/-- Reads the rest of the text. -/
def run : Nat → Layout → Option (List Token)
  | 0, _ => none
  | fuel + 1, s => do
    let s ← (s.skipGaps (s.cursor.left + 1)).dropStaleKeys
    match s.cursor.rest with
    | [] => s.finish
    | c :: rest => run fuel (← (s.dedent s.cursor.column).token c rest)

end Layout

/-- The tokens of a text. -/
def Token.ofText? (cs : List Char) : Option (List Token) :=
  Layout.run (cs.length + 1) ⟨Cursor.start cs, [], none, [], true, [], 0⟩

end ZoomConfig.Yaml
