import ZoomConfig.Yaml.Layout
/-!
The nodes of a document.

A node is a scalar, a collection or an alias, with its tag and its anchor. `Node.ofTokens?` reads
the tokens of a text that holds one document.
-/
namespace ZoomConfig.Yaml

/-- A node. Anchors are numbered; an alias holds the number of the anchor it refers to. -/
inductive Node where
  | alias (target : Nat)
  | scalar (anchor : Option Nat) (tag : Option Octets) (s : Scalar)
  | sequence (anchor : Option Nat) (tag : Option Octets) (items : List Node)
  | mapping (anchor : Option Nat) (tag : Option Octets) (entries : List (Node × Node))

/-- What stands where nothing is written. -/
def Node.empty : Node := .scalar none none ⟨"", true⟩

/-- The tokens that are left, the numbers of the anchors so far, and what tag handles mean. -/
structure Source where
  tokens : List Token
  anchors : List (String × Nat)
  meanings : List (Octets × Octets)

/-- A reader of tokens. -/
abbrev Reader (α : Type) := StateT Source Option α

namespace Reader

/-- The next token, none at the end. -/
def peek : Reader (Option Token) := return (← get).tokens.head?

/-- Goes on to the token behind. -/
def next : Reader Unit := modify fun s => { s with tokens := s.tokens.tail }

/-- Numbers an anchor by how many names there are. A name that comes again refers to the new one. -/
def declare (name : String) : Reader Nat := do
  let s ← get
  let number := s.anchors.length
  set { s with anchors := (name, number) :: s.anchors.filter (·.1 ≠ name) }
  return number

/-- The number of an anchor that was declared. -/
def refer (name : String) : Reader Nat := do
  match (← get).anchors.lookup name with
  | some number => return number
  | none => failure

/-- The octets of a tag. -/
def resolveTag (tag : TagName) : Reader Octets := do
  match tag.resolve? (← get).meanings with
  | some octets => return octets
  | none => failure

/-- An anchor and a tag, in either order. -/
def properties : Reader (Option String × Option TagName) := do
  match ← peek with
  | some (.anchor a) =>
    next
    match ← peek with
    | some (.tag t) => next; return (some a, some t)
    | _ => return (some a, none)
  | some (.tag t) =>
    next
    match ← peek with
    | some (.anchor a) => next; return (some a, some t)
    | _ => return (none, some t)
  | _ => return (none, none)

/-- Goes on behind a token that has to be there. -/
def expect (t : Token) : Reader Unit := do
  if (← peek) = some t then next else failure

/-- Reads a node, unless one of the tokens is next that show that it is left out. -/
def unlessNext (ends : List Token) (read : Reader Node) : Reader Node := do
  if (← peek).any ends.contains then return .empty else read

mutual

/-- A node. Collections in blocks are only read where `inBlock`, and items without indentation of
their own only where `indentless`. -/
def node : Nat → Bool → Bool → Reader Node
  | 0, _, _ => failure
  | fuel + 1, inBlock, indentless => do
    match ← peek with
    | some (.alias name) =>
      next
      return .alias (← refer name)
    | _ =>
      let (name, tag) ← properties
      let tag ← tag.mapM resolveTag
      let anchor ← name.mapM declare
      match ← peek with
      | some (.scalar s) =>
        next
        return .scalar anchor (if tag = some (octets ['!']) then none else tag) s
      | some .flowSequenceStart =>
        next
        return .sequence anchor tag (← flowItems fuel true)
      | some .flowMappingStart =>
        next
        return .mapping anchor tag (← flowEntries fuel true)
      | some .blockSequenceStart =>
        if inBlock then
          next
          return .sequence anchor tag (← blockItems fuel)
        else failure
      | some .blockMappingStart =>
        if inBlock then
          next
          return .mapping anchor tag (← blockEntries fuel)
        else failure
      | some .blockEntry =>
        if indentless then return .sequence anchor tag (← indentlessItems fuel)
        else if anchor.isSome || tag.isSome then
          return .scalar anchor tag ⟨"", true⟩
        else failure
      | _ =>
        if anchor.isSome || tag.isSome then return .scalar anchor tag ⟨"", true⟩ else failure

/-- The items of a sequence in a block, up to its end. -/
def blockItems : Nat → Reader (List Node)
  | 0 => failure
  | fuel + 1 => do
    match ← peek with
    | some .blockEntry =>
      next
      let item ← unlessNext [.blockEntry, .blockEnd] (node fuel true false)
      return item :: (← blockItems fuel)
    | some .blockEnd => next; return []
    | _ => failure

/-- The items of a sequence that has the indentation of the key above it. -/
def indentlessItems : Nat → Reader (List Node)
  | 0 => failure
  | fuel + 1 => do
    match ← peek with
    | some .blockEntry =>
      next
      let item ← unlessNext [.blockEntry, .key, .value, .blockEnd] (node fuel true false)
      return item :: (← indentlessItems fuel)
    | _ => return []

/-- The entries of a mapping in a block, up to its end. -/
def blockEntries : Nat → Reader (List (Node × Node))
  | 0 => failure
  | fuel + 1 => do
    match ← peek with
    | some .key =>
      next
      let key ← unlessNext [.key, .value, .blockEnd] (node fuel true true)
      let value ← match ← peek with
        | some .value =>
          next
          unlessNext [.key, .value, .blockEnd] (node fuel true true)
        | _ => pure .empty
      return (key, value) :: (← blockEntries fuel)
    | some .blockEnd => next; return []
    | _ => failure

/-- The items of a sequence in brackets, up to the closing one. A key makes a mapping of one entry;
if there is nothing behind its question mark, the token that shows this is passed over. -/
def flowItems : Nat → Bool → Reader (List Node)
  | 0, _ => failure
  | fuel + 1, first => do
    if (← peek) = some .flowSequenceEnd then
      next
      return []
    if !first then expect .flowEntry
    match ← peek with
    | some .flowSequenceEnd => next; return []
    | some .key =>
      next
      let key ←
        if (← peek).any [Token.value, .flowEntry, .flowSequenceEnd].contains then
          next
          pure .empty
        else node fuel false false
      let value ← match ← peek with
        | some .value =>
          next
          unlessNext [.flowEntry, .flowSequenceEnd] (node fuel false false)
        | _ => pure .empty
      return .mapping none none [(key, value)] :: (← flowItems fuel false)
    | _ =>
      let item ← node fuel false false
      return item :: (← flowItems fuel false)

/-- The entries of a mapping in braces, up to the closing one. A node alone is a key. -/
def flowEntries : Nat → Bool → Reader (List (Node × Node))
  | 0, _ => failure
  | fuel + 1, first => do
    if (← peek) = some .flowMappingEnd then
      next
      return []
    if !first then expect .flowEntry
    match ← peek with
    | some .flowMappingEnd => next; return []
    | some .key =>
      next
      let key ← unlessNext [.value, .flowEntry, .flowMappingEnd] (node fuel false false)
      let value ← match ← peek with
        | some .value =>
          next
          unlessNext [.flowEntry, .flowMappingEnd] (node fuel false false)
        | _ => pure .empty
      return (key, value) :: (← flowEntries fuel false)
    | _ =>
      let key ← node fuel false false
      return (key, .empty) :: (← flowEntries fuel false)

end

/-- The directives in front of a document. -/
def directives : List Token → List Directive × List Token
  | .directive d :: rest =>
    let (more, rest) := directives rest
    (d :: more, rest)
  | rest => ([], rest)

/-- The one document of a text. Without directives its first line may be left out. -/
def document : Reader Node := do
  let tokens := (← get).tokens
  let fuel := 2 * tokens.length + 2
  let (directives, rest) := directives tokens
  let root ←
    if tokens.isEmpty then pure .empty
    else if !directives.isEmpty || rest.head? = some .documentStart then do
      match meanings? directives with
      | none => failure
      | some meanings => set (Source.mk rest [] meanings)
      expect .documentStart
      match ← peek with
      | none | some (.directive _) | some .documentStart | some .documentEnd => pure .empty
      | _ => node fuel true false
    else node fuel true false
  if (← get).tokens.all (· = .documentEnd) then return root else failure

end Reader

/-- The node at the root of a document. -/
def Node.ofTokens? (tokens : List Token) : Option Node :=
  (Reader.document.run ⟨tokens, [], []⟩).map (·.1)

end ZoomConfig.Yaml
