import ZoomConfig.Zoom.Condition
/-!
Configuration trees with zoom conditions.

`Node.parse` reads a value once, with the conditions in its keys; `Node.resolve` gives what is left
of it at one zoom level. A mapping with a `format` key is a declaration and is kept as it is. Among
the conditions of one mapping only the first that is true counts.

Correspondence (program ↔ module):
  `key_to_string`              ↔ `keyText`
  `NodeKey::parse`             ↔ `NodeKey.parse`
  `ConfigNode::parse`          ↔ `Node.parse`
  `ConfigNode::parse_children` ↔ `Node.parseChildren`
  `ConfigNode::resolve`        ↔ `Node.resolve` with `Node.collapse`
  `resolve_children`           ↔ `Node.resolveChildren`
  `into_mapping`               ↔ `Node.toMapping`
  `resolve_params`             ↔ `Node.resolveParams`
-/
namespace ZoomConfig

/-- The key that makes a mapping a declaration. -/
def formatKey : String := "format"

/-- The key beneath which absent children are kept as null. -/
def inputKey : String := "input"

/-- Why a key is refused. -/
inductive KeyError where
  | notText (found : Value)
  | malformed (key : String)

/-- The text of a key that is text, a number or a boolean. -/
def keyText : Value → Except KeyError String
  | .string s => .ok s
  | .number n => .ok n.text
  | .bool b => .ok (boolText b)
  | v => .error (.notText v)

/-- A key with its condition, if it is one. -/
structure NodeKey where
  name : String
  condition : Option Condition
  deriving DecidableEq, Repr

/-- The key of a name. -/
def NodeKey.parse (name : String) : Except KeyError NodeKey :=
  match Condition.classify name with
  | .plain => .ok ⟨name, none⟩
  | .condition c => .ok ⟨name, some c⟩
  | .malformed => .error (.malformed name)

/-- Is it the plain key of the inputs? -/
def NodeKey.isInput (key : NodeKey) : Bool := key.condition.isNone && key.name == inputKey

/-- A value with the conditions in its keys. -/
inductive Node where
  /-- Anything but a mapping. -/
  | value (v : Value)
  /-- A declaration. -/
  | terminal (entries : List (Value × Value))
  /-- Any other mapping, in document order. -/
  | branch (children : List (NodeKey × Node))

namespace Node

mutual

/-- Reads a value. -/
def parse : Value → Except KeyError Node
  | .mapping entries =>
    if Mapping.contains entries formatKey then .ok (.terminal entries)
    else (parseChildren entries).map .branch
  | v => .ok (.value v)

/-- Reads the entries of a mapping; the first key that is refused decides. -/
def parseChildren : List (Value × Value) → Except KeyError (List (NodeKey × Node))
  | [] => .ok []
  | (k, v) :: rest =>
    match keyText k with
    | .error e => .error e
    | .ok name =>
      match NodeKey.parse name with
      | .error e => .error e
      | .ok key =>
        match parse v with
        | .error e => .error e
        | .ok node => (parseChildren rest).map ((key, node) :: ·)

end

/-- What is left of one child. -/
structure Entry where
  name : String
  value : Value
  /-- Was it chosen by a condition? -/
  conditional : Bool

/-- The mapping of what is left. -/
def toMapping (entries : List Entry) : Mapping :=
  Mapping.ofEntries (entries.map fun e => (.string e.name, e.value))

/-- The value that stands for a mapping. Outside the inputs a single entry takes its place; among
the inputs only one that was chosen by a condition does. -/
def collapse (inInput : Bool) : List Entry → Option Value
  | [] => none
  | [e] =>
    if !inInput || e.conditional then some e.value else some (.mapping (toMapping [e]))
  | entries => some (.mapping (toMapping entries))

mutual

/-- What is left of a node at a zoom level. -/
def resolve (zoom : Nat) (inInput : Bool) : Node → Option Value
  | .value .null => none
  | .value v => some v
  | .terminal entries => some (.mapping entries)
  | .branch children => collapse inInput (resolveChildren zoom inInput false children)

/-- What is left of the children. Once a condition was true, `matched` passes over all others. -/
def resolveChildren (zoom : Nat) (inInput matched : Bool) : List (NodeKey × Node) → List Entry
  | [] => []
  | (key, child) :: rest =>
    match key.condition with
    | none =>
      let here := match resolve zoom (inInput || key.isInput) child with
        | some v => [⟨key.name, v, false⟩]
        | none => if inInput then [⟨key.name, .null, false⟩] else []
      here ++ resolveChildren zoom inInput matched rest
    | some c =>
      if c.holds zoom && !matched then
        let here := match resolve zoom inInput child with
          | some v => [⟨key.name, v, true⟩]
          | none => []
        here ++ resolveChildren zoom inInput true rest
      else resolveChildren zoom inInput matched rest

end

/-- The parameters at a zoom level; those of which nothing is left are missing. -/
def resolveParams (params : List (NodeKey × Node)) (zoom : Nat) : Mapping :=
  toMapping (resolveChildren zoom false false params)

end Node

end ZoomConfig
