import ZoomConfig.Yaml.Node
import ZoomConfig.Yaml.Scalar
/-!
From text to the value of a document.

An alias stands for a copy of the node with its anchor. Collections nest at most `maxDepth` deep,
copies included, no mapping has a key twice, and the number of copies is limited.
-/
namespace ZoomConfig.Yaml

/-- How deep collections may nest. -/
def maxDepth : Nat := 128

/-- The name of a tag that begins with an exclamation mark. A lone mark is its own name. -/
def tagName? (tag : Option Octets) : Option String :=
  match tag with
  | some (0x21 :: rest) =>
    String.fromUTF8? (ByteArray.mk ((if rest.isEmpty then [0x21] else rest).toArray))
  | _ => none

namespace Node

mutual

/-- How large a node is: one for a scalar or alias, two for the ends of a collection. -/
def size : Node → Nat
  | .alias _ => 1
  | .scalar .. => 1
  | .sequence _ _ items => sizeItems items + 2
  | .mapping _ _ entries => sizeEntries entries + 2

/-- The size of all items. -/
def sizeItems : List Node → Nat
  | [] => 0
  | n :: rest => n.size + sizeItems rest

/-- The size of all keys and values. -/
def sizeEntries : List (Node × Node) → Nat
  | [] => 0
  | (k, v) :: rest => k.size + v.size + sizeEntries rest

end

/-- A node with its number, if it has an anchor. -/
def numbered (anchor : Option Nat) (n : Node) : List (Nat × Node) :=
  (anchor.map fun a => (a, n)).toList

mutual

/-- The nodes with anchors, in the order in which they begin. -/
def anchored : Node → List (Nat × Node)
  | .alias _ => []
  | .scalar anchor tag s => numbered anchor (.scalar anchor tag s)
  | .sequence anchor tag items =>
    numbered anchor (.sequence anchor tag items) ++ anchoredItems items
  | .mapping anchor tag entries =>
    numbered anchor (.mapping anchor tag entries) ++ anchoredEntries entries

/-- Those among items. -/
def anchoredItems : List Node → List (Nat × Node)
  | [] => []
  | n :: rest => n.anchored ++ anchoredItems rest

/-- Those among keys and values. -/
def anchoredEntries : List (Node × Node) → List (Nat × Node)
  | [] => []
  | (k, v) :: rest => k.anchored ++ v.anchored ++ anchoredEntries rest

end

/-- The nodes of anchors, and how many aliases may be followed. -/
structure Scope where
  targets : List (Nat × Node)
  limit : Nat

/-- A result, or none for an error, with the number of aliases followed so far. -/
abbrev Evaluation (α : Type) := StateT Nat Option α

/-- The node that a node stands for: itself, or what an alias refers to. -/
def follow (scope : Scope) : Node → Evaluation Node
  | .alias target => do
    let followed := (← get) + 1
    set followed
    if scope.limit < followed then failure
    else match scope.targets.lookup target with
      | some n => return n
      | none => failure
  | n => return n

/-- A value under the name of a tag. -/
def tagged (tag : Option Octets) (v : Value) : Value :=
  match tagName? tag with
  | some name => .tagged name v
  | none => v

/-- The value of a scalar with its tag. -/
def scalarValue? (tag : Option Octets) (s : Scalar) : Option Value :=
  match tag with
  | none => s.value?
  | some octets =>
    match tagName? tag with
    | some name => s.value?.map (.tagged name)
    | none => s.valueUnder? octets

/-- The value of a node that holds at most `depth` collections one in another. -/
def value (scope : Scope) : Nat → Node → Evaluation Value
  | 0, n => do
    match ← n.follow scope with
    | .scalar _ tag s => StateT.lift (scalarValue? tag s)
    | _ => failure
  | depth + 1, n => do
    match ← n.follow scope with
    | .scalar _ tag s => StateT.lift (scalarValue? tag s)
    | .sequence _ tag items => return tagged tag (.sequence (← items.mapM (value scope depth)))
    | .mapping _ tag entries =>
      let m ← entries.foldlM (fun (m : Mapping) (k, v) => do
        let k ← value scope depth k
        if m.any (·.1 == k) then failure
        else
          let v ← value scope depth v
          return m ++ [(k, v)]) []
      return tagged tag (.mapping m)
    | .alias _ => failure

/-- The value of the node at the root. An anchor that was numbered twice refers to the later node.
-/
def value? (root : Node) : Option Value :=
  ((root.value ⟨root.anchored.reverse, 100 * root.size⟩ maxDepth).run 0).map (·.1)

end Node

/-- The value of the document that a text holds; none if the text is no document. -/
def parse? (text : String) : Option Value := do
  let cs := match text.toList with
    | c :: rest => if c.toNat = 0xFEFF then rest else c :: rest
    | [] => []
  if cs.all isAllowed then
    let tokens ← Token.ofText? cs
    let root ← Node.ofTokens? tokens
    root.value?
  else none

end ZoomConfig.Yaml
