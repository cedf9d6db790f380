import ZoomConfig.Dict
import ZoomConfig.Value.Show
/-!
JSON values, and the values of documents as JSON.

A key of a document that is text, a boolean or a finite number has a text form and can be the name
of a member; other keys cannot. A tagged value becomes an object whose only member is named by the
tag, and a double that is not finite becomes null.

Correspondence (program ↔ module):
  `canonicalize_json` ↔ `canonical`
-/
namespace ZoomConfig

/-- A JSON value. Members keep their order. -/
inductive Json where
  | null
  | bool (b : Bool)
  | number (n : Number)
  | string (s : String)
  | array (items : List Json)
  | object (members : List (String × Json))

instance : Inhabited Json := ⟨.null⟩

/-- Why a key of a document cannot be a member's name. -/
inductive JsonKeyError where
  | notText
  | notFinite
  deriving DecidableEq, Repr

/-- What is wrong, in words. -/
def JsonKeyError.message : JsonKeyError → String
  | .notText => "key must be a string"
  | .notFinite => "float key must be finite (got NaN or +/-inf)"

/-- The JSON text of a number. -/
def Number.jsonText : Number → String
  | .int n => toString n
  | .float x => Decimal.jsonLayout.write x

namespace Json

/-- A number as JSON has it: a double that is not finite is null. -/
def ofNumber : Number → Json
  | .int n => .number (.int n)
  | .float x => if x.isFinite then .number (.float x) else .null

/-- A whole number. -/
def ofNat (n : Nat) : Json := .number (.int n)

/-- A double; null if it is not finite. -/
def ofFloat (x : Float) : Json := ofNumber (.float x)

/-- The member name that a key of a document becomes. -/
def keyName : Value → Except JsonKeyError String
  | .string s => .ok s
  | .bool b => .ok (boolText b)
  | .number (.int n) => .ok (toString n)
  | .number (.float x) => if x.isFinite then .ok (Decimal.jsonLayout.write x) else .error .notFinite
  | _ => .error .notText

mutual

/-- A document's value as JSON, with one member for each entry of a mapping. -/
def ofValue : Value → Except JsonKeyError Json
  | .null => .ok .null
  | .bool b => .ok (.bool b)
  | .number n => .ok (ofNumber n)
  | .string s => .ok (.string s)
  | .sequence items => (ofItems items).map .array
  | .mapping entries => (ofEntries entries).map .object
  | .tagged tag v => (ofValue v).map fun j => .object [(tagText tag, j)]

/-- The items of a sequence as JSON. -/
def ofItems : List Value → Except JsonKeyError (List Json)
  | [] => .ok []
  | v :: rest =>
    match ofValue v with
    | .error e => .error e
    | .ok j => (ofItems rest).map (j :: ·)

/-- The entries of a mapping as members; the first key or value that cannot be written decides. -/
def ofEntries : List (Value × Value) → Except JsonKeyError (List (String × Json))
  | [] => .ok []
  | (k, v) :: rest =>
    match keyName k with
    | .error e => .error e
    | .ok name =>
      match ofValue v with
      | .error e => .error e
      | .ok j => (ofEntries rest).map ((name, j) :: ·)

end

mutual

/-- The same value with the members of every object in ascending order of their names; of members
with one name the last counts. -/
def canonical : Json → Json
  | .array items => .array (canonicalItems items)
  | .object members => .object (Dict.ofList (canonicalMembers members))
  | j => j

/-- Every item in canonical form. -/
def canonicalItems : List Json → List Json
  | [] => []
  | j :: rest => canonical j :: canonicalItems rest

/-- Every member's value in canonical form. -/
def canonicalMembers : List (String × Json) → List (String × Json)
  | [] => []
  | (n, j) :: rest => (n, canonical j) :: canonicalMembers rest

end

/-- The value of a member; the last of repeated ones counts. -/
def member? (name : String) : Json → Option Json
  | .object members => (members.reverse.find? (·.1 == name)).map (·.2)
  | _ => none

end Json

end ZoomConfig
