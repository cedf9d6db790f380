import ZoomConfig.Error
import ZoomConfig.Path
/-!
Input declarations and the tree that binds names to them.

A declaration is the path of a file or a mapping with a `format` key. Null binds a name to nothing.

Correspondence (program ↔ module):
  `InputDeclaration::content_id` ↔ `Declaration.contentId`
  `InputDeclaration::to_source`  ↔ `Declaration.toSource`
  `InputDeclaration::describe`   ↔ `Declaration.describe`
  `input_tree_from_value`        ↔ `InputTree.parse`
  `tree_from_mapping`            ↔ `InputTree.addEntries`
-/
namespace ZoomConfig

/-- What a name is bound to. -/
inductive Declaration where
  | path (text : String)
  | entries (mapping : List (Value × Value))

/-- What a driver opens: a path seen from the base directory, or a mapping with the base directory
for its own paths. -/
inductive InputSource where
  | path (text : String)
  | entries (mapping : List (Value × Value)) (configDir : String)

/-- A mapping by its format. -/
def describeEntries (m : Mapping) : String :=
  match (Mapping.get? m formatKey).bind Value.asString? with
  | some format => format ++ " input"
  | none => "abstract input"

/-- A source in a few words. -/
def InputSource.describe : InputSource → String
  | .path text => text
  | .entries m _ => describeEntries m

namespace Declaration

/-- A declaration in a few words. -/
def describe : Declaration → String
  | .path text => text
  | .entries m => describeEntries m

/-- The identity of a declaration. A mapping has none if JSON cannot hold one of its keys. -/
def contentId : Declaration → Except ConfigError ContentId
  | .path text => .ok (.ofPath text)
  | .entries m => (ContentId.ofMapping m).mapError fun e => .schema (.declarationKey e)

/-- What a driver opens for a declaration. -/
def toSource (configDir : String) : Declaration → InputSource
  | .path text => .path (Path.fromBase text configDir)
  | .entries m => .entries m configDir

end Declaration

/-- Names bound to declarations, or to nothing. -/
abbrev InputTree := Forest (Option Declaration)

namespace InputTree

mutual

/-- What a name is bound to. -/
def ofValue (name : String) : Value → Except ConfigError (Tree (Option Declaration))
  | .null => .ok (.leaf none)
  | .string path => .ok (.leaf (some (.path path)))
  | .mapping entries =>
    if Mapping.contains entries formatKey then .ok (.leaf (some (.entries entries)))
    else (addEntries [] entries).map .branch
  | v => .error (.schema (.declarationShape name v))

/-- Adds the entries of a mapping to named nodes; of entries with one name the last counts. -/
def addEntries (nodes : List (String × Tree (Option Declaration))) :
    List (Value × Value) → Except ConfigError (List (String × Tree (Option Declaration)))
  | [] => .ok nodes
  | (k, v) :: rest =>
    match keyText k with
    | .error e => .error (.ofKey e)
    | .ok name =>
      match ofValue name v with
      | .error e => .error e
      | .ok node => addEntries (Dict.insert nodes name node) rest

end

/-- The tree of a resolved `input` value. -/
def parse : Value → Except ConfigError InputTree
  | .mapping entries =>
    if Mapping.contains entries formatKey then .error (.schema .inputIsDeclaration)
    else addEntries [] entries
  | v => .error (.schema (.inputShape v))

end InputTree

end ZoomConfig
