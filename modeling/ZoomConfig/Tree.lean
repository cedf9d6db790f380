import ZoomConfig.Dict
import ZoomConfig.Text.Basic
/-!
Trees of named nodes, and their flat form.

A leaf of a tree has a path: the names on the way to it with slashes between them. `flatten` gives
the leaves by their paths, `unflatten` builds the tree of given paths. Names themselves may hold
slashes, and then two leaves can share a path, or a path can lead through a leaf.

Correspondence (program ↔ module):
  `Tree::as_leaf` ↔ `Tree.asLeaf?`
  `get_path`      ↔ `Forest.get?`
  `flatten`       ↔ `Forest.flatten`
  `flatten_into`  ↔ `Forest.leavesOf` and `Forest.leavesUnder`
  `unflatten`     ↔ `Forest.unflatten`
  `insert_path`   ↔ `Forest.insertPath` with `Forest.insertSegments`
-/
namespace ZoomConfig

/-- A leaf, or named nodes in ascending order of their names. -/
inductive Tree (α : Type) where
  | leaf (value : α)
  | branch (children : List (String × Tree α))

/-- The named nodes at the top. -/
abbrev Forest (α : Type) := Dict String (Tree α)

/-- Why paths make no tree. -/
inductive TreeError where
  | conflict (path : String)
  | duplicate (path : String)
  deriving DecidableEq, Repr

/-- What is wrong, in words. -/
def TreeError.message : TreeError → String
  | .conflict path => "path '" ++ path ++ "' is used both as a value and as a group"
  | .duplicate path => "path '" ++ path ++ "' appears more than once"

namespace Tree

variable {α : Type}

/-- The value of a leaf. -/
def asLeaf? : Tree α → Option α
  | .leaf value => some value
  | .branch _ => none

end Tree

namespace Forest

variable {α : Type}

/-- The names of a path. -/
def segments (path : String) : List String := Text.split '/' path

/-- The node at the end of a list of names. -/
def getSegments? : Forest α → List String → Option (Tree α)
  | _, [] => none
  | f, [name] => Dict.get? f name
  | f, name :: rest =>
    match Dict.get? f name with
    | some (.branch children) => getSegments? children rest
    | _ => none

/-- The node at a path. -/
def get? (f : Forest α) (path : String) : Option (Tree α) := getSegments? f (segments path)

/-- The path of a child. -/
def childPath : Option String → String → String
  | none, name => name
  | some group, name => group ++ "/" ++ name

mutual

/-- The leaves of a node with their paths, from left to right. -/
def leavesOf (path : String) : Tree α → List (String × α)
  | .leaf value => [(path, value)]
  | .branch children => leavesUnder (some path) children

/-- The leaves of named nodes with their paths, from left to right. -/
def leavesUnder (group : Option String) : List (String × Tree α) → List (String × α)
  | [] => []
  | (name, node) :: rest => leavesOf (childPath group name) node ++ leavesUnder group rest

end

/-- The leaves by their paths; of leaves with one path the last counts. Groups without a leaf leave
no trace. -/
def flatten (f : Forest α) : Dict String α := Dict.ofList (leavesUnder none f)

/-- Adds a leaf beneath the names that lead to it; `path` names it in an error. -/
def insertSegments (path : String) (value : α) :
    List String → Forest α → Except TreeError (Forest α)
  | [], f => .ok f
  | [name], f =>
    match Dict.get? f name with
    | some (.leaf _) => .error (.duplicate path)
    | some (.branch _) => .error (.conflict path)
    | none => .ok (Dict.insert f name (.leaf value))
  | name :: rest, f =>
    match Dict.get? f name with
    | some (.leaf _) => .error (.conflict path)
    | some (.branch children) =>
      (insertSegments path value rest children).map fun c => Dict.insert f name (.branch c)
    | none => (insertSegments path value rest []).map fun c => Dict.insert f name (.branch c)

/-- Adds a leaf at a path that no leaf and no group has. -/
def insertPath (f : Forest α) (path : String) (value : α) : Except TreeError (Forest α) :=
  insertSegments path value (segments path) f

/-- The tree of leaves given by their paths; the first that clashes with an earlier one decides. -/
def unflatten (entries : List (String × α)) : Except TreeError (Forest α) :=
  entries.foldlM (fun f e => insertPath f e.1 e.2) []

end Forest

end ZoomConfig
