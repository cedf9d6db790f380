import ZoomConfig.Text.Basic
/-!
Paths as text.

A path is taken apart at its slashes, without a look at any file. `normalize` resolves `.` and `..`
by the names alone: a name followed by `..` cancels, `..` at the root stays at the root, and in
front of a relative path it is kept.

Correspondence (program ↔ module):
  `normalize_path` ↔ `normalize`
  `is_remote`      ↔ `isRemote`
  `resolve_path`   ↔ `fromBase`
-/
namespace ZoomConfig.Path

/-- A part of a path. -/
inductive Component where
  | root
  | current
  | parent
  | name (text : String)
  deriving DecidableEq, Repr

/-- The part between two slashes, if it says anything. -/
def ofPiece (piece : String) : Option Component :=
  if piece = "" ∨ piece = "." then none
  else if piece = ".." then some .parent
  else some (.name piece)

/-- Does a path begin at the root? -/
def isAbsolute (path : String) : Bool := path.toList.head? == some '/'

/-- The parts of a path. Repeated slashes, a slash at the end and `.` say nothing, except for `.` in
front. -/
def components (path : String) : List Component :=
  let pieces := Text.split '/' path
  let front :=
    if isAbsolute path then [.root]
    else if pieces.head? = some "." then [.current]
    else []
  front ++ pieces.filterMap ofPiece

/-- The text of a part. -/
def Component.text : Component → String
  | .root => ""
  | .current => "."
  | .parent => ".."
  | .name text => text

/-- The path with the given parts. -/
def render : List Component → String
  | .root :: rest => "/" ++ Text.join '/' (rest.map Component.text)
  | parts => Text.join '/' (parts.map Component.text)

/-- The parts passed so far, the last first, after one more. -/
def step (stack : List Component) : Component → List Component
  | .current => stack
  | .parent =>
    match stack with
    | .name _ :: below => below
    | .root :: _ => stack
    | _ => .parent :: stack
  | part => part :: stack

/-- The parts that are left when `.` and `..` are resolved. -/
def resolve (parts : List Component) : List Component := (parts.foldl step []).reverse

/-- The path without `.`, and without `..` but in front. -/
def normalize (path : String) : String := render (resolve (components path))

/-- A path seen from a base directory; an absolute one stands for itself. -/
def join (base path : String) : String :=
  if isAbsolute path then path
  else if base = "" ∨ base.toList.getLast? = some '/' then base ++ path
  else base ++ "/" ++ path

/-- The name at the end of a path. -/
def fileName? (path : String) : Option String :=
  match (components path).getLast? with
  | some (.name text) => some text
  | _ => none

/-- What follows the last dot of the name, unless that dot comes first. -/
def extension? (path : String) : Option String := do
  let name ← fileName? path
  let pieces := Text.split '.' name
  let last ← pieces.getLast?
  let stem := Text.join '.' pieces.dropLast
  if stem = "" then none else some last

/-- The path without its last part, if it has one beyond the root. -/
def parent? (path : String) : Option String :=
  match (components path).getLast? with
  | none | some .root => none
  | some _ => some (render (components path).dropLast)

/-- How references to other machines begin. -/
def remoteStarts : List String := ["s3://", "http://", "https://"]

/-- Is a path a reference to another machine? -/
def isRemote (path : String) : Bool :=
  remoteStarts.any fun start => start.toList.isPrefixOf path.toList

/-- A declared path seen from a base directory; a remote one stands as it is. -/
def fromBase (path base : String) : String :=
  if isRemote path then path else normalize (join base path)

end ZoomConfig.Path
