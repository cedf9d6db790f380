import ZoomConfig.Dict
import ZoomConfig.Files
import ZoomConfig.Text.Basic
/-!
A tree of files held in memory.

Paths are walked name by name as a file system does it: links are followed, `..` leads out of the
directory that was reached, and only a directory can be walked through.
-/
namespace ZoomConfig

/-- What a name stands for. -/
inductive FileNode where
  | file (bytes : List UInt8)
  | directory (entries : List (String × FileNode))
  | link (target : String)

/-- A tree of files, with the directory that relative paths start from. -/
structure FileTree where
  root : List (String × FileNode)
  workingDir : List String

namespace FileTree

/-- The tree without files. -/
def empty : FileTree := ⟨[], []⟩

/-- The names between the slashes of a path. -/
def names (path : String) : List String := Text.split '/' path

/-- Puts a node at the end of a list of names; directories on the way are made where there are none.
Nothing is put beneath what is no directory. -/
def put (node : FileNode) : List String → List (String × FileNode) → List (String × FileNode)
  | [], entries => entries
  | [name], entries =>
    match node, Dict.get? entries name with
    | .directory [], some (.directory _) => entries
    | _, _ => Dict.insert entries name node
  | name :: rest, entries =>
    match Dict.get? entries name with
    | some (.directory inner) => Dict.insert entries name (.directory (put node rest inner))
    | none => Dict.insert entries name (.directory (put node rest []))
    | some _ => entries

/-- Adds a node at an absolute path. -/
def add (t : FileTree) (path : String) (node : FileNode) : FileTree :=
  { t with root := put node ((names path).filter (· ≠ "")) t.root }

/-- The node at the end of names that lead through directories only. -/
def node? : List (String × FileNode) → List String → Option FileNode
  | entries, [] => some (.directory entries)
  | entries, [name] => Dict.get? entries name
  | entries, name :: rest =>
    match Dict.get? entries name with
    | some (.directory inner) => node? inner rest
    | _ => none

/-- How many links are followed. -/
def maxLinks : Nat := 40

/-- The most bytes of a name. -/
def maxName : Nat := 255

/-- The most bytes of a path, with the one that ends it. -/
def maxPath : Nat := 4096

/-- Walks names from the place that was reached, which is kept with its last name first. Each step
takes a name or follows a link, so the fuel counts both. -/
def walk (t : FileTree) : Nat → Nat → List String → List String → Except FileError (List String)
  | 0, _, _, _ => .error .tooManyLinks
  | _ + 1, _, place, [] => .ok place
  | fuel + 1, links, place, name :: rest =>
    match node? t.root place.reverse with
    | some (.directory entries) =>
      if name = "" ∨ name = "." then walk t fuel links place rest
      else if name = ".." then walk t fuel links place.tail rest
      else if name.utf8ByteSize > maxName then .error .nameTooLong
      else
        match Dict.get? entries name with
        | none => .error .notFound
        | some (.link target) =>
          if links = 0 then .error .tooManyLinks
          else
            let start := if target.startsWith "/" then [] else place
            walk t fuel (links - 1) start (names target ++ rest)
        | some _ => walk t fuel links (name :: place) rest
    | some _ => .error .notDirectory
    | none => .error .notFound

/-- Follows a path to its end; the names that lead there without links. -/
def follow (t : FileTree) (path : String) : Except FileError (List String) :=
  if path.toList.contains (Char.ofNat 0) then .error .nulInPath
  else if path = "" then .error .notFound
  else if path.utf8ByteSize ≥ maxPath then .error .nameTooLong
  else
    let start := if path.startsWith "/" then [] else t.workingDir.reverse
    (walk t (maxPath * (maxLinks + 2)) maxLinks start (names path)).map List.reverse

/-- Does a path lead to a file? -/
def isFile (t : FileTree) (path : String) : Bool :=
  match t.follow path with
  | .ok place =>
    match node? t.root place with
    | some (.file _) => true
    | _ => false
  | .error _ => false

/-- The text of a file. -/
def readText (t : FileTree) (path : String) : Except FileError String :=
  match t.follow path with
  | .error e => .error e
  | .ok place =>
    match node? t.root place with
    | some (.file bytes) =>
      match String.fromUTF8? ⟨bytes.toArray⟩ with
      | some text => .ok text
      | none => .error .notText
    | some (.directory _) => .error .isDirectory
    | _ => .error .notFound

/-- The absolute path of what a path leads to. -/
def realPath (t : FileTree) (path : String) : Except FileError String :=
  (t.follow path).map fun place => "/" ++ Text.join '/' place

/-- Access to a tree of files. -/
def files {m : Type → Type} [Monad m] (t : FileTree) : Files m where
  isFile path := return t.isFile path
  readText path := return t.readText path
  realPath path := return t.realPath path

end FileTree

end ZoomConfig
