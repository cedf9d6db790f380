import ZoomConfig.Files
import ZoomConfig.Path
import ZoomConfig.Text.Basic
/-!
Files of variables.

Each line of such a file gives a variable a value: `NAME=value`, perhaps with `export` in front and
a comment behind. Values may be quoted, and a quoted value may go over several lines; outside single
quotes a dollar sign stands for the value of a variable. A file is read up to its first error.
-/
namespace ZoomConfig.EnvFile

/-- A part of a value: a character, or the value of a variable. -/
inductive Piece where
  | char (c : Char)
  | reference (name : String)
  deriving DecidableEq, Repr

/-- A variable and its value as written. -/
structure Assignment where
  name : String
  value : List Piece
  deriving DecidableEq, Repr

/-! Lines. -/

/-- Where a place of a line is: between values, behind a blank or a backslash, or within quotes. -/
inductive Place where
  | plain
  | blank
  | escaped
  | single
  | singleEscaped
  | double
  | doubleEscaped
  deriving DecidableEq, Repr

/-- The place behind a character that follows a plain place. -/
def Place.afterPlain (c : Char) : Place :=
  if c = '\\' then .escaped
  else if c = Char.ofNat 0x22 then .double
  else if c = Char.ofNat 0x27 then .single
  else .plain

/-- The place behind a character; none where a comment begins. -/
def Place.step? : Place → Char → Option Place
  | .plain, c =>
    if Text.isBlank c ∧ c ≠ '\n' ∧ c ≠ '\r' then some .blank else some (.afterPlain c)
  | .blank, c => if c = '#' then none else some (.afterPlain c)
  | .escaped, _ => some .plain
  | .single, c =>
    some (if c = '\\' then .singleEscaped else if c = Char.ofNat 0x27 then .plain else .single)
  | .singleEscaped, _ => some .single
  | .double, c =>
    some (if c = '\\' then .doubleEscaped else if c = Char.ofNat 0x22 then .plain else .double)
  | .doubleEscaped, _ => some .double

/-- The characters up to a comment, and the place behind them; no place if there is a comment. -/
def scan : Place → List Char → List Char × Option Place
  | p, [] => ([], some p)
  | p, c :: rest =>
    match p.step? c with
    | none => ([], none)
    | some q =>
      let (kept, last) := scan q rest
      (c :: kept, last)

/-- The lines of a text, each with its line break. -/
def physicalLines (cs : List Char) : List (List Char) :=
  cs.foldr (fun c lines => match c, lines with
    | '\n', _ => ['\n'] :: lines
    | _, line :: rest => (c :: line) :: rest
    | _, [] => [[c]]) []

/-- A line without its line break. -/
def withoutBreak (line : List Char) : List Char :=
  match line.reverse with
  | '\n' :: '\r' :: rest => rest.reverse
  | '\n' :: rest => rest.reverse
  | _ => line

/-- The lines of a file, joined where quotes or backslashes ask for it. `before` is what was read of
a line so far; a last line that asks for more is left out. -/
def joinedLines : List Char → Place → List (List Char) → List (List Char)
  | _, _, [] => []
  | before, p, line :: rest =>
    if (Text.trimStart (before ++ line)).head? = some '#' then joinedLines [] .plain rest
    else
      let (kept, last) := scan p line
      match last with
      | none => (before ++ kept) :: joinedLines [] .plain rest
      | some .plain => withoutBreak (before ++ line) :: joinedLines [] .plain rest
      | some q => joinedLines (before ++ line) q rest

/-! Values. -/

/-- How a value goes on. The flag says whether double quotes are open. -/
inductive Reading where
  | text (quoted : Bool)
  | singleQuoted
  | escaped (quoted : Bool)
  | name (quoted : Bool) (name : List Char)
  | bracedName (quoted : Bool) (name : List Char)
  | ended
  deriving DecidableEq, Repr

/-- The variable whose name was read from its end to its start. -/
def reference (name : List Char) : Piece := .reference (String.ofList name.reverse)

/-- The pieces of a value, from how it goes on; none if it is malformed. -/
def pieces? : Reading → List Char → Option (List Piece)
  | .name quoted name, [] => if quoted then none else some [reference name]
  | .text quoted, [] => if quoted then none else some []
  | .escaped quoted, [] => if quoted then none else some []
  | .ended, [] => some []
  | .singleQuoted, [] => none
  | .bracedName .., [] => none
  | .ended, c :: rest =>
    if c = ' ' ∨ c = '\t' then pieces? .ended rest else if c = '#' then some [] else none
  | .escaped quoted, c :: rest =>
    if c = 'n' then (pieces? (.text quoted) rest).map (.char '\n' :: ·)
    else if c = '\\' ∨ c = Char.ofNat 0x27 ∨ c = Char.ofNat 0x22 ∨ c = '$' ∨ c = ' ' then
      (pieces? (.text quoted) rest).map (.char c :: ·)
    else none
  | .singleQuoted, c :: rest =>
    if c = Char.ofNat 0x27 then pieces? (.text false) rest
    else (pieces? .singleQuoted rest).map (.char c :: ·)
  | .name quoted name, c :: rest =>
    if c.isAlphanum then pieces? (.name quoted (c :: name)) rest
    else if c = '\x7b' ∧ name.isEmpty then pieces? (.bracedName quoted []) rest
    else if c = '$' then (pieces? (.name quoted []) rest).map (reference name :: ·)
    else (pieces? (.text quoted) rest).map fun more => reference name :: .char c :: more
  | .bracedName quoted name, c :: rest =>
    if c = '\x7d' then (pieces? (.text quoted) rest).map (reference name :: ·)
    else pieces? (.bracedName quoted (c :: name)) rest
  | .text quoted, c :: rest =>
    if c = '$' then pieces? (.name quoted []) rest
    else if c = Char.ofNat 0x22 then pieces? (.text !quoted) rest
    else if c = '\\' then pieces? (.escaped quoted) rest
    else if quoted then (pieces? (.text true) rest).map (.char c :: ·)
    else if c = Char.ofNat 0x27 then pieces? .singleQuoted rest
    else if c = ' ' ∨ c = '\t' then pieces? .ended rest
    else (pieces? (.text false) rest).map (.char c :: ·)

/-! Assignments. -/

/-- The name at the front, and what follows it and white space. -/
def readName? (cs : List Char) : Option (List Char × List Char) :=
  let name := cs.takeWhile fun c => c.isAlphanum || c == '_' || c == '.'
  if name.head?.any fun c => c.isAlpha || c == '_' then
    some (name, Text.trimStart (cs.drop name.length))
  else none

/-- The name and the value on a line. The word `export` may stand in front, and is itself a name if
an equals sign follows it. -/
def split? (cs : List Char) : Option (List Char × List Char) := do
  match ← readName? cs with
  | (name, '=' :: rest) => return (name, Text.trimStart rest)
  | (name, rest) =>
    if name = "export".toList then
      match ← readName? rest with
      | (name, '=' :: rest) => return (name, Text.trimStart rest)
      | _ => none
    else none

/-- What a line says: nothing, an assignment, or an error. -/
def readLine? (line : List Char) : Option (Option Assignment) :=
  let line := Text.trim line
  if line.isEmpty ∨ line.head? = some '#' then some none
  else do
    let (name, value) ← split? line
    let pieces ← if value.head? = some '#' then some [] else pieces? (.text false) value
    return some ⟨String.ofList name, pieces⟩

/-- The assignments of lines, up to the first error. -/
def readLines : List (List Char) → List Assignment
  | [] => []
  | line :: rest =>
    match readLine? line with
    | none => []
    | some none => readLines rest
    | some (some a) => a :: readLines rest

/-- The assignments of a file. -/
def parse (text : String) : List Assignment :=
  let cs := match text.toList with
    | c :: rest => if c.toNat = 0xFEFF then rest else c :: rest
    | [] => []
  readLines (joinedLines [] .plain (physicalLines cs))

/-! Variables. -/

variable {m : Type → Type} [Monad m]

/-- The variables that are set, and those that files added. -/
structure Environment (m : Type → Type) where
  outer : String → m (Option String)
  added : List (String × String)

/-- The value of a variable. -/
def Environment.get? (env : Environment m) (name : String) : m (Option String) := do
  match ← env.outer name with
  | some value => return some value
  | none => return env.added.lookup name

/-- The text of a value. A variable that is not set has no text. -/
def expand (env : Environment m) : List Piece → m (List Char)
  | [] => return []
  | .char c :: rest => return c :: (← expand env rest)
  | .reference name :: rest => do
    let value ← env.get? name
    return (value.getD "").toList ++ (← expand env rest)

/-- Adds the variables that are not set yet, one after the other. -/
def Environment.addAll (env : Environment m) : List Assignment → m (Environment m)
  | [] => return env
  | a :: rest => do
    match ← env.get? a.name with
    | some _ => env.addAll rest
    | none =>
      let value ← expand env a.value
      Environment.addAll { env with added := (a.name, String.ofList value) :: env.added } rest

/-- A file of this name in a directory or in the nearest one above. -/
def find? (files : Files m) (name : String) : Nat → String → m (Option String)
  | 0, _ => return none
  | fuel + 1, dir => do
    let path := Path.join dir name
    if ← files.isFile path then return some path
    else match Path.parent? dir with
      | some above => find? files name fuel above
      | none => return none

/-- The environment with the variables of the `.env` file of a directory. -/
def load (files : Files m) (outer : String → m (Option String)) (dir : String) :
    m (Environment m) := do
  let env : Environment m := ⟨outer, []⟩
  match ← find? files ".env" ((Path.components dir).length + 1) dir with
  | none => return env
  | some path =>
    match ← files.readText path with
    | .error _ => return env
    | .ok text => env.addAll (parse text)

end ZoomConfig.EnvFile
