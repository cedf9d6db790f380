import ZoomConfig.Driver
/-!
Opened inputs by the identities of their declarations.

Every distinct declaration is opened once, in ascending order of identities, and asked for its area
right away. The first failure ends it all.

Correspondence (program ↔ module):
  `InputRegistry::materialize`   ↔ `materialize`
  its pass over the declarations ↔ `identify`
  its loop over the identities   ↔ `openAll` with `openInput`
-/
namespace ZoomConfig

/-- What inputs are opened against. -/
structure LoadContext (α : Type) where
  configDir : String
  pyramid : Pyramid
  delimiters : Delimiters α
  readonly : Bool

/-- An input with the declaration that it was opened from. -/
structure OpenedInput (m : Type → Type) (α : Type) where
  id : ContentId
  declaration : Declaration
  handle : InputHandle m α

/-- Opened inputs by their identities. -/
abbrev InputRegistry (m : Type → Type) (α : Type) := Dict ContentId (OpenedInput m α)

namespace InputRegistry

/-- The first declaration for each identity. -/
def identify : Dict ContentId Declaration → List Declaration →
    Except ConfigError (Dict ContentId Declaration)
  | known, [] => .ok known
  | known, d :: rest =>
    match d.contentId with
    | .error e => .error e
    | .ok id => identify (Dict.insertNew known id d) rest

variable {m : Type → Type} [Monad m] {α : Type}

/-- What a driver is told about a declaration. -/
def request (ctx : LoadContext α) (d : Declaration) : InputRequest α :=
  { source := d.toSource ctx.configDir
    pyramid := ctx.pyramid
    pixelbuffer := ctx.pyramid.pixelbuffer
    delimiters := ctx.delimiters
    readonly := ctx.readonly }

/-- Finds the driver of a declaration, opens the input and asks for its area. -/
def openInput (ctx : LoadContext α) (drivers : Drivers m α) (d : Declaration) :
    m (Except DriverError (InputHandle m α)) := do
  match drivers.inputDriver? (d.toSource ctx.configDir) with
  | .error e => return .error e
  | .ok driver =>
    match ← driver.load (request ctx d) with
    | .error e => return .error e
    | .ok handle =>
      match ← handle.bbox ctx.pyramid.crs with
      | .error e => return .error e
      | .ok _ => return .ok handle

/-- Opens declarations one after the other. -/
def openAll (ctx : LoadContext α) (drivers : Drivers m α) :
    List (ContentId × Declaration) → m (Except ConfigError (InputRegistry m α))
  | [] => return .ok []
  | (id, d) :: rest => do
    match ← openInput ctx drivers d with
    | .error e => return .error (.driver d.describe e)
    | .ok handle =>
      match ← openAll ctx drivers rest with
      | .error e => return .error e
      | .ok opened => return .ok ((id, ⟨id, d, handle⟩) :: opened)

/-- Opens every distinct declaration once. -/
def materialize (ctx : LoadContext α) (drivers : Drivers m α) (declarations : List Declaration) :
    m (Except ConfigError (InputRegistry m α)) :=
  match identify [] declarations with
  | .error e => return .error e
  | .ok known => openAll ctx drivers known

end InputRegistry

end ZoomConfig
