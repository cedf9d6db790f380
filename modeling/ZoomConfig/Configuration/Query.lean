import ZoomConfig.AreaCache
import ZoomConfig.Configuration.Basic
/-!
What a configuration answers.

Every question about a zoom level outside the initialized ones is refused. Areas go through a cache,
which the caller keeps.

Correspondence (program ↔ module):
  `Configuration::snapshot`              ↔ `snapshot`
  `ConfigurationSnapshot::input_at`      ↔ `Snapshot.inputAt`
  `ConfigurationSnapshot::param`         ↔ `Snapshot.param?`
  `Configuration::input_declarations_at` ↔ `declarationsAt`
  `Configuration::zoom_params`           ↔ `zoomParams`
  `Configuration::handle`                ↔ `opened`
  `Configuration::area`                  ↔ `area`
  `Configuration::area_at_zoom`          ↔ `areaAt` with `computeArea`
  `Configuration::bounds`                ↔ `boundsAt`
  `Configuration::update`                ↔ `update`
-/
namespace ZoomConfig

/-- The parameters and inputs of one zoom level. -/
structure Snapshot (m : Type → Type) (α : Type) where
  zoom : Nat
  /-- The parameters, `input` left out. -/
  params : Mapping
  /-- The opened inputs; a leaf without one is bound to nothing. -/
  input : Forest (Option (OpenedInput m α))

namespace Snapshot

variable {m : Type → Type} {α : Type}

/-- The opened input at a path. -/
def inputAt (s : Snapshot m α) (path : String) : Option (OpenedInput m α) :=
  ((Forest.get? s.input path).bind Tree.asLeaf?).join

/-- The parameter of a name. -/
def param? (s : Snapshot m α) (key : String) : Option Value := Mapping.get? s.params key

end Snapshot

namespace Configuration

variable {m : Type → Type} {α : Type}

/-- The parameters of an initialized zoom level. -/
def zoomParams (c : Configuration m α) (zoom : Nat) : Except ConfigError ZoomParams :=
  match Dict.get? c.paramsAt zoom with
  | some p => .ok p
  | none => .error (.zoomRange (.notInitialized zoom c.initZooms))

/-- The input that was opened for an identity. -/
def opened (c : Configuration m α) (path : String) (id : ContentId) :
    Except ConfigError (OpenedInput m α) :=
  match Dict.get? c.inputs id with
  | some input => .ok input
  | none => .error (.schema (.notOpened path id))

/-- The opened inputs for leaves. -/
def bindLeaves (c : Configuration m α) : List (String × Option ContentId) →
    Except ConfigError (List (String × Option (OpenedInput m α)))
  | [] => .ok []
  | (path, none) :: rest => (c.bindLeaves rest).map ((path, none) :: ·)
  | (path, some id) :: rest =>
    match c.opened path id with
    | .error e => .error e
    | .ok input => (c.bindLeaves rest).map ((path, some input) :: ·)

/-- The parameters and opened inputs of a zoom level. -/
def snapshot (c : Configuration m α) (zoom : Nat) : Except ConfigError (Snapshot m α) := do
  let p ← c.zoomParams zoom
  match p.input with
  | none => return ⟨zoom, p.params, []⟩
  | some leaves =>
    let bound ← c.bindLeaves leaves
    let tree ← (Forest.unflatten bound).mapError fun e => .schema (.paths e)
    return ⟨zoom, p.params, tree⟩

/-- The declarations of a zoom level by their paths. -/
def declarationsAt (c : Configuration m α) (zoom : Nat) :
    Except ConfigError (Dict String (Option Declaration)) :=
  (c.zoomParams zoom).map fun p =>
    (p.input.getD []).map fun (path, id) => (path, id.bind (Dict.get? c.declarations))

/-- A configuration cannot be changed. -/
def update (_ : Configuration m α) (_ : Mapping) : Except ConfigError Unit :=
  .error .updateUnsupported

variable [Monad m] [Coordinate α]

/-- The areas of the inputs that are bound to something. -/
def inputAreas (c : Configuration m α) :
    List (String × Option ContentId) → ExceptT ConfigError m (List (Area α))
  | [] => return []
  | (_, none) :: rest => c.inputAreas rest
  | (path, some id) :: rest => do
    let input ← ExceptT.mk (pure (c.opened path id))
    let area ← ExceptT.mk do
      return (← input.handle.bbox c.pyramids.process.crs).mapError (ConfigError.driver path)
    return area :: (← c.inputAreas rest)

/-- The area of a zoom level without a look at the cache: the initialized bounds, cut to the union
of the inputs if there are any. -/
def computeArea (c : Configuration m α) (p : ZoomParams) : ExceptT ConfigError m (Area α) :=
  match p.input with
  | none => return .ofBox c.initBounds
  | some leaves => do return (Area.unionAll (← c.inputAreas leaves)).clip c.initBounds

/-- A computation that does not look at the cache. -/
def uncached {β : Type} (x : ExceptT ConfigError m β) : Cached m α β :=
  ExceptT.mk (StateT.lift x.run)

/-- The area of a zoom level. -/
def areaAt (c : Configuration m α) (zoom : Nat) : Cached m α (Area α) := do
  let p ← ExceptT.mk (pure (c.zoomParams zoom))
  AreaCache.atZoom zoom (uncached (c.computeArea p))

/-- The areas of several zoom levels. -/
def areasAt (c : Configuration m α) : List Nat → Cached m α (List (Area α))
  | [] => return []
  | zoom :: rest => do
    let area ← c.areaAt zoom
    return area :: (← c.areasAt rest)

/-- The area of a zoom level, or of all initialized ones. -/
def area (c : Configuration m α) : Option Nat → Cached m α (Area α)
  | some zoom => c.areaAt zoom
  | none => AreaCache.atAll do return .unionAll (← c.areasAt c.initZooms.toList)

/-- The smallest box around an area, none for the empty one. -/
def boundsAt (c : Configuration m α) (zoom : Option Nat) : Cached m α (Option (Box α)) := do
  return (← c.area zoom).envelope

end Configuration

end ZoomConfig
