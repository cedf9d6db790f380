import ZoomConfig.Error
import ZoomConfig.Geometry.Area
/-!
Areas that are kept once they are known.

A cache holds the areas of zoom levels and the area of all of them. An area is computed when it is
asked for first; a failure leaves the cache as the computation left it. If the computation has filled
the slot itself, the area of a zoom level takes the place of the one there, and for the area of all
zoom levels the program stops.

Correspondence (program ↔ module):
  `AreaCache::new`            ↔ `fresh`
  `AreaCache::at_zoom`        ↔ `atZoom`
  `AreaCache::global`         ↔ `atAll`
  `OnceCell::get_or_try_init` ↔ the second look at `overall` in `atAll`
-/
namespace ZoomConfig

/-- The areas known so far. -/
structure AreaCache (α : Type) where
  zooms : Dict Nat (Area α)
  overall : Option (Area α)

/-- A computation that may fail and that reads and fills a cache. -/
abbrev Cached (m : Type → Type) (α : Type) := ExceptT ConfigError (StateT (AreaCache α) m)

namespace AreaCache

variable {m : Type → Type} [Monad m] {α : Type}

/-- No area is known. -/
def fresh : AreaCache α := ⟨[], none⟩

/-- The area of a zoom level, computed if it is not known. -/
def atZoom (zoom : Nat) (compute : Cached m α (Area α)) : Cached m α (Area α) := do
  match Dict.get? (← get).zooms zoom with
  | some area => return area
  | none =>
    let area ← compute
    modify fun c => { c with zooms := Dict.insert c.zooms zoom area }
    return area

/-- The area of all zoom levels, computed if it is not known. -/
def atAll (compute : Cached m α (Area α)) : Cached m α (Area α) := do
  match (← get).overall with
  | some area => return area
  | none =>
    let area ← compute
    match (← get).overall with
    | some _ => throw (.schema .reentered)
    | none =>
      modify fun c => { c with overall := some area }
      return area

end AreaCache

end ZoomConfig
