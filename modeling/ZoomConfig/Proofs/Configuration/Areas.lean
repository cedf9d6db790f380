import Mathlib.Data.List.Forall2
import ZoomConfig.Configuration.Query
import ZoomConfig.Proofs.AreaCache
import ZoomConfig.Proofs.Configuration.Snapshots
/-!
When areas are given.

A handle that answers for the system of the process alike in every world has answered once already,
when it was opened. So the areas of all initialized zoom levels, and the area of all of them, are
given in every world and whatever is in the cache (`area_given`, `boundsAt_given`). What the areas
that are computed without a cache have in common those have too that are answered through a cache
which keeps no others (`Computes.area_gives`).
-/
namespace ZoomConfig

open Outcome

variable {ε σ α β γ : Type}

theorem AreaCache.Spares.uncached {slot : Option Nat} (x : ExceptT ConfigError (StateM σ) β) :
    Spares slot (Configuration.uncached x : Cached (StateM σ) α β) := fun _ _ => rfl

/-! ## Computations that always give a result -/

/-- A computation gives a result with a property in every world. -/
def Gives (x : ExceptT ε (StateM σ) β) (P : β → Prop) : Prop :=
  ∀ w, ∃ b w', x.run.run w = (.ok b, w') ∧ P b

namespace Gives

variable {P : β → Prop} {R : γ → Prop}

theorem pure {b : β} (h : P b) : Gives (pure b : ExceptT ε (StateM σ) β) P :=
  fun w => ⟨b, w, rfl, h⟩

theorem bind {x : ExceptT ε (StateM σ) β} {f : β → ExceptT ε (StateM σ) γ} (hx : Gives x P)
    (hf : ∀ b, P b → Gives (f b) R) : Gives (x >>= f) R := by
  intro w
  obtain ⟨b, w₁, h, hb⟩ := hx w
  obtain ⟨c, w₂, k, hc⟩ := hf b hb w₁
  exact ⟨c, w₂, run_bind_eq_ok.mpr ⟨b, w₁, h, k⟩, hc⟩

theorem imp {x : ExceptT ε (StateM σ) β} {S : β → Prop} (h : Gives x P) (weaker : ∀ b, P b → S b) :
    Gives x S := by
  intro w
  obtain ⟨b, w', run, hb⟩ := h w
  exact ⟨b, w', run, weaker b hb⟩

end Gives

/-- A computation with a cache gives a result in every world and with every cache. -/
def GivenCached (x : Cached (StateM σ) α β) : Prop :=
  ∀ cache w, ∃ b cache' w', (x.run.run cache).run w = ((.ok b, cache'), w')

/-- The areas that a cache keeps have the properties of their slots. -/
def AreaCache.Keeps (Q : Option Nat → Area α → Prop) (cache : AreaCache α) : Prop :=
  ∀ slot area, cache.kept slot = some area → Q slot area

/-- With a cache that keeps areas with properties, a computation gives a result with one and such a
cache. -/
def GivesKept (Q : Option Nat → Area α → Prop) (x : Cached (StateM σ) α β) (P : β → Prop) : Prop :=
  ∀ cache, AreaCache.Keeps Q cache → ∀ w, ∃ b cache' w',
    (x.run.run cache).run w = ((.ok b, cache'), w') ∧ P b ∧ AreaCache.Keeps Q cache'

namespace GivesKept

variable {Q : Option Nat → Area α → Prop} {P : β → Prop} {R : γ → Prop}

theorem pure {b : β} (h : P b) : GivesKept Q (pure b : Cached (StateM σ) α β) P :=
  fun cache kept w => ⟨b, cache, w, rfl, h, kept⟩

theorem bind {x : Cached (StateM σ) α β} {f : β → Cached (StateM σ) α γ} (hx : GivesKept Q x P)
    (hf : ∀ b, P b → GivesKept Q (f b) R) : GivesKept Q (x >>= f) R := by
  intro cache kept w
  obtain ⟨b, cache₁, w₁, h, hb, kept₁⟩ := hx cache kept w
  obtain ⟨c, cache₂, w₂, k, hc, kept₂⟩ := hf b hb cache₁ kept₁ w₁
  refine ⟨c, cache₂, w₂, ?_, hc, kept₂⟩
  rw [ExceptT.run_bind, StateT.run_bind, StateT.run_bind, h]
  exact k

theorem uncached {x : ExceptT ConfigError (StateM σ) β} (h : Gives x P) :
    GivesKept Q (Configuration.uncached x : Cached (StateM σ) α β) P := by
  intro cache kept w
  obtain ⟨b, w', k, hb⟩ := h w
  refine ⟨b, cache, w', ?_, hb, kept⟩
  show ((StateT.lift x.run : StateT (AreaCache α) (StateM σ) _).run cache).run w = _
  rw [StateT.run_lift, StateT.run_bind, k]
  rfl

theorem ask {slot : Option Nat} {x : Cached (StateM σ) α (Area α)} (h : GivesKept Q x (Q slot))
    (spared : AreaCache.Spares slot x) : GivesKept Q (AreaCache.ask slot x) (Q slot) := by
  intro cache kept w
  cases known : cache.kept slot with
  | some area =>
    exact ⟨area, cache, w, AreaCache.run_ask_of_kept known x w, kept slot area known, kept⟩
  | none =>
    obtain ⟨area, after, w', computed, has, kept'⟩ := h cache kept w
    refine ⟨area, after.keep slot area, w', spared.run_ask known computed, has, ?_⟩
    intro other area' found
    rw [AreaCache.kept_keep] at found
    split at found
    · next here =>
      rw [← here, ← Option.some.inj found]
      exact has
    · exact kept' other area' found

theorem given {x : Cached (StateM σ) α β} (h : GivesKept (fun _ _ => True) x P) : GivenCached x := by
  intro cache w
  obtain ⟨b, cache', w', run, _⟩ := h cache (fun _ _ _ => trivial) w
  exact ⟨b, cache', w', run⟩

end GivesKept

/-! ## Handles that answer alike -/

/-- A handle answers for a system with the same result in every world. -/
def InputHandle.Steady (handle : InputHandle (StateM σ) α) (crs : Crs) : Prop :=
  ∀ w w', ((handle.bbox crs).run w).1 = ((handle.bbox crs).run w').1

namespace Configuration

variable {c : Configuration (StateM σ) α}

/-- Every opened handle answers for the system of the process in every world. -/
def Answering (c : Configuration (StateM σ) α) : Prop :=
  ∀ e ∈ c.inputs, ∀ w, ∃ area w', (e.2.handle.bbox c.pyramids.process.crs).run w = (.ok area, w')

/-- The areas of leaves are those that the handles bound there answer with. -/
theorem inputAreas_gives {A : OpenedInput (StateM σ) α → Area α → Prop}
    (answers : ∀ e ∈ c.inputs, ∀ w, ∃ area w',
      (e.2.handle.bbox c.pyramids.process.crs).run w = (.ok area, w') ∧ A e.2 area) :
    ∀ leaves : Dict String (Option ContentId),
    (∀ path id, (path, some id) ∈ leaves → (Dict.get? c.inputs id).isSome) →
    Gives (c.inputAreas leaves)
      (List.Forall₂ A (leaves.filterMap fun l => l.2.bind (Dict.get? c.inputs)))
  | [], _, w => ⟨[], w, rfl, .nil⟩
  | (_, none) :: rest, known, w => by
    obtain ⟨areas, w', run, same⟩ := inputAreas_gives answers rest
      (fun p id mem => known p id (List.mem_cons_of_mem _ mem)) w
    exact ⟨areas, w', run, same⟩
  | (path, some id) :: rest, known, w => by
    obtain ⟨input, found⟩ := Option.isSome_iff_exists.mp (known path id List.mem_cons_self)
    have here : c.opened path id = .ok input := by simp [opened, found]
    obtain ⟨area, w₁, answer, is⟩ := answers (id, input) (Dict.mem_of_get? found) w
    obtain ⟨areas, w₂, rests, same⟩ := inputAreas_gives answers rest
      (fun p id mem => known p id (List.mem_cons_of_mem _ mem)) w₁
    refine ⟨area :: areas, w₂, ?_, by simpa [found] using ⟨is, same⟩⟩
    unfold inputAreas
    refine run_bind_eq_ok.mpr ⟨_, _, run_lift_eq_ok.mpr ⟨here, rfl⟩, ?_⟩
    refine run_bind_eq_ok.mpr ⟨area, w₁, ?_, ?_⟩
    · show (do return (← input.handle.bbox c.pyramids.process.crs).mapError _ :
        StateM σ (Except ConfigError (Area α))).run w = _
      rw [StateT.run_bind, answer]
      rfl
    · exact run_bind_eq_ok.mpr ⟨areas, w₂, rests, rfl⟩

/-- A handle that is steady goes on to answer as it did when it was opened. -/
theorem answering_of_steady (steady : ∀ e ∈ c.inputs, e.2.handle.Steady c.pyramids.process.crs)
    (answered : ∀ e ∈ c.inputs, ∃ w area w',
      (e.2.handle.bbox c.pyramids.process.crs).run w = (.ok area, w')) : c.Answering := by
  intro e mem w
  obtain ⟨w₁, area, w₂, answer⟩ := answered e mem
  have same := steady e mem w w₁
  rw [answer] at same
  rcases hrun : (e.2.handle.bbox c.pyramids.process.crs).run w with ⟨r, w'⟩
  rw [hrun] at same
  obtain rfl : r = .ok area := same
  exact ⟨area, w', rfl⟩

variable [Coordinate α]

/-- The inputs that leaves are bound to. -/
def inputsOf (c : Configuration (StateM σ) α) (p : ZoomParams) : List (OpenedInput (StateM σ) α) :=
  (p.input.getD []).filterMap fun l => l.2.bind (Dict.get? c.inputs)

/-- The area of a zoom level is the initialized bounds, cut to what the inputs answered if there are
any. -/
theorem Coherent.computeArea_gives (h : Coherent c) {A : OpenedInput (StateM σ) α → Area α → Prop}
    (answers : ∀ e ∈ c.inputs, ∀ w, ∃ area w',
      (e.2.handle.bbox c.pyramids.process.crs).run w = (.ok area, w') ∧ A e.2 area)
    {zoom : Nat} (mem : zoom ∈ c.initZooms.toList) {p : ZoomParams}
    (resolved : Resolved c.document.params zoom p) :
    Gives (c.computeArea p) fun area => ∃ areas, List.Forall₂ A (c.inputsOf p) areas ∧
      area = if p.input.isSome then (Area.unionAll areas).clip c.initBounds
        else .ofBox c.initBounds := by
  unfold computeArea inputsOf
  cases hinput : p.input with
  | none => exact Gives.pure ⟨[], .nil, rfl⟩
  | some leaves =>
    have known : ∀ path id, (path, some id) ∈ leaves → (Dict.get? c.inputs id).isSome := by
      intro path id leaf
      exact h.opened_of_leaf mem resolved (by rwa [hinput, Option.getD_some])
    exact (inputAreas_gives answers leaves known).bind fun areas same =>
      Gives.pure ⟨areas, same, rfl⟩

/-! ## Areas through a cache -/

/-- The area of an initialized zoom level is a call for its slot. -/
theorem areaAt_of_ok {zoom : Nat} {p : ZoomParams} (given : c.zoomParams zoom = .ok p) :
    c.areaAt zoom = AreaCache.ask (some zoom) (uncached (c.computeArea p)) := by
  unfold areaAt
  rw [given]
  rfl

theorem areaAt_spares (c : Configuration (StateM σ) α) (zoom : Nat) :
    AreaCache.Spares none (c.areaAt zoom) := by
  refine AreaCache.Spares.bind (.lift _) fun p => ?_
  show AreaCache.Spares none (AreaCache.ask (some zoom) (uncached (c.computeArea p)))
  exact .ask (Option.some_ne_none zoom) (.uncached _)

/-- Computing the areas of zoom levels and their union leaves the area of all of them alone. -/
theorem unionAll_spares (c : Configuration (StateM σ) α) (zooms : List Nat) :
    AreaCache.Spares none (do return Area.unionAll (← c.areasAt zooms)) := by
  have each : AreaCache.Spares none (c.areasAt zooms) := by
    induction zooms with
    | nil => exact .pure []
    | cons zoom rest ih => exact (c.areaAt_spares zoom).bind fun area => ih.bind fun areas => .pure _
  exact each.bind fun areas => .pure _

/-- The areas that are computed without a cache have the properties of their zoom levels. -/
structure Computes (c : Configuration (StateM σ) α) (Q : Option Nat → Area α → Prop) : Prop where
  each : ∀ zoom ∈ c.initZooms.toList, ∃ p, Dict.get? c.paramsAt zoom = some p ∧
    Gives (c.computeArea p) (Q (some zoom))
  whole : ∀ areas, List.Forall₂ (fun zoom => Q (some zoom)) c.initZooms.toList areas →
    Q none (.unionAll areas)

namespace Computes

variable {Q : Option Nat → Area α → Prop} (k : c.Computes Q)

include k

theorem areaAt_gives {zoom : Nat} (mem : zoom ∈ c.initZooms.toList) :
    GivesKept Q (c.areaAt zoom) (Q (some zoom)) := by
  obtain ⟨p, found, computed⟩ := k.each zoom mem
  have here : c.zoomParams zoom = .ok p := by simp [zoomParams, found]
  rw [areaAt_of_ok here]
  exact (GivesKept.uncached computed).ask (.uncached _)

theorem areasAt_gives : ∀ {zooms : List Nat}, (∀ zoom ∈ zooms, zoom ∈ c.initZooms.toList) →
    GivesKept Q (c.areasAt zooms) (List.Forall₂ (fun zoom => Q (some zoom)) zooms)
  | [], _ => GivesKept.pure .nil
  | zoom :: _, inside => by
    have here := k.areaAt_gives (inside zoom List.mem_cons_self)
    have others := areasAt_gives fun z mem => inside z (List.mem_cons_of_mem zoom mem)
    exact here.bind fun area has => others.bind fun areas have' => GivesKept.pure (.cons has have')

/-- With a cache that keeps no others, the areas of queries have the properties of areas computed
without one. -/
theorem area_gives {zoom : Option Nat} (inside : ∀ z, zoom = some z → z ∈ c.initZooms.toList) :
    GivesKept Q (c.area zoom) (Q zoom) := by
  cases zoom with
  | some z => exact k.areaAt_gives (inside z rfl)
  | none =>
    have whole : GivesKept Q (do return Area.unionAll (← c.areasAt c.initZooms.toList)) (Q none) :=
      (k.areasAt_gives fun _ mem => mem).bind fun areas all => GivesKept.pure (k.whole areas all)
    exact whole.ask (c.unionAll_spares _)

theorem boundsAt_gives {zoom : Option Nat} (inside : ∀ z, zoom = some z → z ∈ c.initZooms.toList) :
    GivesKept Q (c.boundsAt zoom) fun bounds => ∃ area, Q zoom area ∧ area.envelope = bounds :=
  (k.area_gives inside).bind fun area has => GivesKept.pure ⟨area, has, rfl⟩

end Computes

namespace Coherent

variable (h : Coherent c) (answering : c.Answering)

include h answering

theorem computes : c.Computes fun _ _ => True := by
  refine ⟨fun zoom mem => ?_, fun _ _ => trivial⟩
  obtain ⟨p, found, resolved⟩ := h.params_of_mem mem
  have computed := h.computeArea_gives (A := fun _ _ => True)
    (fun e inside w => by simpa only [and_true] using answering e inside w) mem resolved
  exact ⟨p, found, computed.imp fun _ _ => trivial⟩

/-- The area of an initialized zoom level is given, and that of all of them. -/
theorem area_given {zoom : Option Nat} (inside : ∀ z, zoom = some z → z ∈ c.initZooms.toList) :
    GivenCached (c.area zoom) :=
  ((h.computes answering).area_gives inside).given

/-- So are their bounds. -/
theorem boundsAt_given {zoom : Option Nat} (inside : ∀ z, zoom = some z → z ∈ c.initZooms.toList) :
    GivenCached (c.boundsAt zoom) :=
  ((h.computes answering).boundsAt_gives inside).given

end Coherent

end Configuration

end ZoomConfig
