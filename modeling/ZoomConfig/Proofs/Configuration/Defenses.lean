import ZoomConfig.Proofs.AreaCache
import ZoomConfig.Proofs.Configuration.Guards
import ZoomConfig.Proofs.Configuration.Invariants
/-!
Errors that do not occur.

Guards are there for what an earlier stage has excluded already: that a checked parameter has another
shape, that an available format has no driver, that a pyramid of allowed metatiling is refused, that a
declaration with an identity has none, that an identity has no input. No query of a configuration that
was built ends with an error that only guards give, as no construction does, and the guards that have
their errors in common with other checks never fail either (`defenses_unreachable`).
-/
namespace ZoomConfig.Configuration

open Outcome

variable {β γ σ α : Type}

/-! ## Queries with a cache -/

variable {c : Configuration (StateM σ) α}

/-- With a cache, too, a computation does not end with an error of a guard. -/
def UnguardedCached (x : Cached (StateM σ) α β) : Prop :=
  ∀ cache w, Unguarded ((x.run.run cache).run w).1.1

namespace UnguardedCached

theorem pure (b : β) : UnguardedCached (pure b : Cached (StateM σ) α β) := fun _ _ => .ok b

theorem bind {x : Cached (StateM σ) α β} {f : β → Cached (StateM σ) α γ} (hx : UnguardedCached x)
    (hf : ∀ b, UnguardedCached (f b)) : UnguardedCached (x >>= f) := by
  intro cache w
  have first := hx cache w
  rcases run : (x.run.run cache).run w with ⟨⟨e | b, cache₁⟩, w₁⟩
  · rw [run] at first
    rw [run_kept_bind_error run]
    exact first
  · rw [run_kept_bind_ok run]
    exact hf b cache₁ w₁

theorem uncached {x : ExceptT ConfigError (StateM σ) β} (h : Always Unguarded x.run) :
    UnguardedCached (Configuration.uncached x : Cached (StateM σ) α β) := by
  intro cache w
  show Unguarded (((StateT.lift x.run : StateT (AreaCache α) (StateM σ) _).run cache).run w).1.1
  rw [StateT.run_lift, StateT.run_bind]
  exact h w

theorem ask {slot : Option Nat} {x : Cached (StateM σ) α (Area α)} (h : UnguardedCached x)
    (spared : AreaCache.Spares slot x) : UnguardedCached (AreaCache.ask slot x) := by
  intro cache w
  cases known : cache.kept slot with
  | some area =>
    rw [AreaCache.run_ask_of_kept known]
    exact .ok area
  | none =>
    have first := h cache w
    rcases run : (x.run.run cache).run w with ⟨⟨r, after⟩, w'⟩
    rw [run] at first
    rw [spared.run_ask known run]
    exact first

end UnguardedCached

theorem zoomParams_unguarded (c : Configuration (StateM σ) α) (zoom : Nat) :
    Unguarded (c.zoomParams zoom) := by
  unfold zoomParams
  split <;> first | exact .ok _ | exact .error id

theorem Coherent.snapshot_unguarded (h : Coherent c) (zoom : Nat) : Unguarded (c.snapshot zoom) := by
  by_cases mem : zoom ∈ c.initZooms.toList
  · obtain ⟨p, _, same⟩ := h.snapshot_eq mem
    rw [same]
    split <;> first | exact .ok _ | exact .error id
  · rw [h.snapshot_other mem]
    exact .error id

theorem inputAreas_unguarded : ∀ leaves : List (String × Option ContentId),
    (∀ path id, (path, some id) ∈ leaves → (Dict.get? c.inputs id).isSome) →
    Always Unguarded (c.inputAreas leaves).run
  | [], _ => .pure (.ok _)
  | (_, none) :: rest, known =>
    inputAreas_unguarded rest fun path id mem => known path id (List.mem_cons_of_mem _ mem)
  | (path, some id) :: rest, known => by
    obtain ⟨input, found⟩ := Option.isSome_iff_exists.mp (known path id List.mem_cons_self)
    have here : Unguarded (c.opened path id) := by
      rw [opened, found]
      exact .ok input
    have others := inputAreas_unguarded rest fun path id mem =>
      known path id (List.mem_cons_of_mem _ mem)
    unfold inputAreas
    refine Always.stages (.pure here) fun input _ => ?_
    have answered : Always Unguarded (do
        return (← input.handle.bbox c.pyramids.process.crs).mapError (ConfigError.driver path)) :=
      (always_true _).bind fun answer _ =>
        .pure (.inPlace (f := ConfigError.driver path) (fun _ no => no) answer)
    refine Always.stages answered fun area _ => ?_
    exact Always.stages others fun areas _ => .pure (.ok trivial)

namespace Coherent

theorem resolved_of_zoomParams (h : Coherent c) {zoom : Nat} {p : ZoomParams}
    (given : c.zoomParams zoom = .ok p) :
    zoom ∈ c.initZooms.toList ∧ Resolved c.document.params zoom p := by
  unfold zoomParams at given
  split at given
  · next q found =>
    obtain rfl : q = p := Except.ok.inj given
    rw [← h.zooms, ← Dict.isSome_get?_iff, found]
    exact ⟨rfl, h.resolved zoom q found⟩
  · cases given

/-- An identity at a zoom level has an input and a declaration. -/
theorem bound_of_leaf (h : Coherent c) {zoom : Nat} {p : ZoomParams}
    (given : c.zoomParams zoom = .ok p) {declared : Dict String (Option Declaration)}
    (answer : c.declarationsAt zoom = .ok declared) {path : String} {id : ContentId}
    (leaf : Dict.get? (p.input.getD []) path = some (some id)) :
    (∃ input, c.opened path id = .ok input) ∧
      ∃ d, Dict.get? declared path = some (some d) ∧ d.contentId = .ok id := by
  obtain ⟨mem, resolved⟩ := h.resolved_of_zoomParams given
  obtain ⟨d, bound, identity⟩ := resolved.leaves.declaration leaf
  obtain ⟨input, opened, known, _, same⟩ :=
    h.opened_of_declared (mem_declared.mpr ⟨zoom, mem, path, bound⟩) identity
  rw [declarationsAt, given] at answer
  obtain rfl := Except.ok.inj answer
  refine ⟨⟨input, by rw [Configuration.opened, opened]⟩, input.declaration, ?_, same⟩
  rw [Dict.get?_map fun _ (id : Option ContentId) => id.bind (Dict.get? c.declarations), leaf]
  exact congrArg some known

end Coherent

variable [Coordinate α]

namespace Coherent

variable (h : Coherent c)

include h

theorem areaAt_unguarded (zoom : Nat) : UnguardedCached (c.areaAt zoom) := by
  by_cases mem : zoom ∈ c.initZooms.toList
  · obtain ⟨p, found, resolved⟩ := h.params_of_mem mem
    have here : c.zoomParams zoom = .ok p := by simp [zoomParams, found]
    have computed : Always Unguarded (c.computeArea p).run := by
      unfold computeArea
      cases leaves : p.input with
      | none => exact .pure (.ok _)
      | some ids =>
        have opened : ∀ path id, (path, some id) ∈ ids → (Dict.get? c.inputs id).isSome :=
          fun path id leaf => h.opened_of_leaf mem resolved (by rwa [leaves, Option.getD_some])
        exact Always.stages (inputAreas_unguarded ids opened) fun _ _ => .pure (.ok trivial)
    rw [areaAt_of_ok here]
    exact (UnguardedCached.uncached computed).ask (.uncached _)
  · intro cache w
    rw [h.areaAt_other mem]
    exact .error id

theorem area_unguarded (zoom : Option Nat) : UnguardedCached (c.area zoom) := by
  have all : ∀ zooms, UnguardedCached (c.areasAt zooms) := by
    intro zooms
    induction zooms with
    | nil => exact .pure []
    | cons zoom rest ih => exact (h.areaAt_unguarded zoom).bind fun _ => ih.bind fun _ => .pure _
  cases zoom with
  | some zoom => exact h.areaAt_unguarded zoom
  | none => exact UnguardedCached.ask ((all _).bind fun _ => .pure _) (c.unionAll_spares _)

theorem boundsAt_unguarded (zoom : Option Nat) : UnguardedCached (c.boundsAt zoom) :=
  (h.area_unguarded zoom).bind fun _ => .pure _

end Coherent

/-! ## All guards -/

/-- What the stages of a construction leave to later ones that guard against its absence. -/
structure Guarantees (drivers : Drivers (StateM σ) α) : Prop where
  /-- Parameters that were checked are there and have their shapes. -/
  read : ∀ m, ProcessDocument.checkParameters m mandatoryParameters = .ok () →
    ProcessDocument.Readable m
  /-- There are tiles for baselevels. -/
  tiles : ∀ raw zooms process output cause,
    Baselevels.ofMapping raw zooms process output ≠ .error (.ofGrid cause)
  /-- The output has a driver. -/
  driver : ∀ output configDir pyramid params,
    OutputParams.ofMapping output configDir pyramid drivers.outputFormats = .ok params →
    ∃ driver ∈ drivers.outputs, drivers.outputDriver? params.format = some driver ∧
      driver.name = params.format
  /-- Every input has an identity, so that only its driver can fail. -/
  identities : ∀ doc options plan, Plan.of doc options = .ok plan →
    ∀ (ctx : LoadContext α) (w w' : σ) e,
      (InputRegistry.materialize ctx drivers (plan.declarations.map (·.2))).run w = (.error e, w') →
      ∃ what cause, e = .driver what cause

/-- No answer of a configuration ends with an error of a guard, and every identity that is kept for a
path has its input and is shown with its declaration. -/
structure AnswersUnguarded (c : Configuration (StateM σ) α) : Prop where
  snapshot : ∀ zoom, Unguarded (c.snapshot zoom)
  declarations : ∀ zoom, Unguarded (c.declarationsAt zoom)
  area : ∀ zoom, UnguardedCached (c.area zoom)
  bounds : ∀ zoom, UnguardedCached (c.boundsAt zoom)
  bound : ∀ zoom p declared, c.zoomParams zoom = .ok p → c.declarationsAt zoom = .ok declared →
    ∀ path id, Dict.get? (p.input.getD []) path = some (some id) →
      (∃ input, c.opened path id = .ok input) ∧
        ∃ d, Dict.get? declared path = some (some d) ∧ d.contentId = .ok id

/-- No guard ever fails. What a stage guards against has been excluded by an earlier one, whatever the
document, the options and the drivers are; no construction ends with an error that only guards give,
and no query of a configuration that was built does, whatever its cache holds. -/
theorem defenses_unreachable (files : Files (StateM σ)) (drivers : Drivers (StateM σ) α) :
    Guarantees drivers ∧ ∀ source options,
      Always Unguarded (build files drivers source options).run ∧
      ∀ w c w', (build files drivers source options).run.run w = (.ok c, w') →
        c.AnswersUnguarded := by
  refine ⟨⟨fun m => ProcessDocument.readable, ?_, ?_, ?_⟩, fun source options =>
    ⟨build_unguarded files drivers source options, fun w c w' built => ?_⟩⟩
  · intro raw zooms process output cause refused
    exact nomatch (Baselevels.ofMapping_ends.failure refused : Baselevels.Refusal (.pyramid _))
  · intro output configDir pyramid params read
    exact Drivers.outputDriver?_of_mem (OutputParams.format_mem read)
  · intro doc options plan planned ctx w w' e failed
    exact (materialize_ends drivers planned ctx w).failure (congrArg Prod.fst failed)
  · have h := coherent built
    exact ⟨h.snapshot_unguarded, fun zoom => (zoomParams_unguarded c zoom).map _, h.area_unguarded,
      h.boundsAt_unguarded, fun zoom p declared given answer path id => h.bound_of_leaf given answer⟩

/-- The guards of a document with baselevels and an input. -/
theorem defenses_unreachable_layered : ∃ c w', (build emptyFiles openDrivers layeredDocument
      ⟨some [5, 4], none, Mode.keep.name⟩).run.run () = (.ok c, w') ∧ c.baselevels.isSome ∧
    (∃ driver, openDrivers.outputDriver? c.outputParams.format = some driver) ∧
    Unguarded (c.snapshot 4) ∧
    ∃ declared d, c.declarationsAt 4 = .ok declared ∧ Dict.get? declared "a" = some (some d) := by
  obtain ⟨c, w', built, test⟩ := givesWith_iff
    (build emptyFiles openDrivers layeredDocument ⟨some [5, 4], none, Mode.keep.name⟩) ()
    (fun c => decide (4 ∈ c.initZooms.toList ∧ c.baselevels.isSome ∧
      ((Dict.get? c.paramsAt 4).bind fun p => (Dict.get? (p.input.getD []) "a").join).isSome))
    |>.mp (by decide +kernel)
  obtain ⟨mem, levels, leaf⟩ := of_decide_eq_true test
  obtain ⟨guarantees, runs⟩ := defenses_unreachable emptyFiles openDrivers
  obtain ⟨_, answers⟩ := runs layeredDocument ⟨some [5, 4], none, Mode.keep.name⟩
  have plain := answers () c w' built
  obtain ⟨k⟩ := construction built
  obtain ⟨driver, _, loads, _⟩ := guarantees.driver _ _ _ _ k.output
  obtain ⟨⟨p, given⟩, declared, answer⟩ := (coherent built).available mem
  obtain ⟨id, here⟩ := Option.isSome_iff_exists.mp leaf
  obtain ⟨q, found, inside⟩ := Option.bind_eq_some_iff.mp here
  obtain rfl : q = p := by simpa [zoomParams, found] using given
  obtain ⟨_, d, shown, _⟩ :=
    plain.bound 4 q declared given answer "a" id (Option.join_eq_some_iff.mp inside)
  exact ⟨c, w', built, levels, ⟨driver, loads⟩, plain.snapshot 4, declared, d, answer, shown⟩

end ZoomConfig.Configuration
