import ZoomConfig.Proofs.Configuration.Openings
import ZoomConfig.Proofs.Geometry.Points
/-!
What the areas of a configuration cover.

If handles answer alike in every world, so does the configuration, whatever was asked before: a cache
that is reached by queries keeps nothing but areas that are computed without it (`keeps_of_reached`).
Over exact coordinates these areas are given by their points (`area_points`): the initialized bounds,
cut to what the bound inputs cover, and for all zoom levels together the points of each of them.
-/
namespace ZoomConfig

open Outcome

variable {σ α : Type}

/-- A handle answers for a system with one area in every world. -/
def InputHandle.Covers (handle : InputHandle (StateM σ) α) (crs : Crs) (area : Area α) : Prop :=
  ∀ w, ∃ w', (handle.bbox crs).run w = (.ok area, w')

theorem InputHandle.Covers.unique {handle : InputHandle (StateM σ) α} {crs : Crs} {a b : Area α}
    (ha : handle.Covers crs a) (hb : handle.Covers crs b) (w : σ) : a = b := by
  obtain ⟨_, run⟩ := ha w
  obtain ⟨_, run'⟩ := hb w
  rw [run] at run'
  exact Except.ok.inj (Prod.mk.inj run').1

namespace Configuration

variable {c : Configuration (StateM σ) α} {covered : OpenedInput (StateM σ) α → Area α}

/-! ## The areas that are answered -/

/-- A handle that answers alike covers what it answered when it was opened. -/
theorem covered_of_steady (steady : ∀ e ∈ c.inputs, e.2.handle.Steady c.pyramids.process.crs)
    (answered : ∀ e ∈ c.inputs, ∃ w area w',
      (e.2.handle.bbox c.pyramids.process.crs).run w = (.ok area, w')) :
    ∃ covered : OpenedInput (StateM σ) α → Area α,
      ∀ e ∈ c.inputs, e.2.handle.Covers c.pyramids.process.crs (covered e.2) := by
  have each : ∀ input : OpenedInput (StateM σ) α, ∃ area, (∃ id, (id, input) ∈ c.inputs) →
      input.handle.Covers c.pyramids.process.crs area := by
    intro input
    by_cases opened : ∃ id, (id, input) ∈ c.inputs
    · obtain ⟨id, mem⟩ := opened
      obtain ⟨w₁, area, w₂, answer⟩ := answered (id, input) mem
      refine ⟨area, fun _ w => ?_⟩
      have same := steady (id, input) mem w w₁
      rw [answer] at same
      exact ⟨((input.handle.bbox c.pyramids.process.crs).run w).2, Prod.ext same rfl⟩
    · exact ⟨.empty, fun given => absurd given opened⟩
  obtain ⟨covered, h⟩ := Classical.axiomOfChoice each
  exact ⟨covered, fun e mem => h e.2 ⟨e.1, mem⟩⟩

section Answers

variable [Coordinate α]

/-- The area of a zoom level, if every input covers a given area. -/
def extentAt (c : Configuration (StateM σ) α) (covered : OpenedInput (StateM σ) α → Area α)
    (p : ZoomParams) : Area α :=
  if p.input.isSome then (Area.unionAll ((c.inputsOf p).map covered)).clip c.initBounds
  else .ofBox c.initBounds

/-- The area of a zoom level, or of all of them. -/
def extents (c : Configuration (StateM σ) α) (covered : OpenedInput (StateM σ) α → Area α) :
    Option Nat → Area α
  | some zoom => ((Dict.get? c.paramsAt zoom).map (c.extentAt covered)).getD .empty
  | none => .unionAll (c.initZooms.toList.map fun zoom =>
      ((Dict.get? c.paramsAt zoom).map (c.extentAt covered)).getD .empty)

/-- If every input covers an area, the areas of zoom levels are computed from these. -/
theorem Coherent.computes_extents (h : Coherent c)
    (covers : ∀ e ∈ c.inputs, e.2.handle.Covers c.pyramids.process.crs (covered e.2)) :
    c.Computes fun zoom area => c.extents covered zoom = area := by
  constructor
  · intro zoom mem
    obtain ⟨p, found, resolved⟩ := h.params_of_mem mem
    have answers : ∀ e ∈ c.inputs, ∀ w, ∃ area w',
        (e.2.handle.bbox c.pyramids.process.crs).run w = (.ok area, w') ∧ covered e.2 = area := by
      intro e mem w
      obtain ⟨w', answer⟩ := covers e mem w
      exact ⟨covered e.2, w', answer, rfl⟩
    have computed := h.computeArea_gives (A := fun input area => covered input = area)
      answers mem resolved
    refine ⟨p, found, computed.imp fun area given => ?_⟩
    obtain ⟨areas, same, rfl⟩ := given
    rw [← List.forall₂_map_left_iff, List.forall₂_eq_eq_eq] at same
    simp only [extents, extentAt, found, Option.map_some, Option.getD_some, same]
  · intro areas all
    rw [← List.forall₂_map_left_iff, List.forall₂_eq_eq_eq] at all
    rw [← all]
    rfl

/-- The caches that queries lead to, whatever they ask for and whatever the world does between
them. -/
inductive Reached (c : Configuration (StateM σ) α) : AreaCache α → Prop where
  | fresh : Reached c .fresh
  | area {cache cache' : AreaCache α} {zoom : Option Nat} {r : Except ConfigError (Area α)} {w w' : σ}
    (before : Reached c cache) (run : ((c.area zoom).run.run cache).run w = ((r, cache'), w')) :
    Reached c cache'
  | bounds {cache cache' : AreaCache α} {zoom : Option Nat} {r : Except ConfigError (Option (Box α))}
    {w w' : σ} (before : Reached c cache)
    (run : ((c.boundsAt zoom).run.run cache).run w = ((r, cache'), w')) : Reached c cache'

/-- Queries give the given areas whatever was asked before, and bounds are their envelopes. -/
def Answers (c : Configuration (StateM σ) α) (areas : Option Nat → Area α) : Prop :=
  ∀ cache, c.Reached cache → ∀ zoom, (∀ z, zoom = some z → z ∈ c.initZooms.toList) → ∀ w,
    (∃ cache' w', ((c.area zoom).run.run cache).run w = ((.ok (areas zoom), cache'), w')) ∧
    ∃ cache' w', ((c.boundsAt zoom).run.run cache).run w =
      ((.ok (areas zoom).envelope, cache'), w')

theorem Coherent.areaAt_other (h : Coherent c) {zoom : Nat} (other : zoom ∉ c.initZooms.toList)
    (cache : AreaCache α) (w : σ) : ((c.areaAt zoom).run.run cache).run w =
      ((.error (.zoomRange (.notInitialized zoom c.initZooms)), cache), w) := by
  have here : c.zoomParams zoom = .error (.zoomRange (.notInitialized zoom c.initZooms)) := by
    simp [zoomParams, h.params_of_not_mem other]
  unfold areaAt
  rw [here]
  rfl

section Queries

variable {Q : Option Nat → Area α → Prop} (h : Coherent c) (k : c.Computes Q)

include h k

theorem keeps_step {cache cache' : AreaCache α} {zoom : Option Nat} {w w' : σ}
    (before : cache.Keeps Q) :
    (∀ r, ((c.area zoom).run.run cache).run w = ((r, cache'), w') → cache'.Keeps Q) ∧
    ∀ r, ((c.boundsAt zoom).run.run cache).run w = ((r, cache'), w') → cache'.Keeps Q := by
  by_cases inside : ∀ z, zoom = some z → z ∈ c.initZooms.toList
  · constructor
    · intro r run
      obtain ⟨_, cache₁, w₁, given, _, after⟩ := k.area_gives inside cache before w
      rw [given] at run
      cases run
      exact after
    · intro r run
      obtain ⟨_, cache₁, w₁, given, _, after⟩ := k.boundsAt_gives inside cache before w
      rw [given] at run
      cases run
      exact after
  · push Not at inside
    obtain ⟨z, rfl, other⟩ := inside
    have refused := h.areaAt_other other cache w
    constructor
    · intro r run
      rw [area, refused] at run
      cases run
      exact before
    · intro r run
      rw [boundsAt, ExceptT.run_bind, StateT.run_bind, StateT.run_bind, area, refused] at run
      cases run
      exact before

/-- A cache that queries lead to keeps nothing but areas that are computed. -/
theorem keeps_of_reached {cache : AreaCache α} (reached : c.Reached cache) : cache.Keeps Q := by
  induction reached with
  | fresh =>
    intro slot area found
    rw [AreaCache.kept_fresh] at found
    exact nomatch found
  | area _ run ih => exact (keeps_step h k ih).1 _ run
  | bounds _ run ih => exact (keeps_step h k ih).2 _ run

end Queries

theorem Coherent.answers (h : Coherent c)
    (covers : ∀ e ∈ c.inputs, e.2.handle.Covers c.pyramids.process.crs (covered e.2)) :
    c.Answers (c.extents covered) := by
  intro cache reached zoom inside w
  have k := h.computes_extents covers
  have kept := keeps_of_reached h k reached
  obtain ⟨_, cache₁, w₁, area, rfl, _⟩ := k.area_gives inside cache kept w
  obtain ⟨_, cache₂, w₂, bounds, ⟨_, rfl, rfl⟩, _⟩ := k.boundsAt_gives inside cache kept w
  exact ⟨⟨cache₁, w₁, area⟩, cache₂, w₂, bounds⟩

end Answers

/-! ## Their points -/

/-- An opened input stands at a path of a zoom level. -/
def BoundAt (c : Configuration (StateM σ) α) (zoom : Nat) (path : String)
    (input : OpenedInput (StateM σ) α) : Prop :=
  ∃ d id, Dict.get? (leavesAt c.document.params zoom) path = some (some d) ∧
    d.contentId = .ok id ∧ Dict.get? c.inputs id = some input

theorem mem_inputsOf {zoom : Nat} {p : ZoomParams} (resolved : Resolved c.document.params zoom p)
    (input : OpenedInput (StateM σ) α) :
    input ∈ c.inputsOf p ↔ ∃ path, c.BoundAt zoom path input := by
  have distinct : (Dict.keys (p.input.getD [])).Nodup := by
    rw [resolved.leaves.keys]
    exact (leavesAt_sorted _ _).nodup
  simp only [inputsOf, List.mem_filterMap, Option.bind_eq_some_iff]
  constructor
  · intro given
    obtain ⟨⟨path, leaf⟩, mem, id, rfl, opened⟩ := given
    obtain ⟨d, bound, hid⟩ := resolved.leaves.declaration (Dict.get?_of_mem distinct mem)
    exact ⟨path, d, id, bound, hid, opened⟩
  · intro given
    obtain ⟨path, d, id, bound, hid, opened⟩ := given
    obtain ⟨id', leaf, hid'⟩ := resolved.leaves.bound bound
    obtain rfl : id = id' := Except.ok.inj (hid.symm.trans hid')
    exact ⟨(path, some id), Dict.mem_of_get? leaf, id, rfl, opened⟩

section Points

variable {c : Configuration (StateM σ) ℚ} {covered : OpenedInput (StateM σ) ℚ → Area ℚ}

theorem solid_extents (zoom : Option Nat) : (c.extents covered zoom).Solid := by
  cases zoom with
  | none => exact Area.solid_unionAll _
  | some zoom =>
    simp only [extents]
    cases Dict.get? c.paramsAt zoom with
    | none => exact fun _ mem => (nomatch mem)
    | some p =>
      simp only [Option.map_some, Option.getD_some, extentAt]
      split
      · exact Area.solid_clip _ _
      · exact Area.solid_ofBox _

theorem points_extents_none : (c.extents covered none).points =
    ⋃ zoom ∈ c.initZooms.toList, (c.extents covered (some zoom)).points := by
  rw [extents, Area.points_unionAll]
  ext p
  simp [extents]

namespace Coherent

variable (h : Coherent c) {zoom : Nat} (mem : zoom ∈ c.initZooms.toList)

include h mem

theorem points_of_no_input (missing : inputAt? c.document.params zoom = none) :
    (c.extents covered (some zoom)).points = c.initBounds.points := by
  obtain ⟨p, found, resolved⟩ := h.params_of_mem mem
  have unbound := resolved.input
  rw [missing] at unbound
  simp only [extents, found, Option.map_some, Option.getD_some, extentAt, unbound]
  exact Area.points_ofBox _

theorem points_of_inputs (given : inputAt? c.document.params zoom ≠ none) :
    (c.extents covered (some zoom)).points =
      c.initBounds.points ∩ {p | ∃ path input, c.BoundAt zoom path input ∧
        p ∈ (covered input).points} := by
  obtain ⟨p, found, resolved⟩ := h.params_of_mem mem
  have bound : p.input.isSome = true := by
    rw [resolved.input]
    exact Option.isSome_iff_ne_none.mpr given
  simp only [extents, found, Option.map_some, Option.getD_some, extentAt, bound, if_true]
  rw [Area.points_clip, Area.points_unionAll, Set.inter_comm]
  ext q
  simp only [Set.mem_inter_iff, Set.mem_iUnion, List.mem_map, mem_inputsOf resolved,
    Set.mem_ofPred_eq]
  constructor
  · intro given
    obtain ⟨inBounds, _, ⟨input, ⟨path, bound⟩, rfl⟩, inside⟩ := given
    exact ⟨inBounds, path, input, bound, inside⟩
  · intro given
    obtain ⟨inBounds, path, input, bound, inside⟩ := given
    exact ⟨inBounds, _, ⟨input, ⟨path, bound⟩, rfl⟩, inside⟩

end Coherent

/-- What a bound input covers is the only area that its handle answers with. -/
theorem covers_iff (w : σ)
    (covers : ∀ e ∈ c.inputs, e.2.handle.Covers c.pyramids.process.crs (covered e.2))
    {zoom : Nat} {path : String} {input : OpenedInput (StateM σ) ℚ} {p : ℚ × ℚ} :
    (∃ area, c.BoundAt zoom path input ∧ input.handle.Covers c.pyramids.process.crs area ∧
      p ∈ area.points) ↔ c.BoundAt zoom path input ∧ p ∈ (covered input).points := by
  constructor
  · intro given
    obtain ⟨area, bound, answers, inside⟩ := given
    have ⟨_, id, _, _, opened⟩ := bound
    rw [(covers (id, input) (Dict.mem_of_get? opened)).unique answers w]
    exact ⟨bound, inside⟩
  · intro given
    obtain ⟨bound, inside⟩ := given
    have ⟨_, id, _, _, opened⟩ := bound
    exact ⟨covered input, bound, covers (id, input) (Dict.mem_of_get? opened), inside⟩

/-! ## Configurations that are built -/

variable {files : Files (StateM σ)} {drivers : Drivers (StateM σ) ℚ} {source : DocumentSource}
  {options : InitOptions} {w w' : σ}

/-- In a configuration that was built over exact coordinates, and whose handles answer for the system
of the process alike in every world, every query gives the same area whatever was asked before, and
bounds are its envelope. The points of the area of a zoom level are those of the initialized bounds;
if inputs are given there, only those that the area of an input bound there has. The area of all zoom
levels has the points of all their areas. An envelope is missing exactly for an area without points,
and it is the smallest box around the points otherwise. So the bounds of all zoom levels are the
smallest box around the bounds of each of them. -/
theorem area_points (built : (build files drivers source options).run.run w = (.ok c, w'))
    (steady : ∀ e ∈ c.inputs, e.2.handle.Steady c.pyramids.process.crs) :
    ∃ areas : Option Nat → Area ℚ, c.Answers areas ∧
      (∀ zoom ∈ c.initZooms.toList,
        (inputAt? c.document.params zoom = none →
          (areas (some zoom)).points = c.initBounds.points) ∧
        (inputAt? c.document.params zoom ≠ none →
          (areas (some zoom)).points = c.initBounds.points ∩
            {p | ∃ path input area, c.BoundAt zoom path input ∧
              input.handle.Covers c.pyramids.process.crs area ∧ p ∈ area.points})) ∧
      (areas none).points = ⋃ zoom ∈ c.initZooms.toList, (areas (some zoom)).points ∧
      (∀ zoom, ((areas zoom).envelope = none ↔ (areas zoom).points = ∅) ∧
        ∀ b, (areas zoom).envelope = some b → b.Tightest (areas zoom).points) ∧
      ((areas none).envelope = none ↔
        ∀ zoom ∈ c.initZooms.toList, (areas (some zoom)).envelope = none) ∧
      ∀ b, (areas none).envelope = some b → b.Tightest
        {p | ∃ zoom ∈ c.initZooms.toList, ∃ part, (areas (some zoom)).envelope = some part ∧
          p ∈ part.points} := by
  have h := coherent built
  obtain ⟨covered, covers⟩ := covered_of_steady steady (inputs_answered built)
  have missing : ∀ zoom, (c.extents covered zoom).envelope = none ↔
      (c.extents covered zoom).points = ∅ :=
    fun zoom => Area.envelope_eq_none_iff (solid_extents zoom)
  have tightest : ∀ {zoom b}, (c.extents covered zoom).envelope = some b →
      b.Tightest (c.extents covered zoom).points :=
    fun found => Area.envelope_tightest (solid_extents _) found
  refine ⟨c.extents covered, h.answers covers, ?_, points_extents_none,
    fun zoom => ⟨missing zoom, fun b => tightest⟩, ?_, ?_⟩
  · intro zoom mem
    refine ⟨h.points_of_no_input mem, fun given => ?_⟩
    rw [h.points_of_inputs mem given]
    congr 1
    ext p
    exact exists_congr fun path => exists_congr fun input => (covers_iff w covers).symm
  · simp only [missing, points_extents_none, Set.iUnion_eq_empty]
  · intro b found
    have whole := tightest found
    rw [points_extents_none] at whole
    refine whole.of_subset ?_ ?_
    -- Each point of a zoom level lies in the bounds of the level,
    · intro p given
      obtain ⟨zoom, mem, inside⟩ := Set.mem_iUnion₂.mp given
      obtain ⟨part, known⟩ : ∃ part, (c.extents covered (some zoom)).envelope = some part := by
        refine Option.ne_none_iff_exists'.mp fun none => ?_
        rw [(missing _).mp none] at inside
        exact inside
      exact ⟨zoom, mem, part, known, (tightest known).1 inside⟩
    -- and these within those of all levels, which are around the points too.
    · intro p given
      obtain ⟨zoom, mem, part, known, inside⟩ := given
      refine Box.points_subset ((tightest known).2 b ?_) inside
      exact fun q here => whole.1 (Set.mem_iUnion₂.mpr ⟨zoom, mem, here⟩)

/-- Drivers of one format whose inputs all have the same area. -/
def boxDrivers (area : Area ℚ) : Drivers (StateM Unit) ℚ where
  inputs := [{ name := "Open", extensions := ["x"],
               load := fun _ => pure (.ok ⟨"Open", fun _ => pure (.ok area)⟩) }]
  outputs := [{ name := "Open", load := fun _ => pure (.ok ⟨"Open", fun _ => pure (.ok ())⟩) }]

/-- A box at the eastern end of the grid, which reaches beyond it. -/
def easternBox : Box ℚ := ⟨170, 0, 200, 10⟩

/-- A configuration of inputs that have this box as their area. -/
def buildEastern : ExceptT ConfigError (StateM Unit) (Configuration (StateM Unit) ℚ) :=
  build emptyFiles (boxDrivers (.ofBox easternBox)) (smallDocument sharedInput) .default

/-- Of the points of an input, the area has those on the grid. -/
theorem area_points_beyondGrid : ∃ c w', buildEastern.run.run () = (.ok c, w') ∧
    (∀ e ∈ c.inputs, e.2.handle.Steady c.pyramids.process.crs) ∧
    ∃ areas, c.Answers areas ∧ (175, 5) ∈ (areas (some 3)).points ∧
      (190, 5) ∉ (areas none).points ∧ (0, 5) ∉ (areas none).points := by
  obtain ⟨c, w', built, test⟩ := givesWith_iff buildEastern () (fun c =>
    decide (c.initZooms.toList = [3] ∧ c.initBounds = ⟨-180, -90, 180, 90⟩ ∧
      (inputAt? c.document.params 3).isSome ∧ .ofPath "a.x" ∈ Dict.keys c.inputs))
    |>.mp (by decide +kernel)
  obtain ⟨zooms, bounds, given, opened⟩ := of_decide_eq_true test
  have covers : ∀ e ∈ c.inputs,
      e.2.handle.Covers c.pyramids.process.crs (.ofBox easternBox) := by
    refine handles_of_drivers (P := fun handle => handle.Covers _ (.ofBox easternBox)) ?_ built
    intro driver mem req w handle w₁ loaded
    obtain rfl := List.mem_singleton.mp mem
    cases loaded
    exact fun w => ⟨w, rfl⟩
  have steady : ∀ e ∈ c.inputs, e.2.handle.Steady c.pyramids.process.crs := by
    intro e mem w₁ w₂
    rfl
  obtain ⟨areas, answers, points, all, _⟩ := area_points built steady
  have here := (points 3 (by simp [zooms])).2 (Option.isSome_iff_ne_none.mp given)
  rw [bounds] at here
  rw [zooms] at all
  simp only [List.mem_singleton, Set.iUnion_iUnion_eq_left] at all
  refine ⟨c, w', built, steady, areas, answers, ?_, ?_, ?_⟩
  · -- The identity that was opened is bound somewhere at zoom level three.
    obtain ⟨zoom, mem, path, d, bound, hid⟩ := (coherent built).mem_keys_inputs _ |>.mp opened
    rw [zooms, List.mem_singleton] at mem
    obtain ⟨input, found⟩ :=
      Option.isSome_iff_exists.mp ((Dict.isSome_get?_iff c.inputs _).mpr opened)
    rw [here]
    refine ⟨by decide +kernel, path, input, .ofBox easternBox, ⟨d, _, mem ▸ bound, hid, found⟩,
      covers (_, input) (Dict.mem_of_get? found), ?_⟩
    rw [Area.points_ofBox]
    decide +kernel
  · rw [all, here]
    intro inside
    exact absurd inside.1 (by decide +kernel)
  · rw [all, here]
    intro inside
    obtain ⟨_, path, input, area, ⟨_, id, _, _, found⟩, covered, within⟩ := inside
    rw [covered.unique (covers (id, input) (Dict.mem_of_get? found)) (), Area.points_ofBox] at within
    exact absurd within (by decide +kernel)

end Points

end Configuration

end ZoomConfig
