import ZoomConfig.Configuration.Query
import ZoomConfig.Proofs.Outcome
/-!
The stages of a construction.

A configuration that is built has gone through every stage. `Construction` names what each stage gave
and the states of the world between them (drivers and files act on a world of type `σ`), and
`construction` reads it off a run that succeeds. `PlanStages` does the same for the part that needs
neither files nor drivers.
-/
namespace ZoomConfig.Configuration

open Outcome

variable {σ α : Type} [Coordinate α]

/-- What each stage of a construction gave that led from world `w` to `w'`. -/
structure Construction (files : Files (StateM σ)) (drivers : Drivers (StateM σ) α)
    (source : DocumentSource) (options : InitOptions) (w : σ) (c : Configuration (StateM σ) α)
    (w' : σ) where
  loaded : LoadedDocument
  plan : Plan
  afterLoad : σ
  afterProcess : σ
  afterOutput : σ
  load : (LoadedDocument.load files source).run w = (.ok loaded, afterLoad)
  check : checkDocument loaded = .ok (c.document, c.deprecations)
  process : (checkProcessFile files c.document.configDir c.document.processFile).run afterLoad =
    (.ok c.processFile, afterProcess)
  planned : Plan.of c.document options = .ok plan
  output : OutputParams.ofMapping c.document.output c.document.configDir plan.pyramids.output
    drivers.outputFormats = .ok c.outputParams
  writer : (loadOutput drivers c.outputParams).run afterProcess = (.ok c.output, afterOutput)
  opening : (InputRegistry.materialize (plan.context c.document.configDir) drivers
    (plan.declarations.map (·.2))).run afterOutput = (.ok c.inputs, w')
  mode : c.mode = plan.mode
  pyramids : c.pyramids = plan.pyramids
  baselevels : c.baselevels = plan.baselevels
  initZooms : c.initZooms = plan.initZooms
  bounds : c.bounds = .ofFloats plan.bounds
  initBounds : c.initBounds = .ofFloats plan.initBounds
  paramsAt : c.paramsAt = plan.paramsAt
  declarations : c.declarations = plan.declarations

variable {files : Files (StateM σ)} {drivers : Drivers (StateM σ) α} {source : DocumentSource}
  {options : InitOptions} {w w' : σ} {c : Configuration (StateM σ) α}

/-- A construction that succeeds has gone through every stage. -/
theorem construction (built : (build files drivers source options).run.run w = (.ok c, w')) :
    Nonempty (Construction files drivers source options w c w') := by
  unfold build at built
  obtain ⟨loaded, w₁, load, built⟩ := run_bind_eq_ok.mp built
  obtain ⟨⟨document, deprecations⟩, w₂, checkedRun, built⟩ := run_bind_eq_ok.mp built
  obtain ⟨checked, rfl⟩ := run_lift_eq_ok.mp checkedRun
  obtain ⟨processFile, w₃, process, built⟩ := run_bind_eq_ok.mp built
  obtain ⟨plan, w₄, plannedRun, built⟩ := run_bind_eq_ok.mp built
  obtain ⟨planned, rfl⟩ := run_lift_eq_ok.mp plannedRun
  obtain ⟨outputParams, w₅, outputRun, built⟩ := run_bind_eq_ok.mp built
  obtain ⟨output, rfl⟩ := run_lift_eq_ok.mp outputRun
  obtain ⟨writer, w₆, loadWriter, built⟩ := run_bind_eq_ok.mp built
  obtain ⟨inputs, w₇, opening, built⟩ := run_bind_eq_ok.mp built
  obtain ⟨rfl, rfl⟩ := run_pure_eq_ok.mp built
  exact ⟨{
    loaded, plan, load, process, planned, output, opening
    afterLoad := w₁
    afterProcess := w₃
    afterOutput := w₆
    check := checked
    writer := loadWriter
    mode := rfl
    pyramids := rfl
    baselevels := rfl
    initZooms := rfl
    bounds := rfl
    initBounds := rfl
    paramsAt := rfl
    declarations := rfl }⟩

/-- Where every stage gives what it names, the construction succeeds. -/
theorem Construction.built (k : Construction files drivers source options w c w') :
    (build files drivers source options).run.run w = (.ok c, w') := by
  unfold build
  refine run_bind_eq_ok.mpr ⟨_, _, k.load, ?_⟩
  refine run_bind_eq_ok.mpr ⟨_, _, run_lift_eq_ok.mpr ⟨k.check, rfl⟩, ?_⟩
  refine run_bind_eq_ok.mpr ⟨_, _, k.process, ?_⟩
  refine run_bind_eq_ok.mpr ⟨_, _, run_lift_eq_ok.mpr ⟨k.planned, rfl⟩, ?_⟩
  refine run_bind_eq_ok.mpr ⟨_, _, run_lift_eq_ok.mpr ⟨k.output, rfl⟩, ?_⟩
  refine run_bind_eq_ok.mpr ⟨_, _, k.writer, ?_⟩
  refine run_bind_eq_ok.mpr ⟨_, _, k.opening, ?_⟩
  -- Only the fields are left, and each is the one of the plan.
  refine run_pure_eq_ok.mpr ⟨?_, rfl⟩
  simp only [← k.mode, ← k.pyramids, ← k.baselevels, ← k.initZooms, ← k.bounds, ← k.initBounds,
    ← k.paramsAt, ← k.declarations]

/-- What each stage of a plan gave. -/
structure PlanStages (doc : ProcessDocument) (options : InitOptions) (plan : Plan) : Prop where
  pyramids : Pyramids.build doc.pyramid doc.output = .ok plan.pyramids
  baselevels : ∀ b, plan.baselevels = some b → ∃ raw, doc.baselevels = some raw ∧
    Baselevels.ofMapping raw doc.zoomLevels plan.pyramids.process plan.pyramids.output = .ok b
  mode : Mode.ofName? options.mode = some plan.mode
  zooms : chooseZooms doc.zoomLevels options.zoom = .ok plan.initZooms
  bounds : plan.bounds = doc.bounds.getD plan.pyramids.process.bounds
  initBounds : chooseBounds plan.bounds options.bounds = .ok plan.initBounds
  params : resolveZooms doc.params [] plan.initZooms.toList = .ok (plan.paramsAt, plan.declarations)

theorem planStages {doc : ProcessDocument} {options : InitOptions} {plan : Plan}
    (planned : Plan.of doc options = .ok plan) : PlanStages doc options plan := by
  unfold Plan.of at planned
  obtain ⟨pyramids, hpyramids, planned⟩ := bind_eq_ok.mp planned
  -- The stages that follow are the same whether a document has baselevels or not.
  cases raw : doc.baselevels
  all_goals
    simp only [raw] at planned
    obtain ⟨baselevels, read, planned⟩ := bind_eq_ok.mp planned
    have levels : ∀ b, baselevels = some b → ∃ raw, doc.baselevels = some raw ∧
        Baselevels.ofMapping raw doc.zoomLevels pyramids.process pyramids.output = .ok b := by
      intro b here
      rw [here] at read
      first
      | cases read
      | exact ⟨_, raw, by simpa [map_eq_ok] using read⟩
    cases hmode : Mode.ofName? options.mode with
    | none =>
      simp only [hmode] at planned
      exact absurd planned throw_ne_ok
    | some mode =>
      simp only [hmode] at planned
      obtain ⟨initZooms, hzooms, planned⟩ := bind_eq_ok.mp planned
      obtain ⟨initBounds, hbounds, planned⟩ := bind_eq_ok.mp planned
      obtain ⟨⟨paramsAt, declarations⟩, hparams, planned⟩ := bind_eq_ok.mp planned
      obtain rfl := pure_eq_ok.mp planned
      exact ⟨hpyramids, levels, hmode, hzooms, rfl, hbounds, hparams⟩

theorem chooseZooms_within {declared zooms : ZoomLevels} {wanted : Option (List Nat)}
    (chosen : chooseZooms declared wanted = .ok zooms) : zooms.within declared = true := by
  have last : ∀ range : ZoomLevels, (if range.within declared = true then pure range
      else throw (.zoomRange (.notDeclared range declared)) : Except ConfigError ZoomLevels) =
        .ok zooms → zooms.within declared = true := by
    intro range chosen
    split at chosen
    · next inside =>
      obtain rfl := pure_eq_ok.mp chosen
      exact inside
    · exact absurd chosen throw_ne_ok
  unfold chooseZooms at chosen
  cases wanted with
  | none => exact last declared chosen
  | some levels =>
    obtain ⟨range, _, chosen⟩ := bind_eq_ok.mp chosen
    exact last range chosen

/-! ## A small document -/

/-- Every path leads to an empty file. -/
def emptyFiles : Files (StateM Unit) where
  isFile _ := pure true
  readText _ := pure (.ok "")
  realPath path := pure (.ok path)

/-- A handle with an empty area. -/
def emptyHandle : InputHandle (StateM Unit) Float := ⟨"Open", fun _ => pure (.ok .empty)⟩

/-- Drivers of one format that open whatever they are given. -/
def openDrivers : Drivers (StateM Unit) Float where
  inputs := [{ name := "Open", extensions := ["x"], load := fun _ => pure (.ok emptyHandle) }]
  outputs := [{ name := "Open", load := fun _ => pure (.ok ⟨"Open", fun _ => pure (.ok ())⟩) }]

/-- A document with zoom level three and a given input. -/
def smallDocument (input : Value) : DocumentSource :=
  .mapping [
    (.string configDirKey, .string "/base"),
    (.string "process_file", .string "process.py"),
    (.string "zoom_levels", .number (.int 3)),
    (.string "pyramid", .mapping [(.string "grid", .string "geodetic")]),
    (.string inputKey, input),
    (.string "output", .mapping [(.string formatKey, .string "Open")])]

/-- The configuration of a small document. -/
def buildSmall (input : Value) : ExceptT ConfigError (StateM Unit) (Configuration (StateM Unit) Float) :=
  build emptyFiles openDrivers (smallDocument input) .default

end ZoomConfig.Configuration
