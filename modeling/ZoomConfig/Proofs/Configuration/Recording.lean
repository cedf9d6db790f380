import ZoomConfig.Proofs.Configuration.Leaves
import ZoomConfig.Proofs.Input.Recording
/-!
Building a configuration with recorded drivers.

Building with drivers that record what they are asked to load goes as building without them, and the
log holds one request for each opened input, in the order of their identities (`build_recorded`).
-/
namespace ZoomConfig

variable {ρ σ α β γ : Type}

/-- Files whose world has a log beside it. -/
def Files.keeping (ρ : Type) (files : Files (StateM σ)) : Files (StateM (List ρ × σ)) where
  isFile path := ZoomConfig.keeping ρ (files.isFile path)
  readText path := ZoomConfig.keeping ρ (files.readText path)
  realPath path := ZoomConfig.keeping ρ (files.realPath path)

/-! ## The stages that read files -/

section Files

variable {files : Files (StateM σ)}

theorem keeping_bind (x : StateM σ β) (f : β → StateM σ γ) :
    keeping ρ (x >>= f) = keeping ρ x >>= fun b => keeping ρ (f b) := rfl

theorem load_keeping (source : DocumentSource) :
    LoadedDocument.load (files.keeping ρ) source = keeping ρ (LoadedDocument.load files source) := by
  cases source with
  | mapping entries => rfl
  | file path =>
    simp only [LoadedDocument.load, LoadedDocument.ofFile]
    split
    · rfl
    · rw [keeping_bind]
      apply bind_congr
      intro text
      cases text with
      | error cause => rfl
      | ok text =>
        simp only [keeping_bind]
        apply bind_congr
        intro real
        cases real <;> rfl

namespace Configuration

theorem checkProcessFile_keeping (configDir processFile : String) :
    checkProcessFile (files.keeping ρ) configDir processFile =
      keeping ρ (checkProcessFile files configDir processFile) := by
  unfold checkProcessFile
  simp only [keeping_bind]
  apply bind_congr
  intro isFile
  cases isFile with
  | false => rfl
  | true =>
    simp only [if_true, keeping_bind]
    apply bind_congr
    intro text
    cases text <;> rfl

end Configuration

end Files

/-! ## The stages that ask drivers -/

section Stages

open Outcome InputRegistry

variable {drivers : Drivers (StateM σ) α} {w w' : σ}

namespace Configuration

theorem loadOutput_recorded {params : OutputParams} {writer : OutputWriter (StateM σ)}
    (log : List (InputRequest α)) (h : (loadOutput drivers params).run w = (.ok writer, w')) :
    (loadOutput drivers.recorded params).run (log, w) = (.ok (writer.keeping _), (log, w')) := by
  unfold loadOutput at h ⊢
  cases hdriver : drivers.outputDriver? params.format with
  | none =>
    simp only [hdriver] at h
    cases h
  | some driver =>
    simp only [hdriver] at h
    obtain ⟨r, w₁, hload, h⟩ := run_step_eq.mp h
    cases r with
    | error e => cases h
    | ok loaded =>
      obtain ⟨r, w₂, hcheck, h⟩ := run_step_eq.mp h
      cases r with
      | error e => cases h
      | ok _ =>
        cases h
        simp only [outputDriver?_recorded hdriver]
        have kept : (do return (← driver.load params).map (OutputWriter.keeping (InputRequest α)) :
            StateM σ _).run w = (.ok (writer.keeping _), w₁) := by
          rw [StateT.run_bind, hload]
          rfl
        apply run_step_eq.mpr
        refine ⟨_, _, run_keeping _ log kept, ?_⟩
        apply run_step_eq.mpr
        exact ⟨_, _, run_keeping _ log hcheck, rfl⟩

end Configuration

end Stages

/-! ## The whole construction -/

namespace Configuration

open Outcome InputRegistry

variable [Coordinate α]

/-- A configuration whose world has a log beside it. -/
def keeping (ρ : Type) (c : Configuration (StateM σ) α) :
    Configuration (StateM (List ρ × σ)) α :=
  { document := c.document
    processFile := c.processFile
    deprecations := c.deprecations
    mode := c.mode
    pyramids := c.pyramids
    baselevels := c.baselevels
    initZooms := c.initZooms
    bounds := c.bounds
    initBounds := c.initBounds
    paramsAt := c.paramsAt
    declarations := c.declarations
    outputParams := c.outputParams
    output := c.output.keeping ρ
    inputs := c.inputs.keeping ρ }

/-- Recording changes nothing else, and it shows one request for each opened input. -/
theorem build_recorded {files : Files (StateM σ)} {drivers : Drivers (StateM σ) α}
    {source : DocumentSource} {options : InitOptions} {w w' : σ} {c : Configuration (StateM σ) α}
    (built : (build files drivers source options).run.run w = (.ok c, w')) :
    (build (files.keeping _) drivers.recorded source options).run.run ([], w) =
      (.ok (c.keeping (InputRequest α)), (requests c.loadContext c.inputs, w')) := by
  obtain ⟨k⟩ := construction built
  obtain ⟨coherent, opens⟩ := k.coherent
  have context : k.plan.context c.document.configDir = c.loadContext := by
    simp only [Plan.context, loadContext, k.mode, k.pyramids, k.initZooms, k.bounds, k.initBounds]
  have registry : InputRegistry.materialize c.loadContext drivers.recorded
      (k.plan.declarations.map (·.2)) =
      openAll c.loadContext drivers.recorded (InputRegistry.declarations c.inputs) := by
    rw [InputRegistry.materialize, ← k.declarations, coherent.opened,
      identify_values (identify_sorted coherent.known Dict.sorted_nil)
        (identify_faithful coherent.known)]
  have load : (LoadedDocument.load (files.keeping (InputRequest α)) source).run ([], w) =
      (.ok k.loaded, ([], k.afterLoad)) := by
    rw [load_keeping]
    exact run_keeping _ [] k.load
  have process : (checkProcessFile (files.keeping (InputRequest α)) c.document.configDir
      c.document.processFile).run ([], k.afterLoad) =
      (.ok c.processFile, ([], k.afterProcess)) := by
    rw [checkProcessFile_keeping]
    exact run_keeping _ [] k.process
  have opening : (InputRegistry.materialize (k.plan.context c.document.configDir) drivers.recorded
      (k.plan.declarations.map (·.2))).run ([], k.afterOutput) =
      (.ok (c.inputs.keeping _), (requests c.loadContext c.inputs, w')) := by
    rw [context, registry, openAll_recorded opens []]
    rfl
  have output := k.output
  rw [← outputFormats_recorded] at output
  -- Each stage goes as before, with the log beside its world.
  exact Construction.built {
    loaded := k.loaded
    plan := k.plan
    afterLoad := ([], k.afterLoad)
    afterProcess := ([], k.afterProcess)
    afterOutput := ([], k.afterOutput)
    check := k.check
    planned := k.planned
    writer := loadOutput_recorded [] k.writer
    load, process, output, opening
    mode := k.mode
    pyramids := k.pyramids
    baselevels := k.baselevels
    initZooms := k.initZooms
    bounds := k.bounds
    initBounds := k.initBounds
    paramsAt := k.paramsAt
    declarations := k.declarations }

end Configuration

end ZoomConfig
