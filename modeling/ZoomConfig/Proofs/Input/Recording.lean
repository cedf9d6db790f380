import ZoomConfig.Proofs.Input.Registry
/-!
Recording what drivers are asked to load.

`Drivers.recorded` puts a log beside the world of given drivers: every request to load an input is
added to it, and everything else acts on the world as before (`keeping`). Inputs that are opened one
after the other with recorded drivers leave one request each, in their order (`openAll_recorded`).
-/
namespace ZoomConfig

variable {ρ σ α β γ : Type}

/-- A computation that leaves the log beside its world as it is. -/
def keeping (ρ : Type) (x : StateM σ β) : StateM (List ρ × σ) β :=
  fun s => ((x.run s.2).1, (s.1, (x.run s.2).2))

theorem run_keeping (x : StateM σ β) (log : List ρ) {w w' : σ} {b : β} (h : x.run w = (b, w')) :
    (keeping ρ x).run (log, w) = (b, (log, w')) := by
  show ((x.run w).1, (log, (x.run w).2)) = (b, (log, w'))
  rw [h]

/-- A handle whose world has a log beside it. -/
def InputHandle.keeping (ρ : Type) (handle : InputHandle (StateM σ) α) :
    InputHandle (StateM (List ρ × σ)) α where
  driver := handle.driver
  bbox crs := ZoomConfig.keeping ρ (handle.bbox crs)

/-- A writer whose world has a log beside it. -/
def OutputWriter.keeping (ρ : Type) (writer : OutputWriter (StateM σ)) :
    OutputWriter (StateM (List ρ × σ)) where
  driver := writer.driver
  check params := ZoomConfig.keeping ρ (writer.check params)

/-- An output driver whose world has a log beside it. -/
def OutputDriver.keeping (ρ : Type) (driver : OutputDriver (StateM σ)) :
    OutputDriver (StateM (List ρ × σ)) where
  name := driver.name
  load params := ZoomConfig.keeping ρ do return (← driver.load params).map (OutputWriter.keeping ρ)

/-- An input driver that adds every request to the log. -/
def InputDriver.recorded (driver : InputDriver (StateM σ) α) :
    InputDriver (StateM (List (InputRequest α) × σ)) α where
  name := driver.name
  extensions := driver.extensions
  load request := do
    modify fun s => (s.1 ++ [request], s.2)
    ZoomConfig.keeping _ do return (← driver.load request).map (InputHandle.keeping _)

/-- Drivers that record what they are asked to load. -/
def Drivers.recorded (drivers : Drivers (StateM σ) α) :
    Drivers (StateM (List (InputRequest α) × σ)) α where
  inputs := drivers.inputs.map InputDriver.recorded
  outputs := drivers.outputs.map (OutputDriver.keeping _)

/-! ## One driver -/

section Drivers

variable {drivers : Drivers (StateM σ) α}

theorem inputDriver?_recorded (source : InputSource) :
    drivers.recorded.inputDriver? source =
      (drivers.inputDriver? source).map InputDriver.recorded := by
  have opens : ∀ d : InputDriver (StateM σ) α,
      Drivers.opens source d.recorded = Drivers.opens source d := by
    intro d
    cases source <;> rfl
  unfold Drivers.inputDriver?
  simp only [Drivers.recorded, ← List.map_reverse, List.find?_map, Function.comp_def, opens]
  cases drivers.inputs.reverse.find? (Drivers.opens source) <;> rfl

theorem outputDriver?_recorded {format : String} {driver : OutputDriver (StateM σ)}
    (h : drivers.outputDriver? format = some driver) :
    drivers.recorded.outputDriver? format = some (driver.keeping _) := by
  unfold Drivers.outputDriver? at h ⊢
  simp only [Drivers.recorded, ← List.map_reverse, List.find?_map, Function.comp_def]
  rw [show (fun d : OutputDriver (StateM σ) => (d.keeping (InputRequest α)).name == format) =
    fun d => d.name == format from rfl, h]
  rfl

theorem outputFormats_recorded : drivers.recorded.outputFormats = drivers.outputFormats := by
  simp only [Drivers.outputFormats, Drivers.recorded, List.map_map]
  rfl

/-- Loading an input adds its request to the log, whether it succeeds or not. -/
theorem load_recorded {driver : InputDriver (StateM σ) α} {request : InputRequest α}
    {result : Except DriverError (InputHandle (StateM σ) α)} {w w' : σ}
    (log : List (InputRequest α)) (h : (driver.load request).run w = (result, w')) :
    (driver.recorded.load request).run (log, w) =
      (result.map (InputHandle.keeping _), (log ++ [request], w')) := by
  have kept : (do return (← driver.load request).map (InputHandle.keeping (InputRequest α)) :
      StateM σ _).run w = (result.map (InputHandle.keeping _), w') := by
    rw [StateT.run_bind, h]
    rfl
  exact run_keeping _ (log ++ [request]) kept

end Drivers

/-! ## Opening inputs -/

namespace InputRegistry

open Outcome

variable {drivers : Drivers (StateM σ) α} {w w' : σ} {ctx : LoadContext α}

theorem LoadedFrom.recorded {d : Declaration} {handle : InputHandle (StateM σ) α}
    (h : LoadedFrom ctx drivers d handle w w') (log : List (InputRequest α)) :
    LoadedFrom ctx drivers.recorded d (handle.keeping _) (log, w)
      (log ++ [request ctx d], w') := by
  obtain ⟨driver, found, load⟩ := h
  refine ⟨driver.recorded, ?_, load_recorded log load⟩
  rw [inputDriver?_recorded, found, Except.map]

/-- Opened inputs whose world has a log beside it. -/
def keeping (ρ : Type) (opened : InputRegistry (StateM σ) α) :
    InputRegistry (StateM (List ρ × σ)) α :=
  opened.map fun e => (e.1, ⟨e.2.id, e.2.declaration, e.2.handle.keeping ρ⟩)

/-- The requests to open inputs, in the order of their identities. -/
def requests {m : Type → Type} (ctx : LoadContext α) (opened : InputRegistry m α) :
    List (InputRequest α) :=
  opened.map fun e => request ctx e.2.declaration

theorem Opens.recorded {opened : InputRegistry (StateM σ) α} (h : Opens ctx drivers w opened w')
    (log : List (InputRequest α)) :
    Opens ctx drivers.recorded (log, w) (opened.keeping _) (log ++ requests ctx opened, w') := by
  induction h generalizing log with
  | done w =>
    rw [requests, List.map_nil, List.append_nil]
    exact .done _
  | @next _ _ _ _ _ d _ _ _ loaded answered _ ih =>
    -- The request of this input stands before those of the others.
    have others := ih (log ++ [request ctx d])
    rw [List.append_assoc] at others
    exact .next (loaded.recorded log) (run_keeping _ _ answered) others

theorem declarations_keeping (ρ : Type) (opened : InputRegistry (StateM σ) α) :
    declarations (opened.keeping ρ) = declarations opened := by
  simp [declarations, keeping]

theorem requests_keeping (ρ : Type) (opened : InputRegistry (StateM σ) α) :
    requests ctx (opened.keeping ρ) = requests ctx opened := by
  simp [requests, keeping]

theorem openAll_recorded {opened : InputRegistry (StateM σ) α}
    (h : Opens ctx drivers w opened w') (log : List (InputRequest α)) :
    (openAll ctx drivers.recorded (declarations opened)).run (log, w) =
      (.ok (opened.keeping _), (log ++ requests ctx opened, w')) := by
  have run := (h.recorded log).run
  rwa [declarations_keeping] at run

end InputRegistry

end ZoomConfig
