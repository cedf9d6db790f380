import ZoomConfig.Proofs.Configuration.Areas
import ZoomConfig.Proofs.Configuration.Recording
/-!
Every input that is used is opened once.

The paths, the declarations and the opened inputs of a configuration are tied together by identities.
`inputs_opened_once` follows them through a construction: what is opened is what some initialized zoom
level binds, each identity by one request, every bound path has its declaration, and areas can be
asked for.
-/
namespace ZoomConfig.Configuration

open Outcome InputRegistry

variable {σ α : Type}

namespace Coherent

variable {m : Type → Type} {c : Configuration m α}

theorem mem_keys_inputs (h : Coherent c) (id : ContentId) :
    id ∈ Dict.keys c.inputs ↔ ∃ zoom ∈ c.initZooms.toList, ∃ path d,
      Dict.get? (leavesAt c.document.params zoom) path = some (some d) ∧ d.contentId = .ok id := by
  rw [← keys_declarations, h.opened, ← Dict.isSome_get?_iff, identify_isSome h.known]
  constructor
  · intro bound
    obtain ⟨d, mem, hid⟩ := bound
    obtain ⟨zoom, inside, path, found⟩ := mem_declared.mp mem
    exact ⟨zoom, inside, path, d, found, hid⟩
  · intro bound
    obtain ⟨zoom, inside, path, d, found, hid⟩ := bound
    exact ⟨d, mem_declared.mpr ⟨zoom, inside, path, found⟩, hid⟩

theorem inputs_distinct (h : Coherent c) :
    (Dict.keys c.inputs).Nodup ∧ ∀ e ∈ c.inputs, e.2.declaration.contentId = .ok e.1 := by
  have sorted := identify_sorted h.known Dict.sorted_nil
  have faithful := identify_faithful h.known
  rw [← h.opened] at sorted faithful
  constructor
  · have := sorted.nodup
    rwa [keys_declarations] at this
  · intro e mem
    exact faithful (e.1, e.2.declaration) (List.mem_map.mpr ⟨e, mem, rfl⟩)

/-- The declarations at an initialized zoom level stand at its paths, with the same identities. -/
theorem declarationsAt_ok (h : Coherent c) {zoom : Nat} (mem : zoom ∈ c.initZooms.toList) :
    ∃ bound, c.declarationsAt zoom = .ok bound ∧ ∀ path,
      (Dict.get? (leavesAt c.document.params zoom) path = none → Dict.get? bound path = none) ∧
      (Dict.get? (leavesAt c.document.params zoom) path = some none →
        Dict.get? bound path = some none) ∧
      ∀ d, Dict.get? (leavesAt c.document.params zoom) path = some (some d) →
        ∃ d' id, Dict.get? bound path = some (some d') ∧ d.contentId = .ok id ∧
          d'.contentId = .ok id := by
  obtain ⟨p, found, resolved⟩ := h.params_of_mem mem
  have here : c.zoomParams zoom = .ok p := by simp [zoomParams, found]
  refine ⟨_, by rw [declarationsAt, here]; rfl, ?_⟩
  intro path
  rw [Dict.get?_map fun _ (id : Option ContentId) => id.bind (Dict.get? c.declarations)]
  refine ⟨?_, ?_, ?_⟩
  · intro absent
    rw [resolved.leaves.absent absent]
    rfl
  · intro unbound
    rw [resolved.leaves.unbound unbound]
    rfl
  · intro d bound
    obtain ⟨id, hid, identity⟩ := resolved.leaves.bound bound
    -- The identity is known, perhaps through another declaration that has it.
    obtain ⟨input, _, known, _, same⟩ :=
      h.opened_of_declared (mem_declared.mpr ⟨zoom, mem, path, bound⟩) identity
    refine ⟨input.declaration, id, ?_, identity, same⟩
    rw [hid, Option.map_some, Option.bind_some, known]

end Coherent

variable [Coordinate α] {files : Files (StateM σ)} {drivers : Drivers (StateM σ) α}
  {source : DocumentSource} {options : InitOptions} {w w' : σ} {c : Configuration (StateM σ) α}

theorem inputs_answered (built : (build files drivers source options).run.run w = (.ok c, w')) :
    ∀ e ∈ c.inputs, ∃ w₁ area w₂,
      (e.2.handle.bbox c.pyramids.process.crs).run w₁ = (.ok area, w₂) := by
  obtain ⟨k⟩ := construction built
  exact k.coherent.2.answered

/-- What holds of every handle that the drivers load holds of the opened ones. -/
theorem handles_of_drivers {P : InputHandle (StateM σ) α → Prop}
    (loads : ∀ driver ∈ drivers.inputs, ∀ req w handle w₁,
      (driver.load req).run w = (.ok handle, w₁) → P handle)
    (built : (build files drivers source options).run.run w = (.ok c, w')) :
    ∀ e ∈ c.inputs, P e.2.handle := by
  intro e mem
  obtain ⟨k⟩ := construction built
  obtain ⟨_, _, driver, found, loaded⟩ := k.coherent.2.loaded e mem
  exact loads driver (mem_of_inputDriver? found) _ _ _ _ loaded

/-- In a configuration that was built, the opened inputs have the identities that are bound at some
path of some initialized zoom level. The construction has asked for each of them to be loaded exactly
once: built with recorded drivers, it leaves one request for each identity. At every initialized zoom
level each bound path has a declaration with its identity, and each unbound one has none. If the
handles answer for the system of the process alike in every world, then the areas and bounds of all
initialized zoom levels, and of all together, are given. -/
theorem inputs_opened_once (built : (build files drivers source options).run.run w = (.ok c, w')) :
    (∀ id, id ∈ Dict.keys c.inputs ↔ ∃ zoom ∈ c.initZooms.toList, ∃ path d,
      Dict.get? (leavesAt c.document.params zoom) path = some (some d) ∧ d.contentId = .ok id) ∧
    ((build (files.keeping _) drivers.recorded source options).run.run ([], w) =
        (.ok (c.keeping (InputRequest α)),
          (c.inputs.map fun e => request c.loadContext e.2.declaration, w')) ∧
      (Dict.keys c.inputs).Nodup ∧ ∀ e ∈ c.inputs, e.2.declaration.contentId = .ok e.1) ∧
    (∀ zoom ∈ c.initZooms.toList, ∃ bound, c.declarationsAt zoom = .ok bound ∧ ∀ path,
      (Dict.get? (leavesAt c.document.params zoom) path = none → Dict.get? bound path = none) ∧
      (Dict.get? (leavesAt c.document.params zoom) path = some none →
        Dict.get? bound path = some none) ∧
      ∀ d, Dict.get? (leavesAt c.document.params zoom) path = some (some d) →
        ∃ d' id, Dict.get? bound path = some (some d') ∧ d.contentId = .ok id ∧
          d'.contentId = .ok id) ∧
    ((∀ e ∈ c.inputs, e.2.handle.Steady c.pyramids.process.crs) →
      ∀ zoom, (∀ z, zoom = some z → z ∈ c.initZooms.toList) →
        GivenCached (c.area zoom) ∧ GivenCached (c.boundsAt zoom)) := by
  have h := coherent built
  refine ⟨h.mem_keys_inputs, ⟨build_recorded built, h.inputs_distinct⟩, ?_, ?_⟩
  · intro zoom mem
    exact h.declarationsAt_ok mem
  · intro steady zoom inside
    have answering := answering_of_steady steady (inputs_answered built)
    exact ⟨h.area_given answering inside, h.boundsAt_given answering inside⟩

/-- Two paths of one declaration, and a name that is bound to nothing. -/
def sharedInput : Value :=
  .mapping [(.string "a", .string "a.x"), (.string "b", .string "a.x"), (.string "c", .null)]

/-- The shared declaration is opened once, and the area of its zoom level is given. -/
theorem inputs_opened_once_shared : ∃ c w', (buildSmall sharedInput).run.run () = (.ok c, w') ∧
    Dict.keys c.inputs = [.ofPath "a.x"] ∧
    (∃ requests, (build (emptyFiles.keeping _) openDrivers.recorded (smallDocument sharedInput)
      .default).run.run ([], ()) = (.ok (c.keeping (InputRequest Float)), (requests, w')) ∧
      requests.length = 1) ∧
    GivenCached (c.area (some 3)) ∧ GivenCached (c.boundsAt none) := by
  obtain ⟨c, w', built, test⟩ := givesWith_iff (buildSmall sharedInput) ()
    (fun c => decide (3 ∈ c.initZooms.toList ∧ Dict.keys c.inputs = [.ofPath "a.x"]))
    |>.mp (by decide +kernel)
  obtain ⟨mem, keys⟩ := of_decide_eq_true test
  obtain ⟨_, ⟨recorded, _, _⟩, _, areas⟩ := inputs_opened_once built
  have steady : ∀ e ∈ c.inputs, e.2.handle.Steady c.pyramids.process.crs := by
    intro e he
    obtain ⟨k⟩ := construction built
    obtain ⟨_, _, driver, found, loaded⟩ := k.coherent.2.loaded e he
    have only : driver ∈ openDrivers.inputs := by
      unfold Drivers.inputDriver? at found
      split at found
      · next d hd =>
        cases found
        exact List.mem_reverse.mp (List.mem_of_find?_eq_some hd)
      · cases found
    obtain rfl := List.mem_singleton.mp only
    have handle : emptyHandle = e.2.handle := Except.ok.inj (congrArg Prod.fst loaded)
    rw [← handle]
    intro w w'
    rfl
  refine ⟨c, w', built, keys, ⟨_, recorded, ?_⟩, (areas steady (some 3) ?_).1,
    (areas steady none ?_).2⟩
  · have length := congrArg List.length keys
    simpa [Dict.keys] using length
  · intro z hz
    obtain rfl := Option.some.inj hz
    exact mem
  · intro z hz
    cases hz

end ZoomConfig.Configuration
