import ZoomConfig.Proofs.Configuration.Extents
import ZoomConfig.Proofs.Document.Sections
import ZoomConfig.Proofs.Pyramids
/-!
What holds of every configuration.

The checks that a document and its options go through are spread over the stages of a construction.
`Sound` gathers what they amount to in the end, and every configuration that is built is sound
(`sound`), whatever the drivers do.
-/
namespace ZoomConfig

open Outcome

/-! ## Finite boxes -/

/-- All sides are numbers. -/
def Box.Finite (b : Box Float) : Prop := ∀ x ∈ b.toList, x.isFinite = true

theorem Box.ofList?_finite {values : List Float} {b : Box Float} (h : Box.ofList? values = .ok b) :
    b.Finite := by
  unfold Box.ofList? at h
  split at h
  · split at h
    · next finite =>
      cases h
      exact List.all_eq_true.mp finite
    · cases h
  · cases h

theorem Crs.validBox_finite (crs : Crs) : crs.validBox.Finite := by
  cases crs
  all_goals
    simp only [Box.Finite, Box.toList, Crs.validBox, List.forall_mem_cons]
    decide +kernel

theorem ProcessDocument.boundsAt_finite {m : Mapping} {b : Box Float}
    (h : ProcessDocument.boundsAt m = .ok (some b)) : b.Finite := by
  unfold ProcessDocument.boundsAt at h
  split at h
  · cases h
  · cases h
  · obtain ⟨box, read, same⟩ := map_eq_ok.mp h
    cases same
    unfold boundsOfValue at read
    split at read
    · cases read
    · split at read
      · cases read
      · exact Box.ofList?_finite (mapError_eq_ok.mp read)

namespace Configuration

theorem chooseBounds_finite {declared chosen : Box Float} {wanted : Option (List Float)}
    (finite : declared.Finite) (h : chooseBounds declared wanted = .ok chosen) : chosen.Finite := by
  cases wanted with
  | none =>
    cases h
    exact finite
  | some values => exact Box.ofList?_finite (mapError_eq_ok.mp h)

/-! ## Sound configurations -/

variable {σ α : Type} {c : Configuration (StateM σ) α}

theorem Coherent.available (h : Coherent c) {zoom : Nat} (mem : zoom ∈ c.initZooms.toList) :
    (∃ p, c.zoomParams zoom = .ok p) ∧ ∃ declared, c.declarationsAt zoom = .ok declared := by
  obtain ⟨p, found, _⟩ := h.params_of_mem mem
  obtain ⟨declared, answer, _⟩ := h.declarationsAt_ok mem
  exact ⟨⟨p, by simp [zoomParams, found]⟩, declared, answer⟩

variable [Coordinate α]

/-- Every question about a zoom level is answered with an error, and no cache and no world change. -/
structure RefusedAt (c : Configuration (StateM σ) α) (zoom : Nat) (e : ConfigError) : Prop where
  params : c.zoomParams zoom = .error e
  snapshot : c.snapshot zoom = .error e
  declarations : c.declarationsAt zoom = .error e
  area : ∀ cache w, ((c.area (some zoom)).run.run cache).run w = ((.error e, cache), w)
  bounds : ∀ cache w, ((c.boundsAt (some zoom)).run.run cache).run w = ((.error e, cache), w)

/-- The parts of a configuration go together. -/
structure Sound (c : Configuration (StateM σ) α) : Prop where
  /-- Only declared zoom levels are initialized. -/
  zooms : ∀ zoom ∈ c.initZooms.toList, zoom ∈ c.document.zoomLevels.toList
  /-- Every initialized one has parameters and declarations. -/
  available : ∀ zoom ∈ c.initZooms.toList,
    (∃ p, c.zoomParams zoom = .ok p) ∧ ∃ declared, c.declarationsAt zoom = .ok declared
  /-- All others are refused, and the error tells which are initialized. -/
  refused : ∀ zoom ∉ c.initZooms.toList,
    c.RefusedAt zoom (.zoomRange (.notInitialized zoom c.initZooms))
  bounds : ∃ b : Box Float, b.Finite ∧ c.bounds = .ofFloats b
  initBounds : ∃ b : Box Float, b.Finite ∧ c.initBounds = .ofFloats b
  grid : c.pyramids.output.grid = c.pyramids.process.grid
  metatiling : c.pyramids.output.metatiling ∣ c.pyramids.process.metatiling
  baselevels : ∀ b, c.baselevels = some b → b.zooms.min ≤ b.zooms.max ∧
    b.tilePyramid.grid = c.pyramids.output.grid ∧
    b.tilePyramid.pixelbuffer = c.pyramids.output.pixelbuffer ∧
    b.tilePyramid.metatiling = c.pyramids.process.metatiling

theorem Coherent.refusedAt (h : Coherent c) {zoom : Nat} (other : zoom ∉ c.initZooms.toList) :
    c.RefusedAt zoom (.zoomRange (.notInitialized zoom c.initZooms)) where
  params := by simp [zoomParams, h.params_of_not_mem other]
  snapshot := h.snapshot_other other
  declarations := by simp [declarationsAt, zoomParams, h.params_of_not_mem other, Except.map]
  area := h.areaAt_other other
  bounds cache w := run_kept_bind_error (h.areaAt_other other cache w)

variable {files : Files (StateM σ)} {drivers : Drivers (StateM σ) α} {source : DocumentSource}
  {options : InitOptions} {w w' : σ}

/-- Every configuration that is built is sound: the initialized zoom levels are among those that are
declared, and exactly these have parameters, while every question about another level is refused. The
bounds of the process and the initialized ones are four finite numbers. The pyramids share their grid,
and the metatiling of the output divides that of the process. Baselevels have a range in order, the
grid and the pixelbuffer of the output and the metatiling of the process. -/
theorem sound (built : (build files drivers source options).run.run w = (.ok c, w')) : c.Sound := by
  obtain ⟨k⟩ := construction built
  have h := k.coherent.1
  have plan := planStages k.planned
  obtain ⟨_, _, read⟩ := ProcessDocument.sections_of_checkDocument k.check
  obtain ⟨processGrid, outputGrid, divides⟩ := Pyramids.build_ok plan.pyramids
  have declared : k.plan.bounds.Finite := by
    rw [plan.bounds]
    cases given : c.document.bounds with
    | none => exact Crs.validBox_finite _
    | some b => exact ProcessDocument.boundsAt_finite (given ▸ read.bounds)
  refine ⟨?_, fun zoom => h.available, fun zoom => h.refusedAt, ⟨_, declared, k.bounds⟩,
    ⟨_, chooseBounds_finite declared plan.initBounds, k.initBounds⟩, ?_, ?_, ?_⟩
  · rw [k.initZooms]
    exact (ZoomLevels.within_iff _ _).mp (chooseZooms_within plan.zooms)
  · rw [k.pyramids, outputGrid, processGrid]
  · rw [k.pyramids]
    exact divides
  · intro b here
    rw [k.baselevels] at here
    obtain ⟨raw, _, made⟩ := plan.baselevels b here
    rw [k.pyramids, Baselevels.ofMapping_ends.result made]
    exact ⟨b.zooms.min_le_max, rfl, rfl, rfl⟩

/-- A document with smaller metatiles in its output, and baselevels down to zoom level one. -/
def layeredDocument : DocumentSource :=
  .mapping [
    (.string configDirKey, .string "/base"),
    (.string "process_file", .string "process.py"),
    (.string "zoom_levels", .mapping [(.string "min", .ofNat 3), (.string "max", .ofNat 5)]),
    (.string "pyramid", .mapping [(.string "grid", .string "mercator"),
      (.string "metatiling", .ofNat 8), (.string "pixelbuffer", .ofNat 10)]),
    (.string "baselevels", .mapping [(.string "min", .ofNat 1)]),
    (.string inputKey, .mapping [(.string "a", .string "a.x")]),
    (.string "output", .mapping [(.string formatKey, .string "Open"),
      (.string "metatiling", .ofNat 2), (.string "pixelbuffer", .ofNat 5)])]

/-- Its configuration for two of three zoom levels. -/
theorem sound_layered : ∃ c w', (build emptyFiles openDrivers layeredDocument
      ⟨some [5, 4], none, Mode.keep.name⟩).run.run () = (.ok c, w') ∧ c.Sound ∧
    c.initZooms.toList = [4, 5] ∧ c.snapshot 3 = .error (.zoomRange (.notInitialized 3 c.initZooms)) ∧
    (∃ b, c.baselevels = some b ∧ b.zooms.toList = [1, 2, 3, 4, 5] ∧ b.tilePyramid.grid = .mercator ∧
      b.tilePyramid.pixelbuffer = 5 ∧ b.tilePyramid.metatiling = 8) ∧
    c.pyramids.output.metatiling = 2 ∧ c.bounds.Finite := by
  obtain ⟨c, w', built, test⟩ := givesWith_iff
    (build emptyFiles openDrivers layeredDocument ⟨some [5, 4], none, Mode.keep.name⟩) ()
    (fun c => decide (c.initZooms.toList = [4, 5] ∧ c.pyramids.process.metatiling = 8 ∧
      c.pyramids.output.metatiling = 2 ∧ c.pyramids.output.pixelbuffer = 5 ∧
      c.pyramids.output.grid = .mercator ∧
      c.baselevels.map (fun b => b.zooms.toList) = some [1, 2, 3, 4, 5]))
    |>.mp (by decide +kernel)
  obtain ⟨zooms, process, output, buffer, grid, levels⟩ := of_decide_eq_true test
  have s := sound built
  obtain ⟨b, here, range⟩ := Option.map_eq_some_iff.mp levels
  obtain ⟨_, sameGrid, sameBuffer, sameTiles⟩ := s.baselevels b here
  obtain ⟨box, finite, same⟩ := s.bounds
  refine ⟨c, w', built, s, zooms, (s.refused 3 (by simp [zooms])).snapshot, ⟨b, here, range,
    sameGrid.trans grid, sameBuffer.trans buffer, sameTiles.trans process⟩, output, ?_⟩
  rw [same]
  exact finite

end Configuration

end ZoomConfig
