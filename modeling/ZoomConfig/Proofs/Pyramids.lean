import ZoomConfig.Baselevels
import ZoomConfig.Driver
import ZoomConfig.Proofs.Outcome
/-!
The pyramids of a process and what is made of them.

The two pyramids share a grid, and the metatiles of the output make up those of the process
(`Pyramids.build_ok`). The metatiling of a pyramid is one that is allowed, so no pyramid that is put
together from others is refused (`Pyramid.new?_of_pyramid`). A format that is available has a driver
(`Drivers.outputDriver?_of_mem`).
-/
namespace ZoomConfig

open Outcome

/-! ## Pyramids -/

theorem Pyramid.new?_ok {grid : Grid} {metatiling pixelbuffer : Nat} {p : Pyramid}
    (h : Pyramid.new? grid metatiling pixelbuffer = .ok p) :
    p.grid = grid ∧ p.metatiling = metatiling ∧ p.pixelbuffer = pixelbuffer := by
  unfold Pyramid.new? at h
  split at h
  · cases h
    exact ⟨rfl, rfl, rfl⟩
  · cases h

/-- The metatiling of a pyramid can be that of another one. -/
theorem Pyramid.new?_of_pyramid (p : Pyramid) (grid : Grid) (pixelbuffer : Nat) :
    Pyramid.new? grid p.metatiling pixelbuffer =
      .ok ⟨grid, p.metatiling, pixelbuffer, p.metatiling_mem⟩ :=
  dif_pos p.metatiling_mem

theorem dvd_of_metatilings : ∀ small ∈ metatilings, ∀ large ∈ metatilings, small ≤ large →
    small ∣ large := by decide

/-- The pyramids share the declared grid, and whole metatiles of the output lie in one of the
process. -/
theorem Pyramids.build_ok {declared : PyramidSection} {output : Mapping} {p : Pyramids}
    (h : Pyramids.build declared output = .ok p) :
    p.process.grid = declared.grid ∧ p.output.grid = declared.grid ∧
      p.output.metatiling ∣ p.process.metatiling := by
  unfold Pyramids.build at h
  obtain ⟨process, made, h⟩ := bind_eq_ok.mp h
  obtain ⟨metatiling, _, h⟩ := bind_eq_ok.mp h
  split at h
  · cases h
  · next fits =>
    obtain ⟨pixelbuffer, _, h⟩ := bind_eq_ok.mp h
    obtain ⟨output, madeOutput, h⟩ := bind_eq_ok.mp h
    obtain rfl := pure_eq_ok.mp h
    obtain ⟨grid, factor, _⟩ := Pyramid.new?_ok (mapError_eq_ok.mp made)
    obtain ⟨grid', factor', _⟩ := Pyramid.new?_ok (mapError_eq_ok.mp madeOutput)
    have smaller : output.metatiling ≤ process.metatiling := by omega
    exact ⟨grid, grid',
      dvd_of_metatilings _ output.metatiling_mem _ process.metatiling_mem smaller⟩

/-! ## Baselevels -/

namespace Baselevels

/-- Errors about a range or a method of baselevels. -/
inductive Refusal : ConfigError → Prop where
  | range (cause : ZoomRangeError) : Refusal (.zoomRange cause)
  | unknown (name : String) : Refusal (.schema (.resamplingUnknown name))
  | shape (key : String) (found : Value) : Refusal (.schema (.resamplingShape key found))

variable {m : Mapping} {zooms : ZoomLevels} {process output : Pyramid}

theorem resampling_ends (key : String) :
    Ends (fun _ => True) Refusal (Resampling.at? m key) := by
  unfold Resampling.at?
  split
  · exact .ok trivial
  · exact .ok trivial
  · unfold Resampling.ofName?
    split
    · exact .ok trivial
    · exact .error (.unknown _)
  · exact .error (.shape _ _)

/-- The tiles of baselevels are those of the output in metatiles of the process; only a range or a
method can be refused. -/
theorem ofMapping_ends : Ends (fun b => b.tilePyramid =
    ⟨output.grid, process.metatiling, output.pixelbuffer, process.metatiling_mem⟩)
    Refusal (ofMapping m zooms process output) := by
  have tiles : Ends (fun p => p = ⟨output.grid, process.metatiling, output.pixelbuffer,
      process.metatiling_mem⟩) Refusal ((Pyramid.new? output.grid process.metatiling
        output.pixelbuffer).mapError .ofGrid) := by
    rw [Pyramid.new?_of_pyramid]
    exact .ok rfl
  unfold ofMapping
  dsimp only
  split
  · exact .error (.range _)
  · refine (Ends.inPlace .range).bind fun min _ => ?_
    refine (Ends.inPlace .range).bind fun max _ => ?_
    refine tiles.bind fun tilePyramid same => ?_
    refine (Ends.inPlace .range).bind fun zooms _ => ?_
    refine (resampling_ends "lower").bind fun lower _ => ?_
    exact (resampling_ends "higher").bind fun higher _ => .ok same

end Baselevels

/-! ## Output drivers -/

/-- Every format that is available has a driver of that name. -/
theorem Drivers.outputDriver?_of_mem {m : Type → Type} {α : Type} {drivers : Drivers m α}
    {format : String} (mem : format ∈ drivers.outputFormats) :
    ∃ driver ∈ drivers.outputs, drivers.outputDriver? format = some driver ∧
      driver.name = format := by
  obtain ⟨driver, inside, named⟩ := List.mem_map.mp mem
  have some : (drivers.outputDriver? format).isSome := by
    rw [Drivers.outputDriver?, List.find?_isSome]
    exact ⟨driver, List.mem_reverse.mpr inside, by simp [named]⟩
  obtain ⟨found, is⟩ := Option.isSome_iff_exists.mp some
  refine ⟨found, List.mem_reverse.mp (List.mem_of_find?_eq_some is), is, ?_⟩
  simpa using List.find?_some is

theorem OutputParams.format_mem {output : Mapping} {configDir : String} {pyramid : Pyramid}
    {available : List String} {params : OutputParams}
    (h : OutputParams.ofMapping output configDir pyramid available = .ok params) :
    params.format ∈ available := by
  unfold OutputParams.ofMapping at h
  split at h
  · next format _ =>
    split at h
    · cases h
    · next available =>
      obtain ⟨path, _, h⟩ := bind_eq_ok.mp h
      obtain rfl := pure_eq_ok.mp h
      simpa using available
  · cases h

end ZoomConfig
