import ZoomConfig.Configuration.Basic
import ZoomConfig.Proofs.Outcome
/-!
What a checked document was read from.

The check of a document reads one section after the other. `Sections` names the section behind each
field, and `sections` reads them off a check that succeeds. The mandatory parameters are looked at
before any of them is read, so reading finds each of them with its shape (`readable`).
-/
namespace ZoomConfig

open Outcome

namespace ProcessDocument

/-- The sections that the fields of a document were read from. -/
structure Sections (m : Mapping) (doc : ProcessDocument) : Prop where
  mandatory : checkParameters m mandatoryParameters = .ok ()
  processFile : textAt m "process_file" = .ok doc.processFile
  pyramid : ∃ entries, mappingAt m "pyramid" = .ok entries ∧
    PyramidSection.ofMapping entries = .ok doc.pyramid
  zoomLevels : ∃ v, valueAt m "zoom_levels" = .ok v ∧ ZoomLevels.ofValue? v = .ok doc.zoomLevels
  bounds : boundsAt m = .ok doc.bounds
  output : mappingAt m "output" = .ok doc.output
  baselevels : baselevelsAt m = .ok doc.baselevels
  params : parseParams m = .ok doc.params

variable {m : Mapping}

theorem sections {configDir : String} {file : Option String} {doc : ProcessDocument}
    (h : ofMapping m configDir file = .ok doc) : Sections m doc := by
  unfold ofMapping at h
  obtain ⟨_, mandatory, h⟩ := bind_eq_ok.mp h
  obtain ⟨processFile, text, h⟩ := bind_eq_ok.mp h
  obtain ⟨entries, found, h⟩ := bind_eq_ok.mp h
  obtain ⟨pyramid, read, h⟩ := bind_eq_ok.mp h
  obtain ⟨v, written, h⟩ := bind_eq_ok.mp h
  obtain ⟨zoomLevels, zooms, h⟩ := bind_eq_ok.mp h
  obtain ⟨bounds, box, h⟩ := bind_eq_ok.mp h
  obtain ⟨output, driven, h⟩ := bind_eq_ok.mp h
  obtain ⟨baselevels, levels, h⟩ := bind_eq_ok.mp h
  obtain ⟨params, parsed, h⟩ := bind_eq_ok.mp h
  obtain rfl := pure_eq_ok.mp h
  exact ⟨mandatory, text, ⟨entries, found, read⟩, ⟨v, written, mapError_eq_ok.mp zooms⟩, box, driven,
    levels, mapError_eq_ok.mp parsed⟩

theorem sections_of_checkDocument {loaded : LoadedDocument} {doc : ProcessDocument}
    {deprecations : List Deprecation}
    (h : Configuration.checkDocument loaded = .ok (doc, deprecations)) :
    ∃ n, normalize loaded.mapping = .ok n ∧ Sections n.mapping doc := by
  obtain ⟨n, normalized, h⟩ := bind_eq_ok.mp h
  obtain ⟨checked, read, h⟩ := bind_eq_ok.mp h
  cases pure_eq_ok.mp h
  exact ⟨n, mapError_eq_ok.mp normalized, sections read⟩

/-! ## Mandatory parameters -/

theorem checkParameters_ok : ∀ {shapes : List (String × Shape)}, checkParameters m shapes = .ok () →
    ∀ p ∈ shapes, ∃ v, Mapping.get? m p.1 = some v ∧ p.2.accepts v = true
  | [], _, p, mem => by cases mem
  | (key, shape) :: rest, h, p, mem => by
    unfold checkParameters at h
    split at h
    · cases h
    · next here =>
      rcases List.mem_cons.mp mem with rfl | mem
      · unfold checkParameter at here
        split at here
        · cases here
        · next v found =>
          split at here
          · next accepted => exact ⟨v, found, accepted⟩
          · cases here
      · exact checkParameters_ok h p mem

section Read

variable {key : String} {v : Value}

theorem valueAt_ok (found : Mapping.get? m key = some v) : valueAt m key = .ok v := by
  rw [valueAt, found]

theorem textAt_ok (found : Mapping.get? m key = some v) (accepted : Shape.text.accepts v = true) :
    ∃ text, textAt m key = .ok text := by
  obtain ⟨text, is⟩ := Option.isSome_iff_exists.mp accepted
  exact ⟨text, bind_eq_ok.mpr ⟨v, valueAt_ok found, by rw [is]; rfl⟩⟩

theorem mappingAt_ok (found : Mapping.get? m key = some v)
    (accepted : Shape.mapping.accepts v = true) : ∃ entries, mappingAt m key = .ok entries := by
  obtain ⟨entries, is⟩ := Option.isSome_iff_exists.mp accepted
  exact ⟨entries, bind_eq_ok.mpr ⟨v, valueAt_ok found, by rw [is]; rfl⟩⟩

end Read

/-- What is read of a document whose mandatory parameters were checked. -/
structure Readable (m : Mapping) : Prop where
  processFile : ∃ text, textAt m "process_file" = .ok text
  pyramid : ∃ entries, mappingAt m "pyramid" = .ok entries
  zoomLevels : ∃ v, valueAt m "zoom_levels" = .ok v
  output : ∃ entries, mappingAt m "output" = .ok entries

/-- The check of the mandatory parameters is the only one that can find them missing or of another
shape. -/
theorem readable (checked : checkParameters m mandatoryParameters = .ok ()) : Readable m := by
  have given := checkParameters_ok checked
  obtain ⟨_, text, isText⟩ := given ("process_file", .text) (by decide)
  obtain ⟨_, pyramid, isPyramid⟩ := given ("pyramid", .mapping) (by decide)
  obtain ⟨zooms, found, _⟩ := given ("zoom_levels", .integerOrMapping) (by decide)
  obtain ⟨_, output, isOutput⟩ := given ("output", .mapping) (by decide)
  exact ⟨textAt_ok text isText, mappingAt_ok pyramid isPyramid, ⟨zooms, valueAt_ok found⟩,
    mappingAt_ok output isOutput⟩

end ProcessDocument

end ZoomConfig
