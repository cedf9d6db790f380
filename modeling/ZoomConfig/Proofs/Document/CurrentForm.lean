import Mathlib.Data.List.Nodup
import ZoomConfig.Document.Normalize
import ZoomConfig.Proofs.Document.Entries
import ZoomConfig.Proofs.Outcome
/-!
The current form of a document.

Each step that brings a document into its current form adds its section exactly if it is missing, and
tells of a deprecation exactly if it is due (`Completes`, `Deprecation.due`). So what comes out has all
entries of the document but `input_files`, with their values, and besides them the sections that were
missing, and it is left as it is from then on (`current_form`).
-/
namespace ZoomConfig

open Outcome

/-- The sections that a document in its current form has. -/
def currentKeys : List String := ["pyramid", "zoom_levels", "bounds", "input"]

variable {m m' : Mapping} {n : Normalized}

theorem normalize_current (current : ∀ key ∈ currentKeys, Mapping.contains m key = true) :
    normalize m = if Mapping.contains m "input_files" then .error .inputTwice
      else .ok (.unchanged m) := by
  have pyramid : Normalized.withPyramid m = .ok (.unchanged m) :=
    if_pos (current "pyramid" (by decide))
  have zooms : Normalized.withZoomLevels m = .ok (.unchanged m) :=
    if_pos (current "zoom_levels" (by decide))
  have bounds : Normalized.withBounds m = .unchanged m := if_pos (current "bounds" (by decide))
  have input : Normalized.withInput m = if Mapping.contains m "input_files" then .error .inputTwice
      else .ok (.unchanged m) := by
    rw [Normalized.withInput, current "input" (by decide), Mapping.contains,
      ← Mapping.remove_fst m "input_files"]
    rcases Mapping.remove m "input_files" with ⟨_ | input, rest⟩ <;> rfl
  have whole : normalize m = (Normalized.withInput m).map fun d => ⟨d.mapping, d.deprecations⟩ := by
    unfold normalize
    simp only [pyramid, zooms, Normalized.unchanged, bounds, bind, Except.bind, List.nil_append]
    cases Normalized.withInput m <;> rfl
  rw [whole, input]
  split <;> rfl

/-- Does a document give rise to a deprecation? The first two sections have nothing else to be made of,
while missing bounds are not deprecated. -/
def Deprecation.due (m : Mapping) : Deprecation → Bool
  | .pyramid => !Mapping.contains m "pyramid"
  | .zoomLevels => !Mapping.contains m "zoom_levels"
  | .bounds => !Mapping.contains m "bounds" && Mapping.contains m "process_bounds"
  | .input => Mapping.contains m "input_files"

namespace Normalized

/-! ## Adding a section -/

/-- A section stands at the end now if it was missing, and nothing else has changed. -/
def Completes (key : String) (m m' : Mapping) : Prop :=
  ∃ added : Mapping, m' = m ++ added ∧
    added.map (·.1) = (if Mapping.contains m key then [] else [key]).map .string

theorem completes_present {key : String} (present : Mapping.contains m key = true) :
    Completes key m m :=
  ⟨[], by simp, by simp [present]⟩

theorem completes_put {key : String} (missing : ¬Mapping.contains m key = true) (v : Value) :
    Completes key m (Mapping.put m key v) :=
  ⟨[(.string key, v)], Mapping.put_of_new (by simpa using missing) v, by simp [missing]⟩

theorem withPyramid_completes (h : withPyramid m = .ok n) : Completes "pyramid" m n.mapping ∧
    n.deprecations = [.pyramid].filter (·.due m) := by
  unfold withPyramid at h
  split at h
  · next present =>
    cases h
    exact ⟨completes_present present, by simp [unchanged, Deprecation.due, present]⟩
  · next missing =>
    split at h
    · cases h
    · split at h
      · cases h
      · cases h
        exact ⟨completes_put missing _, by simp [Deprecation.due, missing]⟩

theorem withZoomLevels_completes (h : withZoomLevels m = .ok n) :
    Completes "zoom_levels" m n.mapping ∧ n.deprecations = [.zoomLevels].filter (·.due m) := by
  unfold withZoomLevels at h
  split at h
  · next present =>
    cases h
    exact ⟨completes_present present, by simp [unchanged, Deprecation.due, present]⟩
  · next missing =>
    split at h
    · cases h
    · cases h
      exact ⟨completes_put missing _, by simp [Deprecation.due, missing]⟩

theorem withBounds_completes (m : Mapping) : Completes "bounds" m (withBounds m).mapping ∧
    (withBounds m).deprecations = [.bounds].filter (·.due m) := by
  unfold withBounds
  split
  · next present =>
    exact ⟨completes_present present, by simp [unchanged, Deprecation.due, present]⟩
  · next missing =>
    split
    · next v found =>
      have given : Mapping.contains m "process_bounds" = true := by simp [Mapping.contains, found]
      exact ⟨completes_put missing v, by simp [Deprecation.due, missing, given]⟩
    · next none =>
      have absent : Mapping.contains m "process_bounds" = false := by simp [Mapping.contains, none]
      exact ⟨completes_put missing .null, by simp [Deprecation.due, absent]⟩

theorem Completes.contains {key other : String} (h : Completes key m m') (ne : other ≠ key) :
    Mapping.contains m' other = Mapping.contains m other := by
  obtain ⟨added, rfl, keys⟩ := h
  have none : Mapping.contains added other = false := by
    refine Mapping.not_contains_of_keys keys fun inside => ?_
    split at inside
    · cases inside
    · exact ne (List.mem_singleton.mp inside)
  rw [Mapping.contains_append, none, Bool.or_false]

/-- The input stays, or it is taken from `input_files` and put at the end. -/
theorem withInput_ok (h : withInput m = .ok n) :
    (Mapping.contains m "input" = true ∧ Mapping.contains m "input_files" = false ∧
        n = .unchanged m) ∨
      Mapping.contains m "input" = false ∧ ∃ input,
        (Mapping.remove m "input_files").1 = some input ∧
        n = ⟨(Mapping.remove m "input_files").2 ++ [(.string "input", input)], [.input]⟩ := by
  unfold withInput at h
  split at h
  · cases h
  · next present files =>
    cases h
    have none : Mapping.contains m "input_files" = false := by
      rw [Mapping.contains, ← Mapping.remove_fst, files]
      rfl
    exact .inl ⟨present, none, rfl⟩
  · next input rest missing found =>
    cases h
    refine .inr ⟨missing, input, by rw [found], ?_⟩
    rw [found]
    have new : Mapping.contains rest "input" = false := by
      rw [Bool.eq_false_iff, ne_eq, Mapping.contains_iff]
      intro given
      obtain ⟨v, mem⟩ := given
      have stays : (.string "input", v) ∈ (Mapping.remove m "input_files").2 := by
        rw [found]
        exact mem
      rw [Mapping.contains_of_mem (Mapping.mem_of_mem_remove stays)] at missing
      cases missing
    rw [Mapping.put_of_new new]
  · cases h

end Normalized

/-! ## The whole document -/

/-- The sections of the current form besides the input. -/
def sectionKeys : List String := ["pyramid", "zoom_levels", "bounds"]

/-- A document in its current form has its entries and after them the sections that were missing, and
then its input is seen to. -/
theorem normalize_stages (h : normalize m = .ok n) : ∃ (added : Mapping) (d : Normalized),
    added.map (·.1) = (sectionKeys.filter fun key => !Mapping.contains m key).map .string ∧
    Normalized.withInput (m ++ added) = .ok d ∧ n.mapping = d.mapping ∧
    n.deprecations = [.pyramid, .zoomLevels, .bounds].filter (·.due m) ++ d.deprecations := by
  obtain ⟨a, ha, h⟩ := bind_eq_ok.mp h
  obtain ⟨b, hb, h⟩ := bind_eq_ok.mp h
  obtain ⟨d, hd, h⟩ := bind_eq_ok.mp h
  cases pure_eq_ok.mp h
  obtain ⟨pyramid, dueA⟩ := Normalized.withPyramid_completes ha
  obtain ⟨zooms, dueB⟩ := Normalized.withZoomLevels_completes hb
  obtain ⟨bounds, dueC⟩ := Normalized.withBounds_completes b.mapping
  -- Each step sees of the other keys what the document has.
  have stays : ∀ key ∉ ["pyramid", "zoom_levels"],
      Mapping.contains b.mapping key = Mapping.contains m key := by
    intro key other
    simp only [List.mem_cons, List.not_mem_nil, or_false, not_or] at other
    rw [zooms.contains other.2, pyramid.contains other.1]
  have hasZooms : Mapping.contains a.mapping "zoom_levels" = Mapping.contains m "zoom_levels" :=
    pyramid.contains (by decide)
  have hasBounds := stays "bounds" (by decide)
  have hasOld := stays "process_bounds" (by decide)
  obtain ⟨p, ep, keysP⟩ := pyramid
  obtain ⟨z, ez, keysZ⟩ := zooms
  obtain ⟨e, ee, keysE⟩ := bounds
  refine ⟨p ++ z ++ e, d, ?_, ?_, rfl, ?_⟩
  · rw [List.map_append, List.map_append, keysP, keysZ, keysE, hasZooms, hasBounds]
    simp only [sectionKeys, List.filter_cons, List.filter_nil]
    cases Mapping.contains m "pyramid" <;> cases Mapping.contains m "zoom_levels" <;>
      cases Mapping.contains m "bounds" <;> rfl
  · have whole : (Normalized.withBounds b.mapping).mapping = m ++ (p ++ z ++ e) := by
      rw [ee, ez, ep]
      simp
    rw [← whole]
    exact hd
  · rw [dueA, dueB, dueC]
    refine congrArg (· ++ d.deprecations) ?_
    simp only [List.filter_cons, List.filter_nil, Deprecation.due, hasZooms, hasBounds, hasOld]
    cases Mapping.contains m "pyramid" <;> cases Mapping.contains m "zoom_levels" <;>
      cases Mapping.contains m "bounds" <;> cases Mapping.contains m "process_bounds" <;> rfl

/-- A document in its current form has its entries as they were, missing sections after them, and its
input at the end in the place of `input_files`. -/
theorem normalize_ok (h : normalize m = .ok n) :
    ∃ added : Mapping, (∀ e ∈ added, ∃ key ∈ sectionKeys, e.1 = .string key) ∧
      (n.mapping = m ++ added ∨ ∃ input, (Mapping.remove (m ++ added) "input_files").1 = some input ∧
        n.mapping = (Mapping.remove (m ++ added) "input_files").2 ++ [(.string "input", input)]) := by
  obtain ⟨added, d, keys, hd, same, _⟩ := normalize_stages h
  refine ⟨added, fun e mem => ?_, ?_⟩
  · have here : e.1 ∈ added.map (·.1) := List.mem_map_of_mem mem
    rw [keys] at here
    obtain ⟨key, inside, eq⟩ := List.mem_map.mp here
    exact ⟨key, (List.mem_filter.mp inside).1, eq.symm⟩
  · rw [same]
    rcases Normalized.withInput_ok hd with ⟨_, _, rfl⟩ | ⟨_, input, found, rfl⟩
    · exact .inl rfl
    · exact .inr ⟨input, found, rfl⟩

/-- What is no section was there before sections were added. -/
theorem mem_of_mem_append_sections {added : Mapping} {key : String} {v : Value}
    (keys : ∀ e ∈ added, ∃ key ∈ sectionKeys, e.1 = .string key) (other : key ∉ sectionKeys)
    (mem : (.string key, v) ∈ m ++ added) : (.string key, v) ∈ m := by
  rcases List.mem_append.mp mem with mem | mem
  · exact mem
  · obtain ⟨key', inside, same⟩ := keys _ mem
    cases same
    exact absurd inside other

theorem normalize_input (h : normalize m = .ok n) {v : Value}
    (mem : (.string inputKey, v) ∈ n.mapping) :
    (.string inputKey, v) ∈ m ∨ (.string "input_files", v) ∈ m := by
  obtain ⟨added, keys, same⟩ := normalize_ok h
  rcases same with same | ⟨input, found, same⟩
  · rw [same] at mem
    exact .inl (mem_of_mem_append_sections keys (by decide) mem)
  · rw [same] at mem
    rcases List.mem_append.mp mem with mem | mem
    · have there := Mapping.mem_of_mem_remove mem
      exact .inl (mem_of_mem_append_sections keys (by decide) there)
    · obtain rfl : v = input := by simpa [inputKey] using mem
      have there := Mapping.mem_of_remove found
      exact .inr (mem_of_mem_append_sections keys (by decide) there)

/-- The sections that are missing in a document. -/
def missingKeys (m : Mapping) : List String := currentKeys.filter fun key => !Mapping.contains m key

theorem missingKeys_eq (m : Mapping) : missingKeys m =
    (sectionKeys.filter fun key => !Mapping.contains m key) ++
      if Mapping.contains m "input" then [] else ["input"] := by
  have parts : currentKeys = sectionKeys ++ ["input"] := rfl
  rw [missingKeys, parts, List.filter_append]
  cases present : Mapping.contains m "input" <;> simp [present]

section Sections

variable {added : Mapping}
  (keys : added.map (·.1) = (sectionKeys.filter fun key => !Mapping.contains m key).map .string)

include keys

theorem not_contains_sections {key : String} (other : key ∉ sectionKeys) :
    Mapping.contains added key = false :=
  Mapping.not_contains_of_keys keys fun inside => other (List.mem_filter.mp inside).1

/-- Sections that were missing do not change which other keys there are. -/
theorem contains_append_sections {key : String} (other : key ∉ sectionKeys) :
    Mapping.contains (m ++ added) key = Mapping.contains m key := by
  rw [Mapping.contains_append, not_contains_sections keys other, Bool.or_false]

theorem nodup_append_sections (distinct : (m.map (·.1)).Nodup) :
    ((m ++ added).map (·.1)).Nodup := by
  rw [List.map_append, keys]
  refine List.Nodup.append distinct ?_ ?_
  · have sections : sectionKeys.Nodup := by decide
    exact (sections.filter _).map fun _ _ same => Value.string.inj same
  · intro k inside new
    obtain ⟨key, mem, rfl⟩ := List.mem_map.mp new
    obtain ⟨⟨_, v⟩, written, rfl⟩ := List.mem_map.mp inside
    have here := Mapping.contains_of_mem written
    simp [here] at mem

end Sections

/-- What comes out has the entries of the document but `input_files`, and besides them the sections
that were missing. -/
theorem normalize_entries (distinct : (m.map (·.1)).Nodup) (h : normalize m = .ok n) :
    ∃ added : Mapping, n.mapping.Perm (m.without "input_files" ++ added) ∧
      added.map (·.1) = (missingKeys m).map .string := by
  obtain ⟨added, d, keys, hd, same, _⟩ := normalize_stages h
  have hasInput : Mapping.contains (m ++ added) "input" = Mapping.contains m "input" :=
    contains_append_sections keys (by decide)
  have hasFiles : Mapping.contains (m ++ added) "input_files" = Mapping.contains m "input_files" :=
    contains_append_sections keys (by decide)
  rw [same, missingKeys_eq]
  rcases Normalized.withInput_ok hd with ⟨present, none, rfl⟩ | ⟨missing, input, taken, rfl⟩
  · rw [hasInput] at present
    rw [hasFiles] at none
    refine ⟨added, ?_, by simp [keys, present]⟩
    rw [Mapping.without_of_absent none]
    exact List.Perm.refl _
  · rw [hasInput] at missing
    refine ⟨added ++ [(.string "input", input)], ?_, by simp [keys, missing]⟩
    have rest := Mapping.remove_perm_without (nodup_append_sections keys distinct) taken
    have sections : added.without "input_files" = added :=
      Mapping.without_of_absent (not_contains_sections keys (by decide))
    rw [Mapping.without_append, sections] at rest
    rw [← List.append_assoc]
    exact rest.append_right _

/-- A document tells of exactly the deprecations that it gives rise to. -/
theorem normalize_deprecations (h : normalize m = .ok n) :
    n.deprecations = [.pyramid, .zoomLevels, .bounds, .input].filter (·.due m) := by
  obtain ⟨added, d, keys, hd, _, same⟩ := normalize_stages h
  have hasFiles : Mapping.contains (m ++ added) "input_files" = Mapping.contains m "input_files" :=
    contains_append_sections keys (by decide)
  have input : d.deprecations = [.input].filter (·.due m) := by
    rcases Normalized.withInput_ok hd with ⟨_, none, rfl⟩ | ⟨_, input, taken, rfl⟩
    · rw [hasFiles] at none
      simp [Normalized.unchanged, Deprecation.due, none]
    · have given : Mapping.contains (m ++ added) "input_files" = true :=
        Mapping.contains_of_mem (Mapping.mem_of_remove taken)
      rw [hasFiles] at given
      simp [Deprecation.due, given]
  rw [same, input, ← List.filter_append]
  rfl

theorem normalize_complete (distinct : (m.map (·.1)).Nodup) (h : normalize m = .ok n) :
    (∀ key ∈ currentKeys, Mapping.contains n.mapping key = true) ∧
      Mapping.contains n.mapping "input_files" = false := by
  obtain ⟨added, perm, keys⟩ := normalize_entries distinct h
  constructor
  · intro key mem
    rw [Mapping.contains_iff]
    cases present : Mapping.contains m key with
    | true =>
      obtain ⟨v, written⟩ := Mapping.contains_iff.mp present
      have other : key ≠ "input_files" := by
        rintro rfl
        exact absurd mem (by decide)
      have stays : (.string key, v) ∈ m.without "input_files" :=
        Mapping.mem_without.mpr ⟨written, by simpa using other⟩
      exact ⟨v, perm.mem_iff.mpr (List.mem_append_left _ stays)⟩
    | false =>
      have missing : key ∈ missingKeys m := List.mem_filter.mpr ⟨mem, by simp [present]⟩
      have new : Value.string key ∈ added.map (·.1) := by
        rw [keys]
        exact List.mem_map_of_mem missing
      obtain ⟨⟨_, v⟩, here, rfl⟩ := List.mem_map.mp new
      exact ⟨v, perm.mem_iff.mpr (List.mem_append_right _ here)⟩
  · have noSection : Mapping.contains added "input_files" = false :=
      Mapping.not_contains_of_keys keys fun inside =>
        absurd (List.mem_filter.mp inside).1 (by decide)
    refine Bool.eq_false_iff.mpr fun here => ?_
    obtain ⟨v, mem⟩ := Mapping.contains_iff.mp here
    rcases List.mem_append.mp (perm.mem_iff.mp mem) with mem | mem
    · exact (Mapping.mem_without.mp mem).2 rfl
    · rw [Mapping.contains_of_mem mem] at noSection
      cases noSection

/-- A document with its keys in their current form is left as it is, and so is every document that was
brought into this form. What comes out has the entries of the document but `input_files`, with their
values, and besides them the sections that were missing, and exactly the deprecations that the document
gives rise to are told of. No key of a document stands twice. -/
theorem current_form :
    (∀ (m : Mapping) (n : Normalized), (m.map (·.1)).Nodup → normalize m = .ok n →
      normalize n.mapping = .ok ⟨n.mapping, []⟩ ∧
      (∃ added : Mapping, n.mapping.Perm (m.without "input_files" ++ added) ∧
        added.map (·.1) =
          (currentKeys.filter fun key => !Mapping.contains m key).map .string) ∧
      n.deprecations = [.pyramid, .zoomLevels, .bounds, .input].filter (·.due m)) ∧
    ∀ m : Mapping, (∀ key ∈ currentKeys, Mapping.contains m key = true) →
      Mapping.contains m "input_files" = false → normalize m = .ok ⟨m, []⟩ := by
  have settled : ∀ m : Mapping, (∀ key ∈ currentKeys, Mapping.contains m key = true) →
      Mapping.contains m "input_files" = false → normalize m = .ok ⟨m, []⟩ := by
    intro m current none
    rw [normalize_current current, none]
    rfl
  refine ⟨fun m n distinct h => ⟨?_, normalize_entries distinct h, normalize_deprecations h⟩, settled⟩
  obtain ⟨current, none⟩ := normalize_complete distinct h
  exact settled n.mapping current none

/-- A document with deprecated keys alone, which has its input first. -/
def deprecatedEntries : Mapping :=
  [(.string "input_files", .mapping [(.string "a", .string "a.x")]),
    (.string "process_zoom", .number (.int 3)), (.string "process_bounds", .null),
    (.string "output", .mapping [(.string "type", .string "geodetic")])]

/-- All four sections are added and told of, the entry that was last comes first, and after that
nothing changes. -/
theorem current_form_deprecated : (deprecatedEntries.map (·.1)).Nodup ∧
    ∃ n, normalize deprecatedEntries = .ok n ∧ normalize n.mapping = .ok ⟨n.mapping, []⟩ ∧
      n.mapping.map (·.1) = ["bounds", "process_zoom", "process_bounds", "output", "pyramid",
        "zoom_levels", "input"].map .string ∧
      n.deprecations = [.pyramid, .zoomLevels, .bounds, .input] := by
  have distinct : (deprecatedEntries.map (·.1)).Nodup := by simp [deprecatedEntries]
  obtain ⟨n, h⟩ : ∃ n, normalize deprecatedEntries = .ok n := ⟨_, rfl⟩
  obtain ⟨settled, _, told⟩ := current_form.1 deprecatedEntries n distinct h
  refine ⟨distinct, n, h, settled, ?_, told⟩
  cases h
  rfl

end ZoomConfig
