import ZoomConfig.Error
/-!
Deprecated keys of a document, put into their current form.

| deprecated                                 | current       |
|--------------------------------------------|---------------|
| `output.type`, `metatiling`, `pixelbuffer` | `pyramid`     |
| `process_zoom`                             | `zoom_levels` |
| `process_minzoom`, `process_maxzoom`       | `zoom_levels` |
| `process_bounds`                           | `bounds`      |
| `input_files`                              | `input`       |

Each of four steps looks at one current key and adds it if it is missing. The deprecated keys stay
where they are, but for `input_files`, which becomes `input`.

Correspondence (program ↔ module):
  `normalize` ↔ `normalize`
-/
namespace ZoomConfig

/-- A use of deprecated keys. -/
inductive Deprecation where
  | pyramid
  | zoomLevels
  | bounds
  | input
  deriving DecidableEq, Repr

/-- The advice that goes with a deprecated key. -/
def Deprecation.message : Deprecation → String
  | .pyramid => "'pyramid' needs to be defined in root config"
  | .zoomLevels =>
    "use new config element 'zoom_levels' instead of 'process_zoom', 'process_minzoom' and " ++
      "'process_maxzoom'"
  | .bounds => "'process_bounds' are deprecated and renamed to 'bounds'"
  | .input => "'input_files' are deprecated and renamed to 'input'"

/-- A document in its current form, with the deprecated keys that were found. -/
structure Normalized where
  mapping : Mapping
  deprecations : List Deprecation

namespace Normalized

/-- A step that changes nothing. -/
def unchanged (m : Mapping) : Normalized := ⟨m, []⟩

/-- Makes `pyramid` of the output's grid and the top-level factors. -/
def withPyramid (m : Mapping) : Except SchemaError Normalized :=
  if Mapping.contains m "pyramid" then .ok (unchanged m)
  else
    match (Mapping.get? m "output").bind Value.asMapping? with
    | none => .error .outputMissing
    | some output =>
      match Mapping.get? output "type" with
      | none => .error .outputTypeMissing
      | some grid =>
        let pyramid : Mapping :=
          [(.string "grid", grid),
            (.string "metatiling", (Mapping.get? m "metatiling").getD (.ofNat 1)),
            (.string "pixelbuffer", (Mapping.get? m "pixelbuffer").getD (.ofNat 0))]
        .ok ⟨Mapping.put m "pyramid" (.mapping pyramid), [.pyramid]⟩

/-- The zoom levels that deprecated keys give: one zoom, or both ends of a range. -/
def deprecatedZooms (m : Mapping) : Option Value :=
  match Mapping.get? m "process_zoom" with
  | some zoom => some zoom
  | none =>
    match Mapping.get? m "process_minzoom", Mapping.get? m "process_maxzoom" with
    | some min, some max => some (.mapping [(.string "min", min), (.string "max", max)])
    | _, _ => none

/-- Makes `zoom_levels` of the deprecated keys. -/
def withZoomLevels (m : Mapping) : Except SchemaError Normalized :=
  if Mapping.contains m "zoom_levels" then .ok (unchanged m)
  else
    match deprecatedZooms m with
    | none => .error .zoomLevelsMissing
    | some zooms => .ok ⟨Mapping.put m "zoom_levels" zooms, [.zoomLevels]⟩

/-- Makes `bounds` of `process_bounds`, or null. -/
def withBounds (m : Mapping) : Normalized :=
  if Mapping.contains m "bounds" then unchanged m
  else
    match Mapping.get? m "process_bounds" with
    | some bounds => ⟨Mapping.put m "bounds" bounds, [.bounds]⟩
    | none => ⟨Mapping.put m "bounds" .null, []⟩

/-- Renames `input_files` to `input`. -/
def withInput (m : Mapping) : Except SchemaError Normalized :=
  match Mapping.contains m "input", Mapping.remove m "input_files" with
  | true, (some _, _) => .error .inputTwice
  | true, (none, _) => .ok (unchanged m)
  | false, (some input, rest) => .ok ⟨Mapping.put rest "input" input, [.input]⟩
  | false, (none, _) => .error .inputMissing

end Normalized

/-- Brings a document into its current form. -/
def normalize (m : Mapping) : Except SchemaError Normalized := do
  let a ← Normalized.withPyramid m
  let b ← Normalized.withZoomLevels a.mapping
  let c := Normalized.withBounds b.mapping
  let d ← Normalized.withInput c.mapping
  return ⟨d.mapping, a.deprecations ++ b.deprecations ++ c.deprecations ++ d.deprecations⟩

end ZoomConfig
