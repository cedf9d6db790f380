import ZoomConfig.Value.Show
/-!
Ranges of zoom levels.

A range is never empty: the type holds the proof that its ends are in order. Zoom levels are natural
numbers below `maxZoom + 1`. `contains` and `within` are tests on the two ends; `mem_toList` and
`within_iff` say that they speak of all levels between.

Correspondence (program ↔ module):
  `ZoomLevels::new`          ↔ `new?`
  `ZoomLevels::from_slice`   ↔ `ofList?`
  `ZoomLevels::from_value`   ↔ `ofValue?`
  `ZoomLevels::contains`     ↔ `contains`
  `ZoomLevels::is_subset_of` ↔ `within`
  `zoom_from_value`          ↔ `zoomOfValue`
-/
namespace ZoomConfig

/-- The greatest number that a zoom level, a metatiling factor or a pixelbuffer can be. -/
def maxZoom : Nat := Nat.pow 2 32 - 1

/-- All zoom levels from `min` to `max`. -/
structure ZoomLevels where
  min : Nat
  max : Nat
  min_le_max : min ≤ max
  deriving DecidableEq, Repr

namespace ZoomLevels

/-- The range of one zoom level. -/
def single (zoom : Nat) : ZoomLevels := ⟨zoom, zoom, Nat.le_refl zoom⟩

/-- How many zoom levels there are. -/
def size (z : ZoomLevels) : Nat := z.max - z.min + 1

/-- The zoom levels in ascending order. -/
def toList (z : ZoomLevels) : List Nat := List.range' z.min z.size

/-- Does a zoom level lie in the range? -/
def contains (z : ZoomLevels) (zoom : Nat) : Bool := z.min ≤ zoom && zoom ≤ z.max

/-- Do all zoom levels of `inner` lie in `outer`? -/
def within (inner outer : ZoomLevels) : Bool :=
  outer.contains inner.min && outer.contains inner.max

theorem contains_iff (z : ZoomLevels) (zoom : Nat) :
    z.contains zoom = true ↔ z.min ≤ zoom ∧ zoom ≤ z.max := by
  simp [contains]

/-- The levels of a range are those that lie in it. -/
theorem mem_toList (z : ZoomLevels) (zoom : Nat) : zoom ∈ z.toList ↔ z.contains zoom = true := by
  have h := z.min_le_max
  rw [contains_iff]
  simp only [toList, size, List.mem_range'_1]
  omega

/-- One range lies within another exactly if every level of it does. -/
theorem within_iff (inner outer : ZoomLevels) :
    inner.within outer = true ↔ ∀ zoom ∈ inner.toList, zoom ∈ outer.toList := by
  have h := inner.min_le_max
  simp only [mem_toList, within, Bool.and_eq_true, contains_iff]
  exact ⟨fun w zoom m => by omega, fun w => ⟨w inner.min (by omega), w inner.max (by omega)⟩⟩

/-- One number, or two with a dash between them. -/
def text (z : ZoomLevels) : String :=
  if z.min = z.max then toString z.min else toString z.min ++ "-" ++ toString z.max

end ZoomLevels

/-- Why a zoom level or a range of them is refused. -/
inductive ZoomRangeError where
  | inverted (min max : Nat)
  | count (found : Nat)
  | minimumMissing
  | maximumMissing
  | shape (found : Value)
  | notNatural (what : String) (found : Value)
  | baselevelsUnbounded
  | notDeclared (initialized declared : ZoomLevels)
  | notInitialized (zoom : Nat) (initialized : ZoomLevels)

/-- What is wrong, in words. -/
def ZoomRangeError.message : ZoomRangeError → String
  | .inverted min max =>
    "minimum zoom " ++ toString min ++ " is greater than maximum zoom " ++ toString max
  | .count found => "expected one or two zoom levels, got " ++ toString found
  | .minimumMissing => "zoom_levels minimum not given"
  | .maximumMissing => "zoom_levels maximum not given"
  | .shape found =>
    "zoom_levels must be an integer or a min/max mapping, got " ++ found.describe
  | .notNatural what found => what ++ " must be a non-negative integer, got " ++ found.describe
  | .baselevelsUnbounded => "no min and max values given for baselevels"
  | .notDeclared initialized declared =>
    "initialized zoom levels " ++ initialized.text ++ " are not within process zoom levels " ++
      declared.text
  | .notInitialized zoom initialized =>
    "zoom level " ++ toString zoom ++ " not available, initialized zoom levels are " ++
      initialized.text

/-- A natural number that fits a zoom level, a metatiling factor or a pixelbuffer. -/
def Value.asLevel? (v : Value) : Option Nat :=
  v.asNat?.filter (· ≤ maxZoom)

/-- Reads a zoom level; `what` names it in the error. -/
def zoomOfValue (what : String) (v : Value) : Except ZoomRangeError Nat :=
  match v.asLevel? with
  | some zoom => .ok zoom
  | none => .error (.notNatural what v)

namespace ZoomLevels

/-- The range between two zoom levels in order. -/
def new? (min max : Nat) : Except ZoomRangeError ZoomLevels :=
  if h : min ≤ max then .ok ⟨min, max, h⟩ else .error (.inverted min max)

/-- The range of one zoom level, or between two in either order. -/
def ofList? : List Nat → Except ZoomRangeError ZoomLevels
  | [zoom] => .ok (single zoom)
  | [a, b] => .ok (if h : a ≤ b then ⟨a, b, h⟩ else ⟨b, a, by omega⟩)
  | zooms => .error (.count zooms.length)

/-- The range that a document gives: a number, or a mapping with `min` and `max`. -/
def ofValue? (v : Value) : Except ZoomRangeError ZoomLevels :=
  match v with
  | .number _ => (zoomOfValue "zoom_levels" v).map single
  | .mapping entries => do
    let some min := Mapping.get? entries "min" | throw .minimumMissing
    let some max := Mapping.get? entries "max" | throw .maximumMissing
    let min ← zoomOfValue "zoom_levels min" min
    let max ← zoomOfValue "zoom_levels max" max
    new? min max
  | _ => .error (.shape v)

end ZoomLevels

end ZoomConfig
