import ZoomConfig.Geometry.Area
import ZoomConfig.Input.Declaration
import ZoomConfig.Pyramids
/-!
Drivers: what opens inputs and writes outputs.

A driver acts in a monad, so that opening an input may read files, fail, or be recorded. Drivers are
looked up in the order of their registration, the latest first: input drivers by the extension of a
path or the format of a mapping, output drivers by the format.

Correspondence (program ↔ module):
  `InputReader`                     ↔ `InputHandle`
  `InputLoad`                       ↔ `InputRequest`
  `DriverRegistry`                  ↔ `Drivers`
  `DriverRegistry::register_input`  ↔ `addInput`
  `DriverRegistry::register_output` ↔ `addOutput`
  `DriverRegistry::input_driver`    ↔ `inputDriver?`
  `DriverRegistry::output_driver`   ↔ `outputDriver?`
  `InputSource::describe`           ↔ `InputSource.describe`
-/
namespace ZoomConfig

/-- The limits that all inputs share. -/
structure Delimiters (α : Type) where
  zooms : ZoomLevels
  bounds : Box α
  processBounds : Box α

/-- What a driver is told when it opens an input. -/
structure InputRequest (α : Type) where
  source : InputSource
  pyramid : Pyramid
  pixelbuffer : Nat
  delimiters : Delimiters α
  readonly : Bool

/-- An opened input: the name of its driver, and the area that it covers in a system. -/
structure InputHandle (m : Type → Type) (α : Type) where
  driver : String
  bbox : Crs → m (Except DriverError (Area α))

/-- Opens the inputs of one format. -/
structure InputDriver (m : Type → Type) (α : Type) where
  name : String
  /-- The file extensions of the format, in lower case. -/
  extensions : List String
  load : InputRequest α → m (Except DriverError (InputHandle m α))

/-- An opened output: the name of its driver, and whether it can write what is asked for. -/
structure OutputWriter (m : Type → Type) where
  driver : String
  check : OutputParams → m (Except DriverError Unit)

/-- Opens the outputs of one format. -/
structure OutputDriver (m : Type → Type) where
  name : String
  load : OutputParams → m (Except DriverError (OutputWriter m))

/-- Drivers in the order of their registration. -/
structure Drivers (m : Type → Type) (α : Type) where
  inputs : List (InputDriver m α)
  outputs : List (OutputDriver m)

namespace Drivers

variable {m : Type → Type} {α : Type}

/-- No drivers. -/
def empty : Drivers m α := ⟨[], []⟩

/-- Registers an input driver. -/
def addInput (d : Drivers m α) (driver : InputDriver m α) : Drivers m α :=
  { d with inputs := d.inputs ++ [driver] }

/-- Registers an output driver. -/
def addOutput (d : Drivers m α) (driver : OutputDriver m) : Drivers m α :=
  { d with outputs := d.outputs ++ [driver] }

def inputFormats (d : Drivers m α) : List String := d.inputs.map InputDriver.name

def outputFormats (d : Drivers m α) : List String := d.outputs.map OutputDriver.name

/-- The names of all drivers in one line. -/
def describe (d : Drivers m α) : String :=
  "DriverRegistry \x7b inputs: " ++ quotedListText d.inputFormats ++ ", outputs: " ++
    quotedListText d.outputFormats ++ " \x7d"

/-- Does a driver open a source? -/
def opens (source : InputSource) (driver : InputDriver m α) : Bool :=
  match source with
  | .path text =>
    driver.extensions.contains (((Path.extension? text).map Text.lower).getD "")
  | .entries params _ =>
    driver.name == ((Mapping.get? params formatKey).bind Value.asString?).getD ""

/-- The driver that opens a source. -/
def inputDriver? (d : Drivers m α) (source : InputSource) :
    Except DriverError (InputDriver m α) :=
  match d.inputs.reverse.find? (opens source) with
  | some driver => .ok driver
  | none => .error (.noDriver source.describe)

/-- The driver that writes a format. -/
def outputDriver? (d : Drivers m α) (format : String) : Option (OutputDriver m) :=
  d.outputs.reverse.find? (·.name == format)

end Drivers

end ZoomConfig
