/-!
Processing modes: what a process does with output that exists.

Correspondence (program ↔ module):
  `ProcessingMode`              ↔ `Mode`
  `ProcessingMode::from_str`    ↔ `ofName?`
  `ProcessingMode::as_str`      ↔ `name`
  `ProcessingMode::is_readonly` ↔ `isReadonly`
-/
namespace ZoomConfig

/-- Without writing, only reading, keeping or replacing what exists. -/
inductive Mode where
  | memory
  | readonly
  | keep
  | overwrite
  deriving DecidableEq, Repr

namespace Mode

/-- All modes. -/
def all : List Mode := [.memory, .readonly, .keep, .overwrite]

def name : Mode → String
  | .memory => "memory"
  | .readonly => "readonly"
  | .keep => "continue"
  | .overwrite => "overwrite"

/-- The mode of a name, in lower case only. -/
def ofName? (text : String) : Option Mode := all.find? (·.name == text)

/-- Does the mode leave all output as it is? -/
def isReadonly (m : Mode) : Bool := m == .readonly

end Mode

end ZoomConfig
