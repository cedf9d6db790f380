import ZoomConfig.Decimal.Read
import ZoomConfig.Text.Basic
import ZoomConfig.Zoom.Levels
/-!
Zoom conditions: keys such as `zoom<3` or `zoom>=5`.

A key that begins with `zoom` is a condition if nothing, an operator or a digit follows. `classify`
tells plain keys, conditions and malformed conditions apart.

Correspondence (program ↔ module):
  `ZoomPredicate`          ↔ `Condition`
  `ZoomPredicate::parse`   ↔ `classify`
  `ZoomPredicate::matches` ↔ `holds`
  `ZoomPredicate::fmt`     ↔ `text`
-/
namespace ZoomConfig

/-- How a zoom level is compared. -/
inductive Comparison where
  | eq
  | lt
  | le
  | gt
  | ge
  deriving DecidableEq, Repr

namespace Comparison

/-- The sign that stands for a comparison. -/
def symbol : Comparison → String
  | .eq => "="
  | .lt => "<"
  | .le => "<="
  | .gt => ">"
  | .ge => ">="

/-- Does the comparison hold between two numbers? -/
def holds : Comparison → Nat → Nat → Bool
  | .eq, a, b => a == b
  | .lt, a, b => a < b
  | .le, a, b => a ≤ b
  | .gt, a, b => b < a
  | .ge, a, b => b ≤ a

end Comparison

/-- The condition that a zoom level compares with a number. -/
structure Condition where
  comparison : Comparison
  operand : Nat
  deriving DecidableEq, Repr

/-- What a key says about zoom levels. -/
inductive KeyKind where
  | plain
  | condition (c : Condition)
  | malformed
  deriving DecidableEq, Repr

namespace Condition

/-- Is the condition true at a zoom level? -/
def holds (c : Condition) (zoom : Nat) : Bool := c.comparison.holds zoom c.operand

/-- The shortest key with this condition. -/
def text (c : Condition) : String := "zoom" ++ c.comparison.symbol ++ toString c.operand

/-- The comparison in front and what follows it; no sign means equality. -/
def splitComparison : List Char → Comparison × List Char
  | '<' :: '=' :: rest => (.le, rest)
  | '>' :: '=' :: rest => (.ge, rest)
  | '=' :: '=' :: rest => (.eq, rest)
  | '=' :: rest => (.eq, rest)
  | '<' :: rest => (.lt, rest)
  | '>' :: rest => (.gt, rest)
  | rest => (.eq, rest)

/-- A number of digits, with a plus sign in front allowed, that is not too large. -/
def operand? (cs : List Char) : Option Nat :=
  let digits := match cs with
    | '+' :: rest => rest
    | _ => cs
  if digits.isEmpty || !digits.all Char.isDigit then none
  else
    let n := Decimal.digitsValue digits
    if n ≤ maxZoom then some n else none

/-- Does the text after `zoom` make the key a condition? -/
def startsCondition : List Char → Bool
  | [] => true
  | c :: _ => c == '<' || c == '>' || c == '=' || c.isDigit

/-- Reads the text after `zoom`. -/
def classifyRest (rest : List Char) : KeyKind :=
  let rest := Text.trim rest
  if startsCondition rest then
    let (comparison, operand) := splitComparison rest
    match operand? (Text.trim operand) with
    | some n => .condition ⟨comparison, n⟩
    | none => .malformed
  else .plain

/-- Reads a key. -/
def classify (key : String) : KeyKind :=
  match key.toList with
  | 'z' :: 'o' :: 'o' :: 'm' :: rest => classifyRest rest
  | _ => .plain

end Condition

end ZoomConfig
