import ZoomConfig.Decimal.Read
import ZoomConfig.Value.Basic
/-!
The numbers of JSON text.

A whole number within sixty-four bits is read exactly. Any other number is a double, formed from the
digits that fit into sixty-four bits and the power of ten that is left, with one rounding for each
step: the digits as a double, then times or over a power of ten. The result can be one unit off the
nearest double. A number too large for a double is no number.
-/
namespace ZoomConfig.Json

/-- The largest whole number that is read digit by digit. -/
def maxDigits : Nat := Nat.pow 2 64 - 1

/-- The bounds of exponents. -/
def maxExponent : Int := Nat.pow 2 31 - 1

/-- The double nearest to a power of ten. -/
def powerOfTen (n : Nat) : Float := Decimal.nearest false (Nat.pow 10 n) 1

/-- A double with a sign. -/
def signed (negative : Bool) (x : Float) : Float := if negative then -x else x

/-- Digits times a power of ten, in steps of at most three hundred and eight. The number of steps is
at most `fuel`; each takes the exponent nearer to zero. -/
def scale : Nat → Float → Int → Option Float
  | 0, x, _ => some x
  | fuel + 1, x, exponent =>
    if exponent.natAbs ≤ 308 then
      if exponent < 0 then some (x / powerOfTen exponent.natAbs)
      else
        let y := x * powerOfTen exponent.natAbs
        if y.isInf then none else some y
    else if x == 0.0 then some x
    else if exponent < 0 then scale fuel (x / powerOfTen 308) (exponent + 308)
    else none

/-- The double for digits and an exponent. After three steps downwards nothing is left. -/
def ofParts (negative : Bool) (digits : Nat) (exponent : Int) : Option Number :=
  (scale 8 (Decimal.ofInt digits) exponent).map fun x => .float (signed negative x)

/-- Digits read as a whole number as long as it stays within sixty-four bits, with the number of
digits read and the text from the first digit that does not fit. -/
def readDigits (value count : Nat) : List Char → Nat × Nat × List Char
  | c :: rest =>
    if c.isDigit ∧ value * 10 + (c.toNat - 48) ≤ maxDigits then
      readDigits (value * 10 + (c.toNat - 48)) (count + 1) rest
    else (value, count, c :: rest)
  | [] => (value, count, [])

/-- An exponent moved by another, within its bounds. -/
def moveExponent (start move : Int) : Int := max (-maxExponent - 1) (min maxExponent (start + move))

/-- The end of a number: an exponent, if there is one. -/
def readExponent (negative : Bool) (digits : Nat) (start : Int) (cs : List Char) :
    Option (Number × List Char) :=
  match cs with
  | [] => (ofParts negative digits start).map fun n => (n, [])
  | c :: rest =>
    if c = 'e' ∨ c = 'E' then
      let (down, rest) := Decimal.sign rest
      let (exponent, rest) := Decimal.spanDigits rest
      let move := Decimal.digitsValue exponent
      if exponent.isEmpty then none
      else if (move : Int) ≤ maxExponent then
        (ofParts negative digits (moveExponent start (if down then -move else move))).map
          fun n => (n, rest)
      else if digits ≠ 0 ∧ !down then none
      else some (.float (signed negative 0.0), rest)
    else (ofParts negative digits start).map fun n => (n, c :: rest)

/-- The digits behind the point. Digits beyond sixty-four bits do not count. -/
def readFraction (negative : Bool) (digits : Nat) (before : Int) (cs : List Char) :
    Option (Number × List Char) :=
  let (all, count, rest) := readDigits digits 0 cs
  let (dropped, rest) := Decimal.spanDigits rest
  if count = 0 ∧ dropped.isEmpty then none
  else readExponent negative all (before - count) rest

/-- What follows the digits before the point; `skipped` of them did not fit. -/
def readTail (negative : Bool) (digits skipped : Nat) (cs : List Char) :
    Option (Number × List Char) :=
  match cs with
  | '.' :: rest => readFraction negative digits skipped rest
  | 'e' :: _ | 'E' :: _ => readExponent negative digits skipped cs
  | _ =>
    if skipped > 0 then readExponent negative digits skipped cs
    else if !negative then some (.int digits, cs)
    else if digits = 0 ∨ digits > Nat.pow 2 63 then some (.float (-(Decimal.ofInt digits)), cs)
    else some (.int (-(digits : Int)), cs)

/-- A number at the front of the text. A zero in front of other digits is not allowed. -/
def readNumber (cs : List Char) : Option (Number × List Char) :=
  let (negative, cs) := match cs with
    | '-' :: rest => (true, rest)
    | _ => (false, cs)
  match cs with
  | '0' :: rest =>
    if (rest.headD ' ').isDigit then none else readTail negative 0 0 rest
  | c :: _ =>
    if c.isDigit then
      let (digits, _, rest) := readDigits 0 0 cs
      let (dropped, rest) := Decimal.spanDigits rest
      readTail negative digits dropped.length rest
    else none
  | [] => none

end ZoomConfig.Json
