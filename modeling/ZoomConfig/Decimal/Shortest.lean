import ZoomConfig.Decimal.Binary
/-!
The fewest decimal digits that read back as the same double.

Every double is the nearest one to an interval of reals. `shortest` tries one digit, then two, and
so on, and takes the point of that decimal grid that lies in the interval; of two such points the
nearer one, and `Tie` decides between equally near ones.
-/
namespace ZoomConfig.Decimal

/-- Which of two equally near decimals is taken. -/
inductive Tie where
  | up
  | even
  deriving DecidableEq, Repr

/-- The number `digits · 10 ^ exponent`. -/
structure Digits where
  digits : Nat
  exponent : Int
  deriving DecidableEq, Repr

/-- A positive double with the reals that round to it, all over one denominator `scale`. The ends
round to it too if `closed`. -/
structure Interval where
  low : Nat
  value : Nat
  high : Nat
  scale : Nat
  closed : Bool
  deriving DecidableEq, Repr

/-- Half a unit to both sides, a quarter downwards where the next smaller double is nearer. -/
def Interval.of (mantissa : Nat) (exponent : Int) : Interval :=
  let nearerBelow := mantissa == leastMantissa && exponent > -1074
  let e := exponent - 2
  let up := if e < 0 then 1 else Nat.pow 2 e.natAbs
  let scale := if e < 0 then Nat.pow 2 e.natAbs else 1
  { low := (4 * mantissa - if nearerBelow then 1 else 2) * up
    value := 4 * mantissa * up
    high := (4 * mantissa + 2) * up
    scale
    closed := mantissa % 2 == 0 }

/-- `10 ^ k` for natural `k`, and `1` for a negative one. -/
def tens (k : Int) : Nat := Nat.pow 10 k.toNat

namespace Interval

/-- The numerator of `d · 10 ^ k`, over the denominator that `spread` gives the interval. -/
def gridPoint (i : Interval) (k : Int) (d : Nat) : Nat := d * tens k * i.scale

/-- A numerator of the interval over the denominator shared with the grid of `10 ^ k`. -/
def spread (k : Int) (n : Nat) : Nat := n * tens (-k)

/-- Does `d · 10 ^ k` round to the double? -/
def holds (i : Interval) (k : Int) (d : Nat) : Bool :=
  let p := i.gridPoint k d
  if i.closed then spread k i.low ≤ p && p ≤ spread k i.high
  else spread k i.low < p && p < spread k i.high

/-- The largest grid point of `10 ^ k` that is at most the value. -/
def floorAt (i : Interval) (k : Int) : Nat := spread k i.value / (tens k * i.scale)

/-- Is the value less than `10 ^ p`? -/
def below (i : Interval) (p : Int) : Bool := spread p i.value < tens p * i.scale

/-- The place of the decimal point: `10 ^ (p - 1) ≤ value < 10 ^ p`. The logarithm to base two
leaves three candidates. -/
def place (i : Interval) : Int :=
  let guess := (((i.value.log2 : Int) - i.scale.log2) * 30103).fdiv 100000 + 1
  if !i.below guess then guess + 1
  else if i.below (guess - 1) then guess - 1
  else guess

/-- The grid point of `10 ^ k` that stands for the double, if there is one. -/
def hit? (i : Interval) (tie : Tie) (k : Int) : Option Nat :=
  let d := i.floorAt k
  match i.holds k d, i.holds k (d + 1) with
  | false, false => none
  | true, false => some d
  | false, true => some (d + 1)
  | true, true =>
    let toLower := spread k i.value - i.gridPoint k d
    let toUpper := i.gridPoint k (d + 1) - spread k i.value
    if toLower < toUpper then some d
    else if toUpper < toLower then some (d + 1)
    else match tie with
      | .up => some (d + 1)
      | .even => some (d + d % 2)

/-- The first of the grids with one to seventeen digits that has a point for the double. -/
def shortest (i : Interval) (tie : Tie) : Digits :=
  let p := i.place
  let found := (List.range 17).findSome? fun n =>
    let k := p - (n + 1 : Nat)
    (i.hit? tie k).map fun d => Digits.mk d k
  found.getD ⟨i.floorAt (p - 17), p - 17⟩

end Interval

/-- Moves zeros at the end of the digits into the exponent. -/
def Digits.trim (d : Digits) : Digits :=
  go 20 d
where
  /-- At most `fuel` zeros are moved. -/
  go : Nat → Digits → Digits
    | 0, d => d
    | fuel + 1, d =>
      if d.digits ≠ 0 && d.digits % 10 = 0 then go fuel ⟨d.digits / 10, d.exponent + 1⟩ else d

/-- The shortest digits of the positive number `mantissa · 2 ^ exponent`. -/
def shortest (tie : Tie) (mantissa : Nat) (exponent : Int) : Digits :=
  ((Interval.of mantissa exponent).shortest tie).trim

end ZoomConfig.Decimal
