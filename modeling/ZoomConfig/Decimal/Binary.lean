/-!
Doubles taken apart into sign, mantissa and power of two, and put together again.

`Double.ofFloat` reads the bits of a double; `nearest` gives the double closest to a fraction of
natural numbers, ties going to the even mantissa. All arithmetic is exact.
-/
namespace ZoomConfig.Decimal

/-- The number `± mantissa · 2 ^ exponent`. -/
structure Binary where
  negative : Bool
  mantissa : Nat
  exponent : Int
  deriving DecidableEq, Repr

/-- What the bits of a double say. -/
inductive Double where
  | nan
  | infinite (negative : Bool)
  | finite (value : Binary)
  deriving DecidableEq, Repr

/-- `2 ^ 52`, the least mantissa of a double that is not subnormal. -/
def leastMantissa : Nat := Nat.pow 2 52

/-- The parts of a double: one sign bit, eleven exponent bits, fifty-two fraction bits. -/
def Double.ofFloat (x : Float) : Double :=
  let bits := x.toBits.toNat
  let negative := bits / Nat.pow 2 63 == 1
  let exponent : Nat := bits / leastMantissa % 2048
  let fraction := bits % leastMantissa
  if exponent = 2047 then
    if fraction = 0 then .infinite negative else .nan
  else if exponent = 0 then
    .finite ⟨negative, fraction, -1074⟩
  else
    .finite ⟨negative, leastMantissa + fraction, (exponent : Int) - 1075⟩

/-- `num / den / 2 ^ q` as a quotient and a remainder over a divisor. -/
def scaled (num den : Nat) (q : Int) : Nat × Nat × Nat :=
  let n := if q < 0 then num * Nat.pow 2 q.natAbs else num
  let d := if q < 0 then den else den * Nat.pow 2 q.natAbs
  (n / d, n % d, d)

/-- Rounds a quotient with its remainder to a whole number, halves to the even neighbour. -/
def roundHalfEven (quotient remainder divisor : Nat) : Nat :=
  if 2 * remainder > divisor then quotient + 1
  else if 2 * remainder = divisor then quotient + quotient % 2
  else quotient

/-- The power of two that leaves fifty-three bits of `num / den`, and never less than the power of
the least double. -/
def powerFor (num den : Nat) : Int :=
  let q : Int := (num.log2 : Int) - (den.log2 : Int) - 52
  let q := if (scaled num den q).1 < leastMantissa then q - 1 else q
  max q (-1074)

/-- The bits of the positive double nearest to `num / den`; too large a value gives infinity. -/
def nearestBits (num den : Nat) : Nat :=
  if num = 0 then 0
  else
    let q := powerFor num den
    let (quotient, remainder, divisor) := scaled num den q
    let m := roundHalfEven quotient remainder divisor
    let bits := if m < leastMantissa then m else (q + 1074).toNat * leastMantissa + m
    min bits (2047 * leastMantissa)

/-- The double nearest to `± num / den`. -/
def nearest (negative : Bool) (num den : Nat) : Float :=
  let bits := nearestBits num den
  Float.ofBits (UInt64.ofNat (if negative then Nat.pow 2 63 + bits else bits))

/-- The double beyond all others on its side. -/
def infinity (negative : Bool) : Float := nearest negative (Nat.pow 2 1024) 1

/-- The double nearest to a whole number. -/
def ofInt (n : Int) : Float :=
  nearest (n < 0) n.natAbs 1

end ZoomConfig.Decimal
