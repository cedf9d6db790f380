import ZoomConfig.Decimal.Shortest
/-!
How the digits of a double are set out as text.

A `Layout` holds the decisions of one format: which numbers are written without an exponent, what
follows a whole number, and the words for what is not a number.
-/
namespace ZoomConfig.Decimal

/-- The decisions of a number format. -/
structure Layout where
  /-- First and last place of the decimal point that are written without an exponent, where `p`
  stands for `10 ^ (p - 1) ≤ |x| < 10 ^ p`. No range: an exponent is never written. -/
  plainPlaces : Option (Int × Int)
  /-- What follows a whole number written without an exponent. -/
  wholeTail : String
  /-- Is a plus sign written before an exponent that is not negative? -/
  plusSign : Bool
  /-- Between two equally near shortest decimals. -/
  tie : Tie
  nan : String
  infinity : String

namespace Layout

/-- The digits of a positive number with the point at its place, without an exponent. -/
def plain (l : Layout) (digits : List Char) (place : Int) : String :=
  if place ≤ 0 then
    "0." ++ String.ofList (List.replicate place.natAbs '0' ++ digits)
  else
    let n := place.toNat
    if digits.length ≤ n then
      String.ofList (digits ++ List.replicate (n - digits.length) '0') ++ l.wholeTail
    else
      String.ofList (digits.take n ++ '.' :: digits.drop n)

/-- One digit before the point and an exponent behind. -/
def scientific (l : Layout) (digits : List Char) (place : Int) : String :=
  let e := place - 1
  let sign := if e < 0 then "-" else if l.plusSign then "+" else ""
  let mantissa := match digits with
    | [] => "0"
    | [d] => d.toString
    | d :: rest => String.ofList (d :: '.' :: rest)
  mantissa ++ "e" ++ sign ++ toString e.natAbs

/-- The text of a positive finite number. -/
def positive (l : Layout) (mantissa : Nat) (exponent : Int) : String :=
  let short := shortest l.tie mantissa exponent
  let digits := Nat.toDigits 10 short.digits
  let place := short.exponent + digits.length
  match l.plainPlaces with
  | none => l.plain digits place
  | some (first, last) =>
    if first ≤ place ∧ place ≤ last then l.plain digits place else l.scientific digits place

/-- The text of a double. -/
def write (l : Layout) (x : Float) : String :=
  match Double.ofFloat x with
  | .nan => l.nan
  | .infinite negative => (if negative then "-" else "") ++ l.infinity
  | .finite b =>
    (if b.negative then "-" else "") ++
      if b.mantissa = 0 then "0" ++ l.wholeTail else l.positive b.mantissa b.exponent

end Layout

/-- Numbers in messages: `10.0`, `1e-5`, `1.5e300`, `NaN`. -/
def messageLayout : Layout :=
  { plainPlaces := some (-3, 16), wholeTail := ".0", plusSign := false, tie := .up,
    nan := "NaN", infinity := "inf" }

/-- Numbers of documents: `10.0`, `0.00001`, `1e16`, `.nan`. -/
def documentLayout : Layout :=
  { plainPlaces := some (-4, 16), wholeTail := ".0", plusSign := false, tie := .even,
    nan := ".nan", infinity := ".inf" }

/-- Numbers of JSON text: `10.0`, `0.00001`, `1e+16`. JSON has no text for what is not finite. -/
def jsonLayout : Layout :=
  { plainPlaces := some (-4, 16), wholeTail := ".0", plusSign := true, tie := .even,
    nan := "null", infinity := "null" }

/-- Numbers for the reader of a report: `0`, `2.5`, `10000000000000000`, never an exponent. -/
def reportLayout : Layout :=
  { plainPlaces := none, wholeTail := "", plusSign := false, tie := .up,
    nan := "NaN", infinity := "inf" }

end ZoomConfig.Decimal
