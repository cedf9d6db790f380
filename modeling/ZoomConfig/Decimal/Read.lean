import ZoomConfig.Decimal.Binary
/-!
Reading decimal text as the nearest double.

`ofDecimal` rounds a decimal to the nearest double. `read?` accepts an optional sign followed by
digits with an optional point and exponent, or by one of the words `inf`, `infinity` and `nan` in
any case.
-/
namespace ZoomConfig.Decimal

/-- The double nearest to `± digits · 10 ^ exponent`. Beyond `10 ^ 310` all is infinite and below
`10 ^ -330` all is zero, so the powers that are formed stay small. -/
def ofDecimal (negative : Bool) (digits : Nat) (exponent : Int) : Float :=
  let size : Int := if digits = 0 then -400 else exponent + (digits.log2 * 30103 / 100000 : Nat)
  if size > 310 then infinity negative
  else if size < -330 then nearest negative 0 1
  else if exponent < 0 then nearest negative digits (Nat.pow 10 exponent.natAbs)
  else nearest negative (digits * Nat.pow 10 exponent.natAbs) 1

/-- The digits at the front, and the rest. -/
def spanDigits (cs : List Char) : List Char × List Char := cs.span Char.isDigit

/-- The value of decimal digits. -/
def digitsValue (cs : List Char) : Nat := cs.foldl (fun n c => 10 * n + (c.toNat - 48)) 0

/-- An optional sign in front: is it a minus, and what follows. -/
def sign : List Char → Bool × List Char
  | '-' :: cs => (true, cs)
  | '+' :: cs => (false, cs)
  | cs => (false, cs)

/-- The exponent at the end of a number: nothing, or `e`, an optional sign and digits. -/
def exponent? : List Char → Option Int
  | [] => some 0
  | c :: cs =>
    if c = 'e' ∨ c = 'E' then
      let (negative, cs) := sign cs
      if cs.isEmpty || !cs.all Char.isDigit then none
      else some (if negative then -(digitsValue cs : Int) else digitsValue cs)
    else none

/-- A number without its sign: digits on at least one side of an optional point. -/
def magnitude? (negative : Bool) (cs : List Char) : Option Float :=
  let (whole, rest) := spanDigits cs
  let (fraction, rest) := match rest with
    | '.' :: rest => spanDigits rest
    | rest => ([], rest)
  if whole.isEmpty && fraction.isEmpty then none
  else (exponent? rest).map fun e =>
    ofDecimal negative (digitsValue (whole ++ fraction)) (e - fraction.length)

/-- Reads a number or one of the three words. -/
def read? (text : String) : Option Float :=
  let (negative, cs) := sign text.toList
  let word := String.ofList (cs.map Char.toLower)
  if word = "inf" ∨ word = "infinity" then some (infinity negative)
  else if word = "nan" then some (0.0 / 0.0)
  else magnitude? negative cs

end ZoomConfig.Decimal
