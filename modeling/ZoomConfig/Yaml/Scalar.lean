import ZoomConfig.Decimal.Read
import ZoomConfig.Value.Basic
import ZoomConfig.Yaml.FlowScalar
import ZoomConfig.Yaml.Token
/-!
The values of scalars.

A plain scalar is null, a boolean or a number if it reads as one. The standard tags for these kinds
force the kind; under any other standard tag a scalar is text.
-/
namespace ZoomConfig.Yaml

/-- The words for null. -/
def isNullWord (text : String) : Bool := ["null", "Null", "NULL", "~"].contains text

/-- The words for the booleans. -/
def bool? (text : String) : Option Bool :=
  if ["true", "True", "TRUE"].contains text then some true
  else if ["false", "False", "FALSE"].contains text then some false
  else none

/-- The text behind a plus sign, if there is one. -/
def afterPlus : List Char → List Char
  | '+' :: rest => rest
  | cs => cs

/-- Does the text begin with a sign? -/
def isSigned (cs : List Char) : Bool := cs.head? == some '+' || cs.head? == some '-'

/-- More than one digit, the first a zero: text that looks like a number and is none. -/
def isPadded (cs : List Char) : Bool :=
  let digits := if isSigned cs then cs.tail else cs
  digits.length > 1 && digits.head? == some '0' && digits.all Char.isDigit

/-- The number that digits of a base write, of which there has to be one. -/
def natOfDigits? (base : Nat) (cs : List Char) : Option Nat :=
  if cs.isEmpty then none
  else cs.foldlM (fun n c => (Json.hexValue? c).bind fun d =>
    if d < base then some (base * n + d) else none) 0

/-- The base that a letter behind a zero stands for. -/
def base? : Char → Option Nat
  | 'x' => some 16
  | 'o' => some 8
  | 'b' => some 2
  | _ => none

/-- An integer without a sign: digits, or a zero and a letter for the base and digits. -/
def magnitude? (cs : List Char) : Option Nat :=
  match cs with
  | '0' :: letter :: digits =>
    match base? letter with
    | some base => natOfDigits? base digits
    | none => if isPadded cs then none else natOfDigits? 10 cs
  | _ => natOfDigits? 10 cs

/-- An integer of any size. -/
def integer? (text : String) : Option Int :=
  match text.toList with
  | '-' :: rest => (magnitude? rest).map fun n => -(n : Int)
  | cs => (magnitude? (afterPlus cs)).map Int.ofNat

/-- A number with a point or an exponent, or one of the words with a point in front. All but the
words are finite. -/
def float? (text : String) : Option Float :=
  let cs := text.toList
  let unsigned := afterPlus cs
  if cs.head? = some '+' ∧ isSigned unsigned then none
  else if [".inf", ".Inf", ".INF"].contains (String.ofList unsigned) then
    some (Decimal.infinity false)
  else if ["-.inf", "-.Inf", "-.INF"].contains text then some (Decimal.infinity true)
  else if [".nan", ".NaN", ".NAN"].contains text then some (0.0 / 0.0)
  else (Decimal.read? (String.ofList unsigned)).filter Float.isFinite

/-- What is written as an integer: a value, text, or an error. Integers from `-2 ^ 63` to
`2 ^ 64 - 1` are values; others are errors if they fit 128 bits, and no integers if they do not. -/
def integerValue? (text : String) : Option (Option Value) :=
  (integer? text).bind fun n =>
    if -(Nat.pow 2 63) ≤ n ∧ n < Nat.pow 2 64 then some (some (.number (.int n)))
    else if -(Nat.pow 2 127) ≤ n ∧ n < Nat.pow 2 128 then some none
    else none

/-- The value of a plain scalar without a tag. -/
def plainValue? (text : String) : Option Value :=
  if text.isEmpty || isNullWord text then some .null
  else match bool? text with
    | some b => some (.bool b)
    | none =>
      match integerValue? text with
      | some v => v
      | none =>
        match if isPadded text.toList then none else float? text with
        | some x => some (.number (.float x))
        | none => some (.string text)

namespace Scalar

/-- The value of a scalar without a tag. -/
def value? (s : Scalar) : Option Value :=
  if s.isPlain then plainValue? s.text else some (.string s.text)

/-- A tag of the standard kinds. -/
def standardTag (name : String) : Octets := octets ("tag:yaml.org,2002:" ++ name).toList

/-- The value of a scalar under a tag without a name of its own. -/
def valueUnder? (tag : Octets) (s : Scalar) : Option Value :=
  if tag = standardTag "bool" then (bool? s.text).map .bool
  else if tag = standardTag "int" then (integerValue? s.text).join
  else if tag = standardTag "float" then (float? s.text).map fun x => .number (.float x)
  else if tag = standardTag "null" then if isNullWord s.text then some .null else none
  else if tag.head? = some 0x21 then s.value?
  else some (.string s.text)

end Scalar

end ZoomConfig.Yaml
