/-!
The numbers that boxes are made of.

Boxes and areas are computed with doubles, and what they mean is a matter of exact numbers. So they
are written over any type with the operations below; `Float` is one of them.
-/
namespace ZoomConfig

/-- The arithmetic and order that boxes need. -/
class Coordinate (α : Type) extends Add α, Sub α, Mul α, LT α, LE α where
  decLt : DecidableLT α
  decLe : DecidableLE α
  zero : α
  one : α
  /-- The smaller of two; of equal ones the first. What is not a number is passed over. -/
  smaller : α → α → α
  /-- The larger of two; of equal ones the first. What is not a number is passed over. -/
  larger : α → α → α
  abs : α → α
  /-- The order in which coordinates are sorted, total even where `≤` is not. -/
  sortsBefore : α → α → Bool
  /-- Equality of coordinates, by which repeated ones are dropped. -/
  same : α → α → Bool
  /-- The relative surface by which one area may miss another and still count as covered. -/
  tolerance : α
  /-- The coordinate that a double stands for. -/
  ofFloat : Float → α

instance Coordinate.decidableLT {α : Type} [Coordinate α] : DecidableLT α := Coordinate.decLt

instance Coordinate.decidableLE {α : Type} [Coordinate α] : DecidableLE α := Coordinate.decLe

/-- Doubles in the order of their bits, by which `-0` comes before `0` and what is not a number at
the ends. -/
def floatRank (x : Float) : Int :=
  let bits := x.toBits.toNat
  if bits < Nat.pow 2 63 then bits else -((bits - Nat.pow 2 63 : Nat) : Int) - 1

instance : Coordinate Float where
  decLt := inferInstance
  decLe := inferInstance
  zero := 0
  one := 1
  smaller a b := if a.isNaN then b else if b < a then b else a
  larger a b := if a.isNaN then b else if a < b then b else a
  abs x := x.abs
  sortsBefore a b := floatRank a ≤ floatRank b
  same a b := a == b
  tolerance := 1e-9
  ofFloat x := x

end ZoomConfig
