import ZoomConfig.Decimal.Binary
/-!
Doubles that are numbers.

Packing a float that is a number gives a number (`isNaN_pack`). So products with finite doubles other
than zero, quotients by them, negations and the nearest doubles of fractions are numbers.
-/
namespace ZoomConfig.Decimal

open Float.Model

/-- Bits are those of a number if there is no fraction beside the greatest exponent. -/
theorem isNaN_unpack {b : BitVec Format.binary64.numBits}
    (number : UnpackedFloat.unpackExponent b = -1#11 → UnpackedFloat.unpackMantissa b = 0#52) :
    (UnpackedFloat.unpack .binary64 b).isNaN = false := by
  unfold UnpackedFloat.unpack
  dsimp only
  by_cases greatest : UnpackedFloat.unpackExponent b = -1#11
  · rw [if_pos greatest, if_pos (number greatest)]
    rfl
  · rw [if_neg greatest]
    by_cases least : UnpackedFloat.unpackExponent b = 0#11
    · rw [if_pos least]
      by_cases nothing : UnpackedFloat.unpackMantissa b = 0#52
      · rw [dif_pos nothing]
        rfl
      · rw [dif_neg nothing]
        rfl
    · rw [if_neg least]
      rfl

/-- Packing makes no number into something that is none. -/
theorem isNaN_pack {f : UnpackedFloat} (h : f.isNaN = false) : (Float.Model.pack f).isNaN = false := by
  show (UnpackedFloat.unpack .binary64 (UnpackedFloat.pack .binary64 f)).isNaN = false
  have infinite (s : UnpackedFloat.Sign) :
      (UnpackedFloat.unpack .binary64 (UnpackedFloat.packedInfinity .binary64 s)).isNaN = false := by
    cases s <;> rfl
  have finite {s : UnpackedFloat.Sign} {e : BitVec 11} {m : BitVec 52} (other : e ≠ -1#11) :
      (UnpackedFloat.unpack .binary64 (UnpackedFloat.packComponents .binary64 s e m)).isNaN =
        false :=
    isNaN_unpack fun greatest =>
      absurd (UnpackedFloat.unpackExponent_packComponents.symm.trans greatest) other
  cases f with
  | notANumber => cases h
  | infinity s => exact infinite s
  | zero s => exact finite (by decide)
  | finite s m e positive =>
    unfold UnpackedFloat.pack
    dsimp only
    split
    · exact infinite s
    · next small =>
      split
      · refine finite fun same => ?_
        have top := congrArg BitVec.toNat same
        simp at top small
        omega
      · exact finite (by decide)

/-- A double other than zero that is finite. -/
def isSolid (x : Float) : Bool :=
  match x.toModel.unpack with
  | .finite .. => true
  | _ => false

theorem isNaN_round (s : UnpackedFloat.Sign) (m : Nat) (e : Int) (a : UnpackedFloat.Accuracy) :
    (UnpackedFloat.roundWithAccuracy .binary64 s m e a).isNaN = false := by
  unfold UnpackedFloat.roundWithAccuracy
  rw [apply_dite UnpackedFloat.isNaN]
  exact ite_self false

theorem unpack_of_isSolid {x : Float} (solid : isSolid x = true) :
    ∃ s m e positive, x.toModel.unpack = .finite s m e positive := by
  unfold isSolid at solid
  cases unpacked : x.toModel.unpack with
  | finite s m e positive => exact ⟨s, m, e, positive, rfl⟩
  | _ => rw [unpacked] at solid; cases solid

theorem isNaN_mul {x y : Float} (number : x.isNaN = false) (solid : isSolid y = true) :
    (x * y).isNaN = false := by
  obtain ⟨_, _, _, _, same⟩ := unpack_of_isSolid solid
  change x.toModel.unpack.isNaN = false at number
  refine isNaN_pack (f := UnpackedFloat.mul .binary64 x.toModel.unpack y.toModel.unpack) ?_
  rw [same]
  cases h : x.toModel.unpack with
  | notANumber => rw [h] at number; cases number
  | infinity => rfl
  | zero => rfl
  | finite => exact isNaN_round ..

theorem isNaN_div {x y : Float} (number : x.isNaN = false) (solid : isSolid y = true) :
    (x / y).isNaN = false := by
  obtain ⟨_, _, _, _, same⟩ := unpack_of_isSolid solid
  change x.toModel.unpack.isNaN = false at number
  refine isNaN_pack (f := UnpackedFloat.div .binary64 x.toModel.unpack y.toModel.unpack) ?_
  rw [same]
  cases h : x.toModel.unpack with
  | notANumber => rw [h] at number; cases number
  | infinity => rfl
  | zero => rfl
  | finite => exact isNaN_round ..

theorem isNaN_neg {x : Float} (number : x.isNaN = false) : (-x).isNaN = false := by
  refine isNaN_pack (f := x.toModel.unpack.neg) ?_
  change x.toModel.unpack.isNaN = false at number
  cases h : x.toModel.unpack with
  | notANumber => rw [h] at number; cases number
  | _ => rfl

theorem nearestBits_le (num den : Nat) : nearestBits num den ≤ 2047 * leastMantissa := by
  unfold nearestBits
  split
  · exact Nat.zero_le _
  · exact Nat.min_le_right _ _

/-- Bits that go no further than those of an infinity are the bits of a number. -/
theorem isNaN_ofBits {n : Nat} (small : n % 9223372036854775808 ≤ 2047 * leastMantissa) :
    (Float.ofBits (UInt64.ofNat n)).isNaN = false := by
  have least : leastMantissa = 4503599627370496 := rfl
  refine isNaN_pack (f := UnpackedFloat.unpack .binary64 (UInt64.ofNat n).toBitVec) ?_
  refine isNaN_unpack fun greatest => ?_
  have exponent := congrArg BitVec.toNat greatest
  apply BitVec.eq_of_toNat_eq
  change ((UInt64.ofNat n).toNat >>> 52) % 2 ^ 11 = 2047 at exponent
  change ((UInt64.ofNat n).toNat >>> 0) % 2 ^ 52 = 0
  simp only [UInt64.toNat_ofNat', Nat.shiftRight_eq_div_pow] at exponent ⊢
  omega

theorem isNaN_nearest (negative : Bool) (num den : Nat) :
    (nearest negative num den).isNaN = false := by
  have small := nearestBits_le num den
  have least : leastMantissa = 4503599627370496 := rfl
  have half : Nat.pow 2 63 = 9223372036854775808 := rfl
  unfold nearest
  dsimp only
  rw [half]
  split <;> exact isNaN_ofBits (by omega)

theorem isNaN_ofInt (n : Int) : (ofInt n).isNaN = false := isNaN_nearest _ _ _

end ZoomConfig.Decimal
