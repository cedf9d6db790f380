import ZoomConfig.Proofs.Decimal.Rounding
/-!
A finite double is known from its sign, mantissa and power of two.
-/
namespace ZoomConfig.Decimal

theorem ofFloat_of_isFinite {x : Float} (h : x.isFinite = true) :
    ∃ b, Double.ofFloat x = .finite b := by
  unfold Double.ofFloat
  dsimp only
  split
  · rename_i top
    exfalso
    -- With all exponent bits set a double is infinite or no number.
    have full : @Float.Model.UnpackedFloat.unpackExponent .binary64
        x.toModel.toBits.toBitVec = -1#11 := by
      apply BitVec.eq_of_toNat_eq
      change (x.toBits.toNat >>> 52) % 2 ^ 11 = 2047
      rw [Nat.shiftRight_eq_div_pow]
      exact top
    have unpacked : x.isFinite = (Float.Model.UnpackedFloat.unpack .binary64
        x.toModel.toBits.toBitVec).isFinite := rfl
    unfold Float.Model.UnpackedFloat.unpack at unpacked
    dsimp only at unpacked
    rw [if_pos full, h] at unpacked
    split at unpacked <;> cases unpacked
  · split
    · exact ⟨_, rfl⟩
    · exact ⟨_, rfl⟩

/-- What a finite double has: the sign bit, and the fraction with the exponent bits `0` or with the
bits `n` of a greater mantissa. -/
theorem ofFloat_finite {x : Float} {b : Binary} (h : Double.ofFloat x = .finite b) :
    let bits := x.toBits.toNat
    b.negative = (bits / 9223372036854775808 == 1) ∧ bits < 18446744073709551616 ∧
      (b.mantissa = bits % 4503599627370496 ∧ b.exponent = -1074 ∧
          bits / 4503599627370496 % 2048 = 0 ∨
        ∃ n, 0 < n ∧ n < 2047 ∧ bits / 4503599627370496 % 2048 = n ∧
          b.mantissa = 4503599627370496 + bits % 4503599627370496 ∧
          b.exponent = (n : Int) - 1075) := by
  have least : leastMantissa = 4503599627370496 := rfl
  refine ⟨?_, x.toBits.toNat_lt, ?_⟩ <;> unfold Double.ofFloat at h <;> dsimp only at h <;>
    rw [least] at h <;> split at h
  · split at h <;> cases h
  · split at h <;> cases h <;> rfl
  · split at h <;> cases h
  · split at h
    · rename_i zero
      cases h
      exact .inl ⟨rfl, rfl, zero⟩
    · cases h
      exact .inr ⟨_, by omega, by omega, rfl, rfl, rfl⟩

/-- The parts of a double other than zero are those of a positive double. -/
theorem fits_of_ofFloat {x : Float} {b : Binary} (h : Double.ofFloat x = .finite b)
    (nonzero : b.mantissa ≠ 0) : Fits b.mantissa b.exponent := by
  have least : leastMantissa = 4503599627370496 := rfl
  obtain ⟨-, -, ⟨mantissa, exponent, -⟩ | ⟨n, positive, lt, -, mantissa, exponent⟩⟩ :=
    ofFloat_finite h
  · exact ⟨by omega, by omega, by omega, by omega, .inr exponent⟩
  · exact ⟨by omega, by omega, by omega, by omega, .inl (by omega)⟩

theorem exponent_of_zero {x : Float} {b : Binary} (h : Double.ofFloat x = .finite b)
    (zero : b.mantissa = 0) : b.exponent = -1074 := by
  obtain ⟨-, -, ⟨-, exponent, -⟩ | ⟨n, -, -, -, mantissa, -⟩⟩ := ofFloat_finite h
  · exact exponent
  · omega

/-- The bits of a finite double are determined by its parts. -/
theorem bits_of_ofFloat {x y : Float} {b : Binary} (hx : Double.ofFloat x = .finite b)
    (hy : Double.ofFloat y = .finite b) : x.toBits.toNat = y.toBits.toNat := by
  obtain ⟨signX, sizeX, partsX⟩ := ofFloat_finite hx
  obtain ⟨signY, sizeY, partsY⟩ := ofFloat_finite hy
  generalize x.toBits.toNat = m at *
  generalize y.toBits.toNat = n at *
  have halves : m / 9223372036854775808 = n / 9223372036854775808 := by
    rw [signX, Bool.eq_iff_iff, beq_iff_eq, beq_iff_eq] at signY
    clear partsX partsY
    omega
  -- A mantissa tells the exponent bits zero from all others, as only those are without the top bit.
  rcases partsX with ⟨mantissaX, exponentX, zeroX⟩ | ⟨j, j0, j1, hj, mantissaX, exponentX⟩ <;>
    rcases partsY with ⟨mantissaY, exponentY, zeroY⟩ | ⟨l, l0, l1, hl, mantissaY, exponentY⟩ <;>
    omega

theorem ofFloat_injective {x y : Float} {b : Binary} (hx : Double.ofFloat x = .finite b)
    (hy : Double.ofFloat y = .finite b) : x = y := by
  have bits : x.toBits = y.toBits := by
    apply UInt64.toNat_inj.1
    exact bits_of_ofFloat hx hy
  obtain ⟨⟨xBits, xValid⟩⟩ := x
  obtain ⟨⟨yBits, yValid⟩⟩ := y
  have same : xBits = yBits := bits
  subst same
  rfl

end ZoomConfig.Decimal
