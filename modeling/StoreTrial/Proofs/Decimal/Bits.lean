import Mathlib
import StoreTrial.Proofs.Decimal.Rounding

/-!
# The bits of a double

A finite double that is not zero is its sign beside a canonical mantissa and exponent, and its bits
are the sign, `exponent + 1074` and the mantissa added up, the leading bit of a normal mantissa
carried into the field above.  Taking the bits apart again gives the same three numbers.

## Main results

* `Scaled.unpack_toFloat`, `Scaled.magnitude_toFloat` — what was put together is found again.
* `float_cases` — every double is one of the five that no mantissa describes, or put together.
-/

namespace StoreTrial.Decimal

open Float.Model Float.Model.UnpackedFloat

/-- The double with a sign, a mantissa and an exponent. -/
def Scaled.toFloat (s : Scaled) (hs : s.Canonical) (sign : Sign) : Float :=
  .ofModel (.pack (.finite sign s.mantissa s.exponent hs.pos))

/-! ## Putting together -/

/-- Three fields beside each other add up to their number. -/
theorem toNat_packComponents (sign : Sign) (exponent : BitVec 11) (mantissa : BitVec 52) :
    (packComponents .binary64 sign exponent mantissa).toNat =
      sign.toBitVec.toNat * 2 ^ 63 + exponent.toNat * 2 ^ 52 + mantissa.toNat := by
  have hexponent := exponent.isLt
  have hmantissa := mantissa.isLt
  unfold packComponents
  rw [BitVec.toNat_append, BitVec.toNat_append, ← Nat.shiftLeft_add_eq_or_of_lt hexponent,
    ← Nat.shiftLeft_add_eq_or_of_lt hmantissa, Nat.shiftLeft_eq, Nat.shiftLeft_eq]
  ring

theorem unpackSign_packComponents (sign : Sign) (exponent : BitVec 11) (mantissa : BitVec 52) :
    unpackSign (packComponents .binary64 sign exponent mantissa) = sign.toBitVec := by
  have hexponent := exponent.isLt
  have hmantissa := mantissa.isLt
  have hsign := sign.toBitVec.isLt
  apply BitVec.eq_of_toNat_eq
  unfold unpackSign
  rw [BitVec.toNat_cast, BitVec.extractLsb_toNat, toNat_packComponents, Nat.shiftRight_eq_div_pow]
  show _ / 2 ^ 63 % 2 ^ 1 = _
  omega

theorem Scaled.Canonical.log2 {s : Scaled} (hs : s.Canonical) :
    s.mantissa.log2 + 1 = 53 ↔ 2 ^ 52 ≤ s.mantissa := by
  have hlt : s.mantissa.log2 < 53 := (Nat.log2_lt hs.pos.ne').2 hs.lt
  rw [← Nat.le_log2 hs.pos.ne']
  omega

/-- The exponent and mantissa fields: a normal mantissa gives up its leading bit. -/
theorem Scaled.Canonical.pack_eq {s : Scaled} (hs : s.Canonical) (sign : Sign) :
    UnpackedFloat.pack .binary64 (.finite sign s.mantissa s.exponent hs.pos) =
      if 2 ^ 52 ≤ s.mantissa then
        packComponents .binary64 sign (.ofNat 11 (s.exponent + 1075).toNat) (.ofNat 52 s.mantissa)
      else packComponents .binary64 sign 0#11 (.ofNat 52 s.mantissa) := by
  have hleast := hs.least
  have hgreatest := hs.greatest
  have hbias : s.exponent + (Format.binary64.exponentBias : Int) + (52 : Nat) =
      s.exponent + 1075 := by
    show s.exponent + 1023 + 52 = _
    ring
  unfold UnpackedFloat.pack
  simp only [hbias]
  rw [if_neg (by show ¬2 ^ 11 ≤ _; omega)]
  exact if_congr hs.log2 rfl rfl

theorem Scaled.toBits_toFloat {s : Scaled} (hs : s.Canonical) (sign : Sign) :
    (s.toFloat hs sign).toBits.toNat =
      sign.toBitVec.toNat * 2 ^ 63 + (s.exponent + 1074).toNat * 2 ^ 52 + s.mantissa := by
  have hleast := hs.least
  have hgreatest := hs.greatest
  have hlt := hs.lt
  have hpack := congrArg BitVec.toNat (hs.pack_eq sign)
  refine hpack.trans ?_
  split
  · rw [toNat_packComponents, BitVec.toNat_ofNat, BitVec.toNat_ofNat]
    omega
  · next hsmall =>
    have hexponent : s.exponent = -1074 := hs.normal.resolve_left hsmall
    rw [toNat_packComponents, BitVec.toNat_ofNat, BitVec.toNat_ofNat, hexponent]
    omega

/-! ## Taking apart -/

theorem ofBitVec_toBitVec (sign : Sign) : Sign.ofBitVec sign.toBitVec = sign := by
  cases sign <;> rfl

/-- Neither all ones nor all zeros in the exponent: the leading bit is put back. -/
theorem Scaled.Canonical.unpack_normal {s : Scaled} (hs : s.Canonical)
    (hnormal : 2 ^ 52 ≤ s.mantissa) (sign : Sign) :
    UnpackedFloat.unpack .binary64 (packComponents .binary64 sign
      (.ofNat 11 (s.exponent + 1075).toNat) (.ofNat 52 s.mantissa)) =
        .finite sign s.mantissa s.exponent hs.pos := by
  have hleast := hs.least
  have hgreatest := hs.greatest
  have hlt := hs.lt
  have hbias : (Format.binary64.exponentBias : Int) + (52 : Nat) = 1075 := rfl
  have hfield : (BitVec.ofNat 11 (s.exponent + 1075).toNat).toNat = (s.exponent + 1075).toNat := by
    rw [BitVec.toNat_ofNat]
    omega
  have hmantissa : (1#1 ++ BitVec.ofNat 52 s.mantissa).toNat = s.mantissa := by
    rw [BitVec.toNat_append, ← Nat.shiftLeft_add_eq_or_of_lt (BitVec.isLt _),
      BitVec.toNat_ofNat, BitVec.toNat_ofNat, Nat.shiftLeft_eq]
    omega
  have hnotOnes : BitVec.ofNat 11 (s.exponent + 1075).toNat ≠ -1#11 := fun h => by
    have := hfield.symm.trans (congrArg BitVec.toNat h)
    rw [show (-1#11 : BitVec 11).toNat = 2047 from rfl] at this
    omega
  have hnotZero : BitVec.ofNat 11 (s.exponent + 1075).toNat ≠ 0#11 := fun h => by
    have := hfield.symm.trans (congrArg BitVec.toNat h)
    rw [show (0#11 : BitVec 11).toNat = 0 from rfl] at this
    omega
  unfold UnpackedFloat.unpack
  simp only [unpackExponent_packComponents, unpackMantissa_packComponents,
    unpackSign_packComponents, ofBitVec_toBitVec]
  rw [if_neg hnotOnes, if_neg hnotZero, finite.injEq]
  exact ⟨rfl, hmantissa, by rw [hbias, hfield]; omega⟩

/-- All zeros in the exponent: the mantissa stands as it is, at the lowest exponent. -/
theorem Scaled.Canonical.unpack_subnormal {s : Scaled} (hs : s.Canonical)
    (hnormal : ¬2 ^ 52 ≤ s.mantissa) (sign : Sign) :
    UnpackedFloat.unpack .binary64 (packComponents .binary64 sign 0#11 (.ofNat 52 s.mantissa)) =
      .finite sign s.mantissa s.exponent hs.pos := by
  have hexponent : s.exponent = -1074 := hs.normal.resolve_left hnormal
  have hmantissa : (BitVec.ofNat 52 s.mantissa).toNat = s.mantissa := by
    rw [BitVec.toNat_ofNat]
    omega
  have hnotZero : BitVec.ofNat 52 s.mantissa ≠ 0#52 := fun h => by
    have := hmantissa.symm.trans (congrArg BitVec.toNat h)
    exact hs.pos.ne' this
  unfold UnpackedFloat.unpack
  simp only [unpackExponent_packComponents, unpackMantissa_packComponents,
    unpackSign_packComponents, ofBitVec_toBitVec]
  rw [if_neg (by decide), if_pos trivial, dif_neg hnotZero, finite.injEq]
  exact ⟨rfl, hmantissa, by rw [hexponent]; rfl⟩

theorem Scaled.unpack_toFloat {s : Scaled} (hs : s.Canonical) (sign : Sign) :
    (s.toFloat hs sign).toModel.unpack = .finite sign s.mantissa s.exponent hs.pos := by
  show UnpackedFloat.unpack .binary64 (UnpackedFloat.pack .binary64 _) = _
  rw [hs.pack_eq sign]
  by_cases hnormal : 2 ^ 52 ≤ s.mantissa
  · rw [if_pos hnormal]
    exact hs.unpack_normal hnormal sign
  · rw [if_neg hnormal]
    exact hs.unpack_subnormal hnormal sign

theorem Scaled.magnitude_toFloat {s : Scaled} (hs : s.Canonical) (sign : Sign) :
    magnitude (s.toFloat hs sign) = s := by
  have hleast := hs.least
  have hgreatest := hs.greatest
  have hlt := hs.lt
  have hsign := sign.toBitVec.isLt
  obtain ⟨mantissa, exponent⟩ := s
  unfold magnitude
  rw [toBits_toFloat hs sign]
  dsimp only at *
  by_cases hnormal : 2 ^ 52 ≤ mantissa
  · rw [if_neg (by omega)]
    congr 1 <;> omega
  · have hexponent : exponent = -1074 := hs.normal.resolve_left hnormal
    subst hexponent
    rw [if_pos (by omega)]
    congr 1
    omega

theorem Scaled.isNegative_toFloat {s : Scaled} (hs : s.Canonical) (sign : Sign) :
    isNegative (s.toFloat hs sign) = (sign.toBitVec.toNat == 1) := by
  have hleast := hs.least
  have hgreatest := hs.greatest
  have hlt := hs.lt
  have hsign := sign.toBitVec.isLt
  unfold isNegative
  rw [toBits_toFloat hs sign]
  congr 1
  omega

theorem Scaled.neg_toFloat {s : Scaled} (hs : s.Canonical) (sign : Sign) :
    -s.toFloat hs sign = s.toFloat hs (-sign) := by
  show Float.ofModel (.pack (s.toFloat hs sign).toModel.unpack.neg) = _
  rw [unpack_toFloat hs sign]
  rfl

theorem Scaled.isNaN_toFloat {s : Scaled} (hs : s.Canonical) (sign : Sign) :
    (s.toFloat hs sign).isNaN = false := by
  show (s.toFloat hs sign).toModel.unpack.isNaN = false
  rw [unpack_toFloat hs sign]
  rfl

theorem Scaled.isInf_toFloat {s : Scaled} (hs : s.Canonical) (sign : Sign) :
    (s.toFloat hs sign).isInf = false := by
  show (s.toFloat hs sign).toModel.unpack.isInf = false
  rw [unpack_toFloat hs sign]
  rfl

/-! ## Every double -/

/-- What is read from the bits of a finite double that is not zero is canonical. -/
theorem canonical_magnitude {x : Float} (hfinite : x.toBits.toNat / 2 ^ 52 % 2 ^ 11 < 2047)
    (hpos : 0 < (magnitude x).mantissa) : (magnitude x).Canonical := by
  unfold magnitude at hpos ⊢
  dsimp only at hpos ⊢
  by_cases hzero : x.toBits.toNat / 2 ^ 52 % 2 ^ 11 = 0
  · rw [if_pos hzero] at hpos ⊢
    exact ⟨hpos, by dsimp only; omega, le_refl _, by norm_num, .inr rfl⟩
  · rw [if_neg hzero] at hpos ⊢
    exact ⟨hpos, by dsimp only; omega, by dsimp only; omega, by dsimp only; omega,
      .inl (Nat.le_add_right _ _)⟩

/-- A double with the bits of another is that one. -/
theorem float_ext {x y : Float} (h : x.toBits.toNat = y.toBits.toNat) : x = y := by
  obtain ⟨bits, hbits⟩ := x
  obtain ⟨bits', hbits'⟩ := y
  obtain rfl : bits = bits' := UInt64.toNat_inj.1 h
  rfl

/-- A double is its sign beside its magnitude. -/
theorem eq_toFloat {x : Float} (hs : (magnitude x).Canonical) {sign : Sign}
    (hsign : sign.toBitVec.toNat = x.toBits.toNat / 2 ^ 63) :
    x = (magnitude x).toFloat hs sign := by
  apply float_ext
  rw [Scaled.toBits_toFloat]
  unfold magnitude
  dsimp only
  split <;> dsimp only <;> omega

/-- There is one double that is no number. -/
theorem eq_notANumber {x : Float} (hones : x.toBits.toNat / 2 ^ 52 % 2 ^ 11 = 2047)
    (hfraction : x.toBits.toNat % 2 ^ 52 ≠ 0) : x = .ofModel (.pack .notANumber) := by
  have hexponent : @unpackExponent .binary64 x.toBits.toBitVec = -1#11 := by
    apply BitVec.eq_of_toNat_eq
    unfold unpackExponent
    rw [BitVec.toNat_cast, BitVec.extractLsb_toNat, Nat.shiftRight_eq_div_pow]
    exact hones
  have hmantissa : @unpackMantissa .binary64 x.toBits.toBitVec ≠ 0#52 := fun h => by
    apply hfraction
    have := congrArg BitVec.toNat h
    unfold unpackMantissa at this
    rw [BitVec.toNat_cast, BitVec.extractLsb_toNat, Nat.shiftRight_eq_div_pow] at this
    simpa using this
  exact float_ext (congrArg BitVec.toNat (x.toModel.valid.eq_packedNaN hexponent hmantissa))

/-- Every double is no number, infinite, zero, or a sign beside a canonical magnitude. -/
theorem float_cases (x : Float) :
    x = .ofModel (.pack .notANumber) ∨ (∃ sign, x = .ofModel (.pack (.infinity sign))) ∨
      (∃ sign, x = .ofModel (.pack (.zero sign))) ∨
        ∃ s : Scaled, ∃ hs : s.Canonical, ∃ sign, x = s.toFloat hs sign := by
  have hbits : x.toBits.toNat < 2 ^ 64 := x.toBits.toNat_lt
  obtain ⟨sign, hsign⟩ : ∃ sign : Sign, sign.toBitVec.toNat = x.toBits.toNat / 2 ^ 63 := by
    rcases show x.toBits.toNat / 2 ^ 63 = 0 ∨ x.toBits.toNat / 2 ^ 63 = 1 by omega with h | h
    · exact ⟨.positive, h.symm⟩
    · exact ⟨.negative, h.symm⟩
  by_cases hones : x.toBits.toNat / 2 ^ 52 % 2 ^ 11 = 2047
  · by_cases hfraction : x.toBits.toNat % 2 ^ 52 = 0
    · refine .inr (.inl ⟨sign, float_ext ?_⟩)
      have hpacked := toNat_packComponents sign (-1#11) 0#52
      rw [show (-1#11 : BitVec 11).toNat = 2047 from rfl, BitVec.toNat_zero] at hpacked
      refine Eq.trans ?_ hpacked.symm
      omega
    · exact .inl (eq_notANumber hones hfraction)
  · by_cases hpos : 0 < (magnitude x).mantissa
    · have hs := canonical_magnitude (by omega) hpos
      exact .inr (.inr (.inr ⟨_, hs, sign, eq_toFloat hs hsign⟩))
    · refine .inr (.inr (.inl ⟨sign, float_ext ?_⟩))
      have hpacked := toNat_packComponents sign 0#11 0#52
      rw [BitVec.toNat_zero, BitVec.toNat_zero] at hpacked
      refine Eq.trans ?_ hpacked.symm
      unfold magnitude at hpos
      dsimp only at hpos
      split at hpos <;> dsimp only at hpos <;> omega

end StoreTrial.Decimal
