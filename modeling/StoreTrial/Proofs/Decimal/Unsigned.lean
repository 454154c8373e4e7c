import StoreTrial.Proofs.Decimal.Scientific

/-!
# Doubles that are not below zero

A sum of doubles without a minus sign is no failed computation, and neither is such a double times
or by one that is finite and not zero; all of them again have no minus sign.  A whole number of 64
bits is a double of the second kind, unless it is zero.

## Main results

* `Unsigned.add`, `Unsigned.mul`, `Unsigned.div` — the operations keep the sign.
* `exists_toFloat_ofNat` — a whole number is a finite double.
* `unsigned_ofNat` — a whole number of any size has no minus sign.
-/

namespace StoreTrial.Decimal

open Float.Model Float.Model.UnpackedFloat

/-! ## Unpacked doubles -/

/-- Whether a double is a number without a minus sign, perhaps zero or infinity. -/
def UnpackedUnsigned : UnpackedFloat → Prop
  | .notANumber => False
  | .infinity sign | .zero sign | .finite sign _ _ _ => sign = .positive

theorem unpackedUnsigned_roundWithAccuracy (m : Nat) (e : Int) (accuracy : Accuracy) :
    UnpackedUnsigned (roundWithAccuracy .binary64 .positive m e accuracy) := by
  unfold roundWithAccuracy
  dsimp only
  split <;> rfl

theorem unpackedUnsigned_normalize (n : Nat) (e : Int) :
    UnpackedUnsigned (UnpackedFloat.normalize .binary64 n e .positive) := by
  unfold UnpackedFloat.normalize
  split
  · next hlt => exact absurd (Int.compare_eq_lt.1 hlt) (by omega)
  · rfl
  · exact unpackedUnsigned_roundWithAccuracy ..

theorem UnpackedUnsigned.add {u v : UnpackedFloat} (hu : UnpackedUnsigned u)
    (hv : UnpackedUnsigned v) : UnpackedUnsigned (UnpackedFloat.add .binary64 u v) := by
  cases u <;> cases v <;> cases hu <;> cases hv
  case finite.finite.refl.refl => exact unpackedUnsigned_normalize ..
  all_goals rfl

/-- Infinity times a number that is not zero is infinity. -/
theorem UnpackedUnsigned.mul {u : UnpackedFloat} (hu : UnpackedUnsigned u) {m : Nat} {e : Int}
    (hm : 0 < m) :
    UnpackedUnsigned (UnpackedFloat.mul .binary64 u (.finite .positive m e hm)) := by
  cases u <;> cases hu
  case finite.refl => exact unpackedUnsigned_roundWithAccuracy ..
  all_goals rfl

/-- Infinity by a finite number is infinity, and zero by one that is not zero is zero. -/
theorem UnpackedUnsigned.div {u : UnpackedFloat} (hu : UnpackedUnsigned u) {m : Nat} {e : Int}
    (hm : 0 < m) :
    UnpackedUnsigned (UnpackedFloat.div .binary64 u (.finite .positive m e hm)) := by
  cases u <;> cases hu
  case finite.refl => exact unpackedUnsigned_roundWithAccuracy ..
  all_goals rfl

/-- Unless the exponent is all ones, the fields stand for a number, and its sign is the first. -/
theorem unpackedUnsigned_packComponents {exponent : BitVec 11} (h : exponent ≠ -1#11)
    (mantissa : BitVec 52) : UnpackedUnsigned
      (UnpackedFloat.unpack .binary64 (packComponents .binary64 .positive exponent mantissa)) := by
  have hsign : Sign.ofBitVec (unpackSign (packComponents .binary64 .positive exponent mantissa)) =
      .positive := by
    rw [unpackSign_packComponents, ofBitVec_toBitVec]
  unfold UnpackedFloat.unpack
  simp only [unpackExponent_packComponents, if_neg h, hsign]
  repeat' split
  all_goals rfl

/-- Packing loses no sign, even where it makes a number infinite. -/
theorem unpackedUnsigned_unpack_pack {u : UnpackedFloat} (h : UnpackedUnsigned u) :
    UnpackedUnsigned (UnpackedFloat.unpack .binary64 (UnpackedFloat.pack .binary64 u)) := by
  have hinfinity : UnpackedUnsigned
      (UnpackedFloat.unpack .binary64 (packedInfinity .binary64 .positive)) := rfl
  cases u with
  | notANumber => exact h.elim
  | infinity sign =>
    obtain rfl : sign = .positive := h
    exact hinfinity
  | zero sign =>
    obtain rfl : sign = .positive := h
    rfl
  | finite sign m e hpos =>
    obtain rfl : sign = .positive := h
    unfold UnpackedFloat.pack
    dsimp only
    split
    · exact hinfinity
    · next hsmall =>
      split
      · refine unpackedUnsigned_packComponents (fun hones => ?_) _
        have hnat : (e + 1023 + 52).toNat % 2 ^ 11 = 2047 := congrArg BitVec.toNat hones
        have hless : ¬2 ^ 11 ≤ (e + 1023 + 52).toNat + 1 := hsmall
        omega
      · exact unpackedUnsigned_packComponents (by decide) _

/-! ## Doubles -/

/-- Whether a double is a number without a minus sign. -/
def Unsigned (x : Float) : Prop := UnpackedUnsigned x.toModel.unpack

theorem unsigned_ofModel_pack {u : UnpackedFloat} (h : UnpackedUnsigned u) :
    Unsigned (.ofModel (.pack u)) :=
  unpackedUnsigned_unpack_pack h

theorem Scaled.unsigned_toFloat {s : Scaled} (hs : s.Canonical) :
    Unsigned (s.toFloat hs .positive) := by
  unfold Unsigned
  rw [unpack_toFloat hs .positive]
  rfl

section Operations

variable {x y : Float}

theorem Unsigned.isNaN_eq_false (h : Unsigned x) : x.isNaN = false := by
  show x.toModel.unpack.isNaN = false
  unfold Unsigned at h
  cases hx : x.toModel.unpack with
  | notANumber =>
    rw [hx] at h
    exact h.elim
  | _ => rfl

theorem Unsigned.add (hx : Unsigned x) (hy : Unsigned y) : Unsigned (x + y) :=
  unsigned_ofModel_pack (UnpackedUnsigned.add hx hy)

variable {s : Scaled} (hs : s.Canonical)

theorem Unsigned.mul (hx : Unsigned x) : Unsigned (x * s.toFloat hs .positive) := by
  refine unsigned_ofModel_pack (u := UnpackedFloat.mul .binary64 _ _) ?_
  rw [Scaled.unpack_toFloat hs]
  exact UnpackedUnsigned.mul hx hs.pos

theorem Unsigned.div (hx : Unsigned x) : Unsigned (x / s.toFloat hs .positive) := by
  refine unsigned_ofModel_pack (u := UnpackedFloat.div .binary64 _ _) ?_
  rw [Scaled.unpack_toFloat hs]
  exact UnpackedUnsigned.div hx hs.pos

end Operations

/-! ## Whole numbers -/

/-- Between two powers of two, rounding stays. -/
theorem roundDiv_bounds {m k : Nat} (hlog : m.log2 = k + 52) (hpos : 0 < m) (tie : Tie) :
    2 ^ 52 ≤ roundDiv tie m (2 ^ k) ∧ roundDiv tie m (2 ^ k) ≤ 2 ^ 53 := by
  have hlow : 2 ^ 52 ≤ m / 2 ^ k := by
    rw [Nat.le_div_iff_mul_le (by positivity), ← Nat.pow_add, Nat.add_comm, ← hlog]
    exact Nat.log2_self_le hpos.ne'
  have hhigh : m / 2 ^ k < 2 ^ 53 := by
    rw [Nat.div_lt_iff_lt_mul (by positivity), ← Nat.pow_add, show 53 + k = m.log2 + 1 by omega]
    exact Nat.lt_log2_self
  obtain hround | hround := roundDiv_eq_or tie m (2 ^ k) <;> omega

/-- A long enough number in the middle of the range is rounded to a canonical double. -/
theorem exists_roundWithAccuracy {m : Nat} {e : Int} (hlong : 2 ^ 52 ≤ m) (hleast : -1074 ≤ e)
    (hgreatest : m.log2 + e ≤ 1022) (sign : Sign) : ∃ s : Scaled, ∃ hs : s.Canonical,
      roundWithAccuracy .binary64 sign m e .exact =
        .finite sign s.mantissa s.exponent hs.pos := by
  obtain ⟨k, hlog⟩ : ∃ k, m.log2 = k + 52 :=
    ⟨m.log2 - 52, (Nat.sub_add_cancel ((Nat.le_log2 (by omega)).2 hlong)).symm⟩
  have htarget : Format.binary64.targetExponent (totalExponent (m / 1) e) = e + k ∧ e ≤ e + k := by
    rw [targetExponent_binary64, totalExponent, Nat.div_one]
    omega
  obtain ⟨hmantissa, hexponent⟩ := roundedMantissa_shift Nat.one_pos htarget
  have hshift : 1 * 2 ^ (e + k - e).toNat = 2 ^ k := by
    rw [one_mul]
    congr 1
    omega
  have hexact : accuracyOfFraction (m % 1) 1 = .exact := by
    rw [Nat.mod_one]
    rfl
  rw [Nat.div_one, hexact, hshift] at hmantissa
  rw [Nat.div_one, hexact] at hexponent
  obtain ⟨hlow, hhigh⟩ := roundDiv_bounds hlog (by omega) .toEven
  unfold roundWithAccuracy
  simp only [hmantissa, hexponent]
  -- rounding may carry into one bit more, which the second shift takes back
  rcases Nat.lt_or_eq_of_le hhigh with hlt | hcarry
  · have hs : (⟨roundDiv .toEven m (2 ^ k), e + k⟩ : Scaled).Canonical :=
      ⟨by dsimp only; omega, hlt, by dsimp only; omega, by dsimp only; omega, .inl hlow⟩
    refine ⟨_, hs, ?_⟩
    simp only [shiftToTargetExponent_of_lt hs.lt hs.least]
    exact dif_neg hs.pos.ne'
  · have hs : (⟨2 ^ 52, e + k + 1⟩ : Scaled).Canonical :=
      ⟨Nat.two_pow_pos 52, Nat.pow_lt_pow_right (by decide) (by decide), by dsimp only; omega,
        by dsimp only; omega, .inl (Nat.le_refl _)⟩
    refine ⟨_, hs, ?_⟩
    simp only [hcarry, shiftToTargetExponent_carry (t := e + k) (by omega)]
    exact dif_neg hs.pos.ne'

/-- A whole number of more than 53 bits is rounded from all its bits. -/
theorem ofNat_of_le {n : Nat} (h : 2 ^ 53 ≤ n) :
    Float.ofNat n =
      .ofModel (.pack (roundWithAccuracy .binary64 .positive (n * 2 ^ 53) (-53) .exact)) := by
  show Float.ofScientific n false 0 = _
  unfold Float.ofScientific
  rw [dif_neg (by omega)]
  show Float.ofModel (.pack (UnpackedFloat.ofScientific .binary64 n 0)) = _
  unfold UnpackedFloat.ofScientific
  rw [dif_neg (by omega), if_neg (by decide),
    if_neg (by show ¬(0 : Int) < -(2 ^ 11 + n.log2); omega), if_pos (Int.le_refl 0)]
  simp only [UnpackedFloat.mul, Nat.shiftLeft_eq, Int.toNat_zero, Nat.pow_zero, Nat.mul_one]
  rfl

/-- The value of a double is nearest to the double itself. -/
theorem Scaled.attracts_self (s : Scaled) : s.Attracts (s.mantissa * 2 ^ s.exponent) := by
  have hunit : (0 : ℚ) < 2 ^ s.exponent := by positivity
  have hquarters : (1 : ℚ) ≤ s.quarters := by
    unfold quarters
    split <;> norm_num
  exact ⟨by nlinarith, by nlinarith, .inr ⟨by nlinarith, by nlinarith⟩⟩

/-- A whole number of 64 bits that is not zero is a finite double. -/
theorem exists_toFloat_ofNat {n : Nat} (hpos : 0 < n) (hlt : n < 2 ^ 64) :
    ∃ s : Scaled, ∃ hs : s.Canonical, Float.ofNat n = s.toFloat hs .positive := by
  by_cases hexact : n < 2 ^ 53
  · obtain ⟨hs, -⟩ := canonical_wholeScaled hpos hexact
    refine ⟨_, hs, ofScientific_false (k := 0) hs hpos ?_⟩
    rw [pow_zero, mul_one, ← wholeScaled_eq hexact]
    exact Scaled.attracts_self _
  · have hlog : (n * 2 ^ 53).log2 < 117 := (Nat.log2_lt (by omega)).2 (by omega)
    obtain ⟨s, hs, hround⟩ := exists_roundWithAccuracy (m := n * 2 ^ 53) (e := -53) (by omega)
      (by decide) (by omega) .positive
    refine ⟨s, hs, ?_⟩
    rw [ofNat_of_le (not_lt.1 hexact), hround]
    rfl

/-- A whole number of any size has no minus sign. -/
theorem unsigned_ofNat (n : Nat) : Unsigned (Float.ofNat n) := by
  by_cases hzero : n = 0
  · subst hzero
    exact unsigned_ofModel_pack (u := .zero .positive) rfl
  · by_cases hlong : 2 ^ 53 ≤ n
    · rw [ofNat_of_le hlong]
      exact unsigned_ofModel_pack (unpackedUnsigned_roundWithAccuracy ..)
    · obtain ⟨s, hs, heq⟩ := exists_toFloat_ofNat (Nat.pos_of_ne_zero hzero) (by omega)
      rw [heq]
      exact Scaled.unsigned_toFloat hs

end StoreTrial.Decimal
