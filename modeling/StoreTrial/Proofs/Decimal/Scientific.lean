import Mathlib
import StoreTrial.Decimal.Reading
import StoreTrial.Proofs.Decimal.Bits
import StoreTrial.Proofs.Decimal.Shortest

/-!
# Decimals are read to the nearest double

A decimal becomes a double through one multiplication or division by a power of ten: of two doubles
when both the coefficient and the power are exact, and of numbers of any length otherwise.  Either
way one quotient is rounded once, so the result is the double that attracts the decimal.

## Main results

* `mul_eq`, `div_eq` — a product and a quotient are rounded to the double that attracts them.
* `nearest_eq` — so is a coefficient with any power of ten.
-/

namespace StoreTrial.Decimal

open Float.Model Float.Model.UnpackedFloat

/-! ## One rounding -/

/-- A product is rounded to the double that attracts it. -/
theorem mul_eq {s : Scaled} (hs : s.Canonical) {m n : Nat} (hm : 0 < m) (hn : 0 < n) {e f : Int}
    (hx : s.Attracts ((m * 2 ^ e) * (n * 2 ^ f))) (hlong : 2 ^ 52 ≤ m * n) (sign sign' : Sign) :
    UnpackedFloat.mul .binary64 (.finite sign m e hm) (.finite sign' n f hn) =
      .finite (sign * sign') s.mantissa s.exponent hs.pos := by
  have hvalue : ((m * 2 ^ e) * (n * 2 ^ f) : ℚ) = (m * n : Nat) / (1 : Nat) * 2 ^ (e + f) := by
    rw [zpow_add₀ (by norm_num)]
    push_cast
    ring
  have hround := roundWithAccuracy_eq hs Nat.one_pos (hvalue ▸ hx) (.inr (by omega)) (sign * sign')
  rw [Nat.div_one, Nat.mod_one] at hround
  exact hround

/-- A quotient is computed to more bits than a mantissa has. -/
theorem divCore_fine {m : Nat} (hm : 0 < m) (n : Nat) (e f : Int) :
    let target :=
      min (e - f) (Format.binary64.targetExponent (totalExponent m e - totalExponent n f))
    target ≤ -1074 ∨ 2 ^ 52 * n ≤ m <<< (e - f - target).toNat := by
  intro target
  have htarget : target = min (e - f) (max (m.log2 + 1 + e - (n.log2 + 1 + f) - 53) (-1074)) := rfl
  by_cases hleast : target ≤ -1074
  · exact .inl hleast
  · right
    have hshift : n.log2 + 1 + 52 ≤ m.log2 + (e - f - target).toNat := by omega
    rw [Nat.shiftLeft_eq]
    calc 2 ^ 52 * n ≤ 2 ^ 52 * 2 ^ (n.log2 + 1) := Nat.mul_le_mul_left _ Nat.lt_log2_self.le
      _ = 2 ^ (n.log2 + 1 + 52) := by ring
      _ ≤ 2 ^ (m.log2 + (e - f - target).toNat) := Nat.pow_le_pow_right (by decide) hshift
      _ = 2 ^ m.log2 * 2 ^ (e - f - target).toNat := Nat.pow_add ..
      _ ≤ m * 2 ^ (e - f - target).toNat := Nat.mul_le_mul_right _ (Nat.log2_self_le hm.ne')

/-- A quotient is rounded to the double that attracts it. -/
theorem div_eq {s : Scaled} (hs : s.Canonical) {m n : Nat} (hm : 0 < m) (hn : 0 < n) {e f : Int}
    (hx : s.Attracts ((m * 2 ^ e) / (n * 2 ^ f))) (sign sign' : Sign) :
    UnpackedFloat.div .binary64 (.finite sign m e hm) (.finite sign' n f hn) =
      .finite (sign / sign') s.mantissa s.exponent hs.pos := by
  have hfine := divCore_fine hm n e f
  simp only [UnpackedFloat.div, divCore]
  set target := min (e - f) (Format.binary64.targetExponent (totalExponent m e - totalExponent n f))
    with htarget
  have hle : target ≤ e - f := min_le_left _ _
  have hn' : (n : ℚ) ≠ 0 := by exact_mod_cast hn.ne'
  have hvalue : ((m * 2 ^ e) / (n * 2 ^ f) : ℚ) =
      (m <<< (e - f - target).toNat : Nat) / n * 2 ^ target := by
    have hexponent : (2 ^ e : ℚ) = 2 ^ (e - f - target).toNat * 2 ^ target * 2 ^ f := by
      rw [← zpow_natCast, ← zpow_add₀ (by norm_num), ← zpow_add₀ (by norm_num)]
      congr 1
      omega
    rw [Nat.shiftLeft_eq, hexponent]
    push_cast
    field_simp
  exact roundWithAccuracy_eq hs hn (hvalue ▸ hx) hfine _

/-! ## Exact doubles -/

/-- A whole number of at most 53 bits, shifted to the left. -/
def wholeScaled (n : Nat) : Scaled := ⟨n * 2 ^ (52 - n.log2), (n.log2 : Int) - 52⟩

theorem canonical_wholeScaled {n : Nat} (hpos : 0 < n) (hlt : n < 2 ^ 53) :
    (wholeScaled n).Canonical ∧ 2 ^ 52 ≤ (wholeScaled n).mantissa := by
  have hlog : n.log2 < 53 := (Nat.log2_lt hpos.ne').2 hlt
  have hlow : 2 ^ 52 ≤ n * 2 ^ (52 - n.log2) := by
    calc 2 ^ 52 = 2 ^ n.log2 * 2 ^ (52 - n.log2) := by
          rw [← Nat.pow_add]
          congr 1
          omega
      _ ≤ n * 2 ^ (52 - n.log2) := Nat.mul_le_mul_right _ (Nat.log2_self_le hpos.ne')
  have hhigh : n * 2 ^ (52 - n.log2) < 2 ^ 53 := by
    calc n * 2 ^ (52 - n.log2) < 2 ^ (n.log2 + 1) * 2 ^ (52 - n.log2) :=
          Nat.mul_lt_mul_of_pos_right Nat.lt_log2_self (by positivity)
      _ = 2 ^ 53 := by
          rw [← Nat.pow_add]
          congr 1
          omega
  refine ⟨⟨by unfold wholeScaled; positivity, hhigh, ?_, ?_, .inl hlow⟩, hlow⟩
  · unfold wholeScaled
    dsimp only
    omega
  · unfold wholeScaled
    dsimp only
    omega

theorem wholeScaled_eq {n : Nat} (hlt : n < 2 ^ 53) :
    ((wholeScaled n).mantissa * 2 ^ (wholeScaled n).exponent : ℚ) = n := by
  have hlog : n.log2 < 53 := by
    by_cases hzero : n = 0
    · simp [hzero]
    · exact (Nat.log2_lt hzero).2 hlt
  have hcancel : (2 ^ (52 - n.log2) * 2 ^ ((n.log2 : Int) - 52) : ℚ) = 1 := by
    rw [← zpow_natCast, ← zpow_add₀ (by norm_num)]
    have : ((52 - n.log2 : Nat) : Int) + ((n.log2 : Int) - 52) = 0 := by omega
    rw [this, zpow_zero]
  unfold wholeScaled
  push_cast
  rw [mul_assoc, hcancel, mul_one]

/-- What is canonical already is rounded to itself. -/
theorem roundWithAccuracy_canonical {s : Scaled} (hs : s.Canonical) (sign : Sign) :
    roundWithAccuracy .binary64 sign s.mantissa s.exponent .exact =
      .finite sign s.mantissa s.exponent hs.pos := by
  unfold roundWithAccuracy
  simp only [shiftToTargetExponent_of_lt hs.lt hs.least, ExtendedMantissa.roundedMantissa,
    ExtendedMantissa.accuracy, Accuracy.roundToNearestEven]
  exact dif_neg hs.pos.ne'

/-- A whole number of at most 53 bits is a double. -/
theorem toFloat_toUInt64 {n : Nat} (hpos : 0 < n) (hlt : n < 2 ^ 53) :
    n.toUInt64.toFloat = (wholeScaled n).toFloat (canonical_wholeScaled hpos hlt).1 .positive := by
  have hlog : n.log2 < 53 := (Nat.log2_lt hpos.ne').2 hlt
  have hs := (canonical_wholeScaled hpos hlt).1
  have hcast : n.toUInt64.toNat = n := by
    show n % 2 ^ 64 = n
    omega
  have htarget : Format.binary64.targetExponent (totalExponent n 0) = (n.log2 : Int) - 52 := by
    rw [targetExponent_binary64, totalExponent]
    omega
  show Float.ofModel (.pack (UnpackedFloat.ofNat .binary64 n.toUInt64.toNat)) = _
  rw [hcast]
  unfold UnpackedFloat.ofNat UnpackedFloat.ofInt UnpackedFloat.normalize
  rw [Int.compare_eq_gt.2 (by omega)]
  have hshift : (0 - ((n.log2 : Int) - 52)).toNat = 52 - n.log2 := by omega
  have hexponent : (0 : Int) - (52 - n.log2 : Nat) = (n.log2 : Int) - 52 := by omega
  simp only [Int.toNat_natCast, UnpackedFloat.round, htarget, decreaseExponent, hshift, hexponent,
    Nat.shiftLeft_eq]
  exact congrArg (fun u => Float.ofModel (.pack u)) (roundWithAccuracy_canonical hs .positive)

instance (s : Scaled) : Decidable s.Canonical :=
  decidable_of_iff (0 < s.mantissa ∧ s.mantissa < 2 ^ 53 ∧ -1074 ≤ s.exponent ∧ s.exponent ≤ 971 ∧
      (2 ^ 52 ≤ s.mantissa ∨ s.exponent = -1074))
    ⟨fun h => ⟨h.1, h.2.1, h.2.2.1, h.2.2.2.1, h.2.2.2.2⟩,
      fun h => ⟨h.pos, h.lt, h.least, h.greatest, h.normal⟩⟩

/-- A power of ten that is a double. -/
def powerOfTen (k : Fin 23) : Float :=
  have h : k.val < Float.exactlyRepresentablePowersOfTen.size := k.isLt
  Float.exactlyRepresentablePowersOfTen[k.val]

theorem powerOfTen_check (k : Fin 23) : (magnitude (powerOfTen k)).Canonical ∧
    (powerOfTen k).toBits.toNat / 2 ^ 63 = 0 ∧
    (magnitude (powerOfTen k)).fraction.1 = (magnitude (powerOfTen k)).fraction.2 * 10 ^ k.val := by
  revert k
  decide +kernel

theorem exists_powerOfTen (k : Fin 23) : ∃ t : Scaled, ∃ ht : t.Canonical,
    powerOfTen k = t.toFloat ht .positive ∧ (t.mantissa * 2 ^ t.exponent : ℚ) = 10 ^ k.val := by
  obtain ⟨ht, hsign, hcheck⟩ := powerOfTen_check k
  have hden : ((magnitude (powerOfTen k)).fraction.2 : ℚ) ≠ 0 := by
    exact_mod_cast (Scaled.fraction_pos ht.pos).2.ne'
  have hvalue := (magnitude (powerOfTen k)).fraction_eq
  rw [hcheck] at hvalue
  push_cast at hvalue
  exact ⟨_, ht, eq_toFloat ht hsign.symm, (mul_left_cancel₀ hden hvalue).symm⟩

/-- Two doubles are multiplied to the double that attracts their product. -/
theorem toFloat_mul {s t u : Scaled} (hs : s.Canonical) (ht : t.Canonical) (hu : u.Canonical)
    (hx : u.Attracts ((s.mantissa * 2 ^ s.exponent) * (t.mantissa * 2 ^ t.exponent)))
    (hlong : 2 ^ 52 ≤ s.mantissa) :
    s.toFloat hs .positive * t.toFloat ht .positive = u.toFloat hu .positive := by
  show Float.ofModel (.pack (UnpackedFloat.mul .binary64 (s.toFloat hs .positive).toModel.unpack
    (t.toFloat ht .positive).toModel.unpack)) = _
  rw [Scaled.unpack_toFloat, Scaled.unpack_toFloat,
    mul_eq hu hs.pos ht.pos hx (le_trans hlong (Nat.le_mul_of_pos_right _ ht.pos))]
  rfl

/-- Two doubles are divided to the double that attracts their quotient. -/
theorem toFloat_div {s t u : Scaled} (hs : s.Canonical) (ht : t.Canonical) (hu : u.Canonical)
    (hx : u.Attracts ((s.mantissa * 2 ^ s.exponent) / (t.mantissa * 2 ^ t.exponent))) :
    s.toFloat hs .positive / t.toFloat ht .positive = u.toFloat hu .positive := by
  show Float.ofModel (.pack (UnpackedFloat.div .binary64 (s.toFloat hs .positive).toModel.unpack
    (t.toFloat ht .positive).toModel.unpack)) = _
  rw [Scaled.unpack_toFloat, Scaled.unpack_toFloat, div_eq hu hs.pos ht.pos hx]
  rfl

/-! ## The range of powers of ten -/

/-- What a double attracts is far from the ends of the range of powers of ten. -/
theorem Scaled.Attracts.bounds {s : Scaled} (hs : s.Canonical) {x : ℚ} (hx : s.Attracts x) :
    (2 ^ (-1075 : Int) : ℚ) ≤ x ∧ x < 2 ^ (1025 : Int) := by
  have hleast : (2 ^ (-1074 : Int) : ℚ) ≤ 2 ^ s.exponent :=
    zpow_le_zpow_right₀ (by norm_num) hs.least
  have hgreatest : (2 ^ s.exponent : ℚ) ≤ 2 ^ (971 : Int) :=
    zpow_le_zpow_right₀ (by norm_num) hs.greatest
  have hpos : (1 : ℚ) ≤ s.mantissa := by exact_mod_cast hs.pos
  have hlt : (s.mantissa : ℚ) + 1 ≤ 2 ^ 53 := by exact_mod_cast hs.lt
  have hquarters : (s.quarters : ℚ) ≤ 2 := by exact_mod_cast s.quarters_le
  have hunit : (0 : ℚ) < 2 ^ s.exponent := by positivity
  have hlow := hx.low
  have hhigh := hx.high
  constructor
  · have : (2 ^ (-1074 : Int) : ℚ) = 2 * 2 ^ (-1075 : Int) := by
      rw [← zpow_one_add₀ (by norm_num)]
      norm_num
    nlinarith
  · have : (2 ^ (1025 : Int) : ℚ) = 2 ^ 54 * 2 ^ (971 : Int) := by
      rw [← zpow_natCast, ← zpow_add₀ (by norm_num)]
      norm_num
    have hle : (4 * s.mantissa + 2 : ℚ) * 2 ^ s.exponent ≤ (4 * 2 ^ 53 - 2) * 2 ^ (971 : Int) :=
      mul_le_mul (by linarith) hgreatest hunit.le (by norm_num)
    have hunit' : (0 : ℚ) < 2 ^ (971 : Int) := by positivity
    rw [this]
    generalize (2 ^ (971 : Int) : ℚ) = unit at hle hunit' ⊢
    linarith

/-- A power of ten that is multiplied with is not a large one. -/
theorem Scaled.Attracts.mul_range {s : Scaled} (hs : s.Canonical) {n k : Nat} (hpos : 0 < n)
    (hx : s.Attracts (n * 10 ^ k)) : k < 1025 := by
  have hone : (1 : ℚ) ≤ n := by exact_mod_cast hpos
  have hlt : (k : Int) < 1025 := by
    apply lt_of_two_zpow_lt
    calc (2 ^ (k : Int) : ℚ) ≤ 10 ^ k := by
          rw [zpow_natCast]
          gcongr
          norm_num
      _ ≤ n * 10 ^ k := le_mul_of_one_le_left (by positivity) hone
      _ < 2 ^ (1025 : Int) := (hx.bounds hs).2
  omega

/-- A power of ten that is divided by is no larger than the number allows. -/
theorem Scaled.Attracts.div_range {s : Scaled} (hs : s.Canonical) {n k : Nat}
    (hx : s.Attracts (n / 10 ^ k)) : k < 1076 + n.log2 := by
  have hlog : (n : ℚ) < 2 ^ (n.log2 + 1) := by exact_mod_cast Nat.lt_log2_self
  have hlow : (2 ^ (-1075 : Int) * 10 ^ k : ℚ) ≤ n :=
    (le_div_iff₀ (by positivity)).1 (hx.bounds hs).1
  have hlt : (k : Int) - 1075 < n.log2 + 1 := by
    apply lt_of_two_zpow_lt
    calc (2 ^ ((k : Int) - 1075) : ℚ) = 2 ^ (-1075 : Int) * 2 ^ k := by
          rw [sub_eq_neg_add, zpow_add₀ (by norm_num), zpow_natCast]
      _ ≤ 2 ^ (-1075 : Int) * 10 ^ k := by
          gcongr
          norm_num
      _ ≤ n := hlow
      _ < 2 ^ (n.log2 + 1) := hlog
      _ = 2 ^ ((n.log2 : Int) + 1) := by norm_cast
  omega

/-- Eight is a lower bound for ten that is a power of two. -/
theorem two_zpow_le_ten_zpow (k : Nat) : (2 ^ (3 * k : Int) : ℚ) ≤ 10 ^ (k : Int) := by
  rw [zpow_mul, zpow_natCast, zpow_natCast]
  gcongr
  norm_num

/-- What a double attracts is neither too large nor too small to be computed. -/
theorem Scaled.Attracts.size {s : Scaled} (hs : s.Canonical) {n : Nat} {e : Int}
    (hx : s.Attracts (n * 10 ^ e)) :
    0 < n ∧ -decades ≤ length n + e ∧ length n + e ≤ decades := by
  obtain ⟨hlow, hhigh⟩ := hx.bounds hs
  have hpos : 0 < n := by
    refine Nat.pos_of_ne_zero fun hzero => ?_
    rw [hzero, Nat.cast_zero, zero_mul] at hlow
    exact absurd hlow (not_le.2 (by positivity))
  have hlength : 0 < length n := List.length_pos_of_ne_nil (digits_ne_nil _)
  obtain ⟨hleast, hgreatest⟩ := pow_length hpos
  unfold decades
  refine ⟨hpos, not_lt.1 fun hsmall => ?_, not_lt.1 fun hlarge => ?_⟩
  · have hlt : (n * 10 ^ e : ℚ) < 10 ^ (length n + e) := by
      rw [zpow_add₀ (by norm_num), zpow_natCast]
      gcongr
      exact_mod_cast hgreatest
    have height := inv_anti₀ (by positivity) (two_zpow_le_ten_zpow (-(length n + e)).toNat)
    rw [← zpow_neg, ← zpow_neg, show -((-(length n + e)).toNat : Int) = length n + e by omega]
      at height
    have hexponent := lt_of_two_zpow_lt (lt_of_lt_of_le (lt_of_le_of_lt hlow hlt) height)
    omega
  · have hle : (10 ^ ((length n : Int) - 1 + e) : ℚ) ≤ n * 10 ^ e := by
      rw [zpow_add₀ (by norm_num)]
      gcongr
      rw [show (length n : Int) - 1 = (length n - 1 : Nat) by omega, zpow_natCast]
      exact_mod_cast hleast
    have height := two_zpow_le_ten_zpow ((length n : Int) - 1 + e).toNat
    rw [show (((length n : Int) - 1 + e).toNat : Int) = length n - 1 + e by omega] at height
    have hlt := lt_of_two_zpow_lt (lt_of_le_of_lt (height.trans hle) hhigh)
    omega

/-! ## Numbers of any length -/

theorem model_ofScientific_mul {s : Scaled} (hs : s.Canonical) {n k : Nat} (hpos : 0 < n)
    (hx : s.Attracts (n * 10 ^ k)) : UnpackedFloat.ofScientific .binary64 n (k : Int) =
      .finite .positive s.mantissa s.exponent hs.pos := by
  have hk := hx.mul_range hs hpos
  have hten : 0 < 10 ^ k := by positivity
  have hvalue : (n * 10 ^ k : ℚ) =
      (n <<< 53 : Nat) * 2 ^ (-53 : Int) * ((10 ^ k : Nat) * 2 ^ (0 : Int)) := by
    have hcancel : (2 ^ 53 * 2 ^ (-53 : Int) : ℚ) = 1 := by norm_num
    rw [Nat.shiftLeft_eq]
    push_cast
    linear_combination -(n * 10 ^ k : ℚ) * hcancel
  have hlong : 2 ^ 52 ≤ n <<< 53 * 10 ^ k := by
    rw [Nat.shiftLeft_eq]
    nlinarith
  unfold UnpackedFloat.ofScientific
  rw [dif_neg hpos.ne', if_neg (by show ¬(k : Int) > 2 ^ 11; omega),
    if_neg (by show ¬(k : Int) < -(2 ^ 11 + n.log2); omega), if_pos (by omega)]
  exact mul_eq hs (by rw [Nat.shiftLeft_eq]; positivity) hten (hvalue ▸ hx) hlong _ _

theorem model_ofScientific_div {s : Scaled} (hs : s.Canonical) {n k : Nat} (hpos : 0 < n)
    (hk : 0 < k) (hx : s.Attracts (n / 10 ^ k)) :
    UnpackedFloat.ofScientific .binary64 n (-(k : Int)) =
      .finite .positive s.mantissa s.exponent hs.pos := by
  have hkLt := hx.div_range hs
  have hquotient : s.Attracts ((n * 2 ^ (0 : Int)) / ((10 ^ k : Nat) * 2 ^ (0 : Int))) := by
    push_cast
    simpa using hx
  unfold UnpackedFloat.ofScientific
  rw [dif_neg hpos.ne', if_neg (by show ¬-(k : Int) > 2 ^ 11; omega),
    if_neg (by show ¬-(k : Int) < -(2 ^ 11 + n.log2); omega), if_neg (by omega)]
  simp only [Int.neg_neg, Int.toNat_natCast]
  exact div_eq hs hpos (by positivity) hquotient _ _

/-! ## Any decimal -/

theorem ofScientific_false {s : Scaled} (hs : s.Canonical) {n k : Nat} (hpos : 0 < n)
    (hx : s.Attracts (n * 10 ^ k)) : Float.ofScientific n false k = s.toFloat hs .positive := by
  unfold Float.ofScientific
  by_cases hfast : n < 2 ^ 53 ∧ k ≤ 22
  · obtain ⟨t, ht, htable, hvalue⟩ := exists_powerOfTen ⟨k, by omega⟩
    obtain ⟨hwhole, hlong⟩ := canonical_wholeScaled hpos hfast.1
    rw [dif_pos hfast]
    show n.toUInt64.toFloat * powerOfTen ⟨k, by omega⟩ = _
    rw [htable, toFloat_toUInt64 hpos hfast.1]
    apply toFloat_mul hwhole ht hs _ hlong
    rwa [wholeScaled_eq hfast.1, hvalue]
  · rw [dif_neg hfast]
    show Float.ofModel (.pack (UnpackedFloat.ofScientific .binary64 n (k : Int))) = _
    rw [model_ofScientific_mul hs hpos hx]
    rfl

theorem ofScientific_true {s : Scaled} (hs : s.Canonical) {n k : Nat} (hpos : 0 < n) (hk : 0 < k)
    (hx : s.Attracts (n / 10 ^ k)) : Float.ofScientific n true k = s.toFloat hs .positive := by
  unfold Float.ofScientific
  by_cases hfast : n < 2 ^ 53 ∧ k ≤ 22
  · obtain ⟨t, ht, htable, hvalue⟩ := exists_powerOfTen ⟨k, by omega⟩
    have hwhole := (canonical_wholeScaled hpos hfast.1).1
    rw [dif_pos hfast]
    show n.toUInt64.toFloat / powerOfTen ⟨k, by omega⟩ = _
    rw [htable, toFloat_toUInt64 hpos hfast.1]
    apply toFloat_div hwhole ht hs
    rwa [wholeScaled_eq hfast.1, hvalue]
  · rw [dif_neg hfast]
    show Float.ofModel (.pack (UnpackedFloat.ofScientific .binary64 n (.negOfNat k))) = _
    rw [show Int.negOfNat k = -(k : Int) from Int.negOfNat_eq, model_ofScientific_div hs hpos hk hx]
    rfl

/-- **A decimal is read as the double that attracts it.** -/
theorem nearest_eq {s : Scaled} (hs : s.Canonical) {n : Nat} {e : Int}
    (hx : s.Attracts (n * 10 ^ e)) : nearest n e = s.toFloat hs .positive := by
  obtain ⟨hpos, hleast, hgreatest⟩ := hx.size hs
  unfold nearest
  dsimp only
  rw [if_neg (by omega), if_neg (by omega)]
  split
  · next hwhole =>
    apply ofScientific_false hs hpos
    rwa [← zpow_natCast, show (e.toNat : Int) = e by omega]
  · next hpart =>
    apply ofScientific_true hs hpos (by omega)
    rw [div_eq_mul_inv, ← zpow_natCast, ← zpow_neg]
    rwa [show -((-e).toNat : Int) = e by omega]

end StoreTrial.Decimal
