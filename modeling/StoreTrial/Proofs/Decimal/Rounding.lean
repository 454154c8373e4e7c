import Mathlib
import StoreTrial.Decimal.Shortest

/-!
# Rounding to a double

The float operations of the library compute with a mantissa, the bit after it, and whether anything
follows that bit.  Such a triple stands for a fraction, shifting it right doubles the denominator,
and rounding it is rounding the fraction to the nearest whole number, to the even one of two.  A
double attracts the numbers between the midpoints to its neighbours, and rounding a number gives the
double that attracts it; just below a power of two that takes a second shift.

## Main results

* `Holds.roundedMantissa` — rounding a mantissa and two bits is rounding a fraction.
* `roundWithAccuracy_eq` — a number is rounded to the double that attracts it.
-/

namespace StoreTrial.Decimal

open Float.Model Float.Model.UnpackedFloat

/-! ## Fractions kept as a mantissa and two bits -/

/-- Whether a mantissa and the two bits behind it are those of `a / b`. -/
structure Holds (em : ExtendedMantissa) (a b : Nat) : Prop where
  mantissa : em.mantissa = a / b
  roundBit : em.roundBit = decide (b ≤ 2 * (a % b))
  stickyBit : em.stickyBit = decide (2 * (a % b) ≠ 0 ∧ 2 * (a % b) ≠ b)

theorem holds_ofMantissaAndAccuracy {a b : Nat} (hb : 0 < b) :
    Holds (.ofMantissaAndAccuracy (a / b) (accuracyOfFraction (a % b) b)) a b := by
  have hr : a % b < b := Nat.mod_lt a hb
  unfold accuracyOfFraction
  by_cases hzero : a % b = 0
  · rw [if_pos hzero]
    refine ⟨rfl, ?_, ?_⟩ <;> simp [ExtendedMantissa.ofMantissaAndAccuracy, hzero]
    omega
  · rw [if_neg hzero]
    cases hcompare : compare (2 * (a % b)) b with
    | lt =>
      have := Nat.compare_eq_lt.1 hcompare
      refine ⟨rfl, ?_, ?_⟩ <;> simp [ExtendedMantissa.ofMantissaAndAccuracy] <;> omega
    | eq =>
      have := Nat.compare_eq_eq.1 hcompare
      refine ⟨rfl, ?_, ?_⟩ <;> simp [ExtendedMantissa.ofMantissaAndAccuracy] <;> omega
    | gt =>
      have := Nat.compare_eq_gt.1 hcompare
      refine ⟨rfl, ?_, ?_⟩ <;> simp [ExtendedMantissa.ofMantissaAndAccuracy] <;> omega

/-- A shift by one bit doubles the denominator. -/
theorem Holds.shiftRightOne {em : ExtendedMantissa} {a b : Nat} (hb : 0 < b) (h : Holds em a b) :
    Holds em.shiftRightOne a (b * 2) := by
  have hr : a % b < b := Nat.mod_lt a hb
  -- the remainder by `b * 2` is the one by `b`, and `b` more when the quotient is odd
  have hmod : a % (b * 2) = a % b + b * (a / b % 2) := Nat.mod_mul
  refine ⟨?_, ?_, ?_⟩
  · show em.mantissa / 2 = a / (b * 2)
    rw [h.mantissa, Nat.div_div_eq_div_mul]
  · show (em.mantissa % 2 != 0) = _
    rw [h.mantissa, hmod]
    rcases Nat.mod_two_eq_zero_or_one (a / b) with hbit | hbit
    · rw [hbit, Nat.mul_zero, Nat.add_zero]
      exact (decide_eq_false (by omega)).symm
    · rw [hbit, Nat.mul_one]
      exact (decide_eq_true (by omega)).symm
  · show (em.roundBit || em.stickyBit) = _
    rw [h.roundBit, h.stickyBit, hmod, ← Bool.decide_or, decide_eq_decide]
    rcases Nat.mod_two_eq_zero_or_one (a / b) with hbit | hbit
    · rw [hbit, Nat.mul_zero, Nat.add_zero]
      omega
    · rw [hbit, Nat.mul_one]
      omega

theorem Holds.shiftRight {em : ExtendedMantissa} {a b : Nat} (hb : 0 < b) (h : Holds em a b)
    (k : Nat) : Holds (em >>> k) a (b * 2 ^ k) := by
  induction k with
  | zero => simpa [HShiftRight.hShiftRight, Nat.repeat] using h
  | succ k ih =>
    rw [Nat.pow_succ, ← Nat.mul_assoc]
    exact ih.shiftRightOne (by positivity)

/-- Rounding the triple is rounding the fraction. -/
theorem Holds.roundedMantissa {em : ExtendedMantissa} {a b : Nat} (hb : 0 < b)
    (h : Holds em a b) : em.roundedMantissa = roundDiv .toEven a b := by
  have hr : a % b < b := Nat.mod_lt a hb
  obtain ⟨mantissa, roundBit, stickyBit⟩ := em
  obtain ⟨rfl, rfl, rfl⟩ := h
  unfold roundDiv ExtendedMantissa.roundedMantissa
  by_cases hzero : a % b = 0
  · simp [hzero, hb, hb.ne', ExtendedMantissa.accuracy, Accuracy.roundToNearestEven]
  · by_cases hlt : 2 * (a % b) < b
    · simp [hzero, hlt, hlt.ne, Nat.not_le.2 hlt, ExtendedMantissa.accuracy,
        Accuracy.roundToNearestEven]
    · by_cases hgt : b < 2 * (a % b)
      · simp [hzero, hlt, hgt, hgt.ne', hgt.le, ExtendedMantissa.accuracy,
          Accuracy.roundToNearestEven]
      · have heq : 2 * (a % b) = b := by omega
        simp [heq, ExtendedMantissa.accuracy, Accuracy.roundToNearestEven]

/-- The whole number within half of a fraction is its rounding, if an odd one is nearer still. -/
theorem roundDiv_toEven_eq {a b m : Nat} (hb : 0 < b) (hlow : 2 * (m * b) ≤ 2 * a + b)
    (hhigh : 2 * a ≤ 2 * (m * b) + b)
    (heven : m % 2 = 0 ∨ (2 * (m * b) < 2 * a + b ∧ 2 * a < 2 * (m * b) + b)) :
    roundDiv .toEven a b = m := by
  have hr : a % b < b := Nat.mod_lt a hb
  have hdiv : b * (a / b) + a % b = a := Nat.div_add_mod a b
  unfold roundDiv
  generalize a / b = f at *
  generalize a % b = r at *
  subst hdiv
  have hcases : m = f ∨ m = f + 1 := by
    have hle : f ≤ m := by
      by_contra hlt
      have hmul : (m + 1) * b ≤ f * b := Nat.mul_le_mul_right b (by omega)
      nlinarith
    have hge : m ≤ f + 1 := by
      by_contra hlt
      have hmul : (f + 2) * b ≤ m * b := Nat.mul_le_mul_right b (by omega)
      nlinarith
    omega
  rcases hcases with rfl | rfl
  · have hcomm : b * m = m * b := Nat.mul_comm b m
    by_cases hlt : 2 * r < b
    · rw [if_pos hlt]
    · rw [if_neg hlt, if_neg (by omega)]
      show m + m % 2 = m
      omega
  · have hcomm : (f + 1) * b = b * f + b := by ring
    by_cases hgt : b < 2 * r
    · rw [if_neg (by omega), if_pos hgt]
    · rw [if_neg (by omega), if_neg hgt]
      show f + f % 2 = f + 1
      omega

/-! ## The exponent that rounding aims at -/

theorem targetExponent_binary64 (total : Int) :
    Format.binary64.targetExponent total = max (total - 53) (-1074) := rfl

theorem lt_of_two_zpow_lt {m n : Int} (h : (2 ^ m : ℚ) < 2 ^ n) : m < n :=
  (zpow_lt_zpow_iff_right₀ one_lt_two).1 h

/-- Below a power of two, a quotient has no more bits than the power. -/
theorem log2_div_lt {a b : Nat} {e n : Int} (he : e < n) (h : (a / b * 2 ^ e : ℚ) < 2 ^ n) :
    ((a / b).log2 : Int) + e < n := by
  by_cases hzero : a / b = 0
  · rw [hzero]
    simpa using he
  · apply lt_of_two_zpow_lt
    have hlog : ((2 ^ (a / b).log2 : Nat) : ℚ) ≤ (a / b : Nat) := by
      exact_mod_cast Nat.log2_self_le hzero
    calc (2 ^ (((a / b).log2 : Int) + e) : ℚ) = (2 ^ (a / b).log2 : Nat) * 2 ^ e := by
          rw [zpow_add₀ (by norm_num)]
          norm_cast
      _ ≤ (a / b : Nat) * 2 ^ e := by gcongr
      _ ≤ a / b * 2 ^ e := by gcongr; exact Nat.cast_div_le
      _ < 2 ^ n := h

/-- From a power of two on, a quotient has no fewer. -/
theorem lt_log2_div {a b : Nat} {e n : Int} (hb : 0 < b) (h : (2 ^ n : ℚ) ≤ a / b * 2 ^ e) :
    n < ((a / b).log2 : Int) + 1 + e := by
  apply lt_of_two_zpow_lt
  have hb' : (0 : ℚ) < b := by exact_mod_cast hb
  have hquotient : (a / b : ℚ) < ((2 ^ ((a / b).log2 + 1) : Nat) : ℚ) := by
    rw [div_lt_iff₀ hb']
    have hfloor : a < b * (a / b + 1) := Nat.lt_mul_div_succ a hb
    have hlog : a / b + 1 ≤ 2 ^ ((a / b).log2 + 1) := Nat.lt_log2_self
    have : a < 2 ^ ((a / b).log2 + 1) * b := by
      rw [Nat.mul_comm]
      exact lt_of_lt_of_le hfloor (Nat.mul_le_mul_left b hlog)
    exact_mod_cast this
  calc (2 ^ n : ℚ) ≤ a / b * 2 ^ e := h
    _ < ((2 ^ ((a / b).log2 + 1) : Nat) : ℚ) * 2 ^ e := by gcongr
    _ = 2 ^ (((a / b).log2 : Int) + 1 + e) := by
        rw [zpow_add₀ (by norm_num)]
        norm_cast

/-- The unit of the last place is known from a power of two above and one below the number. -/
theorem targetExponent_eq {a b : Nat} {e t : Int} (hb : 0 < b)
    (hfine : e ≤ -1074 ∨ 2 ^ 52 * b ≤ a) (hleast : -1074 ≤ t)
    (habove : (a / b * 2 ^ e : ℚ) < 2 ^ (t + 53))
    (hbelow : t = -1074 ∨ (2 ^ (t + 52) : ℚ) ≤ a / b * 2 ^ e) :
    Format.binary64.targetExponent (totalExponent (a / b) e) = t ∧ e ≤ t := by
  have het : e ≤ t := by
    rcases hfine with hfine | hfine
    · omega
    · have hb' : (0 : ℚ) < b := by exact_mod_cast hb
      have hquotient : (2 ^ 52 : ℚ) ≤ a / b := by
        rw [le_div_iff₀ hb']
        exact_mod_cast hfine
      have : e + 52 < t + 53 := by
        apply lt_of_two_zpow_lt
        calc (2 ^ (e + 52) : ℚ) = 2 ^ 52 * 2 ^ e := by
              rw [zpow_add₀ (by norm_num), mul_comm]
              norm_cast
          _ ≤ a / b * 2 ^ e := by gcongr
          _ < 2 ^ (t + 53) := habove
      omega
  have hupper := log2_div_lt (by omega) habove
  refine ⟨?_, het⟩
  rw [targetExponent_binary64, totalExponent]
  rcases hbelow with hbelow | hbelow
  · omega
  · have hlower := lt_log2_div hb hbelow
    omega

/-! ## Doubles and what is rounded to them -/

/-- Whether a number is written as the positive finite doubles are. -/
structure Scaled.Canonical (s : Scaled) : Prop where
  pos : 0 < s.mantissa
  lt : s.mantissa < 2 ^ 53
  least : -1074 ≤ s.exponent
  greatest : s.exponent ≤ 971
  normal : 2 ^ 52 ≤ s.mantissa ∨ s.exponent = -1074

/-- The distance to the midpoint below, in quarters of the unit of the last place. -/
def Scaled.quarters (s : Scaled) : Nat :=
  if s.mantissa = 2 ^ 52 ∧ -1074 < s.exponent then 1 else 2

/--
Whether a number lies between the midpoints to the two neighbours of a double; the midpoints
themselves do if its mantissa is even.
-/
structure Scaled.Attracts (s : Scaled) (x : ℚ) : Prop where
  low : (4 * s.mantissa - s.quarters) * 2 ^ s.exponent ≤ 4 * x
  high : 4 * x ≤ (4 * s.mantissa + 2) * 2 ^ s.exponent
  even : s.mantissa % 2 = 0 ∨ (4 * s.mantissa - s.quarters) * 2 ^ s.exponent < 4 * x ∧
    4 * x < (4 * s.mantissa + 2) * 2 ^ s.exponent

/-- The mantissa after the first shift, rounded. -/
theorem roundedMantissa_shift {a b : Nat} (hb : 0 < b) {e t : Int}
    (h : Format.binary64.targetExponent (totalExponent (a / b) e) = t ∧ e ≤ t) :
    (shiftToTargetExponent .binary64 (a / b) e (accuracyOfFraction (a % b) b)).1.roundedMantissa =
        roundDiv .toEven a (b * 2 ^ (t - e).toNat) ∧
      (shiftToTargetExponent .binary64 (a / b) e (accuracyOfFraction (a % b) b)).2 = t := by
  unfold shiftToTargetExponent shiftToExponent
  rw [h.1]
  constructor
  · exact ((holds_ofMantissaAndAccuracy hb).shiftRight hb _).roundedMantissa (by positivity)
  · show e + ((t - e).toNat : Int) = t
    omega

/-- What fits needs no further shift. -/
theorem shiftToTargetExponent_of_lt {m : Nat} {t : Int} (hm : m < 2 ^ 53) (ht : -1074 ≤ t) :
    shiftToTargetExponent .binary64 m t .exact = (⟨m, false, false⟩, t) := by
  have hlog : m.log2 < 53 := by
    by_cases hzero : m = 0
    · simp [hzero]
    · exact (Nat.log2_lt hzero).2 hm
  have hshift : (Format.binary64.targetExponent (totalExponent m t) - t).toNat = 0 := by
    rw [targetExponent_binary64, totalExponent]
    omega
  simp [shiftToTargetExponent, shiftToExponent, hshift, HShiftRight.hShiftRight, Nat.repeat,
    ExtendedMantissa.ofMantissaAndAccuracy]

/-- A mantissa that rounding has made one bit too long is halved. -/
theorem shiftToTargetExponent_carry {t : Int} (ht : -1074 ≤ t) :
    shiftToTargetExponent .binary64 (2 ^ 53) t .exact = (⟨2 ^ 52, false, false⟩, t + 1) := by
  have hshift : (Format.binary64.targetExponent (totalExponent (2 ^ 53) t) - t).toNat = 1 := by
    rw [targetExponent_binary64, totalExponent, Nat.log2_two_pow]
    omega
  simp [shiftToTargetExponent, shiftToExponent, hshift, HShiftRight.hShiftRight, Nat.repeat,
    ExtendedMantissa.ofMantissaAndAccuracy, ExtendedMantissa.shiftRightOne]

/-- A bound on a number in units of a double is one on its quotient at a finer unit. -/
theorem mul_zpow_le_iff {a b k : Nat} {e q : Int} (hb : 0 < b) (hk : q = e + k) (c : ℚ) :
    (c * 2 ^ q ≤ 4 * (a / b * 2 ^ e) ↔ c * (b * 2 ^ k : Nat) ≤ 4 * a) ∧
      (4 * (a / b * 2 ^ e) ≤ c * 2 ^ q ↔ 4 * a ≤ c * (b * 2 ^ k : Nat)) := by
  have hb' : (0 : ℚ) < b := by exact_mod_cast hb
  have hpow : (0 : ℚ) < 2 ^ e := by positivity
  have hscale : (0 : ℚ) < 2 ^ e / b := by positivity
  have hleft : c * 2 ^ q = c * (b * 2 ^ k : Nat) * (2 ^ e / b) := by
    rw [hk, zpow_add₀ (by norm_num)]
    push_cast
    field_simp
    norm_cast
  have hright : 4 * (a / b * 2 ^ e : ℚ) = 4 * a * (2 ^ e / b) := by ring
  rw [hleft, hright]
  exact ⟨mul_le_mul_iff_left₀ hscale, mul_le_mul_iff_left₀ hscale⟩

theorem Scaled.quarters_le (s : Scaled) : s.quarters ≤ 2 := by
  unfold quarters
  split <;> omega

/-- The quotient at the unit of the last place is rounded to the mantissa. -/
theorem roundDiv_of_attracts {s : Scaled} {a b k : Nat} {e : Int} (hb : 0 < b)
    (hk : s.exponent = e + k) (hx : s.Attracts (a / b * 2 ^ e)) :
    roundDiv .toEven a (b * 2 ^ k) = s.mantissa := by
  have hB : 0 < b * 2 ^ k := by positivity
  have hlow := (mul_zpow_le_iff hb hk _).1.1 hx.low
  have hhigh := (mul_zpow_le_iff hb hk _).2.1 hx.high
  have heven := hx.even
  rw [lt_iff_lt_of_le_iff_le (mul_zpow_le_iff hb hk _).2,
    lt_iff_lt_of_le_iff_le (mul_zpow_le_iff hb hk _).1] at heven
  have hquarters : ((s.quarters * (b * 2 ^ k) : Nat) : ℚ) ≤ (2 * (b * 2 ^ k) : Nat) := by
    exact_mod_cast Nat.mul_le_mul_right _ s.quarters_le
  generalize b * 2 ^ k = B at *
  push_cast at hquarters
  refine roundDiv_toEven_eq hB ?_ ?_ (heven.imp_right fun hstrict => ⟨?_, ?_⟩)
  · have : (2 * (s.mantissa * B) : ℚ) ≤ 2 * a + B := by linarith
    exact_mod_cast this
  · have : (2 * a : ℚ) ≤ 2 * (s.mantissa * B) + B := by linarith
    exact_mod_cast this
  · have : (2 * (s.mantissa * B) : ℚ) < 2 * a + B := by linarith [hstrict.1]
    exact_mod_cast this
  · have : (2 * a : ℚ) < 2 * (s.mantissa * B) + B := by linarith [hstrict.2]
    exact_mod_cast this

/-- Below a power of two the quotient is taken at half the unit, and its rounding carries. -/
theorem roundDiv_of_attracts_carry {s : Scaled} {a b k : Nat} {e : Int} (hb : 0 < b)
    (hk : s.exponent = e + k + 1) (hx : s.Attracts (a / b * 2 ^ e)) (hm : s.mantissa = 2 ^ 52)
    (hq : -1074 < s.exponent) (hlt : (a / b * 2 ^ e : ℚ) < 2 ^ (s.exponent + 52)) :
    roundDiv .toEven a (b * 2 ^ k) = 2 ^ 53 := by
  have hB : 0 < b * 2 ^ k := by positivity
  have hk' : s.exponent = e + (k + 1 : Nat) := by omega
  have hquarters : s.quarters = 1 := if_pos ⟨hm, hq⟩
  have hlow := (mul_zpow_le_iff hb hk' _).1.1 hx.low
  have hhigh : 4 * (a / b * 2 ^ e : ℚ) < 4 * 2 ^ 52 * 2 ^ s.exponent := by
    rw [zpow_add₀ (by norm_num)] at hlt
    norm_cast at hlt ⊢
    linarith
  rw [lt_iff_lt_of_le_iff_le (mul_zpow_le_iff hb hk' _).1] at hhigh
  have hdouble : b * 2 ^ (k + 1) = b * 2 ^ k * 2 := by ring
  rw [hm, hquarters, hdouble] at hlow
  rw [hdouble] at hhigh
  generalize b * 2 ^ k = B at *
  push_cast at hlow hhigh
  refine roundDiv_toEven_eq hB ?_ ?_ (.inl (by decide))
  · have : (2 * (2 ^ 53 * B) : ℚ) ≤ 2 * a + B := by linarith
    exact_mod_cast this
  · have : (2 * a : ℚ) ≤ 2 * (2 ^ 53 * B) + B := by linarith
    exact_mod_cast this

theorem two_zpow_add (e : Int) (k : Nat) : (2 ^ (e + k) : ℚ) = 2 ^ k * 2 ^ e := by
  rw [zpow_add₀ (by norm_num), zpow_natCast, mul_comm]

/-- What a double attracts has no more bits above its unit than the mantissa. -/
theorem Scaled.Attracts.lt_above {s : Scaled} (hs : s.Canonical) {x : ℚ} (hx : s.Attracts x) :
    x < 2 ^ (s.exponent + 53) := by
  have hunit : (0 : ℚ) < 2 ^ s.exponent := by positivity
  have hmantissa : (s.mantissa : ℚ) + 1 ≤ 2 ^ 53 := by exact_mod_cast hs.lt
  have hhigh := hx.high
  rw [show s.exponent + 53 = s.exponent + (53 : Nat) by omega, two_zpow_add]
  nlinarith

/-- What a normal double attracts has no fewer, unless the mantissa is the least one. -/
theorem Scaled.Attracts.below_le {s : Scaled} {x : ℚ} (hx : s.Attracts x)
    (hm : 2 ^ 52 + 1 ≤ s.mantissa) : (2 ^ (s.exponent + 52) : ℚ) ≤ x := by
  have hunit : (0 : ℚ) < 2 ^ s.exponent := by positivity
  have hmantissa : (2 ^ 52 + 1 : ℚ) ≤ s.mantissa := by exact_mod_cast hm
  have hquarters : (s.quarters : ℚ) ≤ 2 := by exact_mod_cast s.quarters_le
  have hlow := hx.low
  rw [show s.exponent + 52 = s.exponent + (52 : Nat) by omega, two_zpow_add]
  nlinarith

/-- Just below a power of two, rounding carries and the mantissa is shifted once more. -/
theorem roundWithAccuracy_of_carry {s : Scaled} (hs : s.Canonical) {a b : Nat} {e : Int}
    (hb : 0 < b) (hx : s.Attracts (a / b * 2 ^ e)) (hfine : e ≤ -1074 ∨ 2 ^ 52 * b ≤ a)
    (sign : Sign) (hm : s.mantissa = 2 ^ 52) (hq : -1074 < s.exponent)
    (hlt : (a / b * 2 ^ e : ℚ) < 2 ^ (s.exponent + 52)) :
    roundWithAccuracy .binary64 sign (a / b) e (accuracyOfFraction (a % b) b) =
      .finite sign s.mantissa s.exponent hs.pos := by
  have hunit : (0 : ℚ) < 2 ^ s.exponent := by positivity
  have habove : (a / b * 2 ^ e : ℚ) < 2 ^ (s.exponent - 1 + 53) := by
    rwa [show s.exponent - 1 + 53 = s.exponent + 52 by ring]
  have hbelow : (2 ^ (s.exponent - 1 + 52) : ℚ) ≤ a / b * 2 ^ e := by
    have hlow := hx.low
    rw [show s.exponent - 1 + 52 = s.exponent + (51 : Nat) by omega, two_zpow_add]
    rw [hm, Scaled.quarters, if_pos ⟨hm, hq⟩] at hlow
    push_cast at hlow
    linarith
  have htarget := targetExponent_eq hb hfine (by omega) habove (.inr hbelow)
  obtain ⟨hround, hexponent⟩ := roundedMantissa_shift hb htarget
  rw [roundDiv_of_attracts_carry hb (by omega) hx hm hq hlt] at hround
  have hshift := @shiftToTargetExponent_carry (s.exponent - 1) (by omega)
  unfold roundWithAccuracy
  simp only [hround, hexponent, hshift]
  simp [hm]

/-- **A number is rounded to the double that attracts it.** -/
theorem roundWithAccuracy_eq {s : Scaled} (hs : s.Canonical) {a b : Nat} {e : Int} (hb : 0 < b)
    (hx : s.Attracts (a / b * 2 ^ e)) (hfine : e ≤ -1074 ∨ 2 ^ 52 * b ≤ a) (sign : Sign) :
    roundWithAccuracy .binary64 sign (a / b) e (accuracyOfFraction (a % b) b) =
      .finite sign s.mantissa s.exponent hs.pos := by
  by_cases hcarry : s.mantissa = 2 ^ 52 ∧ -1074 < s.exponent ∧
      (a / b * 2 ^ e : ℚ) < 2 ^ (s.exponent + 52)
  · obtain ⟨hm, hq, hlt⟩ := hcarry
    exact roundWithAccuracy_of_carry hs hb hx hfine sign hm hq hlt
  · have hbelow : s.exponent = -1074 ∨ (2 ^ (s.exponent + 52) : ℚ) ≤ a / b * 2 ^ e := by
      by_cases hleast : s.exponent = -1074
      · exact .inl hleast
      · have hq : -1074 < s.exponent := lt_of_le_of_ne hs.least (Ne.symm hleast)
        have hnormal : 2 ^ 52 ≤ s.mantissa := hs.normal.resolve_right hleast
        refine .inr (not_lt.1 fun hlt => ?_)
        have hm : 2 ^ 52 + 1 ≤ s.mantissa :=
          lt_of_le_of_ne hnormal fun h => hcarry ⟨h.symm, hq, hlt⟩
        exact absurd hlt (not_lt.2 (hx.below_le hm))
    have htarget := targetExponent_eq hb hfine hs.least (hx.lt_above hs) hbelow
    obtain ⟨hround, hexponent⟩ := roundedMantissa_shift hb htarget
    rw [roundDiv_of_attracts hb (by omega) hx] at hround
    unfold roundWithAccuracy
    simp only [hround, hexponent, shiftToTargetExponent_of_lt hs.lt hs.least]
    exact dif_neg hs.pos.ne'

end StoreTrial.Decimal
