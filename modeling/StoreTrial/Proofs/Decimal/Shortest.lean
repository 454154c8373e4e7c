import Mathlib
import StoreTrial.Proofs.Decimal.Rounding

/-!
# The shortest decimal lies in its basin

The search for a decimal tests whole numbers in exact arithmetic, in units of ever smaller powers of
ten.  Multiplied by one positive factor, its four numbers are the midpoints and the value of the
double and the unit, so what the test admits is what the double attracts.  At 17 digits the unit is
shorter than the basin, and one of the two numbers around the value is admitted.

## Main results

* `Scaled.holds_iff` — a whole number of units is in the basin iff the double attracts it.
* `attracts_shortest` — the decimal that the search finds is attracted by the double.
-/

namespace StoreTrial.Decimal

/-- The number that a coefficient and a power of ten stand for. -/
def Digits.value (d : Digits) : ℚ := d.coefficient * 10 ^ d.exponent

/-! ## Fractions -/

theorem Scaled.fraction_pos {s : Scaled} (h : 0 < s.mantissa) :
    0 < s.fraction.1 ∧ 0 < s.fraction.2 := by
  unfold fraction
  split
  · exact ⟨by positivity, Nat.one_pos⟩
  · exact ⟨h, by positivity⟩

theorem Scaled.fraction_eq (s : Scaled) :
    (s.fraction.1 : ℚ) = s.fraction.2 * (s.mantissa * 2 ^ s.exponent) := by
  unfold fraction
  split
  · next h =>
    have hexponent : s.exponent = (s.exponent.toNat : Int) := by omega
    conv_rhs => rw [hexponent, zpow_natCast]
    push_cast
    ring
  · next h =>
    have hcancel : (2 ^ (-s.exponent).toNat * 2 ^ s.exponent : ℚ) = 1 := by
      rw [← zpow_natCast, ← zpow_add₀ (by norm_num), show (-s.exponent).toNat + s.exponent = 0 by
        omega, zpow_zero]
    push_cast
    linear_combination -(s.mantissa : ℚ) * hcancel

/-- A power of ten is split between the two sides of a comparison. -/
theorem ten_zpow_eq (e : Int) :
    (10 ^ e.toNat : ℚ) = 10 ^ e * 10 ^ (-e).toNat := by
  rw [← zpow_natCast, ← zpow_natCast, ← zpow_add₀ (by norm_num)]
  congr 1
  omega

/-! ## The basin -/

/-- The numbers that are compared are midpoints, value and unit, up to one positive factor. -/
theorem Scaled.exists_scale {s : Scaled} (hpos : 0 < s.mantissa) (e : Int) :
    ∃ c : ℚ, 0 < c ∧ (4 * s.mantissa - s.quarters) * 2 ^ s.exponent = (s.basin.inUnits e).low * c ∧
      (4 * s.mantissa + 2) * 2 ^ s.exponent = (s.basin.inUnits e).high * c ∧
      4 * 10 ^ e = (s.basin.inUnits e).den * c := by
  obtain ⟨hnum, hden⟩ := @Scaled.fraction_pos ⟨1, s.exponent - 2⟩ Nat.one_pos
  have hfraction := Scaled.fraction_eq ⟨1, s.exponent - 2⟩
  have hquarters := s.quarters_le
  have hle : s.quarters ≤ 4 * s.mantissa := by omega
  set unit := Scaled.fraction ⟨1, s.exponent - 2⟩ with hunit
  have hlow : (s.basin.inUnits e).low = (4 * s.mantissa - s.quarters) * unit.1 * 10 ^ (-e).toNat :=
    rfl
  have hhigh : (s.basin.inUnits e).high = (4 * s.mantissa + 2) * unit.1 * 10 ^ (-e).toNat := rfl
  have hscale : (s.basin.inUnits e).den = unit.2 * 10 ^ e.toNat := rfl
  have hnum' : (0 : ℚ) < unit.1 := by exact_mod_cast hnum
  have hden' : (0 : ℚ) < unit.2 := by exact_mod_cast hden
  refine ⟨2 ^ s.exponent / (unit.1 * 10 ^ (-e).toNat), by positivity, ?_, ?_, ?_⟩
  · rw [hlow]
    push_cast [hle]
    field_simp
  · rw [hhigh]
    push_cast
    field_simp
  · have hquarter : (2 : ℚ) ^ s.exponent = 4 * 2 ^ (s.exponent - 2) := by
      rw [zpow_sub₀ (by norm_num)]
      norm_num
      ring
    rw [hscale]
    push_cast
    rw [ten_zpow_eq, hfraction, hquarter]
    push_cast
    field_simp

/-- **What the test admits is what the double attracts.** -/
theorem Scaled.holds_iff {s : Scaled} (hpos : 0 < s.mantissa) (e : Int) (c : Nat) :
    (s.basin.inUnits e).holds c ↔ s.Attracts (c * 10 ^ e) := by
  obtain ⟨scale, hscale, hlow, hhigh, hunit⟩ := s.exists_scale hpos e
  have hvalue : 4 * (c * 10 ^ e : ℚ) = (c * (s.basin.inUnits e).den : Nat) * scale := by
    push_cast
    linear_combination (c : ℚ) * hunit
  have hlowLe : (4 * s.mantissa - s.quarters) * 2 ^ s.exponent ≤ 4 * (c * 10 ^ e : ℚ) ↔
      (s.basin.inUnits e).low ≤ c * (s.basin.inUnits e).den := by
    rw [hlow, hvalue, mul_le_mul_iff_left₀ hscale, Nat.cast_le]
  have hleHigh : 4 * (c * 10 ^ e : ℚ) ≤ (4 * s.mantissa + 2) * 2 ^ s.exponent ↔
      c * (s.basin.inUnits e).den ≤ (s.basin.inUnits e).high := by
    rw [hhigh, hvalue, mul_le_mul_iff_left₀ hscale, Nat.cast_le]
  have hlowLt : (4 * s.mantissa - s.quarters) * 2 ^ s.exponent < 4 * (c * 10 ^ e : ℚ) ↔
      (s.basin.inUnits e).low < c * (s.basin.inUnits e).den := by
    rw [hlow, hvalue, mul_lt_mul_iff_left₀ hscale, Nat.cast_lt]
  have hltHigh : 4 * (c * 10 ^ e : ℚ) < (4 * s.mantissa + 2) * 2 ^ s.exponent ↔
      c * (s.basin.inUnits e).den < (s.basin.inUnits e).high := by
    rw [hhigh, hvalue, mul_lt_mul_iff_left₀ hscale, Nat.cast_lt]
  have hclosed : (s.basin.inUnits e).closed = (s.mantissa % 2 == 0) := rfl
  unfold Basin.holds
  rw [hclosed]
  rcases Nat.mod_two_eq_zero_or_one s.mantissa with heven | hodd
  · simp only [heven, beq_self_eq_true, if_true, Bool.and_eq_true, decide_eq_true_eq]
    exact ⟨fun h => ⟨hlowLe.2 h.1, hleHigh.2 h.2, .inl heven⟩,
      fun h => ⟨hlowLe.1 h.low, hleHigh.1 h.high⟩⟩
  · have hne : s.mantissa % 2 ≠ 0 := by omega
    simp only [hodd, show (1 == 0) = false from rfl, Bool.false_eq_true, if_false,
      Bool.and_eq_true, decide_eq_true_eq]
    refine ⟨fun h => ?_, fun h => ?_⟩
    · have hlt := And.intro (hlowLt.2 h.1) (hltHigh.2 h.2)
      exact ⟨hlt.1.le, hlt.2.le, .inr hlt⟩
    · have hlt := h.even.resolve_left hne
      exact ⟨hlowLt.1 hlt.1, hltHigh.1 hlt.2⟩

/-! ## The place of the point -/

/-- A number with `n` digits is at least the least such number and below the next power of ten. -/
theorem pow_length {n : Nat} (hn : 0 < n) : 10 ^ (length n - 1) ≤ n ∧ n < 10 ^ length n := by
  induction n using Nat.strongRecOn with
  | _ n ih =>
    unfold length digits
    split
    · next hsmall => exact ⟨hn, hsmall⟩
    · next hlarge =>
      obtain ⟨hlow, hhigh⟩ := ih (n / 10) (by omega) (by omega)
      have hne : 0 < length (n / 10) := List.length_pos_of_ne_nil (digits_ne_nil _)
      rw [List.length_append]
      show 10 ^ (length (n / 10) + 1 - 1) ≤ n ∧ n < 10 ^ (length (n / 10) + 1)
      obtain ⟨k, hk⟩ : ∃ k, length (n / 10) = k + 1 := ⟨length (n / 10) - 1, by omega⟩
      rw [hk] at hlow hhigh ⊢
      simp only [Nat.add_sub_cancel, Nat.pow_succ] at hlow hhigh ⊢
      omega

/-- The point stands no further left than the number has digits. -/
theorem pow_pointPlace_le {num den : Nat} (hnum : 0 < num) (hden : 0 < den) :
    (10 ^ (pointPlace num den - 1) : ℚ) * den ≤ num := by
  obtain ⟨hnumLow, -⟩ := pow_length hnum
  obtain ⟨-, hdenHigh⟩ := pow_length hden
  have hnumLength : 0 < length num := List.length_pos_of_ne_nil (digits_ne_nil _)
  unfold pointPlace
  dsimp only
  set guess : Int := (length num : Int) - (length den : Int) with hguess
  split
  · have hle : (den : ℚ) ≤ 10 ^ length den := by exact_mod_cast hdenHigh.le
    calc (10 ^ (guess - 1) : ℚ) * den ≤ 10 ^ (guess - 1) * 10 ^ length den := by gcongr
      _ = (10 ^ (length num - 1) : Nat) := by
          rw [← zpow_natCast, ← zpow_add₀ (by norm_num)]
          push_cast
          rw [← zpow_natCast]
          congr 1
          omega
      _ ≤ num := by exact_mod_cast hnumLow
  · next hge =>
    have hle : (den : ℚ) * 10 ^ guess.toNat ≤ num * 10 ^ (-guess).toNat := by
      exact_mod_cast not_lt.1 hge
    have hpow : (0 : ℚ) < 10 ^ (-guess).toNat := by positivity
    rw [ten_zpow_eq, ← mul_assoc] at hle
    rw [show guess + 1 - 1 = guess by ring, mul_comm]
    exact le_of_mul_le_mul_right hle hpow

/-! ## The search -/

/-- A quotient is rounded to one of the two whole numbers around it. -/
theorem roundDiv_eq_or (tie : Tie) (num den : Nat) :
    roundDiv tie num den = num / den ∨ roundDiv tie num den = num / den + 1 := by
  unfold roundDiv
  dsimp only
  split
  · exact .inl rfl
  · split
    · exact .inr rfl
    · cases tie with
      | up => exact .inr rfl
      | toEven =>
        dsimp only
        omega

/-- Of the two numbers around the value the search takes one in the basin. -/
theorem Basin.holds_nearest? {tie : Tie} {b : Basin} {c : Nat} (h : b.nearest? tie = some c) :
    b.holds c := by
  unfold nearest? at h
  cases hfloor : b.holds (b.value / b.den) <;> cases hceil : b.holds (b.value / b.den + 1) <;>
    simp only [hfloor, hceil, Option.some.injEq, reduceCtorEq] at h
  · exact h ▸ hceil
  · exact h ▸ hfloor
  · rcases roundDiv_eq_or tie b.value b.den with hround | hround
    · exact h ▸ hround ▸ hfloor
    · exact h ▸ hround ▸ hceil

/-- What lies strictly between the ends is in the basin. -/
theorem Basin.holds_of_lt {b : Basin} {n : Nat} (hlow : b.low < n * b.den)
    (hhigh : n * b.den < b.high) : b.holds n := by
  unfold holds
  split <;> simp only [Bool.and_eq_true, decide_eq_true_eq]
  · exact ⟨hlow.le, hhigh.le⟩
  · exact ⟨hlow, hhigh⟩

/-- A basin longer than its unit has one of the two numbers around the value. -/
theorem Basin.exists_nearest? (tie : Tie) {b : Basin} (hlow : b.low < b.value)
    (hhigh : b.value < b.high) (hunit : b.low + b.den < b.high) (hden : 0 < b.den) :
    ∃ c, b.nearest? tie = some c := by
  have hfloor : b.value / b.den * b.den ≤ b.value := Nat.div_mul_le_self _ _
  have hceil : b.value < (b.value / b.den + 1) * b.den := by
    rw [Nat.mul_comm]
    exact Nat.lt_mul_div_succ _ hden
  have hstep : (b.value / b.den + 1) * b.den = b.value / b.den * b.den + b.den := by ring
  have hone : b.holds (b.value / b.den) ∨ b.holds (b.value / b.den + 1) := by
    by_cases h : b.low < b.value / b.den * b.den
    · exact .inl (holds_of_lt h (by omega))
    · exact .inr (holds_of_lt (by omega) (by omega))
  unfold nearest?
  cases hleft : b.holds (b.value / b.den) <;> cases hright : b.holds (b.value / b.den + 1)
  · simp [hleft, hright] at hone
  all_goals
    simp only [hleft, hright]
    exact ⟨_, rfl⟩

/-- Zeros at the end of a coefficient are dropped without changing the number. -/
theorem Digits.value_normalize (d : Digits) : d.normalize.value = d.value := by
  induction d using Digits.normalize.induct with
  | case1 d h ih =>
    have hten : 10 * (d.coefficient / 10) = d.coefficient := by omega
    rw [normalize, dif_pos h, ih]
    unfold value
    conv_rhs => rw [← hten]
    dsimp only
    rw [zpow_add_one₀ (by norm_num)]
    push_cast
    ring
  | case2 d h => rw [normalize, dif_neg h]

/-- At 17 digits the unit is at most the 10^16th part of the value. -/
theorem Basin.unit_le {b : Basin} (hvalue : 0 < b.value) (hden : 0 < b.den) {e : Int}
    (he : e = pointPlace b.value b.den - 17) :
    10 ^ 16 * (b.inUnits e).den ≤ (b.inUnits e).value := by
  have hpoint := pow_pointPlace_le hvalue hden
  have hsixteen : (10 ^ (pointPlace b.value b.den - 1) : ℚ) = 10 ^ 16 * 10 ^ e := by
    rw [show pointPlace b.value b.den - 1 = (16 : Nat) + e by omega, zpow_add₀ (by norm_num),
      zpow_natCast]
  have hle : (10 ^ 16 * (b.den * 10 ^ e.toNat : Nat) : ℚ) ≤
      (b.value * 10 ^ (-e).toNat : Nat) := by
    push_cast
    rw [ten_zpow_eq]
    calc (10 ^ 16 * (b.den * (10 ^ e * 10 ^ (-e).toNat)) : ℚ)
        = 10 ^ (pointPlace b.value b.den - 1) * b.den * 10 ^ (-e).toNat := by
          rw [hsixteen]
          ring
      _ ≤ b.value * 10 ^ (-e).toNat := by gcongr
  exact_mod_cast hle

/-- At 17 digits the basin of a canonical number is longer than the unit. -/
theorem Scaled.exists_nearest? {s : Scaled} (hs : s.Canonical) (tie : Tie) :
    ∃ c, (s.basin.inUnits (pointPlace s.basin.value s.basin.den - 17)).nearest? tie = some c := by
  obtain ⟨hnum, hden⟩ := @Scaled.fraction_pos ⟨1, s.exponent - 2⟩ Nat.one_pos
  have hpos := hs.pos
  have hvaluePos : 0 < s.basin.value := Nat.mul_pos (by omega) hnum
  have hunit := Basin.unit_le hvaluePos hden rfl
  generalize pointPlace s.basin.value s.basin.den - 17 = e at hunit ⊢
  have hscale : 0 < 10 ^ (-e).toNat := by positivity
  obtain ⟨factor, hfactor, hlow, hvalue, hhigh⟩ : ∃ factor : Nat, 0 < factor ∧
      (s.basin.inUnits e).low = (4 * s.mantissa - s.quarters) * factor ∧
      (s.basin.inUnits e).value = 4 * s.mantissa * factor ∧
      (s.basin.inUnits e).high = (4 * s.mantissa + 2) * factor :=
    ⟨_, Nat.mul_pos hnum hscale, Nat.mul_assoc _ _ _, Nat.mul_assoc _ _ _, Nat.mul_assoc _ _ _⟩
  have hquarters : 0 < s.quarters ∧ s.quarters ≤ 2 ∧
      4 * s.mantissa < (2 + s.quarters) * 10 ^ 16 := by
    have hlt := hs.lt
    unfold quarters
    split <;> omega
  obtain ⟨hquartersPos, hquartersLe, hshort⟩ := hquarters
  have hden' : (s.basin.inUnits e).den < (2 + s.quarters) * factor := by
    rw [hvalue] at hunit
    have : 4 * s.mantissa * factor < (2 + s.quarters) * 10 ^ 16 * factor :=
      Nat.mul_lt_mul_of_pos_right hshort hfactor
    have hcomm : (2 + s.quarters) * 10 ^ 16 * factor = 10 ^ 16 * ((2 + s.quarters) * factor) := by
      ring
    exact Nat.lt_of_mul_lt_mul_left (lt_of_le_of_lt hunit (hcomm ▸ this))
  refine Basin.exists_nearest? tie ?_ ?_ ?_ (Nat.mul_pos hden (by positivity))
  · rw [hlow, hvalue]
    exact Nat.mul_lt_mul_of_pos_right (by omega) hfactor
  · rw [hhigh, hvalue]
    exact Nat.mul_lt_mul_of_pos_right (by omega) hfactor
  · rw [hlow, hhigh]
    have hsum : (4 * s.mantissa - s.quarters) * factor + (2 + s.quarters) * factor =
        (4 * s.mantissa + 2) * factor := by
      rw [← Nat.add_mul]
      congr 1
      omega
    omega

/-- **The decimal that the search finds is attracted by the double.** -/
theorem attracts_shortest {s : Scaled} (hs : s.Canonical) (tie : Tie) :
    s.Attracts (shortest tie s).value := by
  unfold shortest
  dsimp only
  rw [Digits.value_normalize]
  obtain ⟨last, hlast⟩ := s.exists_nearest? hs tie
  generalize hfound : (List.range enoughDigits).findSome? _ = found
  cases found with
  | none =>
    have hmiss := List.findSome?_eq_none_iff.1 hfound 16 (List.mem_range.2 (by decide))
    rw [Option.map_eq_none_iff] at hmiss
    exact absurd (hlast.symm.trans hmiss) (Option.some_ne_none _)
  | some d =>
    obtain ⟨n, -, htest⟩ := List.exists_of_findSome?_eq_some hfound
    obtain ⟨c, hc, rfl⟩ := Option.map_eq_some_iff.1 htest
    exact (s.holds_iff hs.pos _ c).1 (Basin.holds_nearest? hc)

end StoreTrial.Decimal
