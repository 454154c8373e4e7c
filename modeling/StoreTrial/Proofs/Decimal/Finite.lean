import StoreTrial.Proofs.Decimal.Unsigned

/-!
# Doubles that stay finite

A finite double that is divided by two or more stays finite: the quotient has fewer bits than the
dividend, so after rounding its exponent is no larger.  The powers of ten that doubles reach are
such divisors.  They are rounded from all their bits, and what 53 bits of a whole number are rounded
to is the double that attracts it.

## Main results

* `isFinite_div` — dividing by two or more keeps a double finite.
* `exists_attracts` — a whole number in the range of doubles is attracted by one of them.
* `exists_toFloat_ten_pow` — so is each power of ten up to the 308th, which is read as that one.
-/

namespace StoreTrial.Decimal

open Float.Model Float.Model.UnpackedFloat

/-! ## Quotients -/

/-- Whether a double is zero, or finite with an exponent that its field can hold. -/
def InRange : UnpackedFloat → Prop
  | .zero _ => True
  | .finite _ _ e _ => e ≤ 971
  | _ => False

/-- What lies below the last power of two in range is rounded to a double in range, though that
power itself may come out. -/
theorem inRange_roundWithAccuracy {a b : Nat} (hb : 0 < b) {e : Int} (he : e ≤ 970)
    (hbits : ((a / b).log2 : Int) + 1 + e ≤ 1023) (sign : Sign) :
    InRange (roundWithAccuracy .binary64 sign (a / b) e (accuracyOfFraction (a % b) b)) := by
  set k := (Format.binary64.targetExponent (totalExponent (a / b) e) - e).toNat with hk
  have htarget : Format.binary64.targetExponent (totalExponent (a / b) e) =
      max (((a / b).log2 : Int) + 1 + e - 53) (-1074) := rfl
  have hround := ((holds_ofMantissaAndAccuracy hb (a := a)).shiftRight hb k).roundedMantissa
    (by positivity)
  have hle : roundDiv .toEven a (b * 2 ^ k) ≤ 2 ^ 53 := by
    have hfloor : a / (b * 2 ^ k) < 2 ^ 53 := by
      rw [← Nat.div_div_eq_div_mul, Nat.div_lt_iff_lt_mul (by positivity), ← Nat.pow_add]
      calc a / b < 2 ^ ((a / b).log2 + 1) := Nat.lt_log2_self
        _ ≤ 2 ^ (53 + k) := Nat.pow_le_pow_right (by decide) (by omega)
    obtain h | h := roundDiv_eq_or .toEven a (b * 2 ^ k) <;> omega
  have hlog : (roundDiv .toEven a (b * 2 ^ k)).log2 ≤ 53 := by
    by_cases hzero : roundDiv .toEven a (b * 2 ^ k) = 0
    · simp [hzero]
    · have := (Nat.log2_lt hzero).2 (show _ < 2 ^ 54 by omega)
      omega
  unfold roundWithAccuracy shiftToTargetExponent shiftToExponent
  dsimp only
  rw [← hk, hround]
  generalize roundDiv .toEven a (b * 2 ^ k) = m at hlog
  have hnext : Format.binary64.targetExponent (totalExponent m (e + k)) =
      max ((m.log2 : Int) + 1 + (e + k) - 53) (-1074) := rfl
  split
  · trivial
  · show e + k + (_ : Nat) ≤ 971
    omega

/-- A quotient has as many bits less as the divisor has behind its first one. -/
theorem log2_div_add_log2_le {a n k : Nat} (hn : 0 < n) (ha : a < 2 ^ (k + 1)) (hq : a / n ≠ 0) :
    (a / n).log2 + n.log2 ≤ k := by
  have hlt : 2 ^ ((a / n).log2 + n.log2) < 2 ^ (k + 1) := by
    rw [Nat.pow_add]
    calc 2 ^ (a / n).log2 * 2 ^ n.log2 ≤ a / n * n :=
          Nat.mul_le_mul (Nat.log2_self_le hq) (Nat.log2_self_le hn.ne')
      _ ≤ a := Nat.div_mul_le_self a n
      _ < 2 ^ (k + 1) := ha
  exact Nat.lt_succ_iff.1 ((Nat.pow_lt_pow_iff_right (by decide)).1 hlt)

/-- A double in range is divided by two or more to a double in range. -/
theorem inRange_div {m n : Nat} (hm : 0 < m) (hn : 0 < n) (hlt : m < 2 ^ 53) {e f : Int}
    (he : e ≤ 971) (htwo : 1 ≤ (n.log2 : Int) + f) (sign sign' : Sign) :
    InRange (UnpackedFloat.div .binary64 (.finite sign m e hm) (.finite sign' n f hn)) := by
  have hlog : m.log2 < 53 := (Nat.log2_lt hm.ne').2 hlt
  simp only [UnpackedFloat.div, divCore]
  set target := min (e - f) (Format.binary64.targetExponent (totalExponent m e - totalExponent n f))
  have htarget :
      target = min (e - f) (max (m.log2 + 1 + e - (n.log2 + 1 + f) - 53) (-1074)) := rfl
  set shift := (e - f - target).toNat with hshift
  have hlong : m <<< shift < 2 ^ (m.log2 + shift + 1) := by
    rw [Nat.shiftLeft_eq, Nat.add_right_comm, Nat.pow_add]
    exact Nat.mul_lt_mul_of_pos_right Nat.lt_log2_self (by positivity)
  have hbits : ((m <<< shift / n).log2 : Int) + 1 + target ≤ 1023 := by
    by_cases hzero : m <<< shift / n = 0
    · simp [hzero]
      omega
    · have hquotient := log2_div_add_log2_le hn hlong hzero
      omega
  exact inRange_roundWithAccuracy hn (by omega) hbits (sign / sign')

/-! ## Finite doubles -/

/-- The bits of a double between its sign and its fraction. -/
def exponentField (x : Float) : Nat := x.toBits.toNat / 2 ^ 52 % 2 ^ 11

theorem exponentField_packComponents (sign : Sign) (exponent : BitVec 11) (mantissa : BitVec 52) :
    (packComponents .binary64 sign exponent mantissa).toNat / 2 ^ 52 % 2 ^ 11 =
      exponent.toNat := by
  have hexponent := exponent.isLt
  have hmantissa := mantissa.isLt
  rw [toNat_packComponents]
  omega

/-- The field of a double in range is not all ones. -/
theorem exponentField_pack_lt {u : UnpackedFloat} (hu : InRange u) :
    exponentField (.ofModel (.pack u)) < 2047 := by
  cases u with
  | notANumber => exact hu.elim
  | infinity sign => exact hu.elim
  | zero sign => exact (exponentField_packComponents sign 0 0).trans_lt (by decide)
  | finite sign m e hpos =>
    have he : e ≤ 971 := hu
    have hbias : e + (Format.binary64.exponentBias : Int) +
        (Format.binary64.mantissaBitsWithoutImplicit : Nat) = e + 1075 := by
      show e + 1023 + 52 = _
      ring
    show (UnpackedFloat.pack .binary64 (.finite sign m e hpos)).toNat / 2 ^ 52 % 2 ^ 11 < 2047
    unfold UnpackedFloat.pack
    dsimp only
    rw [hbias, if_neg (by show ¬2 ^ 11 ≤ _; omega)]
    split
    · refine (exponentField_packComponents sign _ _).trans_lt ?_
      show (e + 1075).toNat % 2 ^ 11 < 2047
      omega
    · exact (exponentField_packComponents sign _ _).trans_lt (by decide)

theorem exponentField_notANumber : exponentField (.ofModel (.pack .notANumber)) = 2047 := by
  decide +kernel

theorem exponentField_infinity (sign : Sign) :
    exponentField (.ofModel (.pack (.infinity sign))) = 2047 := by
  cases sign <;> decide +kernel

theorem unpack_zero (sign : Sign) :
    (Float.ofModel (.pack (.zero sign))).toModel.unpack = .zero sign := by
  cases sign <;> rfl

/-- A finite double is zero or put together. -/
theorem finite_cases {x : Float} (h : x.isFinite = true) :
    (∃ sign, x = .ofModel (.pack (.zero sign))) ∨
      ∃ s : Scaled, ∃ hs : s.Canonical, ∃ sign, x = s.toFloat hs sign := by
  rcases float_cases x with rfl | ⟨sign, rfl⟩ | hfinite
  · exact absurd h (by decide +kernel)
  · cases sign <;> exact absurd h (by decide +kernel)
  · exact hfinite

theorem isFinite_zero (sign : Sign) : (Float.ofModel (.pack (.zero sign))).isFinite = true := by
  cases sign <;> rfl

theorem Scaled.isFinite_toFloat {s : Scaled} (hs : s.Canonical) (sign : Sign) :
    (s.toFloat hs sign).isFinite = true := by
  show (s.toFloat hs sign).toModel.unpack.isFinite = true
  rw [s.unpack_toFloat hs]
  rfl

/-- What is packed in range is finite. -/
theorem isFinite_pack {u : UnpackedFloat} (hu : InRange u) :
    (Float.ofModel (.pack u)).isFinite = true := by
  have hfield := exponentField_pack_lt hu
  rcases float_cases (.ofModel (.pack u)) with heq | ⟨sign, heq⟩ | ⟨sign, heq⟩ | ⟨s, hs, sign, heq⟩
  · rw [heq, exponentField_notANumber] at hfield
    omega
  · rw [heq, exponentField_infinity] at hfield
    omega
  · rw [heq, isFinite_zero]
  · rw [heq, Scaled.isFinite_toFloat]

/-- A finite double is divided by two or more to a finite one. -/
theorem isFinite_div {x : Float} (hx : x.isFinite = true) {t : Scaled} (ht : t.Canonical)
    (htwo : 1 ≤ (t.mantissa.log2 : Int) + t.exponent) :
    (x / t.toFloat ht .positive).isFinite = true := by
  apply isFinite_pack (u := UnpackedFloat.div .binary64 _ _)
  rw [t.unpack_toFloat ht]
  rcases finite_cases hx with ⟨sign, rfl⟩ | ⟨s, hs, sign, rfl⟩
  · rw [unpack_zero]
    trivial
  · rw [s.unpack_toFloat hs]
    exact inRange_div hs.pos ht.pos hs.lt hs.greatest htwo _ _

/-- A number that has neither failed nor grown infinite is finite. -/
theorem isFinite_of_not {x : Float} (hnan : x.isNaN = false) (hinf : x.isInf = false) :
    x.isFinite = true := by
  change x.toModel.unpack.isNaN = false at hnan
  change x.toModel.unpack.isInf = false at hinf
  show x.toModel.unpack.isFinite = true
  cases hx : x.toModel.unpack with
  | notANumber => simp [hx, UnpackedFloat.isNaN] at hnan
  | infinity sign => simp [hx, UnpackedFloat.isInf] at hinf
  | _ => rfl

theorem isFinite_neg {x : Float} (hx : x.isFinite = true) : (-x).isFinite = true := by
  rcases finite_cases hx with ⟨sign, rfl⟩ | ⟨s, hs, sign, rfl⟩
  · cases sign <;> rfl
  · rw [s.neg_toFloat hs, s.isFinite_toFloat hs]

/-- A whole number of 64 bits is a finite double. -/
theorem isFinite_ofNat {n : Nat} (h : n < 2 ^ 64) : (Float.ofNat n).isFinite = true := by
  rcases Nat.eq_zero_or_pos n with rfl | hpos
  · rfl
  · obtain ⟨s, hs, heq⟩ := exists_toFloat_ofNat hpos h
    rw [heq, s.isFinite_toFloat hs]

/-! ## Powers of ten -/

/-- Rounding to the nearest whole number misses by half at most, and by a half only to an even
number. -/
theorem roundDiv_near {a b : Nat} (hb : 0 < b) :
    2 * (roundDiv .toEven a b * b) ≤ 2 * a + b ∧ 2 * a ≤ 2 * (roundDiv .toEven a b * b) + b ∧
      (roundDiv .toEven a b % 2 = 0 ∨
        2 * (roundDiv .toEven a b * b) < 2 * a + b ∧
          2 * a < 2 * (roundDiv .toEven a b * b) + b) := by
  have hr : a % b < b := Nat.mod_lt a hb
  have hdiv : b * (a / b) + a % b = a := Nat.div_add_mod a b
  have hnext : (a / b + 1) * b = b * (a / b) + b := by ring
  have hcomm : a / b * b = b * (a / b) := Nat.mul_comm _ _
  unfold roundDiv
  dsimp only
  split
  · omega
  · split
    · omega
    · rcases Nat.mod_two_eq_zero_or_one (a / b) with heven | hodd
      · rw [heven, Nat.add_zero]
        omega
      · rw [hodd]
        omega

/-- Whole numbers tell whether a double of a whole unit attracts a whole number. -/
theorem Scaled.attracts_natCast {m k n : Nat}
    (hlow : 4 * (m * 2 ^ k) ≤ 4 * n + (⟨m, k⟩ : Scaled).quarters * 2 ^ k)
    (hhigh : 4 * n ≤ 4 * (m * 2 ^ k) + 2 * 2 ^ k)
    (heven : m % 2 = 0 ∨ 4 * (m * 2 ^ k) < 4 * n + (⟨m, k⟩ : Scaled).quarters * 2 ^ k ∧
      4 * n < 4 * (m * 2 ^ k) + 2 * 2 ^ k) :
    (⟨m, k⟩ : Scaled).Attracts n := by
  refine ⟨?_, ?_, heven.imp_right fun hstrict => ⟨?_, ?_⟩⟩
  · have : (4 * (m * 2 ^ k) : ℚ) ≤ 4 * n + (⟨m, k⟩ : Scaled).quarters * 2 ^ k := by
      exact_mod_cast hlow
    rw [zpow_natCast]
    linarith
  · have : (4 * n : ℚ) ≤ 4 * (m * 2 ^ k) + 2 * 2 ^ k := by exact_mod_cast hhigh
    rw [zpow_natCast]
    linarith
  · have : (4 * (m * 2 ^ k) : ℚ) < 4 * n + (⟨m, k⟩ : Scaled).quarters * 2 ^ k := by
      exact_mod_cast hstrict.1
    rw [zpow_natCast]
    linarith
  · have : (4 * n : ℚ) < 4 * (m * 2 ^ k) + 2 * 2 ^ k := by exact_mod_cast hstrict.2
    rw [zpow_natCast]
    linarith

/-- What the first 53 bits of a whole number are rounded to attracts it. -/
theorem Scaled.attracts_of_near {m k n : Nat} (hself : 2 ^ 52 * 2 ^ k ≤ n)
    (hbelow : 2 * (m * 2 ^ k) ≤ 2 * n + 2 ^ k) (habove : 2 * n ≤ 2 * (m * 2 ^ k) + 2 ^ k)
    (heven : m % 2 = 0 ∨ 2 * (m * 2 ^ k) < 2 * n + 2 ^ k ∧ 2 * n < 2 * (m * 2 ^ k) + 2 ^ k) :
    (⟨m, k⟩ : Scaled).Attracts n := by
  by_cases hfirst : m = 2 ^ 52
  · have hquarters : (⟨m, k⟩ : Scaled).quarters = 1 := if_pos ⟨hfirst, by dsimp only; omega⟩
    apply Scaled.attracts_natCast
    · rw [hquarters]
      subst hfirst
      omega
    · omega
    · exact .inl (by omega)
  · have hquarters : (⟨m, k⟩ : Scaled).quarters = 2 := if_neg fun h => hfirst h.1
    apply Scaled.attracts_natCast
    · rw [hquarters]
      omega
    · omega
    · rw [hquarters]
      omega

/-- So does the next power of two, if that is what they are rounded to. -/
theorem Scaled.attracts_of_carry {k n : Nat} (hnext : n < 2 ^ 53 * 2 ^ k)
    (hbelow : 2 * (2 ^ 53 * 2 ^ k) ≤ 2 * n + 2 ^ k) :
    (⟨2 ^ 52, (k + 1 : Nat)⟩ : Scaled).Attracts n := by
  have hdouble : 2 ^ (k + 1) = 2 ^ k * 2 := Nat.pow_succ ..
  have hquarters : (⟨2 ^ 52, (k + 1 : Nat)⟩ : Scaled).quarters = 1 :=
    if_pos ⟨rfl, by dsimp only; omega⟩
  apply Scaled.attracts_natCast
  · rw [hquarters, hdouble]
    omega
  · rw [hdouble]
    omega
  · exact .inl (by decide)

/-- A whole number of more than 53 bits is attracted by what its first 53 bits are rounded to. -/
theorem exists_attracts_of_le {n : Nat} (hlong : 2 ^ 53 ≤ n) (hlt : n < (2 ^ 53 - 1) * 2 ^ 971) :
    ∃ s : Scaled, s.Canonical ∧ s.Attracts n ∧ (n.log2 : Int) ≤ s.mantissa.log2 + s.exponent := by
  have hne : n ≠ 0 := fun h => absurd hlong (by rw [h]; decide)
  have hleast : 53 ≤ n.log2 := (Nat.le_log2 hne).2 hlong
  have hbits (k : Nat) (h : n < (2 ^ 53 - 1) * 2 ^ k) : n.log2 < 53 + k := by
    rw [Nat.log2_lt hne, Nat.pow_add]
    exact Nat.lt_of_lt_of_le h (Nat.mul_le_mul_right _ (Nat.sub_le _ _))
  have hgreatest := hbits 971 hlt
  obtain ⟨k, hk⟩ : ∃ k, n.log2 = k + 52 := ⟨n.log2 - 52, (Nat.sub_add_cancel (by omega)).symm⟩
  have hlast : k = 971 → n < (2 ^ 53 - 1) * 2 ^ k := fun h => h ▸ hlt
  clear hlt
  have hself : 2 ^ 52 * 2 ^ k ≤ n := by
    rw [← Nat.pow_add, Nat.add_comm, ← hk]
    exact Nat.log2_self_le hne
  have hnext : n < 2 ^ 53 * 2 ^ k := by
    rw [← Nat.pow_add, show 53 + k = n.log2 + 1 by omega]
    exact Nat.lt_log2_self
  obtain ⟨hlow, hhigh⟩ := roundDiv_bounds hk (by omega) .toEven
  obtain ⟨hbelow, habove, heven⟩ := roundDiv_near (a := n) (Nat.two_pow_pos k)
  generalize roundDiv .toEven n (2 ^ k) = m at *
  rcases Nat.lt_or_eq_of_le hhigh with hlt' | rfl
  · have hs : (⟨m, k⟩ : Scaled).Canonical :=
      ⟨by dsimp only; omega, hlt', by dsimp only; omega, by dsimp only; omega, .inl hlow⟩
    refine ⟨_, hs, Scaled.attracts_of_near hself hbelow habove heven, ?_⟩
    have hlog := hs.log2.2 hlow
    dsimp only at hlog ⊢
    omega
  · -- rounding has carried, and the mantissa is halved
    have hunit : 0 < 2 ^ k := Nat.two_pow_pos k
    have hroom : k ≠ 971 := by
      intro h
      have := hlast h
      omega
    have hs : (⟨2 ^ 52, (k + 1 : Nat)⟩ : Scaled).Canonical :=
      ⟨Nat.two_pow_pos 52, Nat.pow_lt_pow_right (by decide) (by decide), by dsimp only; omega,
        by dsimp only; omega, .inl (Nat.le_refl _)⟩
    refine ⟨_, hs, Scaled.attracts_of_carry hnext hbelow, ?_⟩
    rw [Nat.log2_two_pow]
    dsimp only
    omega

/-- A whole number of the range of doubles has a double that attracts it. -/
theorem exists_attracts {n : Nat} (hpos : 0 < n) (hlt : n < (2 ^ 53 - 1) * 2 ^ 971) :
    ∃ s : Scaled, s.Canonical ∧ s.Attracts n ∧ (n.log2 : Int) ≤ s.mantissa.log2 + s.exponent := by
  by_cases hexact : n < 2 ^ 53
  · obtain ⟨hs, hnormal⟩ := canonical_wholeScaled hpos hexact
    refine ⟨wholeScaled n, hs, ?_, ?_⟩
    · have hself := (wholeScaled n).attracts_self
      rwa [wholeScaled_eq hexact] at hself
    · have hlog := hs.log2.2 hnormal
      show (n.log2 : Int) ≤ (wholeScaled n).mantissa.log2 + (n.log2 - 52)
      omega
  · exact exists_attracts_of_le (not_lt.1 hexact) hlt

/-- A power of ten of the range of doubles is read as a double that is not small. -/
theorem exists_toFloat_ten_pow {k : Nat} (hk : k ≤ 308) : ∃ s : Scaled, ∃ hs : s.Canonical,
    Float.ofScientific 1 false k = s.toFloat hs .positive ∧
      (k ≠ 0 → 1 ≤ (s.mantissa.log2 : Int) + s.exponent) := by
  have hlt : 10 ^ k < (2 ^ 53 - 1) * 2 ^ 971 :=
    calc 10 ^ k ≤ 10 ^ 308 := Nat.pow_le_pow_right (by decide) hk
      _ < (2 ^ 53 - 1) * 2 ^ 971 := by decide +kernel
  obtain ⟨s, hs, hattracts, hbits⟩ := exists_attracts (Nat.pow_pos (by decide)) hlt
  refine ⟨s, hs, ofScientific_false hs Nat.one_pos ?_, fun hne => ?_⟩
  · push_cast at hattracts
    rwa [Nat.cast_one, one_mul]
  · have hten : 2 ^ 1 ≤ 10 ^ k :=
      calc 2 ^ 1 ≤ 10 ^ 1 := by decide
        _ ≤ 10 ^ k := Nat.pow_le_pow_right (by decide) (Nat.pos_of_ne_zero hne)
    have hlog := (Nat.le_log2 (by positivity)).2 hten
    omega

end StoreTrial.Decimal
