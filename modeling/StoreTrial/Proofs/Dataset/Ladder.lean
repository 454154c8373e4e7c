import Mathlib.Data.List.Chain
import StoreTrial.Dataset

/-!
# The ladder of payload sizes

The benchmark measures at powers of two, from the last one at or below the least size to the last
one at or below the greatest.  Both ends are found as logarithms rounded down, which say which
powers a bound lies between; so a power is in the ladder if it does not exceed the greatest size and
its double exceeds the least.  The double may be more than 64 bits hold, but the powers are made by
shifts of less than 64.

## Main results

* `payloadSizes_eq_nil_iff` — there are sizes unless the bounds are zero or crossed.
* `mem_payloadSizes` — which powers of two are in the ladder.
* `payloadSizes_exact` — the ladder, whatever the bounds.
-/

namespace StoreTrial

variable {least greatest : UInt64}

/-! ## Between the bounds -/

theorem payloadSizes_of_not_le (h : least = 0 ∨ greatest < least) :
    payloadSizes least greatest = [] := if_pos h

theorem payloadSizes_of_le (hpos : least ≠ 0) (hle : least ≤ greatest) :
    payloadSizes least greatest =
      (List.range' least.toNat.log2 (greatest.toNat.log2 + 1 - least.toNat.log2)).map (2 ^ ·) := by
  have hbounds : ¬(least = 0 ∨ greatest < least) := by
    rintro (rfl | hlt)
    · exact hpos rfl
    · exact absurd hle (UInt64.not_le.2 hlt)
  exact if_neg hbounds

theorem log2_le_log2 (hpos : least ≠ 0) (hle : least ≤ greatest) :
    least.toNat.log2 ≤ greatest.toNat.log2 := by
  have hleast : least.toNat ≠ 0 := fun h => hpos (UInt64.toNat_inj.1 h)
  have htoNat := UInt64.le_iff_toNat_le.1 hle
  exact (Nat.le_log2 (by omega)).2 (Nat.le_trans (Nat.log2_self_le hleast) htoNat)

/-- There are sizes unless the least one is zero or the bounds are crossed. -/
theorem payloadSizes_eq_nil_iff :
    payloadSizes least greatest = [] ↔ least = 0 ∨ greatest < least := by
  constructor
  · intro h
    by_contra hbounds
    rw [not_or, UInt64.not_lt] at hbounds
    obtain ⟨hpos, hle⟩ := hbounds
    rw [payloadSizes_of_le hpos hle, List.map_eq_nil_iff, List.range'_eq_nil_iff] at h
    have hlog := log2_le_log2 hpos hle
    omega
  · exact payloadSizes_of_not_le

/-- A power of two is in the ladder if it does not exceed the greatest size and its double exceeds
the least. -/
theorem mem_payloadSizes (hpos : least ≠ 0) (hle : least ≤ greatest) {p : Nat} :
    p ∈ payloadSizes least greatest ↔
      (∃ k, p = 2 ^ k) ∧ p ≤ greatest.toNat ∧ least.toNat < 2 * p := by
  have hleast : least.toNat ≠ 0 := fun h => hpos (UInt64.toNat_inj.1 h)
  have hgreatest : greatest.toNat ≠ 0 := by
    have := UInt64.le_iff_toNat_le.1 hle
    omega
  -- an exponent is between the logarithms if its power is between the bounds
  have hbetween (k : Nat) : k ∈ List.range' least.toNat.log2
      (greatest.toNat.log2 + 1 - least.toNat.log2) ↔
        2 ^ k ≤ greatest.toNat ∧ least.toNat < 2 * 2 ^ k := by
    rw [List.mem_range'_1, ← Nat.le_log2 hgreatest, ← Nat.pow_succ', ← Nat.log2_lt hleast]
    omega
  rw [payloadSizes_of_le hpos hle, List.mem_map]
  constructor
  · rintro ⟨k, hk, rfl⟩
    exact ⟨⟨k, rfl⟩, (hbetween k).1 hk⟩
  · rintro ⟨⟨k, rfl⟩, hp⟩
    exact ⟨k, (hbetween k).2 hp, rfl⟩

/-! ## Steps -/

/-- A shift by less than 64 is a power of two. -/
theorem toNat_one_shiftLeft {k : Nat} (h : k < 64) :
    ((1 : UInt64) <<< UInt64.ofNat k).toNat = 2 ^ k := by
  have hshift : (UInt64.ofNat k).toNat % 64 = k := by
    rw [UInt64.toNat_ofNat']
    omega
  have hpow : 2 ^ k < 2 ^ 64 := Nat.pow_lt_pow_right (by decide) h
  rw [UInt64.toNat_shiftLeft, hshift, Nat.shiftLeft_eq, UInt64.toNat_one, Nat.one_mul,
    Nat.mod_eq_of_lt hpow]

/-- Whether sizes are the ladder between two bounds. -/
structure Ladder (least greatest : UInt64) (sizes : List Nat) : Prop where
  /-- The sizes rise. -/
  rising : sizes.Pairwise (· < ·)
  /-- Each size is twice the one before it. -/
  doubling : sizes.IsChain fun p q => q = 2 * p
  /-- They are the powers of two between the bounds, compared as numbers. -/
  mem_iff (p : Nat) :
    p ∈ sizes ↔ (∃ k, p = 2 ^ k) ∧ p ≤ greatest.toNat ∧ least.toNat < 2 * p
  /-- In words of 64 bits, they are shifts by one more each time. -/
  shifts : sizes = (List.range' least.toNat.log2 sizes.length).map fun k =>
    ((1 : UInt64) <<< UInt64.ofNat k).toNat
  /-- All shifts are by less than 64. -/
  shift_lt : least.toNat.log2 + sizes.length ≤ 64

theorem ladder_payloadSizes (hpos : least ≠ 0) (hle : least ≤ greatest) :
    Ladder least greatest (payloadSizes least greatest) := by
  have hlength : (payloadSizes least greatest).length =
      greatest.toNat.log2 + 1 - least.toNat.log2 := by
    rw [payloadSizes_of_le hpos hle, List.length_map, List.length_range']
  have hlog := log2_le_log2 hpos hle
  have hgreatest : greatest.toNat.log2 < 64 := by
    by_cases hzero : greatest.toNat = 0
    · rw [hzero]
      decide
    · exact (Nat.log2_lt hzero).2 greatest.toNat_lt
  refine { rising := ?_, doubling := ?_, mem_iff := ?_, shifts := ?_, shift_lt := ?_ }
  · rw [payloadSizes_of_le hpos hle, List.pairwise_map]
    apply List.Pairwise.imp _ (List.pairwise_lt_range' 1)
    intro j k hlt
    exact Nat.pow_lt_pow_right (by decide) hlt
  · rw [payloadSizes_of_le hpos hle, List.isChain_map]
    apply List.IsChain.imp _ (List.isChain_range' _ _ 1)
    rintro j _ rfl
    exact Nat.pow_succ'
  · intro p
    exact mem_payloadSizes hpos hle
  · rw [hlength]
    conv_lhs => rw [payloadSizes_of_le hpos hle]
    apply List.map_congr_left
    intro k hk
    rw [List.mem_range'_1] at hk
    exact (toNat_one_shiftLeft (by omega)).symm
  · omega

/--
**The ladder is exact.**  There are no sizes if the least one is zero or the bounds are crossed, and
then only.  Otherwise they rise, each is twice the one before, and they are just those powers of two
that do not exceed the greatest size and whose double exceeds the least; the double is not taken in
64 bits, and all shifts are by less than 64.
-/
theorem payloadSizes_exact (least greatest : UInt64) :
    (payloadSizes least greatest = [] ↔ least = 0 ∨ greatest < least) ∧
    (least ≠ 0 ∧ least ≤ greatest → Ladder least greatest (payloadSizes least greatest)) :=
  ⟨payloadSizes_eq_nil_iff, fun ⟨hpos, hle⟩ => ladder_payloadSizes hpos hle⟩

/-- Above the greatest power of two there is one size, whose double 64 bits do not hold. -/
theorem payloadSizes_exact_above_half :
    (9223372036854775813 : UInt64) ≠ 0 ∧
      (9223372036854775813 : UInt64) ≤ 18446744073709551615 ∧
      ∀ p, p ∈ payloadSizes 9223372036854775813 18446744073709551615 ↔ p = 2 ^ 63 := by
  have hbounds : (9223372036854775813 : UInt64) ≠ 0 ∧
      (9223372036854775813 : UInt64) ≤ 18446744073709551615 := by decide
  have hladder := (payloadSizes_exact 9223372036854775813 18446744073709551615).2 hbounds
  refine ⟨hbounds.1, hbounds.2, ?_⟩
  intro p
  rw [hladder.mem_iff]
  constructor
  · rintro ⟨⟨k, rfl⟩, hle, hlt⟩
    have hpow : 2 ^ k < 2 ^ 64 := Nat.lt_of_le_of_lt hle (by decide)
    have hk : k < 64 := (Nat.pow_lt_pow_iff_right (by decide)).1 hpow
    have hhalf : 2 ^ 63 < 2 ^ (k + 1) :=
      calc 2 ^ 63 < (9223372036854775813 : UInt64).toNat := by decide
        _ < 2 * 2 ^ k := hlt
        _ = 2 ^ (k + 1) := Nat.pow_succ'.symm
    have hk' : 63 < k + 1 := (Nat.pow_lt_pow_iff_right (by decide)).1 hhalf
    rw [show k = 63 by omega]
  · rintro rfl
    exact ⟨⟨63, rfl⟩, by decide, by decide⟩

end StoreTrial
