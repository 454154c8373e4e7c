import StoreTrial.Proofs.Decimal.Plain

/-!
# The plain form of a double is short

Plain digits have no exponent, so very large and very small doubles are written with hundreds of
zeros; but never with more than can be announced.  The shortest decimal of a double stands within
400 places of the point, and its last digit no further right than the grid of 17 digits reaches.

## Main results

* `length_positional_le` — digits around a point take their number, and the way to the point.
* `le_exponent_shortest` — how far right the last digit of the shortest decimal can stand.
* `length_write_plain_le` — the plain form of a double has at most 2000 characters.
-/

namespace StoreTrial.Decimal

/-! ## Digits and zeros -/

theorem length_positional_le (pointZero : Bool) (ds : List Char) (point : Int) :
    (positional pointZero ds point).length ≤ ds.length + point.natAbs + 2 := by
  unfold positional
  by_cases hleft : point ≤ 0
  · rw [if_pos hleft]
    simp only [List.cons_append, List.length_cons, List.length_append, List.length_replicate]
    omega
  · rw [if_neg hleft]
    dsimp only
    split
    · cases pointZero <;>
        simp only [List.length_append, List.length_take, List.length_replicate, List.length_cons,
          List.length_nil, if_true, if_false, Bool.false_eq_true] <;>
        omega
    · simp only [List.length_append, List.length_take, List.length_replicate, List.length_cons,
        List.length_drop]
      omega

/-! ## The last digit -/

theorem Digits.exponent_le_normalize (d : Digits) : d.exponent ≤ d.normalize.exponent := by
  induction d using Digits.normalize.induct with
  | case1 d h ih =>
    rw [normalize, dif_pos h]
    dsimp only at ih
    omega
  | case2 d h => rw [normalize, dif_neg h]

theorem le_pointPlace (num den : Nat) : 1 - (length den : Int) ≤ pointPlace num den := by
  have hnum : 0 < length num := List.length_pos_of_ne_nil (digits_ne_nil _)
  unfold pointPlace
  dsimp only
  split <;> omega

theorem length_le_of_lt {n k : Nat} (hn : 0 < n) (h : n < 10 ^ k) : length n ≤ k := by
  obtain ⟨hlow, -⟩ := pow_length hn
  have hlt : length n - 1 < k := (Nat.pow_lt_pow_iff_right (by decide)).1 (hlow.trans_lt h)
  omega

theorem length_two_pow_le {k : Nat} (hk : k ≠ 0) : length (2 ^ k) ≤ k :=
  length_le_of_lt (Nat.two_pow_pos k) (Nat.pow_lt_pow_left (by decide) hk)

/-- The unit of a basin is no finer than a quarter of the least double. -/
theorem Scaled.Canonical.length_den_le {s : Scaled} (hs : s.Canonical) :
    length s.basin.den ≤ 1076 := by
  have hleast := hs.least
  show length (⟨1, s.exponent - 2⟩ : Scaled).fraction.2 ≤ 1076
  unfold fraction
  split
  · have hone : length 1 ≤ 1 := length_le_of_lt Nat.one_pos (by decide)
    exact hone.trans (by decide)
  · next hfine =>
    change ¬ 0 ≤ s.exponent - 2 at hfine
    have hlength := length_two_pow_le (show (-(s.exponent - 2)).toNat ≠ 0 by omega)
    show length (2 ^ (-(s.exponent - 2)).toNat) ≤ 1076
    omega

/-- The search ends at 17 digits, so the last digit stands no further right. -/
theorem le_exponent_shortest {s : Scaled} (hs : s.Canonical) (tie : Tie) :
    -1092 ≤ (shortest tie s).exponent := by
  have hpoint := le_pointPlace s.basin.value s.basin.den
  have hden := hs.length_den_le
  unfold shortest
  dsimp only
  refine le_trans ?_ (Digits.exponent_le_normalize _)
  generalize hfound : (List.range enoughDigits).findSome? _ = found
  cases found with
  | none => decide
  | some d =>
    obtain ⟨n, hn, htest⟩ := List.exists_of_findSome?_eq_some hfound
    obtain ⟨c, -, rfl⟩ := Option.map_eq_some_iff.1 htest
    have hlt : n < 17 := List.mem_range.1 hn
    show -1092 ≤ pointPlace s.basin.value s.basin.den - ((n : Int) + 1)
    omega

/-! ## The whole text -/

theorem length_magnitude_plain_le {s : Scaled} (hs : s.Canonical) :
    (plain.magnitude s).length ≤ 1998 := by
  have hattracts := attracts_shortest hs .up
  obtain ⟨-, hleft, hright⟩ := hattracts.size hs
  have hlast := le_exponent_shortest hs .up
  have hpositional := length_positional_le false (digits (shortest .up s).coefficient)
    ((digits (shortest .up s).coefficient).length + (shortest .up s).exponent)
  unfold Layout.magnitude
  rw [if_neg hs.pos.ne']
  refine hpositional.trans ?_
  unfold length decades at *
  omega

/-- **The plain form of a double has at most 2000 characters.** -/
theorem length_write_plain_le (x : Float) : (plain.write x).toList.length ≤ 2000 := by
  rcases float_cases x with rfl | ⟨sign, rfl⟩ | ⟨sign, rfl⟩ | ⟨s, hs, sign, rfl⟩
  · decide +kernel
  · cases sign <;> decide +kernel
  · cases sign <;> decide +kernel
  · have hmagnitude := length_magnitude_plain_le hs
    simp only [Layout.write, s.isNaN_toFloat hs, s.isInf_toFloat hs, s.magnitude_toFloat hs,
      Bool.false_eq_true, if_false, String.toList_ofList, List.length_append]
    split
    · rw [List.length_singleton]
      omega
    · rw [List.length_nil]
      omega

end StoreTrial.Decimal
