import Mathlib
import StoreTrial.Decimal.Layout
import StoreTrial.Proofs.Decimal.Scientific

/-!
# The plain form of a double is read back

Plain digits are a whole part and, after a point, maybe some places.  Reading puts the two together
to one coefficient, and the zeros that the writer has filled in change the coefficient and the power
of ten but not the number.  That number is the shortest decimal, which the double attracts.

## Main results

* `readFloat?_write` — every double is read back from its plain form, bit for bit.
-/

namespace StoreTrial.Decimal

open Float.Model Float.Model.UnpackedFloat

/-! ## Digits -/

/-- Whether a text has digits only. -/
def Numeral (cs : List Char) : Prop := ∀ c ∈ cs, (digit? c).isSome

theorem numeral_append {xs ys : List Char} : Numeral (xs ++ ys) ↔ Numeral xs ∧ Numeral ys :=
  List.forall_mem_append

theorem numeral_replicate (k : Nat) : Numeral (List.replicate k '0') := by
  intro c hc
  rw [List.eq_of_mem_replicate hc]
  decide

theorem numeral_digits (n : Nat) : Numeral (digits n) := by
  induction n using Nat.strongRecOn with
  | _ n ih =>
    have hdigit {d : Nat} (hd : d < 10) : Numeral [digitChar d] := by
      intro c hc
      rw [List.mem_singleton.1 hc, digit?_digitChar hd]
      rfl
    unfold digits
    split
    · next hsmall => exact hdigit hsmall
    · exact numeral_append.2 ⟨ih _ (by omega), hdigit (by omega)⟩

theorem exists_digitChar {c : Char} (h : (digit? c).isSome) : ∃ d : Fin 10, c = digitChar d := by
  unfold digit? at h
  split at h
  · next hrange =>
    have hlow : 48 ≤ c.toNat := hrange.1
    have hhigh : c.toNat ≤ 57 := hrange.2
    refine ⟨⟨c.toNat - 48, by omega⟩, ?_⟩
    show c = Char.ofNat (48 + (c.toNat - 48))
    rw [Nat.add_sub_cancel' hlow, Char.ofNat_toNat]
  · simp at h

/-- A digit is neither a sign nor a point, and begins no word. -/
theorem digitChar_ne (d : Fin 10) : digitChar d ≠ '-' ∧ digitChar d ≠ '+' ∧
    lower (digitChar d) ≠ 'i' ∧ lower (digitChar d) ≠ 'n' := by
  revert d
  decide

/-! ## The number that digits write -/

theorem value_digits (n : Nat) : value (digits n) = n := by
  rw [value, extend_digits, Option.getD_some]

theorem extend_replicate (acc k : Nat) :
    extend acc (List.replicate k '0') = some (acc * 10 ^ k) := by
  induction k generalizing acc with
  | zero => rw [List.replicate_zero, Nat.pow_zero, Nat.mul_one, extend]
  | succ k ih =>
    have hzero : digit? '0' = some 0 := by decide
    rw [List.replicate_succ, extend, hzero, Option.bind_some, ih]
    congr 1
    ring

theorem value_replicate_append (k : Nat) (ds : List Char) :
    value (List.replicate k '0' ++ ds) = value ds := by
  rw [value, extend_append, extend_replicate, Option.bind_some, Nat.zero_mul, value]

theorem value_digits_append (n k : Nat) :
    value (digits n ++ List.replicate k '0') = n * 10 ^ k := by
  rw [value, extend_append, extend_digits, Option.bind_some, extend_replicate, Option.getD_some]

/-! ## Reading -/

theorem spanDigits_append {xs ys : List Char} (hxs : Numeral xs)
    (hys : ∀ c ∈ ys.head?, digit? c = none) : spanDigits (xs ++ ys) = (xs, ys) := by
  unfold spanDigits
  rw [List.span_eq_takeWhile_dropWhile, List.takeWhile_append_of_pos hxs,
    List.dropWhile_append_of_pos hxs]
  cases ys with
  | nil => simp
  | cons c cs =>
    have hc : digit? c = none := hys c rfl
    simp [hc]

/-- A whole part alone. -/
theorem unsigned?_whole {xs : List Char} (hne : xs ≠ []) (hxs : Numeral xs) :
    unsigned? xs = some (nearest (value xs) 0) := by
  have hspan : spanDigits (xs ++ []) = (xs, []) := spanDigits_append hxs (by simp)
  rw [List.append_nil] at hspan
  unfold unsigned?
  simp [hspan, hne, exponent?]

/-- A whole part, a point and places. -/
theorem unsigned?_point {xs ys : List Char} (hne : xs ≠ []) (hxs : Numeral xs) (hys : Numeral ys) :
    unsigned? (xs ++ '.' :: ys) = some (nearest (value (xs ++ ys)) (-ys.length)) := by
  have hpoint : digit? '.' = none := by decide
  have hwhole : spanDigits (xs ++ '.' :: ys) = (xs, '.' :: ys) :=
    spanDigits_append hxs (by simp [hpoint])
  have hplaces : spanDigits (ys ++ []) = (ys, []) := spanDigits_append hys (by simp)
  rw [List.append_nil] at hplaces
  unfold unsigned?
  simp [hwhole, hplaces, hne, exponent?]

theorem magnitude?_of_digit {c : Char} {cs : List Char} (hc : (digit? c).isSome) :
    magnitude? (c :: cs) = unsigned? (c :: cs) := by
  obtain ⟨d, rfl⟩ := exists_digitChar hc
  obtain ⟨-, -, hi, hn⟩ := digitChar_ne d
  unfold magnitude?
  simp [hi, hn]

/-! ## Plain digits -/

/-- Digits that are read as a whole part and places. -/
structure Plain (text : List Char) (xs ys : List Char) : Prop where
  nonempty : xs ≠ []
  whole : Numeral xs
  places : Numeral ys
  text_eq : (text = xs ∧ ys = []) ∨ text = xs ++ '.' :: ys

theorem Plain.exists_digit {text xs ys : List Char} (h : Plain text xs ys) :
    ∃ c cs, text = c :: cs ∧ (digit? c).isSome := by
  obtain ⟨c, cs, rfl⟩ := List.exists_cons_of_ne_nil h.nonempty
  have hc : (digit? c).isSome := h.whole c List.mem_cons_self
  rcases h.text_eq with ⟨rfl, -⟩ | rfl
  · exact ⟨c, cs, rfl, hc⟩
  · exact ⟨c, _, rfl, hc⟩

theorem Plain.magnitude? {text xs ys : List Char} (h : Plain text xs ys) :
    magnitude? text = some (nearest (value (xs ++ ys)) (-ys.length)) := by
  obtain ⟨hne, hxs, hys, htext⟩ := h
  obtain ⟨c, cs, rfl⟩ := List.exists_cons_of_ne_nil hne
  have hc : (digit? c).isSome := hxs c List.mem_cons_self
  rcases htext with ⟨rfl, rfl⟩ | rfl
  · rw [magnitude?_of_digit hc, unsigned?_whole hne hxs, List.append_nil]
    rfl
  · rw [List.cons_append, magnitude?_of_digit hc, ← List.cons_append, unsigned?_point hne hxs hys]

/-- Digits around a point write the coefficient times a power of ten. -/
theorem exists_plain_positional (n : Nat) (e : Int) : ∃ xs ys,
    Plain (positional false (digits n) ((digits n).length + e)) xs ys ∧
      (value (xs ++ ys) * 10 ^ (-ys.length : Int) : ℚ) = n * 10 ^ e := by
  have hdigits := numeral_digits n
  have hlength : 0 < (digits n).length := List.length_pos_of_ne_nil (digits_ne_nil n)
  unfold positional
  by_cases hleft : ((digits n).length + e : Int) ≤ 0
  · -- the point stands left of the digits, and zeros fill the places before them
    rw [if_pos hleft]
    refine ⟨['0'], List.replicate (-((digits n).length + e : Int)).toNat '0' ++ digits n,
      ⟨by simp, numeral_replicate 1, numeral_append.2 ⟨numeral_replicate _, hdigits⟩, .inr rfl⟩, ?_⟩
    rw [← List.append_assoc, List.singleton_append, ← List.replicate_succ, value_replicate_append,
      value_digits, List.length_append, List.length_replicate]
    congr 2
    omega
  · rw [if_neg hleft]
    dsimp only
    by_cases hinside : e < 0
    · -- the point stands between two digits
      have hrest : (digits n).drop ((digits n).length + e : Int).toNat ≠ [] := by
        rw [← List.length_pos_iff, List.length_drop]
        omega
      have hwhole : (digits n).take ((digits n).length + e : Int).toNat ≠ [] := by
        rw [← List.length_pos_iff, List.length_take]
        omega
      have hfill : ((digits n).length + e : Int).toNat - (digits n).length = 0 := by omega
      rw [if_neg (by simpa using hrest), hfill, List.replicate_zero, List.append_nil]
      refine ⟨_, _, ⟨hwhole, fun c hc => hdigits c (List.mem_of_mem_take hc),
        fun c hc => hdigits c (List.mem_of_mem_drop hc), .inr rfl⟩, ?_⟩
      rw [List.take_append_drop, value_digits, List.length_drop]
      congr 2
      omega
    · -- the point stands right of the digits, and zeros fill the whole part
      have hrest : (digits n).drop ((digits n).length + e : Int).toNat = [] := by
        rw [List.drop_eq_nil_iff]
        omega
      have hwhole : (digits n).take ((digits n).length + e : Int).toNat = digits n := by
        rw [List.take_eq_self_iff]
        omega
      have hfill : ((digits n).length + e : Int).toNat - (digits n).length = e.toNat := by omega
      rw [hrest, hwhole, hfill, List.isEmpty_nil, if_pos rfl, if_neg (by decide), List.append_nil]
      refine ⟨digits n ++ List.replicate e.toNat '0', [],
        ⟨by simp [digits_ne_nil], numeral_append.2 ⟨hdigits, numeral_replicate _⟩,
          by simp [Numeral], .inl ⟨rfl, rfl⟩⟩, ?_⟩
      rw [List.append_nil, value_digits_append]
      push_cast
      rw [← zpow_natCast, show (e.toNat : Int) = e by omega]
      simp

/-- A text that starts with a digit has no sign. -/
theorem readFloat?_of_digit {c : Char} {cs : List Char} (hc : (digit? c).isSome) :
    readFloat? (.ofList (c :: cs)) = magnitude? (c :: cs) := by
  obtain ⟨d, rfl⟩ := exists_digitChar hc
  obtain ⟨hminus, hplus, -, -⟩ := digitChar_ne d
  unfold readFloat?
  rw [String.toList_ofList]
  split
  · next h => exact absurd (List.cons.inj h).1 hminus
  · next h => exact absurd (List.cons.inj h).1 hplus
  · rfl

/-- **Every double is read back from its plain form, bit for bit.** -/
theorem readFloat?_write (x : Float) : readFloat? (plain.write x) = some x := by
  rcases float_cases x with rfl | ⟨sign, rfl⟩ | ⟨sign, rfl⟩ | ⟨s, hs, sign, rfl⟩
  · decide +kernel
  · cases sign <;> decide +kernel
  · cases sign <;> decide +kernel
  · have hattracts := attracts_shortest hs .up
    obtain ⟨xs, ys, hplain, hvalue⟩ :=
      exists_plain_positional (shortest .up s).coefficient (shortest .up s).exponent
    have hmagnitude : plain.magnitude s = positional false (digits (shortest .up s).coefficient)
        ((digits (shortest .up s).coefficient).length + (shortest .up s).exponent) := by
      unfold Layout.magnitude
      rw [if_neg hs.pos.ne']
      rfl
    have hread : magnitude? (plain.magnitude s) = some (s.toFloat hs .positive) := by
      rw [hmagnitude, hplain.magnitude?, nearest_eq hs]
      rw [hvalue]
      exact hattracts
    unfold Layout.write
    rw [s.isNaN_toFloat hs, s.isInf_toFloat hs, s.isNegative_toFloat hs, s.magnitude_toFloat hs]
    cases sign with
    | positive =>
      obtain ⟨c, cs, htext, hc⟩ := hplain.exists_digit
      rw [← hmagnitude] at htext
      show readFloat? (.ofList (plain.magnitude s)) = _
      rw [htext, readFloat?_of_digit hc, ← htext, hread]
    | negative =>
      show readFloat? (.ofList ('-' :: plain.magnitude s)) = _
      unfold readFloat?
      rw [String.toList_ofList]
      show (magnitude? (plain.magnitude s)).map _ = _
      rw [hread, Option.map_some, s.neg_toFloat hs]
      rfl

end StoreTrial.Decimal
