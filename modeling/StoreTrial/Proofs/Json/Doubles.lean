import StoreTrial.Proofs.Decimal.Finite
import StoreTrial.Proofs.Json.Literals

/-!
# Doubles in documents

A double is read from as many digits of a number as fit in 64 bits and one multiplication or several
divisions by powers of ten.  That may miss the nearest double, but it never comes to an infinite
one: a product that is infinite is no answer, and quotients stay finite.  A finite double is written
with its shortest digits around a point or with a power of ten, and both are a number of a document.

## Main results

* `Number.isFinite_of_toFloat?` — a number that is read as a double is read as a finite one.
* `Number.exists_writes_write` — a finite double is written as a number.
-/

namespace StoreTrial.Decimal

/-- Only zero is written with a leading zero. -/
theorem head?_digits_ne {n : Nat} (hn : 0 < n) : (digits n).head? ≠ some '0' := by
  induction n using Nat.strongRecOn with
  | _ n ih =>
    unfold digits
    split
    · next hsmall =>
      have hdigit : ∀ d : Fin 10, 0 < d.val → digitChar d ≠ '0' := by decide
      simpa using hdigit ⟨n, hsmall⟩ hn
    · rw [List.head?_append_of_ne_nil _ (digits_ne_nil _)]
      exact ih _ (by omega) (by omega)

theorem no_leading_zero (n : Nat) : (digits n).length = 1 ∨ (digits n).head? ≠ some '0' := by
  rcases Nat.eq_zero_or_pos n with rfl | hn
  · exact .inl (by decide +kernel)
  · exact .inr (head?_digits_ne hn)

end StoreTrial.Decimal

namespace StoreTrial.Json.Number

open Decimal

/-! ## Numbers that are read -/

theorem isFinite_divided {x : Float} (hx : x.isFinite = true) {n : Nat} (hn : n ≠ 0) :
    (divided x n).isFinite = true := by
  fun_induction divided x n with
  | case1 x n hle =>
    obtain ⟨t, ht, hpower, htwo⟩ := exists_toFloat_ten_pow hle
    rw [power, hpower]
    exact isFinite_div hx ht (htwo hn)
  | case2 x n hgt hzero => exact hx
  | case3 x n hgt hzero ih =>
    obtain ⟨t, ht, hpower, htwo⟩ := exists_toFloat_ten_pow (Nat.le_refl 308)
    apply ih _ (by omega)
    rw [power, powerLimit, hpower]
    exact isFinite_div hx ht (htwo (by decide))

theorem isFinite_of_multiplied? {x y : Float} (hx : x.isFinite = true) (hunsigned : Unsigned x)
    {n : Nat} (h : multiplied? x n = some y) : y.isFinite = true := by
  unfold multiplied? at h
  dsimp only at h
  split at h
  · next hle =>
    obtain ⟨t, ht, hpower, -⟩ := exists_toFloat_ten_pow hle
    split at h
    · cases h
    · next hinf =>
      cases h
      refine isFinite_of_not ?_ (by simpa using hinf)
      rw [power, hpower]
      exact (hunsigned.mul ht).isNaN_eq_false
  · split at h
    · cases h
      exact hx
    · cases h

theorem absorb_lt {significand : Nat} (h : significand < 2 ^ 64) (cs : List Char) :
    (absorb significand cs).1 < 2 ^ 64 := by
  fun_induction absorb significand cs with
  | case1 => exact h
  | case2 _ _ _ _ hlt _ _ heq ih =>
    rw [heq] at ih
    exact ih hlt
  | case3 => exact h

theorem isFinite_of_ofParts? {significand : Nat} (h : significand < 2 ^ 64) {exponent : Int}
    {x : Float} (hx : ofParts? significand exponent = some x) : x.isFinite = true := by
  unfold ofParts? at hx
  dsimp only at hx
  split at hx
  · exact isFinite_of_multiplied? (isFinite_ofNat h) (unsigned_ofNat _) hx
  · next hneg =>
    cases hx
    exact isFinite_divided (isFinite_ofNat h) (by omega)

theorem isFinite_of_magnitude? {n : Number} {x : Float} (h : n.magnitude? = some x) :
    x.isFinite = true := by
  have hsignificand : (absorb (absorb 0 n.whole).1 (n.places.getD [])).1 < 2 ^ 64 :=
    absorb_lt (absorb_lt (by decide) _) _
  unfold magnitude? at h
  dsimp only at h
  split at h
  · exact isFinite_of_ofParts? hsignificand h
  · split at h
    · unfold extreme? at h
      split at h
      · cases h
      · cases h
        rfl
    · exact isFinite_of_ofParts? hsignificand h

/-- **A number that is read as a double is read as a finite one.** -/
theorem isFinite_of_toFloat? {n : Number} {x : Float} (h : n.toFloat? = some x) :
    x.isFinite = true := by
  obtain ⟨y, hy, rfl⟩ := Option.map_eq_some_iff.1 h
  have hfinite := isFinite_of_magnitude? hy
  split
  · exact isFinite_neg hfinite
  · exact hfinite

/-! ## Doubles that are written -/

/-- Characters that write a number, and behind a minus sign its negative. -/
def WritesUnsigned (cs : List Char) : Prop :=
  ∃ whole places exponent, ∀ negative,
    Writes ⟨negative, whole, places, exponent⟩ ((if negative then ['-'] else []) ++ cs)

/-- Digits, a point and digits. -/
theorem writesUnsigned_point {whole ds : List Char} (hne : whole ≠ []) (hwhole : Numeral whole)
    (hzero : whole.length = 1 ∨ whole.head? ≠ some '0') (hne' : ds ≠ []) (hds : Numeral ds) :
    WritesUnsigned (whole ++ '.' :: ds) := by
  refine ⟨whole, some ds, none, fun negative => ?_⟩
  have hwrites : Writes ⟨negative, whole, some ds, none⟩ _ :=
    .mk hne hwhole hzero (.present hne' hds) .absent
  rwa [List.append_nil] at hwrites

/-- One digit, maybe a point and digits, and a power of ten with its sign. -/
theorem writesUnsigned_exponent {d : Char} {places : Option (List Char)} {ps ds : List Char}
    (hd : (digit? d).isSome) (hplaces : WritesPlaces places ps) (sign : ExponentSign)
    (hne : ds ≠ []) (hds : Numeral ds) :
    WritesUnsigned (d :: (ps ++ 'e' :: (signText sign ++ ds))) :=
  ⟨[d], places, some ⟨sign, ds⟩, fun _ => .mk (List.cons_ne_nil _ _) (by simpa [Numeral] using hd)
    (.inl rfl) hplaces (.present (.inl rfl) hne hds)⟩

section Layout

variable {ds : List Char} (hne : ds ≠ []) (hds : Numeral ds)

include hne hds

theorem writesUnsigned_positional (hhead : ds.head? ≠ some '0') (point : Int) :
    WritesUnsigned (positional true ds point) := by
  unfold positional
  by_cases hleft : point ≤ 0
  · have hplaces : Numeral (List.replicate (-point).toNat '0' ++ ds) :=
      numeral_append.2 ⟨numeral_replicate _, hds⟩
    rw [if_pos hleft]
    exact writesUnsigned_point (List.cons_ne_nil '0' []) (numeral_replicate 1) (.inl rfl)
      (by simp [hne]) hplaces
  · rw [if_neg hleft]
    dsimp only
    obtain ⟨c, cs, rfl⟩ := List.exists_cons_of_ne_nil hne
    obtain ⟨k, hk⟩ : ∃ k, point.toNat = k + 1 := ⟨point.toNat - 1, by omega⟩
    have hwhole : Numeral ((c :: cs).take point.toNat ++
        List.replicate (point.toNat - (c :: cs).length) '0') :=
      numeral_append.2 ⟨fun c hc => hds c (List.mem_of_mem_take hc), numeral_replicate _⟩
    rw [hk, List.take_succ_cons] at hwhole ⊢
    split
    · exact writesUnsigned_point (List.cons_ne_nil _ _) hwhole (.inr hhead)
        (List.cons_ne_nil '0' []) (numeral_replicate 1)
    · next hrest =>
      exact writesUnsigned_point (List.cons_ne_nil _ _) hwhole (.inr hhead)
        (fun h => hrest (List.isEmpty_iff.2 h)) fun c hc => hds c (List.mem_of_mem_drop hc)

theorem writesUnsigned_scientific (point : Int) : WritesUnsigned (scientific true ds point) := by
  obtain ⟨d, cs, rfl⟩ := List.exists_cons_of_ne_nil hne
  obtain ⟨hd, hcs⟩ := List.forall_mem_cons.1 hds
  have hplaces : ∃ places,
      WritesPlaces places (if cs.isEmpty then [] else '.' :: cs) := by
    split
    · exact ⟨none, .absent⟩
    · next hrest => exact ⟨some cs, .present (fun h => hrest (List.isEmpty_iff.2 h)) hcs⟩
  obtain ⟨places, hplaces⟩ := hplaces
  unfold scientific
  rcases hexponent : point - 1 with n | n
  · have hwrites :=
      writesUnsigned_exponent hd hplaces .plus (digits_ne_nil n) (numeral_digits n)
    simpa [ofInt, Decimal.ofNat, signText] using hwrites
  · have hwrites :=
      writesUnsigned_exponent hd hplaces .minus (digits_ne_nil (n + 1)) (numeral_digits (n + 1))
    simpa [ofInt, signText] using hwrites

end Layout

/-- A finite magnitude is written as a number. -/
theorem writesUnsigned_magnitude {s : Scaled} (hs : s.mantissa = 0 ∨ s.Canonical) :
    WritesUnsigned (layout.magnitude s) := by
  unfold Layout.magnitude
  split
  · exact writesUnsigned_point (List.cons_ne_nil '0' []) (numeral_replicate 1) (.inl rfl)
      (List.cons_ne_nil '0' []) (numeral_replicate 1)
  · next hne =>
    have hcanonical := hs.resolve_left hne
    obtain ⟨hpos, -, -⟩ := (attracts_shortest hcanonical layout.tie).size hcanonical
    dsimp only [layout] at hpos ⊢
    split
    · exact writesUnsigned_positional (digits_ne_nil _) (numeral_digits _) (head?_digits_ne hpos) _
    · exact writesUnsigned_scientific (digits_ne_nil _) (numeral_digits _) _

/-- **A finite double is written as a number.** -/
theorem exists_writes_write {x : Float} (hx : x.isFinite = true) :
    ∃ n : Number, n.Writes (layout.write x).toList := by
  have hmagnitude : x.isNaN = false ∧ x.isInf = false ∧
      ((magnitude x).mantissa = 0 ∨ (magnitude x).Canonical) := by
    rcases finite_cases hx with ⟨sign, rfl⟩ | ⟨s, hs, sign, rfl⟩
    · cases sign <;> exact ⟨rfl, rfl, .inl (by decide +kernel)⟩
    · rw [s.magnitude_toFloat hs]
      exact ⟨s.isNaN_toFloat hs sign, s.isInf_toFloat hs sign, .inr hs⟩
  obtain ⟨hnan, hinf, hs⟩ := hmagnitude
  obtain ⟨whole, places, exponent, hwrites⟩ := writesUnsigned_magnitude hs
  refine ⟨⟨isNegative x, whole, places, exponent⟩, ?_⟩
  unfold Layout.write
  rw [hnan, hinf, if_neg Bool.false_ne_true]
  dsimp only
  rw [if_neg Bool.false_ne_true, String.toList_ofList]
  exact hwrites (isNegative x)

theorem write_eq (n : Number) :
    n.write = (if n.negative then ['-'] else []) ++
      (n.whole ++ (n.places.elim [] ('.' :: ·) ++ n.exponent.elim [] exponentText)) := by
  obtain ⟨negative, whole, _ | places, _ | exponent⟩ := n <;> simp [write]

/-- The letter in front of a power of ten can be the small one. -/
theorem WritesExponent.writes_exponentText {e : Option Exponent} {es : List Char}
    (h : WritesExponent e es) : WritesExponent e (e.elim [] exponentText) := by
  cases h with
  | absent => exact .absent
  | @present letter sign ds hletter hne hds =>
    cases sign <;> exact .present (.inl rfl) hne hds

/-- A number that characters write is written by its own. -/
theorem Writes.writes_write {n : Number} {cs : List Char} (h : n.Writes cs) : n.Writes n.write := by
  cases h with
  | mk hne hwhole hzero hplaces hexponent =>
    rw [write_eq]
    refine .mk hne hwhole hzero ?_ hexponent.writes_exponentText
    cases hplaces with
    | absent => exact .absent
    | present hne hds => exact .present hne hds

/-- What is written for a double that is finite is the number that its text is read as. -/
theorem ofFloat?_eq_some {x : Float} {n : Number} (h : n.Writes (layout.write x).toList) :
    ofFloat? x = some n := by
  have hread : read? ((layout.write x).toList ++ []) = some (n, []) :=
    h.read?_append (by simp [Ends])
  rw [List.append_nil] at hread
  rw [ofFloat?, hread]

end StoreTrial.Json.Number
