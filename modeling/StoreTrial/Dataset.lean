import StoreTrial.Decimal.Numeral

/-!
# Test data

Cases write ordered pairs of random alphanumeric texts under distinct keys. Random texts come from
outside as a list of draws; a dataset takes as many of them as it needs. The benchmark climbs a
ladder of payload sizes, the powers of two in a range.

## Main results

* `firstOf_nodup` — keeping the first pair of each key leaves distinct keys.
* `Dataset.size_generate` — a generated dataset has exactly the size asked for.
-/

namespace StoreTrial

/-! ## Random texts -/

/-- The letters and digits that random texts are made of. -/
def alphabet : List Char :=
  "ABCDEFGHIJKLMNOPQRSTUVWXYZabcdefghijklmnopqrstuvwxyz0123456789".toList

/-- How many letters and digits there are. -/
def alphabetSize : Nat := 62

/-- A power, unless it reaches the bound. -/
def powBelow (bound base : Nat) : (exponent : Nat) → (acc : Nat) → Option Nat
  | 0, acc => some acc
  | n + 1, acc => if acc * base < bound then powBelow bound base n (acc * base) else none

/--
Whether there are enough texts of a length for so many distinct ones. The number of texts is
counted in 32 bits, and when it does not fit there are taken to be enough.
-/
def canHold (size length : UInt64) : Bool :=
  match powBelow (2 ^ 32) alphabetSize (min length.toNat (2 ^ 32 - 1)) 1 with
  | some count => size.toNat ≤ count
  | none => true

/-! ## Pairs under distinct keys -/

/-- The pairs whose key is not among `seen` and occurs for the first time. -/
def firstOf (seen : List String) : List (String × String) → List (String × String)
  | [] => []
  | (key, value) :: pairs =>
    if key ∈ seen then firstOf seen pairs else (key, value) :: firstOf (key :: seen) pairs

theorem not_mem_of_mem_firstOf {seen : List String} {pairs : List (String × String)} {key : String}
    (h : key ∈ (firstOf seen pairs).map Prod.fst) : key ∉ seen := by
  induction pairs generalizing seen with
  | nil => simp [firstOf] at h
  | cons pair pairs ih =>
    obtain ⟨k, v⟩ := pair
    simp only [firstOf] at h
    split at h
    · exact ih h
    · next hk =>
      rcases List.mem_cons.1 h with rfl | h
      · exact hk
      · exact fun hseen => ih h (List.mem_cons_of_mem _ hseen)

/-- Keeping the first pair of each key leaves distinct keys. -/
theorem firstOf_nodup (seen : List String) (pairs : List (String × String)) :
    ((firstOf seen pairs).map Prod.fst).Nodup := by
  induction pairs generalizing seen with
  | nil => simp [firstOf]
  | cons pair pairs ih =>
    obtain ⟨k, v⟩ := pair
    simp only [firstOf]
    split
    · exact ih seen
    · rw [List.map_cons, List.nodup_cons]
      exact ⟨fun h => not_mem_of_mem_firstOf h (List.mem_cons_self ..), ih _⟩

/-- Pairs of texts in order, under distinct keys. -/
structure Dataset where
  pairs : List (String × String)
  nodup : (pairs.map Prod.fst).Nodup

namespace Dataset

/-- The dataset of the given pairs; a key that occurs again is dropped. -/
def ofPairs (pairs : List (String × String)) : Dataset :=
  ⟨firstOf [] pairs, firstOf_nodup [] pairs⟩

/-- How many pairs there are. -/
def size (d : Dataset) : Nat := d.pairs.length

/-- The keys in order. -/
def keys (d : Dataset) : List String := d.pairs.map Prod.fst

/-- Whether an index lies in the half that conditional writes find in place, midpoint included. -/
def inFirstHalf (d : Dataset) (i : Nat) : Bool := i ≤ d.size / 2

/-- The pairs of the first half. -/
def early (d : Dataset) : List (String × String) := d.pairs.take (d.size / 2 + 1)

/-- The pairs that follow the first half. -/
def late (d : Dataset) : List (String × String) := d.pairs.drop (d.size / 2 + 1)

@[simp] theorem early_append_late (d : Dataset) : d.early ++ d.late = d.pairs :=
  List.take_append_drop ..

/--
Draws pairs until there are `size` more: a text that is new becomes a key and the next text its
value, and a text that was a key before is passed over. There is no answer if the draws run out.
-/
def draw : (size : Nat) → (seen draws : List String) →
    Option (List (String × String) × List String)
  | 0, _, draws => some ([], draws)
  | _ + 1, _, [] => none
  | size + 1, seen, key :: draws =>
    if key ∈ seen then draw (size + 1) seen draws
    else
      match draws with
      | [] => none
      | value :: draws =>
        (draw size (key :: seen) draws).map fun (pairs, rest) => ((key, value) :: pairs, rest)
  termination_by _ _ draws => draws.length
  decreasing_by all_goals (simp only [List.length_cons]; omega)

theorem length_of_draw {size : Nat} {seen draws rest : List String}
    {pairs : List (String × String)} (h : draw size seen draws = some (pairs, rest)) :
    pairs.length = size := by
  fun_induction draw size seen draws generalizing pairs rest with
  | case1 =>
    cases h
    rfl
  | case2 => cases h
  | case3 _ _ _ _ _ ih => exact ih h
  | case4 => cases h
  | case5 _ _ _ _ _ _ ih =>
    obtain ⟨⟨pairs', rest'⟩, hdraw, heq⟩ := Option.map_eq_some_iff.1 h
    cases heq
    rw [List.length_cons, ih hdraw]

theorem not_mem_of_draw {size : Nat} {seen draws rest : List String}
    {pairs : List (String × String)} (h : draw size seen draws = some (pairs, rest)) :
    (∀ key ∈ pairs.map Prod.fst, key ∉ seen) ∧ (pairs.map Prod.fst).Nodup := by
  fun_induction draw size seen draws generalizing pairs rest with
  | case1 =>
    cases h
    simp
  | case2 => cases h
  | case3 _ _ _ _ _ ih => exact ih h
  | case4 => cases h
  | case5 size seen key hkey value draws ih =>
    obtain ⟨⟨pairs', rest'⟩, hdraw, heq⟩ := Option.map_eq_some_iff.1 h
    cases heq
    obtain ⟨hnew, hnodup⟩ := ih hdraw
    constructor
    · intro k hk
      rcases List.mem_cons.1 hk with rfl | hk
      · exact hkey
      · exact fun hseen => hnew k hk (List.mem_cons_of_mem _ hseen)
    · rw [List.map_cons, List.nodup_cons]
      exact ⟨fun hk => hnew key hk (List.mem_cons_self ..), hnodup⟩

/-- A dataset of a size from the draws, and the draws that are left. -/
def generate (size : Nat) (draws : List String) : Option (Dataset × List String) :=
  match h : draw size [] draws with
  | none => none
  | some (pairs, rest) => some (⟨pairs, (not_mem_of_draw h).2⟩, rest)

/-- A generated dataset has exactly the size asked for. -/
theorem size_generate {size : Nat} {draws rest : List String} {d : Dataset}
    (h : generate size draws = some (d, rest)) : d.size = size := by
  unfold generate at h
  split at h
  · cases h
  · next hdraw =>
    cases h
    exact length_of_draw hdraw

end Dataset

/-! ## The ladder of payload sizes -/

/-- The powers of two from the one at or below `least` to the one at or below `greatest`. -/
def payloadSizes (least greatest : UInt64) : List Nat :=
  if least = 0 ∨ greatest < least then []
  else
    let low := least.toNat.log2
    (List.range' low (greatest.toNat.log2 + 1 - low)).map (2 ^ ·)

end StoreTrial
