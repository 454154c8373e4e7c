import StoreTrial.Bytes

/-!
# Tables

A table holds values under keys. Its view is `get?`; each operation is described by what it does to
that view.

## Main results

* `Table.get?_insert`, `Table.get?_erase` — an operation on a key leaves all other keys alone.
-/

namespace StoreTrial

/-- Values under keys, each key at most once. -/
structure Table (α : Type) where
  pairs : List (Bytes × α) := []
  deriving Repr

namespace Table

variable {α : Type}

/-- The value under a key. -/
def get? (t : Table α) (key : Bytes) : Option α := t.pairs.lookup key

/-- The table without a key. -/
def erase (t : Table α) (key : Bytes) : Table α := ⟨t.pairs.filter fun pair => pair.1 != key⟩

/-- The table with a value under a key. -/
def insert (t : Table α) (key : Bytes) (a : α) : Table α := ⟨(key, a) :: (t.erase key).pairs⟩

/-- The table of the pairs whose value passes a test. -/
def filter (t : Table α) (test : α → Bool) : Table α := ⟨t.pairs.filter fun pair => test pair.2⟩

@[simp] theorem get?_empty (key : Bytes) : get? (⟨[]⟩ : Table α) key = none := rfl

theorem get?_erase (t : Table α) (key other : Bytes) :
    (t.erase key).get? other = if other = key then none else t.get? other := by
  obtain ⟨pairs⟩ := t
  simp only [get?, erase]
  induction pairs with
  | nil => simp
  | cons pair pairs ih =>
    obtain ⟨k, a⟩ := pair
    by_cases hk : k = key
    · subst hk
      by_cases ho : other = k
      · simpa [ho] using ih
      · have hbeq : (other == k) = false := by simp [ho]
        simpa [ho, List.lookup_cons, hbeq] using ih
    · by_cases ho : other = k
      · subst ho
        simp [hk]
      · have hbeq : (other == k) = false := by simp [ho]
        simpa [hk, List.lookup_cons, hbeq] using ih

theorem get?_insert (t : Table α) (key other : Bytes) (a : α) :
    (t.insert key a).get? other = if other = key then some a else t.get? other := by
  by_cases h : other = key
  · simp [get?, insert, h]
  · have hbeq : (other == key) = false := by simp [h]
    have := get?_erase t key other
    simp only [h, if_false, get?] at this
    simp [get?, insert, h, List.lookup_cons, hbeq, this]

end Table

end StoreTrial
