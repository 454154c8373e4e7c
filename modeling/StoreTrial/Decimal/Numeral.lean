/-!
# Decimal numerals

Whole numbers as they are written in frames, settings and reports: no leading zeros, a minus sign
when negative. Reading is more permissive than writing: it takes leading zeros and, for signed
numbers, a plus sign.

## Main results

* `readNat?_digits` — what is written is read back as the same number.
* `readInt?_ofInt` — so are signed numbers.
-/

-- A power of whole numbers is always the core library's, whatever else is in scope.
attribute [instance (high), default_instance 20000] instPowNat

namespace StoreTrial.Decimal

/-! ## Digits -/

/-- The character of a digit. -/
def digitChar (d : Nat) : Char := Char.ofNat (48 + d)

/-- The digit a character stands for. -/
def digit? (c : Char) : Option Nat :=
  if '0'.toNat ≤ c.toNat ∧ c.toNat ≤ '9'.toNat then some (c.toNat - 48) else none

theorem digit?_digitChar {d : Nat} (h : d < 10) : digit? (digitChar d) = some d := by
  match d, h with
  | 0, _ | 1, _ | 2, _ | 3, _ | 4, _ | 5, _ | 6, _ | 7, _ | 8, _ | 9, _ => decide

/-- The digits of a number, the most significant first. -/
def digits (n : Nat) : List Char :=
  if n < 10 then [digitChar n] else digits (n / 10) ++ [digitChar (n % 10)]
  termination_by n

/-- How many digits a number is written with. -/
def length (n : Nat) : Nat := (digits n).length

theorem digits_ne_nil (n : Nat) : digits n ≠ [] := by
  unfold digits
  split <;> simp

/-! ## Whole numbers -/

/-- Appends the digits to a number already read. -/
def extend (acc : Nat) : List Char → Option Nat
  | [] => some acc
  | c :: cs => (digit? c).bind fun d => extend (acc * 10 + d) cs

/-- The number written by one or more digits. -/
def readNat? (cs : List Char) : Option Nat := if cs.isEmpty then none else extend 0 cs

theorem extend_append (acc : Nat) (xs ys : List Char) :
    extend acc (xs ++ ys) = (extend acc xs).bind fun n => extend n ys := by
  induction xs generalizing acc with
  | nil => rfl
  | cons c cs ih => cases h : digit? c <;> simp [extend, h, ih]

theorem extend_digits (n : Nat) : extend 0 (digits n) = some n := by
  induction n using Nat.strongRecOn with
  | _ n ih =>
    unfold digits
    split
    · next h => simp [extend, digit?_digitChar h]
    · next h =>
      have hlt : n / 10 < n := Nat.div_lt_self (by omega) (by decide)
      rw [extend_append, ih _ hlt]
      simp only [Option.bind_some, extend, digit?_digitChar (Nat.mod_lt n (by decide))]
      congr 1
      omega

/-- What is written is read back as the same number. -/
@[simp] theorem readNat?_digits (n : Nat) : readNat? (digits n) = some n := by
  simp [readNat?, digits_ne_nil, extend_digits]

/-- The numeral of a whole number. -/
def ofNat (n : Nat) : String := String.ofList (digits n)

/-- The numeral of a signed number. -/
def ofInt : Int → String
  | .ofNat n => ofNat n
  | .negSucc n => String.ofList ('-' :: digits (n + 1))

/-- Reads a whole number that may carry a plus sign. -/
def readUnsigned? : List Char → Option Nat
  | '+' :: cs => readNat? cs
  | cs => readNat? cs

/-- Reads a signed number; either sign may be written. -/
def readInt? : List Char → Option Int
  | '-' :: cs => (readNat? cs).map fun n => -(n : Int)
  | cs => (readUnsigned? cs).map fun n => (n : Int)

/-- No numeral begins with a sign. -/
theorem head_digits (n : Nat) (c : Char) (cs : List Char) (h : digits n = c :: cs) :
    c ≠ '-' ∧ c ≠ '+' := by
  have hread := readNat?_digits n
  rw [h] at hread
  constructor <;> rintro rfl <;> simp [readNat?, extend, digit?] at hread

theorem readUnsigned?_digits (n : Nat) : readUnsigned? (digits n) = some n := by
  unfold readUnsigned?
  split
  · next cs h => exact absurd rfl (head_digits n _ cs h).2
  · exact readNat?_digits n

/-- A signed number is read back from its numeral. -/
theorem readInt?_ofInt (i : Int) : readInt? (ofInt i).toList = some i := by
  cases i with
  | ofNat n =>
    simp only [ofInt, ofNat, String.toList_ofList]
    unfold readInt?
    split
    · next cs h => exact absurd rfl (head_digits n _ cs h).1
    · simp [readUnsigned?_digits]
  | negSucc n =>
    simp only [ofInt, String.toList_ofList, readInt?, readNat?_digits]
    rfl

/-! ## Numbers of 64 bits -/

/-- The numeral of a 64-bit signed number. -/
def ofInt64 (i : Int64) : String := ofInt i.toInt

/-- Reads a signed number that fits in 64 bits. -/
def readInt64? (text : String) : Option Int64 :=
  (readInt? text.toList).bind fun i =>
    if -2 ^ 63 ≤ i ∧ i < 2 ^ 63 then some (Int64.ofInt i) else none

@[simp] theorem readInt64?_ofInt64 (i : Int64) : readInt64? (ofInt64 i) = some i := by
  have hlow : -2 ^ 63 ≤ i.toInt := i.le_toInt
  have hhigh : i.toInt < 2 ^ 63 := i.toInt_lt
  simp only [readInt64?, ofInt64, readInt?_ofInt, Option.bind_some, Int64.ofInt_toInt]
  rw [if_pos ⟨hlow, hhigh⟩]

end StoreTrial.Decimal
