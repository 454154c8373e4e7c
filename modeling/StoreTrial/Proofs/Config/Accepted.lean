import StoreTrial.Config.Validate

/-!
# What accepted settings are known to have

A configuration is accepted if none of its parts has a problem. For the correctness harness this
comes to positive numbers of pairs, messages, versions and characters, and to texts enough for the
largest dataset; but the texts are counted in 32 bits, and when there are more of them than that any
size is accepted.

## Main results

* `canHold_iff` — a dataset is held to the number of texts only where that fits 32 bits.
* `ConformanceConfig.validate_eq_ok_iff` — what is asked of the settings of the correctness harness.
* `BenchConfig.validate_eq_ok_iff`, `LoadConfig.validate_eq_ok_iff` — the same for the other two.
* `Config.validate_eq_ok_iff` — a configuration is accepted if each of its parts is.
-/

namespace StoreTrial

/-! ## Texts enough -/

/-- A power is answered if it is below the bound. -/
theorem powBelow_eq {bound base : Nat} (hbase : 0 < base) (exponent : Nat) {acc : Nat}
    (hacc : acc < bound) :
    powBelow bound base exponent acc =
      if acc * base ^ exponent < bound then some (acc * base ^ exponent) else none := by
  induction exponent generalizing acc with
  | zero => simp [powBelow, hacc]
  | succ n ih =>
    have hpow : acc * base ^ (n + 1) = acc * base * base ^ n := by
      rw [Nat.pow_succ', Nat.mul_assoc]
    rw [powBelow, hpow]
    split
    · next hnext => exact ih hnext
    · next hnext =>
      -- the powers that follow are no smaller
      have hle : acc * base ≤ acc * base * base ^ n :=
        Nat.le_mul_of_pos_right _ (Nat.pow_pos hbase)
      rw [if_neg (by omega)]

/-- Texts of six characters are too many to be counted, and so are longer ones. -/
theorem le_pow_of_six_le {n : Nat} (h : 6 ≤ n) : 2 ^ 32 ≤ alphabetSize ^ n :=
  Nat.le_trans (by decide) (Nat.pow_le_pow_right (by decide) h)

/-- A cap on the length does not matter to the count. -/
theorem pow_min {cap : Nat} (hcap : 6 ≤ cap) (length : Nat) :
    alphabetSize ^ min length cap = alphabetSize ^ length ∨
      2 ^ 32 ≤ alphabetSize ^ min length cap ∧ 2 ^ 32 ≤ alphabetSize ^ length := by
  rcases Nat.le_total length cap with hle | hle
  · exact .inl (by rw [Nat.min_eq_left hle])
  · rw [Nat.min_eq_right hle]
    exact .inr ⟨le_pow_of_six_le hcap, le_pow_of_six_le (Nat.le_trans hcap hle)⟩

/-- A dataset is held to the number of texts only where that number fits 32 bits. -/
theorem canHold_iff {size length : UInt64} :
    canHold size length = true ↔
      size.toNat ≤ alphabetSize ^ length.toNat ∨ 2 ^ 32 ≤ alphabetSize ^ length.toNat := by
  unfold canHold
  rw [powBelow_eq (by decide) _ (by decide), Nat.one_mul]
  rcases pow_min (by decide : 6 ≤ 2 ^ 32 - 1) length.toNat with heq | ⟨hmin, hlength⟩
  · rw [heq]
    split <;> rename_i h <;> split at h
    · next hlt =>
      cases h
      simp only [decide_eq_true_eq]
      exact ⟨.inl, fun h => h.elim id fun hle => absurd hlt (Nat.not_lt.2 hle)⟩
    · cases h
    · cases h
    · next hge => exact iff_of_true rfl (.inr (Nat.not_lt.1 hge))
  · rw [if_neg (Nat.not_lt.2 hmin)]
    exact iff_of_true rfl (.inr hlength)

/-! ## Checks in turn -/

theorem refuseIf_eq_ok_iff {condition : Bool} {problem : ConfigProblem} :
    refuseIf condition problem = .ok () ↔ condition = false := by
  cases condition <;> simp [refuseIf]

/-- Checks one after another pass if each of them does. -/
theorem check_bind_eq_ok_iff {check : Except ConfigProblem Unit}
    {next : Unit → Except ConfigProblem Unit} :
    (check >>= next) = .ok () ↔ check = .ok () ∧ next () = .ok () := by
  cases check with
  | error problem => simp [bind, Except.bind]
  | ok _ => simp [bind, Except.bind]

/-! ## The correctness harness -/

/-- What is asked of the settings of the correctness harness. -/
structure ConformanceConfig.Accepted (c : ConformanceConfig) : Prop where
  kvSize : c.kvSize ≠ 0
  txSize : c.txSize ≠ 0
  mergeSize : c.mergeSize ≠ 0
  textLength : c.textLength ≠ 0
  messageCount : c.messageCount ≠ 0
  largest : canHold c.largest c.textLength = true
  mergeVersions : c.mergeVersions ≠ 0
  mergeDeleteEvery : c.mergeDeleteEvery ≠ 0

/-- The settings of the correctness harness pass if they have what is asked of them. -/
theorem ConformanceConfig.validate_eq_ok_iff {c : ConformanceConfig} :
    c.validate = .ok () ↔ c.Accepted := by
  simp only [validate, check_bind_eq_ok_iff, refuseIf_eq_ok_iff, Bool.or_eq_false_iff,
    beq_eq_false_iff_ne, Bool.not_eq_false']
  constructor
  · rintro ⟨⟨⟨hkv, htx⟩, hmerge⟩, htext, hcount, hlargest, hversions, hevery⟩
    exact ⟨hkv, htx, hmerge, htext, hcount, hlargest, hversions, hevery⟩
  · rintro ⟨hkv, htx, hmerge, htext, hcount, hlargest, hversions, hevery⟩
    exact ⟨⟨⟨hkv, htx⟩, hmerge⟩, htext, hcount, hlargest, hversions, hevery⟩

/-! ## The benchmark and the load -/

/-- The settings of the benchmark pass if there are calls to make and sizes to make them with. -/
theorem BenchConfig.validate_eq_ok_iff {c : BenchConfig} :
    c.validate = .ok () ↔ c.iterations ≠ 0 ∧ c.minSize ≠ 0 ∧ c.minSize ≤ c.maxSize := by
  simp only [validate, check_bind_eq_ok_iff, refuseIf_eq_ok_iff, beq_eq_false_iff_ne,
    decide_eq_false_iff_not, UInt64.not_lt]

/-- The settings of the load pass if there are users, a rate to start them and tasks. -/
theorem LoadConfig.validate_eq_ok_iff {c : LoadConfig} :
    c.validate = .ok () ↔ c.users ≠ 0 ∧ isUsableRate c.spawnRate = true ∧ c.tasks ≠ [] := by
  simp only [validate, check_bind_eq_ok_iff, refuseIf_eq_ok_iff, beq_eq_false_iff_ne,
    Bool.not_eq_false', List.isEmpty_eq_false_iff]

/-! ## All settings -/

/-- A configuration is accepted if each of its parts is. -/
theorem Config.validate_eq_ok_iff {c : Config} :
    c.validate = .ok () ↔
      c.target.validate = .ok () ∧ (∀ reference ∈ c.reference, reference.validate = .ok ()) ∧
      c.conformance.Accepted ∧ c.bench.validate = .ok () ∧ c.load.validate = .ok () := by
  rw [validate, check_bind_eq_ok_iff, ← ConformanceConfig.validate_eq_ok_iff]
  cases hreference : c.reference with
  | none => simp [check_bind_eq_ok_iff]
  | some reference => simp [check_bind_eq_ok_iff]

/-- The correctness harness of an accepted configuration has what is asked of it. -/
theorem Config.conformance_of_validate {c : Config} (h : c.validate = .ok ()) :
    c.conformance.Accepted := (validate_eq_ok_iff.1 h).2.2.1

end StoreTrial
