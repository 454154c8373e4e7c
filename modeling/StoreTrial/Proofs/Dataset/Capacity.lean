import StoreTrial.Proofs.Config.Accepted
import StoreTrial.Proofs.Dataset.Texts

/-!
# Whether there are texts enough

A dataset needs as many distinct texts as it has pairs. The texts of a length are counted in 32
bits, which hold the powers of 62 up to the fifth; from the sixth on any size is said to be
possible. That is wrong as long as 64 bits can express a size beyond the power, which they can up to
the tenth. There no draws ever make a dataset of the size.

## Main results

* `enoughTexts_iff` — there are 62 to the power of the length of them.
* `Dataset.canBeDrawn_iff` — a dataset can be drawn exactly where there are texts enough.
* `canHold_exact_iff` — which answers are right.
-/

namespace StoreTrial

/-- Whether there are so many distinct texts of a length. -/
def EnoughTexts (size length : Nat) : Prop :=
  ∃ texts : List String, texts.length = size ∧ texts.Nodup ∧ ∀ text ∈ texts, IsRandom length text

/-- There are 62 to the power of the length of them. -/
theorem enoughTexts_iff {size length : Nat} :
    EnoughTexts size length ↔ size ≤ alphabetSize ^ length := by
  constructor
  · rintro ⟨texts, rfl, hnodup, hrandom⟩
    exact length_le_of_nodup hnodup hrandom
  · exact exists_nodup_texts

/-! ## Datasets -/

namespace Dataset

/-- Whether some draws of texts of a length make a dataset of a size. -/
def CanBeDrawn (size length : Nat) : Prop :=
  ∃ draws, (∀ text ∈ draws, IsRandom length text) ∧ (generate size draws).isSome

/-- A dataset can be drawn exactly where there are texts enough for its keys. -/
theorem canBeDrawn_iff {size length : Nat} : CanBeDrawn size length ↔ EnoughTexts size length := by
  constructor
  · rintro ⟨draws, hdraws, hsome⟩
    obtain ⟨⟨d, rest⟩, hgenerate⟩ := Option.isSome_iff_exists.1 hsome
    have hrandom : ∀ key ∈ d.keys, IsRandom length key := by
      intro key hkey
      obtain ⟨pair, hpair, rfl⟩ := List.mem_map.1 hkey
      exact hdraws _ ((mem_of_generate hgenerate).1 pair hpair).1
    refine ⟨d.keys, ?_, d.nodup, hrandom⟩
    rw [keys, List.length_map]
    exact size_generate hgenerate
  · rintro ⟨texts, rfl, hnodup, hrandom⟩
    obtain ⟨d, hgenerate, -⟩ := generate_twice hnodup []
    refine ⟨_, fun text htext => ?_, by rw [hgenerate]; rfl⟩
    rw [List.append_nil] at htext
    obtain ⟨key, hkey, htext⟩ := List.mem_flatMap.1 htext
    obtain rfl : text = key := by simpa using htext
    exact hrandom _ hkey

end Dataset

/-! ## The count in 32 bits -/

/-- Six characters are the least for which the number of texts does not fit 32 bits. -/
theorem two_pow_le_alphabetSize_pow_iff {n : Nat} : 2 ^ 32 ≤ alphabetSize ^ n ↔ 6 ≤ n := by
  refine ⟨fun h => ?_, le_pow_of_six_le⟩
  by_contra hlt
  have hle : alphabetSize ^ n ≤ alphabetSize ^ 5 := Nat.pow_le_pow_right (by decide) (by omega)
  exact absurd (Nat.le_trans h hle) (by decide)

/-- Eleven characters give more texts than any size that can be asked for. -/
theorem toNat_le_alphabetSize_pow {length : Nat} (h : 11 ≤ length) (size : UInt64) :
    size.toNat ≤ alphabetSize ^ length :=
  calc size.toNat ≤ 2 ^ 64 := Nat.le_of_lt size.toNat_lt
    _ ≤ alphabetSize ^ 11 := by decide
    _ ≤ alphabetSize ^ length := Nat.pow_le_pow_right (by decide) h

/--
**Where the count of texts is right.**  The answer is right if the length is not one from six to
ten, or if there are texts enough; and there only.  Where it is wrong it is yes, and no draws
whatever make a dataset of that size.
-/
theorem canHold_exact_iff (size length : UInt64) :
    ((canHold size length = true ↔ EnoughTexts size.toNat length.toNat) ↔
      length.toNat < 6 ∨ 10 < length.toNat ∨ size.toNat ≤ alphabetSize ^ length.toNat) ∧
    (canHold size length = true ∧ ¬ Dataset.CanBeDrawn size.toNat length.toNat ↔
      6 ≤ length.toNat ∧ length.toNat ≤ 10 ∧ alphabetSize ^ length.toNat < size.toNat) := by
  have hanswer : canHold size length = true ↔
      size.toNat ≤ alphabetSize ^ length.toNat ∨ 6 ≤ length.toNat := by
    rw [canHold_iff, two_pow_le_alphabetSize_pow_iff]
  have hlong : 10 < length.toNat → size.toNat ≤ alphabetSize ^ length.toNat := fun h =>
    toNat_le_alphabetSize_pow h size
  rw [Dataset.canBeDrawn_iff, enoughTexts_iff, hanswer]
  generalize alphabetSize ^ length.toNat = count at hlong ⊢
  omega

/-- One text more than there are of six characters is said to be possible. -/
theorem not_forall_canHold_exact :
    ¬ ∀ size length : UInt64,
      canHold size length = true ↔ size.toNat ≤ alphabetSize ^ length.toNat := by
  intro h
  have hyes : canHold 56800235585 6 = true := canHold_iff.2 (.inr (by decide))
  exact absurd ((h 56800235585 6).1 hyes) (by decide)

end StoreTrial
