import Mathlib.Algebra.BigOperators.Group.List.Basic
import Mathlib.Algebra.Group.Action.Defs
import Mathlib.Data.List.Nodup
import Mathlib.Data.List.Perm.Subperm
import StoreTrial.Dataset

/-!
# Texts that can be drawn

A random text of a length is any sequence of so many letters and digits, and there are 62 to the
power of the length of them. Distinct texts are therefore never more than that; as many as that are
all of them, so that any further draw repeats one.

## Main results

* `mem_textsOf`, `length_textsOf` — the texts of a length in a list, and how many they are.
* `length_le_of_nodup` — there are no more distinct texts than that.
* `mem_of_length_eq` — as many distinct texts as there are leave none out.
* `Dataset.mem_of_generate` — a generated dataset is made of texts that were drawn.
* `Dataset.generate_twice` — distinct texts, each drawn twice, make a dataset.
-/

namespace StoreTrial

/-- Whether a text can come up as a random text of a length. -/
structure IsRandom (length : Nat) (text : String) : Prop where
  length_eq : text.toList.length = length
  mem_alphabet : ∀ c ∈ text.toList, c ∈ alphabet

instance (length : Nat) (text : String) : Decidable (IsRandom length text) :=
  decidable_of_iff (text.toList.length = length ∧ text.toList.all alphabet.contains = true)
    ⟨fun ⟨hlength, hmem⟩ => ⟨hlength, by simpa using hmem⟩,
      fun h => ⟨h.length_eq, by simpa using h.mem_alphabet⟩⟩

/-! ## All texts of a length -/

/-- The texts of a length, each once. -/
def textsOf : Nat → List String
  | 0 => [""]
  | n + 1 => alphabet.flatMap fun c => (textsOf n).map fun text => String.ofList (c :: text.toList)

theorem length_alphabet : alphabet.length = alphabetSize := by decide

theorem nodup_alphabet : alphabet.Nodup := by decide

theorem length_textsOf (n : Nat) : (textsOf n).length = alphabetSize ^ n := by
  induction n with
  | zero => rfl
  | succ n ih =>
    have hlengths : (alphabet.map fun c => ((textsOf n).map fun text =>
        String.ofList (c :: text.toList)).length) =
          List.replicate alphabetSize (alphabetSize ^ n) := by
      simp only [List.length_map, ih, List.map_const', length_alphabet]
    rw [textsOf, List.length_flatMap, hlengths, List.sum_replicate, smul_eq_mul, Nat.pow_succ']

theorem mem_textsOf {n : Nat} {text : String} : text ∈ textsOf n ↔ IsRandom n text := by
  induction n generalizing text with
  | zero =>
    constructor
    · intro h
      obtain rfl := List.mem_singleton.1 h
      exact ⟨rfl, by simp⟩
    · intro h
      have hnil : text.toList = [] := List.length_eq_zero_iff.1 h.length_eq
      exact List.mem_singleton.2 (String.toList_inj.1 hnil)
  | succ n ih =>
    simp only [textsOf, List.mem_flatMap, List.mem_map]
    constructor
    · rintro ⟨c, hc, rest, hrest, rfl⟩
      obtain ⟨hlength, hsubset⟩ := ih.1 hrest
      refine ⟨by simpa using hlength, ?_⟩
      rw [String.toList_ofList]
      exact List.forall_mem_cons.2 ⟨hc, hsubset⟩
    · rintro ⟨hlength, hsubset⟩
      obtain ⟨c, rest, htext⟩ := List.exists_cons_of_length_eq_add_one hlength
      rw [htext] at hlength hsubset
      obtain ⟨hc, hrest⟩ := List.forall_mem_cons.1 hsubset
      refine ⟨c, hc, String.ofList rest, ih.2 ⟨?_, ?_⟩, ?_⟩
      · simpa using hlength
      · rwa [String.toList_ofList]
      · rw [String.toList_ofList, ← htext, String.ofList_toList]

theorem nodup_textsOf (n : Nat) : (textsOf n).Nodup := by
  induction n with
  | zero => exact List.nodup_singleton ""
  | succ n ih =>
    have hinj : ∀ {c d : Char} {s t : String},
        String.ofList (c :: s.toList) = String.ofList (d :: t.toList) → c = d ∧ s = t := by
      intro c d s t h
      obtain ⟨rfl, hrest⟩ := List.cons.inj (String.ofList_injective h)
      exact ⟨rfl, String.toList_inj.1 hrest⟩
    rw [textsOf, List.nodup_flatMap]
    refine ⟨fun c _ => ih.map fun s t h => (hinj h).2, nodup_alphabet.imp fun hne => ?_⟩
    intro text hleft hright
    obtain ⟨s, -, rfl⟩ := List.mem_map.1 hleft
    obtain ⟨t, -, heq⟩ := List.mem_map.1 hright
    exact hne (hinj heq).1.symm

/-! ## Distinct texts -/

section Distinct

variable {n : Nat} {texts : List String} (hnodup : texts.Nodup)
  (hrandom : ∀ text ∈ texts, IsRandom n text)

include hnodup hrandom

theorem subperm_textsOf : texts.Subperm (textsOf n) :=
  List.subperm_of_subset hnodup fun text htext => mem_textsOf.2 (hrandom text htext)

/-- There are no more distinct texts of a length than letters and digits allow. -/
theorem length_le_of_nodup : texts.length ≤ alphabetSize ^ n :=
  Nat.le_trans (subperm_textsOf hnodup hrandom).length_le (Nat.le_of_eq (length_textsOf n))

/-- As many distinct texts as there are leave none out. -/
theorem mem_of_length_eq (hlength : texts.length = alphabetSize ^ n) {text : String}
    (htext : IsRandom n text) : text ∈ texts := by
  have hperm := (subperm_textsOf hnodup hrandom).perm_of_length_le
    (Nat.le_of_eq ((length_textsOf n).trans hlength.symm))
  exact hperm.mem_iff.2 (mem_textsOf.2 htext)

end Distinct

/-- So many distinct texts can be drawn, if there are so many at all. -/
theorem exists_nodup_texts {size n : Nat} (h : size ≤ alphabetSize ^ n) :
    ∃ texts : List String, texts.length = size ∧ texts.Nodup ∧ ∀ text ∈ texts, IsRandom n text := by
  refine ⟨(textsOf n).take size, ?_, (nodup_textsOf n).sublist (List.take_sublist ..), ?_⟩
  · rw [List.length_take, length_textsOf, Nat.min_eq_left h]
  · exact fun text htext => mem_textsOf.1 (List.mem_of_mem_take htext)

/-! ## Datasets -/

namespace Dataset

theorem mem_of_draw {size : Nat} {seen draws rest : List String} {pairs : List (String × String)}
    (h : draw size seen draws = some (pairs, rest)) :
    (∀ pair ∈ pairs, pair.1 ∈ draws ∧ pair.2 ∈ draws) ∧ ∀ text ∈ rest, text ∈ draws := by
  fun_induction draw size seen draws generalizing pairs rest with
  | case1 =>
    cases h
    simp
  | case2 => cases h
  | case3 size seen key draws _ ih =>
    obtain ⟨hpairs, hrest⟩ := ih h
    exact ⟨fun pair hpair => ⟨.tail _ (hpairs pair hpair).1, .tail _ (hpairs pair hpair).2⟩,
      fun text htext => .tail _ (hrest text htext)⟩
  | case4 => cases h
  | case5 size seen key _ value draws ih =>
    obtain ⟨⟨pairs', rest'⟩, hdraw, heq⟩ := Option.map_eq_some_iff.1 h
    cases heq
    obtain ⟨hpairs, hrest⟩ := ih hdraw
    refine ⟨List.forall_mem_cons.2 ⟨⟨.head _, .tail _ (.head _)⟩, fun pair hpair => ?_⟩,
      fun text htext => .tail _ (.tail _ (hrest text htext))⟩
    exact ⟨.tail _ (.tail _ (hpairs pair hpair).1), .tail _ (.tail _ (hpairs pair hpair).2)⟩

/-- A generated dataset is made of texts that were drawn, and so is what is left. -/
theorem mem_of_generate {size : Nat} {draws rest : List String} {d : Dataset}
    (h : generate size draws = some (d, rest)) :
    (∀ pair ∈ d.pairs, pair.1 ∈ draws ∧ pair.2 ∈ draws) ∧ ∀ text ∈ rest, text ∈ draws := by
  unfold generate at h
  split at h
  · cases h
  · next hdraw =>
    cases h
    exact mem_of_draw hdraw

theorem draw_twice {keys seen : List String} (hnodup : keys.Nodup) (hnew : ∀ key ∈ keys, key ∉ seen)
    (rest : List String) :
    draw keys.length seen (keys.flatMap (fun key => [key, key]) ++ rest) =
      some (keys.map fun key => (key, key), rest) := by
  induction keys generalizing seen with
  | nil => rw [List.length_nil, List.flatMap_nil, List.nil_append, draw, List.map_nil]
  | cons key keys ih =>
    rw [List.nodup_cons] at hnodup
    obtain ⟨hkey, hkeys⟩ := List.forall_mem_cons.1 hnew
    have hlater : ∀ other ∈ keys, other ∉ key :: seen := by
      intro other hother hmem
      obtain rfl | hseen := List.mem_cons.1 hmem
      · exact hnodup.1 hother
      · exact hkeys other hother hseen
    rw [List.flatMap_cons, List.length_cons]
    simp only [List.cons_append, List.nil_append]
    rw [draw, if_neg hkey]
    simp only [ih hnodup.2 hlater]
    rfl

theorem generate_eq {size : Nat} {draws rest : List String} {pairs : List (String × String)}
    (h : draw size [] draws = some (pairs, rest)) :
    generate size draws = some (⟨pairs, (not_mem_of_draw h).2⟩, rest) := by
  unfold generate
  split
  · next hnone =>
    rw [h] at hnone
    cases hnone
  · next hsome =>
    rw [h] at hsome
    cases hsome
    rfl

/-- Distinct texts, each drawn twice, make a dataset. -/
theorem generate_twice {keys : List String} (hnodup : keys.Nodup) (rest : List String) :
    ∃ d : Dataset, generate keys.length (keys.flatMap (fun key => [key, key]) ++ rest) =
      some (d, rest) ∧ d.keys = keys :=
  ⟨_, generate_eq (draw_twice hnodup (by simp) rest), by simp [Dataset.keys, Function.comp_def]⟩

end Dataset

end StoreTrial
