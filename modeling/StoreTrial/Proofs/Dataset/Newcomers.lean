import StoreTrial.Proofs.Dataset.Texts

/-!
# One pair under each key

A dataset is made of given pairs or of draws, and both ways it has the pairs whose key is new where
they come: given pairs are passed over if an earlier one has their key, and so are drawn keys,
behind which no value is drawn then.  What is new where it comes is said here by positions, without
the keys that are kept along the way; and drawing is told in turns, each of which takes a key and
perhaps its value, so that the draws are the turns one after another.

## Main results

* `newcomers_cons`, `mem_keys_newcomers`, `nodup_keys_newcomers` — what keeping newcomers comes to.
* `firstOf_eq_newcomers` — keeping the first pair of each key keeps the newcomers.
* `Dataset.generate_eq_some_iff` — draws make a dataset exactly if they are turns of that kind.
* `Dataset.one_pair_under_each_key` — both ways to make a dataset.
-/

namespace StoreTrial

/-! ## Newcomers -/

section Newcomers

variable {α β : Type} [DecidableEq β] (key : α → β)

/-- The members whose key is neither among the earlier ones nor that of a member before them, in
order. -/
def newcomers (earlier : List β) (as : List α) : List α :=
  (as.zipIdx.filter fun (a, i) => key a ∉ earlier ++ (as.take i).map key).map Prod.fst

variable {key} {earlier : List β}

@[simp] theorem newcomers_nil : newcomers key earlier [] = [] := rfl

/-- Members behind another one are judged by its key as well. -/
theorem filter_zipIdx_tail (a : α) (as : List α) {keys : List β}
    (h : ∀ k, k ∈ keys ↔ k = key a ∨ k ∈ earlier) :
    ((as.zipIdx 1).filter fun (b, i) => key b ∉ earlier ++ ((a :: as).take i).map key).map
      Prod.fst = newcomers key keys as := by
  rw [List.zipIdx_succ, List.filter_map, List.map_map, newcomers]
  congr 1
  apply List.filter_congr
  intro ⟨b, i⟩ _
  simp only [Function.comp_apply, List.take_succ_cons, List.map_cons, List.mem_append,
    List.mem_cons, h]
  rw [decide_eq_decide]
  tauto

theorem newcomers_cons (a : α) (as : List α) :
    newcomers key earlier (a :: as) =
      if key a ∈ earlier then newcomers key earlier as
      else a :: newcomers key (key a :: earlier) as := by
  rw [newcomers, List.zipIdx_cons, List.filter_cons]
  simp only [List.take_zero, List.map_nil, List.append_nil]
  by_cases ha : key a ∈ earlier
  · rw [if_neg (by simpa using ha), if_pos ha]
    apply filter_zipIdx_tail a as
    intro k
    constructor
    · exact .inr
    · rintro (rfl | hk)
      · exact ha
      · exact hk
  · rw [if_pos (by simpa using ha), if_neg ha, List.map_cons, filter_zipIdx_tail a as]
    exact fun k => List.mem_cons

/-- The keys of newcomers are all those that come and are no earlier ones. -/
theorem mem_keys_newcomers {as : List α} {k : β} :
    k ∈ (newcomers key earlier as).map key ↔ k ∈ as.map key ∧ k ∉ earlier := by
  induction as generalizing earlier with
  | nil => simp
  | cons a as ih =>
    rw [newcomers_cons, List.map_cons, List.mem_cons]
    split
    · next ha =>
      rw [ih]
      constructor
      · rintro ⟨hk, hnew⟩
        exact ⟨.inr hk, hnew⟩
      · rintro ⟨rfl | hk, hnew⟩
        · exact absurd ha hnew
        · exact ⟨hk, hnew⟩
    · next ha =>
      rw [List.map_cons, List.mem_cons, ih, List.mem_cons]
      constructor
      · rintro (rfl | ⟨hk, hnew⟩)
        · exact ⟨.inl rfl, ha⟩
        · exact ⟨.inr hk, fun h => hnew (.inr h)⟩
      · rintro ⟨hk, hnew⟩
        by_cases heq : k = key a
        · exact .inl heq
        · exact .inr ⟨hk.resolve_left heq, fun h => h.elim heq hnew⟩

theorem nodup_keys_newcomers (as : List α) : ((newcomers key earlier as).map key).Nodup := by
  induction as generalizing earlier with
  | nil => exact List.nodup_nil
  | cons a as ih =>
    rw [newcomers_cons]
    split
    · exact ih
    · rw [List.map_cons, List.nodup_cons]
      exact ⟨fun h => (mem_keys_newcomers.1 h).2 List.mem_cons_self, ih⟩

/-- Where no key comes twice all members are newcomers. -/
theorem newcomers_of_nodup {as : List α} (hnodup : (as.map key).Nodup)
    (hnew : ∀ a ∈ as, key a ∉ earlier) : newcomers key earlier as = as := by
  induction as generalizing earlier with
  | nil => rfl
  | cons a as ih =>
    rw [List.map_cons, List.nodup_cons] at hnodup
    obtain ⟨ha, has⟩ := List.forall_mem_cons.1 hnew
    rw [newcomers_cons, if_neg ha, ih hnodup.2]
    intro b hb hmem
    rcases List.mem_cons.1 hmem with heq | hmem
    · exact hnodup.1 (heq ▸ List.mem_map_of_mem hb)
    · exact has b hb hmem

end Newcomers

/-! ## Given pairs -/

theorem firstOf_eq_newcomers (seen : List String) (pairs : List (String × String)) :
    firstOf seen pairs = newcomers Prod.fst seen pairs := by
  induction pairs generalizing seen with
  | nil => rfl
  | cons pair pairs ih =>
    obtain ⟨key, value⟩ := pair
    rw [firstOf, newcomers_cons, ih, ih]

namespace Dataset

theorem pairs_ofPairs (pairs : List (String × String)) :
    (ofPairs pairs).pairs = newcomers Prod.fst [] pairs := firstOf_eq_newcomers [] pairs

/-- The dataset of a dataset's own pairs is that dataset. -/
theorem ofPairs_pairs (d : Dataset) : ofPairs d.pairs = d := by
  obtain ⟨pairs, hnodup⟩ := d
  rw [ofPairs, mk.injEq, firstOf_eq_newcomers]
  exact newcomers_of_nodup hnodup (by simp)

/-! ## Drawn pairs -/

/-- One turn of drawing pairs: the text that is drawn as a key, and the one behind it if it is drawn
as a value. -/
structure Turn where
  key : String
  value : Option String

/-- The texts that a turn draws. -/
def Turn.draws (t : Turn) : List String := t.key :: t.value.toList

/-- The pair that a turn adds. -/
def Turn.pair? (t : Turn) : Option (String × String) := t.value.map (t.key, ·)

/-- Whether a value is drawn behind those keys that no earlier turn has drawn, and only these. -/
def Paired (seen : List String) (turns : List Turn) : Prop :=
  ∀ i, ∀ t ∈ turns[i]?, t.value.isSome ↔ t.key ∉ seen ++ (turns.take i).map Turn.key

theorem paired_nil {seen : List String} : Paired seen [] := by
  intro i t ht
  cases ht

theorem paired_cons {seen : List String} {t : Turn} {turns : List Turn} {keys : List String}
    (hkeys : ∀ k, k ∈ keys ↔ k = t.key ∨ k ∈ seen) :
    Paired seen (t :: turns) ↔ (t.value.isSome ↔ t.key ∉ seen) ∧ Paired keys turns := by
  unfold Paired
  rw [← Nat.and_forall_add_one]
  simp [hkeys, or_left_comm, or_assoc]

/-- A known key draws no value. -/
theorem paired_known_cons {seen : List String} {key : String} {turns : List Turn} :
    Paired seen (⟨key, none⟩ :: turns) ↔ key ∈ seen ∧ Paired seen turns := by
  by_cases hkey : key ∈ seen
  · have hkeys (k : String) : k ∈ seen ↔ k = key ∨ k ∈ seen := by
      rw [iff_or_self]
      rintro rfl
      exact hkey
    rw [paired_cons hkeys]
    simp [hkey]
  · rw [paired_cons fun k => List.mem_cons]
    simp [hkey]

/-- A new key draws a value and is known from then on. -/
theorem paired_new_cons {seen : List String} {key value : String} {turns : List Turn} :
    Paired seen (⟨key, some value⟩ :: turns) ↔ key ∉ seen ∧ Paired (key :: seen) turns := by
  rw [paired_cons fun k => List.mem_cons]
  simp

/-- The keys of the pairs are the drawn keys that repeat none before them. -/
theorem keys_pairs {seen : List String} {turns : List Turn} (h : Paired seen turns) :
    (turns.filterMap Turn.pair?).map Prod.fst = newcomers id seen (turns.map Turn.key) := by
  induction turns generalizing seen with
  | nil => rfl
  | cons t turns ih =>
    rw [List.map_cons, newcomers_cons, id]
    obtain ⟨key, _ | value⟩ := t
    · obtain ⟨hkey, hturns⟩ := paired_known_cons.1 h
      rw [if_pos hkey, ← ih hturns]
      rfl
    · obtain ⟨hkey, hturns⟩ := paired_new_cons.1 h
      rw [if_neg hkey, ← ih hturns]
      rfl

/-- Whether turns are those in which draws make pairs: they take the draws up to the rest, pair
values with new keys, and end with the last pair. -/
structure Draws (seen draws rest : List String) (pairs : List (String × String))
    (turns : List Turn) : Prop where
  draws_eq : draws = turns.flatMap Turn.draws ++ rest
  paired : Paired seen turns
  last : ∀ t ∈ turns.getLast?, t.value.isSome
  pairs_eq : pairs = turns.filterMap Turn.pair?

theorem exists_draws_of_draw {size : Nat} {seen draws rest : List String}
    {pairs : List (String × String)} (h : draw size seen draws = some (pairs, rest)) :
    ∃ turns, Draws seen draws rest pairs turns := by
  fun_induction draw size seen draws generalizing pairs rest with
  | case1 =>
    cases h
    exact ⟨[], rfl, paired_nil, by simp, rfl⟩
  | case2 => cases h
  | case3 size seen key draws hkey ih =>
    obtain ⟨turns, rfl, hpaired, hlast, rfl⟩ := ih h
    have hne : turns ≠ [] := by
      rintro rfl
      exact absurd (length_of_draw h) (by simp)
    refine ⟨⟨key, none⟩ :: turns, rfl, paired_known_cons.2 ⟨hkey, hpaired⟩, ?_, rfl⟩
    rwa [List.getLast?_cons_of_ne_nil hne]
  | case4 => cases h
  | case5 size seen key hkey value draws ih =>
    obtain ⟨⟨pairs', rest'⟩, hdraw, heq⟩ := Option.map_eq_some_iff.1 h
    cases heq
    obtain ⟨turns, rfl, hpaired, hlast, rfl⟩ := ih hdraw
    refine ⟨⟨key, some value⟩ :: turns, rfl, paired_new_cons.2 ⟨hkey, hpaired⟩, ?_, rfl⟩
    cases turns with
    | nil => simp
    | cons t turns => rwa [List.getLast?_cons_cons]

/-- Turns that end with a pair add one at least. -/
theorem exists_pair_of_last {turns : List Turn} (hne : turns ≠ [])
    (hlast : ∀ t ∈ turns.getLast?, t.value.isSome) :
    ∃ pair pairs, turns.filterMap Turn.pair? = pair :: pairs := by
  apply List.exists_cons_of_ne_nil
  intro hnil
  have hadds := hlast _ (List.getLast?_eq_some_getLast hne)
  have hnone := List.filterMap_eq_nil_iff.1 hnil _ (List.getLast_mem hne)
  rw [Turn.pair?, Option.map_eq_none_iff] at hnone
  rw [hnone] at hadds
  cases hadds

theorem Draws.draw_eq {seen draws rest : List String} {pairs : List (String × String)}
    {turns : List Turn} (h : Draws seen draws rest pairs turns) :
    draw pairs.length seen draws = some (pairs, rest) := by
  obtain ⟨rfl, hpaired, hlast, rfl⟩ := h
  induction turns generalizing seen with
  | nil => simp [draw]
  | cons t turns ih =>
    have htail : ∀ t ∈ turns.getLast?, t.value.isSome := by
      cases turns with
      | nil => simp
      | cons t' turns => rwa [List.getLast?_cons_cons] at hlast
    obtain ⟨key, _ | value⟩ := t
    · obtain ⟨hkey, hturns⟩ := paired_known_cons.1 hpaired
      -- the turns do not end here, so there are pairs to come
      have hne : turns ≠ [] := by
        rintro rfl
        cases hlast _ rfl
      obtain ⟨pair, pairs, hpairs⟩ := exists_pair_of_last hne htail
      have hread := ih hturns htail
      show draw (turns.filterMap Turn.pair?).length seen
        (key :: (turns.flatMap Turn.draws ++ rest)) = some (turns.filterMap Turn.pair?, rest)
      rw [hpairs, List.length_cons] at hread ⊢
      rw [draw.eq_def]
      dsimp only
      rw [if_pos hkey, hread]
    · obtain ⟨hkey, hturns⟩ := paired_new_cons.1 hpaired
      have hread := ih hturns htail
      show draw ((turns.filterMap Turn.pair?).length + 1) seen
        (key :: value :: (turns.flatMap Turn.draws ++ rest)) = _
      rw [draw, if_neg hkey, hread]
      rfl

theorem generate_eq_some_iff {size : Nat} {draws rest : List String} {d : Dataset} :
    generate size draws = some (d, rest) ↔
      d.size = size ∧ ∃ turns, Draws [] draws rest d.pairs turns := by
  constructor
  · intro h
    refine ⟨size_generate h, ?_⟩
    unfold generate at h
    split at h
    · cases h
    · next hdraw =>
      cases h
      exact exists_draws_of_draw hdraw
  · rintro ⟨rfl, turns, hdraws⟩
    exact generate_eq hdraws.draw_eq

/-! ## Both ways to make a dataset -/

/-- Whether a dataset keeps the first pair of each key. -/
structure KeepsFirst (pairs : List (String × String)) (d : Dataset) : Prop where
  pairs_eq : d.pairs = newcomers Prod.fst [] pairs
  nodup : d.keys.Nodup
  mem_keys_iff : ∀ key, key ∈ d.keys ↔ key ∈ pairs.map Prod.fst
  ofPairs_eq : ofPairs d.pairs = d

/-- Whether a dataset of so many pairs of texts of a length is what draws make: its keys are the
drawn keys that repeat none before them. -/
structure MadeOf (size length : Nat) (draws rest : List String) (d : Dataset) : Prop where
  size_eq : d.size = size
  nodup : d.keys.Nodup
  keys_eq : ∃ turns, Draws [] draws rest d.pairs turns ∧
    d.keys = newcomers id [] (turns.map Turn.key)
  length_eq : ∀ pair ∈ d.pairs, pair.1.length = length ∧ pair.2.length = length

theorem keepsFirst_ofPairs (pairs : List (String × String)) : KeepsFirst pairs (ofPairs pairs) where
  pairs_eq := pairs_ofPairs pairs
  nodup := by
    rw [keys, pairs_ofPairs]
    exact nodup_keys_newcomers pairs
  mem_keys_iff key := by
    rw [keys, pairs_ofPairs, mem_keys_newcomers]
    simp
  ofPairs_eq := ofPairs_pairs _

/-- What draws of texts of a length make. -/
theorem generate_eq_some_iff_madeOf {size length : Nat} {draws rest : List String} {d : Dataset}
    (hdraws : ∀ text ∈ draws, text.length = length) :
    generate size draws = some (d, rest) ↔ MadeOf size length draws rest d := by
  constructor
  · intro h
    obtain ⟨hsize, turns, hturns⟩ := generate_eq_some_iff.1 h
    have hkeys : d.keys = newcomers id [] (turns.map Turn.key) := by
      rw [keys, hturns.pairs_eq]
      exact keys_pairs hturns.paired
    refine ⟨hsize, ?_, ⟨turns, hturns, hkeys⟩, ?_⟩
    · rw [hkeys, ← List.map_id (newcomers id [] (turns.map Turn.key))]
      exact nodup_keys_newcomers _
    · intro pair hpair
      obtain ⟨hkey, hvalue⟩ := (mem_of_generate h).1 pair hpair
      exact ⟨hdraws _ hkey, hdraws _ hvalue⟩
  · intro h
    obtain ⟨turns, hturns, -⟩ := h.keys_eq
    exact generate_eq_some_iff.2 ⟨h.size_eq, turns, hturns⟩

/--
**A dataset has one pair under each key.**  Given pairs are kept if no earlier one has their key, so
that the keys stay the same, each once, and a dataset's own pairs make it again.  Draws of texts of
a length make just the dataset with as many pairs as are asked for in which a value is drawn behind
each key that has not been drawn before, and these are the keys, in the order of the draws.
-/
theorem one_pair_under_each_key :
    (∀ pairs, KeepsFirst pairs (ofPairs pairs)) ∧
    ∀ (size length : Nat) (draws rest : List String) (d : Dataset),
      (∀ text ∈ draws, text.length = length) →
        (generate size draws = some (d, rest) ↔ MadeOf size length draws rest d) :=
  ⟨keepsFirst_ofPairs, fun _ _ _ _ _ hdraws => generate_eq_some_iff_madeOf hdraws⟩

/-- The second `a` is drawn as a key and passed over, and the last draw is left. -/
theorem one_pair_under_each_key_repeated :
    (∀ text ∈ ["a", "b", "a", "c", "a", "d"], text.length = 1) ∧
    generate 2 ["a", "b", "a", "c", "a", "d"] = some (ofPairs [("a", "b"), ("c", "a")], ["d"]) ∧
    MadeOf 2 1 ["a", "b", "a", "c", "a", "d"] ["d"] (ofPairs [("a", "b"), ("c", "a")]) ∧
    KeepsFirst [("a", "b"), ("c", "a"), ("a", "d")] (ofPairs [("a", "b"), ("c", "a")]) := by
  have hlength : ∀ text ∈ ["a", "b", "a", "c", "a", "d"], text.length = 1 := by decide
  have hdraw : draw 2 [] ["a", "b", "a", "c", "a", "d"] =
      some ([("a", "b"), ("c", "a")], ["d"]) := by simp [draw]
  have hgenerate : generate 2 ["a", "b", "a", "c", "a", "d"] =
      some (ofPairs [("a", "b"), ("c", "a")], ["d"]) := generate_eq hdraw
  obtain ⟨hgiven, hdrawn⟩ := one_pair_under_each_key
  exact ⟨hlength, hgenerate, (hdrawn _ _ _ _ _ hlength).1 hgenerate,
    hgiven [("a", "b"), ("c", "a"), ("a", "d")]⟩

end Dataset

end StoreTrial
