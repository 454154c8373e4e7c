import StoreTrial.Proofs.Dataset.Texts
import StoreTrial.Proofs.Trial.Diagnosis

/-!
# Draws that a case can meet

A case meets a draw if random texts of the configured length can come up so that they make it. The
watched key is drawn apart from the keys of the pairs, so that it may be one of them, and it must be
one of them when the pairs have used up all texts of the length.

## Main results

* `Case.exists_draw` — distinct keys and any watched key can come up together.
* `Draw.Possible.size_le` — there are no draws of more pairs than there are texts.
* `Draw.Possible.mem_keys` — the watched key repeats a key when all texts are keys.
* `Draw.Possible.fits` — a draw of texts that fit into memory fits.
-/

namespace StoreTrial

open Step (payload)

/-! ## Random texts in memory -/

/-- Letters and digits take one byte each. -/
theorem val_le_of_mem_alphabet {c : Char} (hc : c ∈ alphabet) : c.val ≤ 127 := by
  have hascii : alphabet.all (·.val ≤ 127) = true := by decide +kernel
  simpa using List.all_eq_true.1 hascii c hc

namespace IsRandom

variable {length : Nat} {text : String}

/-- A random text takes one byte for each character. -/
theorem length_payload (h : IsRandom length text) : (payload text).length = length := by
  have hall : ∀ chars : List Char, (∀ c ∈ chars, c ∈ alphabet) →
      (chars.flatMap String.utf8EncodeChar).length = chars.length := by
    intro chars
    induction chars with
    | nil => exact fun _ => rfl
    | cons c chars ih =>
      intro hchars
      obtain ⟨hc, hchars⟩ := List.forall_mem_cons.1 hchars
      rw [List.flatMap_cons, List.length_append, String.length_utf8EncodeChar,
        Char.utf8Size_eq_one_iff.2 (val_le_of_mem_alphabet hc), ih hchars, List.length_cons,
        Nat.add_comm]
  rw [payload, Bytes.ofText_eq_flatMap, hall _ h.mem_alphabet, h.length_eq]

theorem short (h : IsRandom length text) (hlength : length + 256 < 2 ^ 63) : Short text := by
  rwa [Short, h.length_payload]

/-- What a rival writes is none of the random texts. -/
theorem ne_rivalValue (h : IsRandom length text) (other : String) : text ≠ rivalValue other := by
  rintro rfl
  have hmem : '_' ∈ (rivalValue other).toList := by simp [rivalValue]
  exact absurd (h.mem_alphabet _ hmem) (by decide)

end IsRandom

/-- A text of random texts' kind, of any length. -/
theorem isRandom_replicate (length : Nat) :
    IsRandom length (String.ofList (List.replicate length 'A')) where
  length_eq := by simp
  mem_alphabet := by
    intro c hc
    rw [String.toList_ofList] at hc
    rw [List.eq_of_mem_replicate hc]
    decide

/-- Whether the texts of the cases and their datasets fit into memory, where nothing takes 2^63
bytes. -/
structure ConformanceConfig.InMemory (config : ConformanceConfig) : Prop where
  text : config.textLength.toNat + 256 < 2 ^ 63
  size : ∀ c : Case, c.size config + 1 < 2 ^ 63

instance (config : ConformanceConfig) : Decidable config.InMemory :=
  decidable_of_iff
    (config.textLength.toNat + 256 < 2 ^ 63 ∧ ∀ c ∈ Case.all, c.size config + 1 < 2 ^ 63)
    ⟨fun ⟨htext, hsize⟩ => ⟨htext, fun c => hsize c (Case.mem_all c)⟩,
      fun h => ⟨h.text, fun c _ => h.size c⟩⟩

/-! ## Possible draws -/

/-- Whether a case can meet a draw: it comes of random texts, of which there are enough. -/
structure Draw.Possible (config : ConformanceConfig) (c : Case) (draw : Draw) : Prop where
  drawn : ∃ texts text, (∀ t ∈ texts, IsRandom config.textLength.toNat t) ∧
    IsRandom rivalLength text ∧ Draw.ofTexts (c.size config) texts text = some draw
  fresh : ∀ i < c.size config, IsRandom config.textLength.toNat (draw.fresh i)

namespace Draw

/-- What a draw from random texts is made of. -/
theorem eq_of_ofTexts {size : Nat} {texts : List String} {rival : String} {draw : Draw}
    (h : ofTexts size texts rival = some draw) :
    ∃ data watched fresh, Dataset.generate size texts = some (data, watched :: fresh) ∧
      draw = { data, watched, fresh := fun i => fresh.getD i "", rival := rivalValue rival } := by
  unfold ofTexts at h
  split at h
  · next data watched fresh hgenerate =>
    exact ⟨data, watched, fresh, hgenerate, by simpa using h.symm⟩
  · cases h

namespace Possible

variable {config : ConformanceConfig} {c : Case} {draw : Draw} (h : draw.Possible config c)

include h

/-- A draw has the number of pairs that the case writes. -/
theorem size_eq : draw.data.size = c.size config := by
  obtain ⟨texts, text, -, -, hdraw⟩ := h.drawn
  obtain ⟨data, watched, fresh, hgenerate, rfl⟩ := eq_of_ofTexts hdraw
  exact Dataset.size_generate hgenerate

theorem random_pairs : ∀ pair ∈ draw.data.pairs,
    IsRandom config.textLength.toNat pair.1 ∧ IsRandom config.textLength.toNat pair.2 := by
  obtain ⟨texts, text, htexts, -, hdraw⟩ := h.drawn
  obtain ⟨data, watched, fresh, hgenerate, rfl⟩ := eq_of_ofTexts hdraw
  intro pair hpair
  obtain ⟨hkey, hvalue⟩ := (Dataset.mem_of_generate hgenerate).1 pair hpair
  exact ⟨htexts _ hkey, htexts _ hvalue⟩

theorem random_keys : ∀ key ∈ draw.data.keys, IsRandom config.textLength.toNat key := by
  intro key hkey
  obtain ⟨pair, hpair, rfl⟩ := List.mem_map.1 hkey
  exact (h.random_pairs pair hpair).1

theorem random_watched : IsRandom config.textLength.toNat draw.watched := by
  obtain ⟨texts, text, htexts, -, hdraw⟩ := h.drawn
  obtain ⟨data, watched, fresh, hgenerate, rfl⟩ := eq_of_ofTexts hdraw
  exact htexts _ ((Dataset.mem_of_generate hgenerate).2 _ (.head _))

theorem random_rival : ∃ text, IsRandom rivalLength text ∧ draw.rival = rivalValue text := by
  obtain ⟨texts, text, -, htext, hdraw⟩ := h.drawn
  obtain ⟨data, watched, fresh, -, rfl⟩ := eq_of_ofTexts hdraw
  exact ⟨text, htext, rfl⟩

/-- Values beyond those that were drawn are empty. -/
theorem short_fresh (hlength : config.textLength.toNat + 256 < 2 ^ 63) (i : Nat) :
    Short (draw.fresh i) := by
  obtain ⟨texts, text, htexts, -, hdraw⟩ := h.drawn
  obtain ⟨data, watched, fresh, hgenerate, rfl⟩ := eq_of_ofTexts hdraw
  show Short (fresh.getD i "")
  rw [List.getD_eq_getElem?_getD]
  cases hi : fresh[i]? with
  | none => exact (by decide : Short "")
  | some value =>
    have hmem : value ∈ watched :: fresh := .tail _ (List.mem_of_getElem? hi)
    exact (htexts _ ((Dataset.mem_of_generate hgenerate).2 _ hmem)).short hlength

/-- A draw of texts that fit into memory fits. -/
theorem fits (hmemory : config.InMemory) : draw.Fits where
  size := by
    rw [h.size_eq]
    exact hmemory.size c
  pairs := fun pair hpair =>
    ⟨(h.random_pairs pair hpair).1.short hmemory.text,
      (h.random_pairs pair hpair).2.short hmemory.text⟩
  fresh := h.short_fresh hmemory.text
  watched := h.random_watched.short hmemory.text
  rival := by
    obtain ⟨text, htext, hrival⟩ := h.random_rival
    have hprefix : (payload "other_").length = 6 := by decide
    rw [hrival, rivalValue, Short, payload_append, List.length_append, hprefix,
      htext.length_payload]
    decide

/-- There are no draws of more pairs than there are texts. -/
theorem size_le : c.size config ≤ alphabetSize ^ config.textLength.toNat := by
  have hle : draw.data.keys.length ≤ _ := length_le_of_nodup draw.data.nodup h.random_keys
  rwa [Dataset.keys, List.length_map, ← Dataset.size, h.size_eq] at hle

/-- The watched key repeats a key when the keys are all texts there are. -/
theorem mem_keys (hall : c.size config = alphabetSize ^ config.textLength.toNat) :
    draw.watched ∈ draw.data.keys := by
  refine mem_of_length_eq draw.data.nodup h.random_keys ?_ h.random_watched
  rw [← hall, ← h.size_eq]
  exact List.length_map ..

/-- What a rival writes is the value of no pair. -/
theorem value_ne_rival : ∀ pair ∈ draw.data.pairs, pair.2 ≠ draw.rival := by
  obtain ⟨text, -, hrival⟩ := h.random_rival
  intro pair hpair
  rw [hrival]
  exact (h.random_pairs pair hpair).2.ne_rivalValue text

end Possible

end Draw

/-! ## Draws that come up -/

/-- Distinct keys and any watched key can come up together. -/
theorem Case.exists_draw {config : ConformanceConfig} {c : Case} {keys : List String}
    (hlength : keys.length = c.size config) (hnodup : keys.Nodup)
    (hkeys : ∀ key ∈ keys, IsRandom config.textLength.toNat key) {watched : String}
    (hwatched : IsRandom config.textLength.toNat watched) :
    ∃ draw : Draw, draw.Possible config c ∧ draw.data.keys = keys ∧ draw.watched = watched := by
  let fresh := List.replicate (c.size config) watched
  let rival := String.ofList (List.replicate rivalLength 'A')
  obtain ⟨data, hgenerate, hdata⟩ := Dataset.generate_twice hnodup (watched :: fresh)
  let draw : Draw :=
    { data, watched, fresh := fun i => fresh.getD i "", rival := rivalValue rival }
  have hdraw : Draw.ofTexts (c.size config)
      (keys.flatMap (fun key => [key, key]) ++ watched :: fresh) rival = some draw := by
    rw [← hlength, Draw.ofTexts, hgenerate]
  have htexts : ∀ text ∈ keys.flatMap (fun key => [key, key]) ++ watched :: fresh,
      IsRandom config.textLength.toNat text := by
    intro text htext
    obtain htext | htext := List.mem_append.1 htext
    · obtain ⟨key, hkey, htext⟩ := List.mem_flatMap.1 htext
      obtain rfl : text = key := by simpa using htext
      exact hkeys _ hkey
    · obtain rfl : text = watched := (List.mem_cons.1 htext).elim id List.eq_of_mem_replicate
      exact hwatched
  have hfresh : ∀ i < c.size config, draw.fresh i = watched := by
    intro i hi
    simp [draw, fresh, hi]
  refine ⟨draw, ⟨⟨_, rival, htexts, isRandom_replicate rivalLength, hdraw⟩, fun i hi => ?_⟩, hdata,
    rfl⟩
  rwa [hfresh i hi]

/-- A case meets some draw, if there are texts enough for its keys. -/
theorem Case.exists_possible {config : ConformanceConfig} {c : Case}
    (hsize : c.size config ≤ alphabetSize ^ config.textLength.toNat) :
    ∃ draw : Draw, draw.Possible config c := by
  obtain ⟨keys, hlength, hnodup, hkeys⟩ := exists_nodup_texts hsize
  obtain ⟨draw, hdraw, -⟩ := Case.exists_draw hlength hnodup hkeys (isRandom_replicate _)
  exact ⟨draw, hdraw⟩

/-- The watched key can be a new one, if there is a text left for it. -/
theorem Case.exists_possible_new {config : ConformanceConfig} {c : Case}
    (hsize : c.size config < alphabetSize ^ config.textLength.toNat) :
    ∃ draw : Draw, draw.Possible config c ∧ draw.watched ∉ draw.data.keys := by
  obtain ⟨texts, hlength, hnodup, htexts⟩ := exists_nodup_texts (Nat.succ_le_of_lt hsize)
  obtain ⟨watched, keys, rfl⟩ := List.exists_cons_of_length_eq_add_one hlength
  rw [List.nodup_cons] at hnodup
  obtain ⟨hwatched, hkeys⟩ := List.forall_mem_cons.1 htexts
  obtain ⟨draw, hdraw, hdata, hdrawn⟩ := Case.exists_draw (Nat.succ.inj hlength) hnodup.2 hkeys
    hwatched
  refine ⟨draw, hdraw, ?_⟩
  rw [hdata, hdrawn]
  exact hnodup.1

end StoreTrial
