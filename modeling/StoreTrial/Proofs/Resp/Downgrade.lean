import StoreTrial.Proofs.Decimal.Extent
import StoreTrial.Proofs.Resp.Grammar

/-!
# What a peer of the older version reads

A value that is written for version 2 loses the shapes which that version lacks, at every depth,
and nothing else: what the peer reads is `Value.down`, whatever follows it in the stream.  A map
announces twice as many elements as it has pairs, and a double becomes a payload whose length is
that of its text.  Written again for the older version, what was read gives the same bytes.

## Main results

* `encode_down` — a value and its older shape are written alike.
* `derives_encode_resp2` — the bytes that are written are a frame of the older shape.
* `downgrade_round_trip` — both together, with what is read from a stream.
-/

namespace StoreTrial.Resp

open Decimal (readInt64?)
open Value

/-! ## Lists in the older shape -/

theorem downItems_eq_map (items : List Value) : downItems items = items.map Value.down := by
  induction items with
  | nil => rfl
  | cons v items ih => rw [downItems, ih, List.map_cons]

theorem downEntries_eq_map (entries : List (Value × Value)) :
    downEntries entries = (inTurn entries).map Value.down := by
  induction entries with
  | nil => rfl
  | cons e entries ih =>
    obtain ⟨k, v⟩ := e
    rw [downEntries, ih, inTurn_cons, List.map_cons, List.map_cons]

theorem encodeEntries_eq_encodeItems (version : Version) (entries : List (Value × Value)) :
    encodeEntries version entries = encodeItems version (inTurn entries) := by
  induction entries with
  | nil => rfl
  | cons e entries ih =>
    obtain ⟨k, v⟩ := e
    rw [encodeEntries, ih, inTurn_cons, encodeItems, encodeItems, List.append_assoc]

/-! ## The same bytes -/

theorem encodeItems_map_down {items : List Value}
    (h : ∀ v ∈ items, encode .resp2 v.down = encode .resp2 v) :
    encodeItems .resp2 (items.map Value.down) = encodeItems .resp2 items := by
  induction items with
  | nil => rfl
  | cons v items ih =>
    rw [List.map_cons, encodeItems, encodeItems, h v (by simp), ih fun w hw => h w (by simp [hw])]

/-- A value and its older shape are written alike for the older version. -/
theorem encode_down (v : Value) : encode .resp2 v.down = encode .resp2 v := by
  induction v using Value.induction with
  | leaf v hv =>
    cases v with
    | boolean b => cases b <;> decide +kernel
    | simple _ | error _ | integer _ | bulk _ | null | double _ => rfl
    | array _ | map _ | set _ | push _ => exact hv.elim
  | array items ih | set items ih | push items ih =>
    simp only [Value.down, encode, downItems_eq_map, List.length_map, encodeItems_map_down ih]
  | map entries ih =>
    have hitems := encodeItems_map_down (forall_mem_inTurn.2 ih)
    simp only [Value.down, encode, downEntries_eq_map, List.length_map, length_inTurn,
      encodeEntries_eq_encodeItems, hitems, Nat.mul_comm]

/-! ## Written lines derive what they write -/

theorem writes_ofInt64 (n : Int64) :
    Writes readInt64? (Bytes.ofText (Decimal.ofInt64 n)) n := by
  refine ⟨?_, _, rfl, Decimal.readInt64?_ofInt64 n⟩
  exact hasCrlf_eq_false_iff.1 (hasCrlf_ofText (Decimal.return_not_mem_ofInt n.toInt))

theorem announces_ofNat {n : Nat} (h : n < 2 ^ 63) :
    Announces (Bytes.ofText (Decimal.ofNat n)) n := by
  refine (announces_iff .badLength).2 ⟨?_, announced_ofNat h _⟩
  exact hasCrlf_ofText (Decimal.return_not_mem_ofNat n)

theorem derives_blob {payload : Bytes} (h : payload.length < 2 ^ 63) :
    Derives (blob payload) (.bulk payload) := by
  rw [blob, List.append_assoc]
  exact .bulk (announces_ofNat h)

theorem derivesAll_encodeItems {items : List Value}
    (h : ∀ v ∈ items, Derives (encode .resp2 v) v.down) :
    DerivesAll (encodeItems .resp2 items) (items.map Value.down) := by
  induction items with
  | nil => exact .nil
  | cons v items ih => exact .cons (h v (by simp)) (ih fun w hw => h w (by simp [hw]))

/-- A text takes at most four bytes for each character. -/
theorem length_ofText_le (text : String) :
    (Bytes.ofText text).length ≤ 4 * text.toList.length := by
  rw [Bytes.ofText_eq_flatMap]
  induction text.toList with
  | nil => rfl
  | cons c cs ih =>
    have hc : (String.utf8EncodeChar c).length ≤ 4 := by
      rw [String.length_utf8EncodeChar]
      exact c.utf8Size_le_four
    rw [List.flatMap_cons, List.length_append, List.length_cons]
    omega

theorem derives_blob_doubleText (x : Float) :
    Derives (blob (Bytes.ofText (doubleText x))) (.bulk (Bytes.ofText (doubleText x))) := by
  have hchars : (doubleText x).toList.length ≤ 2000 := Decimal.length_write_plain_le x
  have hbytes := length_ofText_le (doubleText x)
  exact derives_blob (by omega)

/-! ## What is read -/

/-- The length or the count that a frame announces when a map is one list of keys and values. -/
def Value.flatCount : Value → Nat
  | .bulk payload => payload.length
  | .array items | .set items | .push items => items.length
  | .map entries => (inTurn entries).length
  | .simple _ | .error _ | .integer _ | .null | .boolean _ | .double _ => 0

/--
Whether 63 bits are enough for what a frame announces to a peer of version 2.  They are for every
value that memory can hold.
-/
def Value.FitsFlat (v : Value) : Prop := v.flatCount < 2 ^ 63

instance : DecidablePred FitsFlat := fun v => inferInstanceAs (Decidable (v.flatCount < 2 ^ 63))

theorem derives_down_items {items : List Value} (hcount : items.length < 2 ^ 63)
    (h : ∀ v ∈ items, Derives (encode .resp2 v) v.down) :
    Derives (header 42 items.length ++ encodeItems .resp2 items) (.array (downItems items)) := by
  have hitems := derivesAll_encodeItems h
  rw [← downItems_eq_map] at hitems
  have hlength : (downItems items).length = items.length := by
    rw [downItems_eq_map, List.length_map]
  rw [← hlength] at hcount ⊢
  exact .array (announces_ofNat hcount) hitems

/-- What is written for the older version is a frame of the older shape. -/
theorem derives_encode_resp2 {v : Value} (hfits : v.Everywhere FitsFlat)
    (hline : v.Everywhere OneLine) : Derives (encode .resp2 v) v.down := by
  induction v using Value.induction with
  | leaf v hv =>
    rw [everywhere_leaf hv] at hfits hline
    cases v with
    | simple text => exact .simple hline
    | error message => exact .error hline
    | integer n => exact .integer (writes_ofInt64 n)
    | bulk payload => exact derives_blob hfits
    | null =>
      have hnumeral : Decimal.ofInt64 (-1) = "-1" := by decide +kernel
      exact .noData (hnumeral ▸ writes_ofInt64 (-1))
    | boolean b =>
      have hone : Decimal.ofInt64 1 = "1" := by decide +kernel
      have hzero : Decimal.ofInt64 0 = "0" := by decide +kernel
      cases b with
      | true => exact .integer (hone ▸ writes_ofInt64 1)
      | false => exact .integer (hzero ▸ writes_ofInt64 0)
    | double x => exact derives_blob_doubleText x
    | array _ | map _ | set _ | push _ => exact hv.elim
  | array items ih =>
    obtain ⟨hcount, hitems⟩ := everywhere_array.1 hfits
    obtain ⟨-, hlines⟩ := everywhere_array.1 hline
    exact derives_down_items hcount fun v hv => ih v hv (hitems v hv) (hlines v hv)
  | set items ih =>
    obtain ⟨hcount, hitems⟩ := everywhere_set.1 hfits
    obtain ⟨-, hlines⟩ := everywhere_set.1 hline
    exact derives_down_items hcount fun v hv => ih v hv (hitems v hv) (hlines v hv)
  | push items ih =>
    obtain ⟨hcount, hitems⟩ := everywhere_push.1 hfits
    obtain ⟨-, hlines⟩ := everywhere_push.1 hline
    exact derives_down_items hcount fun v hv => ih v hv (hitems v hv) (hlines v hv)
  | map entries ih =>
    obtain ⟨hcount, hpairs⟩ := everywhere_map.1 hfits
    obtain ⟨-, hlines⟩ := everywhere_map.1 hline
    have hitems : ∀ v ∈ inTurn entries, Derives (encode .resp2 v) v.down := by
      rw [forall_mem_inTurn]
      intro e he
      constructor
      · exact (ih e he).1 (hpairs e he).1 (hlines e he).1
      · exact (ih e he).2 (hpairs e he).2 (hlines e he).2
    have hflat := derives_down_items hcount hitems
    rw [downItems_eq_map, ← downEntries_eq_map, length_inTurn, Nat.mul_comm] at hflat
    show Derives (header 42 (entries.length * 2) ++ encodeEntries .resp2 entries) _
    rw [encodeEntries_eq_encodeItems]
    exact hflat

/--
**A peer of the older version reads the older shape.**  Every value whose texts stay on their lines
is read back as `Value.down` of it, whatever follows; and in the older version a value and its older
shape have the same bytes.
-/
theorem downgrade_round_trip (v : Value) :
    (v.Everywhere FitsFlat → v.Everywhere OneLine →
      ∀ rest, parse (encode .resp2 v ++ rest) = .complete v.down rest) ∧
    encode .resp2 v = encode .resp2 v.down := by
  constructor
  · intro hfits hline rest
    exact (derives_encode_resp2 hfits hline).parse_append rest
  · exact (encode_down v).symm

/-- A map of a boolean and a double, in a push, becomes a flat list in a list. -/
theorem downgrade_pushed_map :
    parse (encode .resp2 (.push [.map [(.boolean true, .double 1.5)], .null]) ++ [43]) =
        .complete (.array [.array [.integer 1, .bulk [49, 46, 53]], .null]) [43] ∧
      encode .resp2 (.push [.map [(.boolean true, .double 1.5)], .null]) =
        encode .resp2 (.array [.array [.integer 1, .bulk [49, 46, 53]], .null]) := by
  obtain ⟨hread, hbytes⟩ :=
    downgrade_round_trip (.push [.map [(.boolean true, .double 1.5)], .null])
  have hdown : Value.down (.push [.map [(.boolean true, .double 1.5)], .null]) =
      .array [.array [.integer 1, .bulk [49, 46, 53]], .null] := by
    have htext : Bytes.ofText (doubleText 1.5) = [49, 46, 53] := by decide +kernel
    simp [Value.down, downItems, downEntries, htext]
  rw [hdown] at hread hbytes
  exact ⟨hread (by decide) (by decide) [43], hbytes⟩

end StoreTrial.Resp
