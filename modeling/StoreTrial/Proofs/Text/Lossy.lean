import StoreTrial.Bytes

/-!
# Texts that are read without a mark

The reading that never fails is exact wherever it leaves no mark: bytes that are read as a text
without the replacement character are the UTF-8 form of that text, so that two payloads with the
same text are then the same. Plain letters are read as they were written.

## Main results

* `Bytes.lossyText_ofText` — a text in ASCII is read as it was written.
* `Bytes.ofText_lossyText` — what is read without a mark is what was written.
-/

namespace StoreTrial.Bytes

/-! ## Texts in ASCII -/

/-- Texts of plain letters are not touched by a reading that never fails. -/
theorem lossyText_ofText {text : String} (h : ∀ c ∈ text.toList, c.val ≤ 127) :
    lossyText (ofText text) = text := by
  have hchars : ∀ chars : List Char, (∀ c ∈ chars, c.val ≤ 127) →
      lossyChars (chars.flatMap String.utf8EncodeChar) = chars := by
    intro chars
    induction chars with
    | nil => exact fun _ => by rw [List.flatMap_nil, lossyChars]
    | cons c chars ih =>
      intro hascii
      obtain ⟨hc, hascii⟩ := List.forall_mem_cons.1 hascii
      have hsize : c.utf8Size = 1 := Char.utf8Size_eq_one_iff.2 hc
      rw [List.flatMap_cons, String.utf8EncodeChar_eq_singleton hsize, List.singleton_append,
        lossyChars]
      have hnat : c.val.toNat ≤ 127 := UInt32.le_iff_toNat_le.1 hc
      have hbyte : c.val.toUInt8.toNat = c.toNat := by
        show c.val.toNat % 256 = c.val.toNat
        omega
      have hlow : c.val.toUInt8 < 0x80 := by
        rw [UInt8.lt_iff_toNat_lt, hbyte]
        exact Nat.lt_succ_of_le hnat
      rw [if_pos hlow, hbyte, Char.ofNat_toNat, ih hascii]
  rw [lossyText, ofText_eq_flatMap, hchars _ h, String.ofList_toList]

/-- A byte of ASCII is the form of a character. -/
theorem utf8EncodeChar_of_ascii {a : UInt8} (h : a < 0x80) :
    String.utf8EncodeChar (Char.ofNat a.toNat) = [a] := by
  have hnat : a.toNat < 128 := UInt8.lt_iff_toNat_lt.1 h
  have hval : (Char.ofNat a.toNat).val.toNat = a.toNat := by
    have hvalid : a.toNat.isValidChar := .inl (by omega)
    rw [Char.ofNat, dif_pos hvalid]
    rfl
  have hshort : (Char.ofNat a.toNat).val ≤ 127 := by
    rw [UInt32.le_iff_toNat_le, hval]
    exact Nat.le_of_lt_succ hnat
  rw [String.utf8EncodeChar_eq_singleton (Char.utf8Size_eq_one_iff.2 hshort)]
  have hbyte : (Char.ofNat a.toNat).val.toUInt8.toNat = a.toNat := by
    rw [UInt32.toNat_toUInt8, hval]
    omega
  rw [UInt8.toNat_inj.1 hbyte]

/-! ## Longer forms -/

/-- The first byte of a longer form lies in a range that tells how many bytes follow. -/
theorem range_of_lead? {a : UInt8} {count : Nat} {low high : UInt8}
    (h : lead? a = some (count, low, high)) :
    (count = 1 ∧ 0xC2 ≤ a.toNat ∧ a.toNat ≤ 0xDF) ∨ (count = 2 ∧ 0xE0 ≤ a.toNat ∧ a.toNat ≤ 0xEF) ∨
      (count = 3 ∧ 0xF0 ≤ a.toNat ∧ a.toNat ≤ 0xF4) := by
  simp only [lead?, Bool.and_eq_true, decide_eq_true_eq, beq_iff_eq, UInt8.le_iff_toNat_le,
    ← UInt8.toNat_inj] at h
  repeat' split at h
  all_goals simp at h <;> simp_all <;> omega

/-- The form of a character has as many bytes as its first one tells. -/
theorem length_of_utf8EncodeChar {c : Char} {a : UInt8} {rest : Bytes} {count : Nat}
    {low high : UInt8} (h : String.utf8EncodeChar c = a :: rest)
    (hlead : lead? a = some (count, low, high)) : rest.length = count := by
  have hrange := range_of_lead? hlead
  have hscalar : c.val.toNat < 0x110000 := by
    have := c.valid
    unfold UInt32.isValidChar Nat.isValidChar at this
    omega
  have hfirst : ∀ n < 256, UInt8.ofNat n = a → a.toNat = n := by
    rintro n hn rfl
    exact UInt8.toNat_ofNat_of_lt' hn
  unfold String.utf8EncodeChar at h
  simp only at h
  -- one case for each length of a form
  repeat' split at h
  all_goals
    obtain ⟨ha, rfl⟩ := List.cons.inj h
    have := hfirst _ (by omega) ha
    simp only [List.length_cons, List.length_nil]
    omega

/-- A character that is read after a first byte is written with just these bytes. -/
theorem utf8EncodeChar_of_text? {a : UInt8} {more : Bytes} {low high : UInt8}
    (hlead : lead? a = some (more.length, low, high)) {c : Char}
    (h : (text? (a :: more)).bind (·.toList.head?) = some c) :
    String.utf8EncodeChar c = a :: more := by
  obtain ⟨text, htext, hhead⟩ := Option.bind_eq_some_iff.1 h
  obtain ⟨chars, hchars⟩ := List.head?_eq_some_iff.1 hhead
  have hbytes : a :: more = String.utf8EncodeChar c ++ chars.flatMap String.utf8EncodeChar := by
    rw [text?_eq_some_iff.1 htext, ofText_eq_flatMap, hchars, List.flatMap_cons]
  cases hform : String.utf8EncodeChar c with
  | nil => exact absurd hform String.utf8EncodeChar_ne_nil
  | cons b rest =>
    rw [hform, List.cons_append] at hbytes
    obtain ⟨rfl, hmore⟩ := List.cons.inj hbytes
    have hlength := length_of_utf8EncodeChar hform hlead
    have hnone : chars.flatMap String.utf8EncodeChar = [] := by
      have := congrArg List.length hmore
      rw [List.length_append] at this
      exact List.eq_nil_of_length_eq_zero (by omega)
    rw [hmore, hnone, List.append_nil]

/-- What continues a sequence is taken off the front of the rest. -/
theorem continuation_append_drop (count : Nat) (low high : UInt8) (rest : Bytes) :
    continuation count low high rest ++ rest.drop (continuation count low high rest).length =
      rest := by
  apply List.prefix_iff_eq_append.1
  unfold continuation
  split
  · next b rest =>
    split
    · have hrun : (rest.take (count - 1)).takeWhile isContinuation <+: rest.take (count - 1) :=
        List.takeWhile_prefix _
      rw [List.prefix_cons_inj]
      exact hrun.trans ( List.take_prefix ..)
    · exact List.nil_prefix
  · exact List.nil_prefix

/-! ## Reading without a mark -/

/-- What is read without a mark is what was written. -/
theorem ofText_lossyText {bytes : Bytes} (h : replacement ∉ (lossyText bytes).toList) :
    ofText (lossyText bytes) = bytes := by
  rw [lossyText, String.toList_ofList] at h
  rw [ofText_eq_flatMap, lossyText, String.toList_ofList]
  fun_induction lossyChars bytes with
  | case1 => rfl
  | case2 a rest hascii ih =>
    rw [List.flatMap_cons, utf8EncodeChar_of_ascii hascii,
      ih (fun hmem => h (List.mem_cons_of_mem _ hmem)), List.singleton_append]
  | case3 a rest hhigh hlead ih => exact absurd List.mem_cons_self h
  | case4 a rest hhigh count low high hlead more read ih =>
    obtain ⟨c, hread⟩ : ∃ c, read = some c := by
      cases hread : read with
      | none => exact absurd (by rw [hread]; exact List.mem_cons_self) h
      | some c => exact ⟨c, rfl⟩
    -- a sequence that is too short is no character
    have hcount : more.length = count := Decidable.by_contra fun hne => by
      simp [read, hne] at hread
    have hform : String.utf8EncodeChar c = a :: more :=
      utf8EncodeChar_of_text? (hcount ▸ hlead) (by simpa [read, hcount] using hread)
    have hrest : more ++ rest.drop more.length = rest :=
      continuation_append_drop count low high rest
    rw [List.flatMap_cons, ih (fun hmem => h (List.mem_cons_of_mem _ hmem)), hread,
      Option.getD_some, hform, List.cons_append, hrest]

end StoreTrial.Bytes
