import StoreTrial.Proofs.Decimal.Plain
import StoreTrial.Proofs.Resp.Depth
import StoreTrial.Resp.Encode

/-!
# Written frames are read back one kind at a time

For each way of writing a frame — a line, data behind its length, a count and what it counts — the
reading that it leads to, whatever follows the frame.  Numerals never hold an end of line and fit
in 64 bits when what they count does, so the line is found and the count is the one that was
written.

## Main results

* `announced_ofNat` — a count below `2 ^ 63` is read back from its line.
* `parse_blob` — data is read back by its length, whatever it holds.
* `parse_items`, `parse_entries` — an aggregate is what its counted elements read as.
* `repeated_flatMap` — things that are read back one by one are read back in a row.
-/

namespace StoreTrial.Decimal

/-! ## Numerals -/

theorem return_not_mem_digits (n : Nat) : '\r' ∉ digits n :=
  fun h => absurd (numeral_digits n _ h) (by decide)

theorem return_not_mem_ofNat (n : Nat) : '\r' ∉ (ofNat n).toList := by
  rw [ofNat, String.toList_ofList]
  exact return_not_mem_digits n

theorem return_not_mem_ofInt (i : Int) : '\r' ∉ (ofInt i).toList := by
  cases i with
  | ofNat n => exact return_not_mem_ofNat n
  | negSucc n =>
    rw [ofInt, String.toList_ofList, List.mem_cons, not_or]
    exact ⟨by decide, return_not_mem_digits (n + 1)⟩

theorem return_not_mem_positional {pointZero : Bool} {ds : List Char} (h : '\r' ∉ ds)
    (point : Int) : '\r' ∉ positional pointZero ds point := by
  have htake : '\r' ∉ ds.take point.toNat := fun hmem => h (List.mem_of_mem_take hmem)
  have hdrop : '\r' ∉ ds.drop point.toNat := fun hmem => h (List.mem_of_mem_drop hmem)
  unfold positional
  split
  · simp [h]
  · dsimp only
    split
    · cases pointZero <;> simp [htake]
    · simp [htake, hdrop]

/-- No double is written with a carriage return. -/
theorem return_not_mem_plain (x : Float) : '\r' ∉ (plain.write x).toList := by
  have hmagnitude (s : Scaled) : '\r' ∉ plain.magnitude s := by
    unfold Layout.magnitude
    split
    · simp [plain]
    · exact return_not_mem_positional (return_not_mem_digits _) _
  unfold Layout.write
  split
  · decide
  · rw [String.toList_ofList, List.mem_append, not_or]
    constructor
    · split <;> decide
    · split
      · decide
      · exact hmagnitude _

/-- A whole number that a signed word can hold is read back as that word. -/
theorem readInt64?_ofNat {n : Nat} (h : n < 2 ^ 63) :
    readInt64? (ofNat n) = some (Int64.ofNat n) := by
  have hread : readInt? (ofNat n).toList = some (n : Int) := readInt?_ofInt (.ofNat n)
  have hfits : -2 ^ 63 ≤ (n : Int) ∧ (n : Int) < 2 ^ 63 := by omega
  rw [readInt64?, hread, Option.bind_some, if_pos hfits, Int64.ofInt_eq_ofNat]

end StoreTrial.Decimal

namespace StoreTrial.Resp

/-! ## What stands on a written line -/

theorem hasCrlf_eq_false_iff {bytes : Bytes} : hasCrlf bytes = false ↔ ¬ crlf <:+: bytes := by
  rw [← hasCrlf_iff, Bool.not_eq_true]

theorem lineText_ofText (text : String) : lineText (Bytes.ofText text) = .ok text := by
  rw [lineText, Bytes.text?_ofText]

theorem eq_ofText_of_lineText {content : Bytes} {text : String}
    (h : lineText content = .ok text) : content = Bytes.ofText text := by
  unfold lineText at h
  split at h
  · next found hfound =>
    cases h
    exact Bytes.text?_eq_some_iff.1 hfound
  · cases h

theorem lineInteger_ofInt64 (n : Int64) :
    lineInteger (Bytes.ofText (Decimal.ofInt64 n)) = .ok n := by
  simp only [lineInteger, lineText_ofText, bind, Except.bind, Decimal.readInt64?_ofInt64]

theorem lineInteger_ofNat {n : Nat} (h : n < 2 ^ 63) :
    lineInteger (Bytes.ofText (Decimal.ofNat n)) = .ok (Int64.ofNat n) := by
  simp only [lineInteger, lineText_ofText, bind, Except.bind, Decimal.readInt64?_ofNat h]

/-- A line announces the number that it writes, unless that is negative. -/
theorem announced_eq_ok_iff {content : Bytes} {fault : Int64 → FormError} {n : Nat} :
    announced content fault = .ok n ↔ ∃ i, lineInteger content = .ok i ∧ i.toInt = n := by
  unfold announced
  cases hread : lineInteger content with
  | error e => simp [bind, Except.bind]
  | ok i =>
    have hneg : i < 0 ↔ i.toInt < 0 := Int64.lt_iff_toInt_lt
    have hclamp : i.toNatClampNeg = i.toInt.toNat := (Int64.toNat_toInt i).symm
    show (if i < 0 then _ else _) = _ ↔ _
    by_cases h : i < 0
    · rw [if_pos h]
      have := hneg.1 h
      constructor
      · intro heq
        cases heq
      · rintro ⟨j, heq, hj⟩
        cases heq
        omega
    · rw [if_neg h, hclamp]
      have := mt hneg.2 h
      simp only [Except.ok.injEq, exists_eq_left']
      omega

/-- A count below `2 ^ 63` is read back from its line. -/
theorem announced_ofNat {n : Nat} (h : n < 2 ^ 63) (fault : Int64 → FormError) :
    announced (Bytes.ofText (Decimal.ofNat n)) fault = .ok n :=
  announced_eq_ok_iff.2 ⟨Int64.ofNat n, lineInteger_ofNat h, Int64.toInt_ofNat_of_lt h⟩

/-- No line that announces a count writes the number that stands for null. -/
theorem writesNull_of_announced {content : Bytes} {fault : Int64 → FormError} {n : Nat}
    (h : announced content fault = .ok n) : writesNull content = false := by
  obtain ⟨i, hread, hi⟩ := announced_eq_ok_iff.1 h
  have hne : i ≠ -1 := by
    rintro rfl
    change (-1 : Int) = n at hi
    omega
  rw [writesNull, hread]
  exact beq_eq_false_iff_ne.2 hne

/-- The line that announces a count is found. -/
theorem parse_header (kind : UInt8) (n : Nat) (rest : Bytes) :
    parse (header kind n ++ rest) =
      frameBody parse kind (Bytes.ofText (Decimal.ofNat n)) rest :=
  parse_line kind rest (hasCrlf_ofText (Decimal.return_not_mem_ofNat n))

/-! ## Lines -/

/-- A kind that is read off its line alone yields what the line gives. -/
theorem parse_of_line {kind : UInt8} {content : Bytes} {given : Except Error Value} {v : Value}
    (hkind : ∀ inner rest, frameBody inner kind content rest = .ofLine rest given)
    (hline : hasCrlf content = false) (hgiven : given = .ok v) (rest : Bytes) :
    parse (line kind content ++ rest) = .complete v rest := by
  rw [parse_line kind rest hline, hkind, hgiven]
  rfl

theorem parse_simple {text : String} (h : hasCrlf (Bytes.ofText text) = false) (rest : Bytes) :
    parse (line 43 (Bytes.ofText text) ++ rest) = .complete (.simple text) rest :=
  parse_of_line (fun _ _ => rfl) h (congrArg (Except.map .simple) (lineText_ofText text)) rest

theorem parse_error {text : String} (h : hasCrlf (Bytes.ofText text) = false) (rest : Bytes) :
    parse (line 45 (Bytes.ofText text) ++ rest) = .complete (.error text) rest :=
  parse_of_line (fun _ _ => rfl) h (congrArg (Except.map .error) (lineText_ofText text)) rest

/-- A number may be spelled in any way that it is read from. -/
theorem parse_number_line {content : Bytes} {n : Int64} (hline : hasCrlf content = false)
    (hread : lineInteger content = .ok n) (rest : Bytes) :
    parse (line 58 content ++ rest) = .complete (.integer n) rest :=
  parse_of_line (fun _ _ => rfl) hline (congrArg (Except.map .integer) hread) rest

theorem parse_integer (n : Int64) (rest : Bytes) :
    parse (line 58 (Bytes.ofText (Decimal.ofInt64 n)) ++ rest) =
      .complete (.integer n) rest := by
  have hline : hasCrlf (Bytes.ofText (Decimal.ofInt64 n)) = false :=
    hasCrlf_ofText (Decimal.return_not_mem_ofInt n.toInt)
  exact parse_number_line hline (lineInteger_ofInt64 n) rest

theorem parse_null (rest : Bytes) : parse (line 95 [] ++ rest) = .complete .null rest := by
  rw [parse_line 95 rest rfl]
  rfl

theorem parse_boolean_line {content : Bytes} {b : Bool} (hline : hasCrlf content = false)
    (hread : lineBoolean content = .ok b) (rest : Bytes) :
    parse (line 35 content ++ rest) = .complete (.boolean b) rest :=
  parse_of_line (fun _ _ => rfl) hline (congrArg (Except.map .boolean) hread) rest

theorem parse_boolean (b : Bool) (rest : Bytes) :
    parse (line 35 (Bytes.ofText (if b then "t" else "f")) ++ rest) =
      .complete (.boolean b) rest := by
  cases b with
  | false => exact parse_boolean_line rfl rfl rest
  | true => exact parse_boolean_line rfl rfl rest

theorem parse_double_line {content : Bytes} {x : Float} (hline : hasCrlf content = false)
    (hread : lineDouble content = .ok x) (rest : Bytes) :
    parse (line 44 content ++ rest) = .complete (.double x) rest :=
  parse_of_line (fun _ _ => rfl) hline (congrArg (Except.map .double) hread) rest

theorem parse_double (x : Float) (rest : Bytes) :
    parse (line 44 (Bytes.ofText (doubleText x)) ++ rest) = .complete (.double x) rest := by
  have hread : Decimal.readFloat? (doubleText x) = some x := Decimal.readFloat?_write x
  have hdouble : lineDouble (Bytes.ofText (doubleText x)) = .ok x := by
    simp only [lineDouble, lineText_ofText, bind, Except.bind, hread]
  have hline : hasCrlf (Bytes.ofText (doubleText x)) = false :=
    hasCrlf_ofText (Decimal.return_not_mem_plain x)
  exact parse_double_line hline hdouble rest

/-! ## What a line announces -/

section Announced

variable {kind : UInt8} {content : Bytes} {n : Nat} (inner : Bytes → Reading Value) (rest : Bytes)

theorem frameBody_blob (hkind : kind = 36 ∨ kind = 33 ∨ kind = 61)
    (h : announced content .badLength = .ok n) :
    frameBody inner kind content rest = readBlob kind n rest := by
  have hnull := writesNull_of_announced h
  rcases hkind with rfl | rfl | rfl <;> simp [frameBody, hnull, h]

theorem frameBody_items (hkind : kind = 42 ∨ kind = 126 ∨ kind = 62)
    (h : announced content .badCount = .ok n) :
    frameBody inner kind content rest =
      (repeated inner n rest).andThen fun items rest =>
        .complete (aggregate kind items) rest := by
  have hnull := writesNull_of_announced h
  rcases hkind with rfl | rfl | rfl <;> simp [frameBody, hnull, h]

theorem frameBody_entries (h : announced content .badMapCount = .ok n) :
    frameBody inner 37 content rest =
      (repeated (paired inner) n rest).andThen fun entries rest =>
        .complete (.map entries) rest := by
  simp [frameBody, h]

end Announced

/-- Data is taken by its length, so it may hold anything. -/
theorem readBlob_append (kind : UInt8) (data rest : Bytes) :
    readBlob kind data.length (data ++ crlf ++ rest) = .ofLine rest (blobValue kind data) := by
  rw [readBlob, List.append_assoc, List.drop_left, List.take_left]
  rfl

theorem parse_blob {payload : Bytes} (h : payload.length < 2 ^ 63) (rest : Bytes) :
    parse (blob payload ++ rest) = .complete (.bulk payload) rest := by
  have hshape : blob payload ++ rest = header 36 payload.length ++ (payload ++ crlf ++ rest) := by
    simp [blob]
  rw [hshape, parse_header, frameBody_blob _ _ (.inl rfl) (announced_ofNat h _), readBlob_append]
  rfl

/-- An array, set or push is what its counted elements read as. -/
theorem parse_items {kind : UInt8} (hkind : kind = 42 ∨ kind = 126 ∨ kind = 62) {n : Nat}
    (hn : n < 2 ^ 63) (bytes : Bytes) :
    parse (header kind n ++ bytes) =
      (repeated parse n bytes).andThen fun items rest =>
        .complete (aggregate kind items) rest := by
  rw [parse_header, frameBody_items _ _ hkind (announced_ofNat hn _)]

/-- A map is what its counted pairs read as. -/
theorem parse_entries {n : Nat} (hn : n < 2 ^ 63) (bytes : Bytes) :
    parse (header 37 n ++ bytes) =
      (repeated (paired parse) n bytes).andThen fun entries rest =>
        .complete (.map entries) rest := by
  rw [parse_header, frameBody_entries _ _ (announced_ofNat hn _)]

/-! ## Things in a row -/

section Row

variable {α : Type} {read : Bytes → Reading α} {write : α → Bytes}

/-- Things that are read back one by one are read back in a row. -/
theorem repeated_flatMap {as : List α}
    (h : ∀ a ∈ as, ∀ rest, read (write a ++ rest) = .complete a rest) (rest : Bytes) :
    repeated read as.length (as.flatMap write ++ rest) = .complete as rest := by
  induction as with
  | nil => rfl
  | cons a as ih =>
    have htail := ih fun b hb => h b (by simp [hb])
    simp only [List.length_cons, repeated, List.flatMap_cons, List.append_assoc]
    rw [h a (by simp)]
    simp only [Reading.andThen, htail]

/-- Two things that are read back are read back as a pair. -/
theorem paired_append {a b : α} (ha : ∀ rest, read (write a ++ rest) = .complete a rest)
    (hb : ∀ rest, read (write b ++ rest) = .complete b rest) (rest : Bytes) :
    paired read (write a ++ write b ++ rest) = .complete (a, b) rest := by
  rw [paired, List.append_assoc, ha]
  simp only [Reading.andThen, hb]

end Row

end StoreTrial.Resp
