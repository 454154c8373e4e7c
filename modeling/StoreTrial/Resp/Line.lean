import StoreTrial.Decimal.Numeral
import StoreTrial.Bytes

/-!
# Lines

Every frame begins with a line: a byte for its kind, some content, and carriage return and line
feed. The content ends at the first such pair, so it may hold either byte alone.

## Main results

* `splitLine_append_crlf` — content without the pair is read back, whatever follows the line.
* `eq_of_splitLine` — a line that is found is its content, the pair, and the rest.
-/

namespace StoreTrial.Resp

/-- The end of a line. -/
def crlf : Bytes := [13, 10]

/-- A kind byte, what stands on the line, and the end of the line. -/
def line (kind : UInt8) (content : Bytes) : Bytes := kind :: content ++ crlf

/-- A kind byte and a count on a line. -/
def header (kind : UInt8) (n : Nat) : Bytes := line kind (Bytes.ofText (Decimal.ofNat n))

/-- The bytes up to the first end of line, and those after it. -/
def splitLine : Bytes → Option (Bytes × Bytes)
  | [] => none
  | [_] => none
  | a :: b :: rest =>
    if a = 13 ∧ b = 10 then some ([], rest)
    else (splitLine (b :: rest)).map fun (content, rest) => (a :: content, rest)

/-- Whether the pair that ends a line occurs. -/
def hasCrlf : Bytes → Bool
  | a :: b :: rest => (a = 13 ∧ b = 10) || hasCrlf (b :: rest)
  | _ => false

/-- The pair occurs where carriage return and line feed stand side by side. -/
theorem hasCrlf_iff {bytes : Bytes} : hasCrlf bytes = true ↔ crlf <:+: bytes := by
  induction bytes with
  | nil => simp [hasCrlf, crlf]
  | cons a bytes ih =>
    cases bytes with
    | nil => simp [hasCrlf, crlf, List.infix_cons_iff]
    | cons b bytes =>
      rw [List.infix_cons_iff, ← ih]
      simp only [hasCrlf, Bool.or_eq_true, decide_eq_true_eq, crlf, List.cons_prefix_cons,
        List.nil_prefix, and_true]
      rw [eq_comm (a := a), eq_comm (a := b)]

/-- A text without carriage return has no such pair. -/
theorem hasCrlf_ofText {text : String} (h : '\r' ∉ text.toList) :
    hasCrlf (Bytes.ofText text) = false := by
  rw [Bool.eq_false_iff]
  intro hcrlf
  have hmem : (13 : UInt8) ∈ Bytes.ofText text :=
    (hasCrlf_iff.1 hcrlf).subset (by simp [crlf])
  rw [Bytes.ofText_eq_flatMap, List.mem_flatMap] at hmem
  obtain ⟨c, hc, hbyte⟩ := hmem
  rw [Bytes.eq_of_mem_utf8EncodeChar hbyte] at hc
  exact h hc

/-- A line that is found is its content, the pair, and the rest. -/
theorem eq_of_splitLine {bytes content rest : Bytes} (h : splitLine bytes = some (content, rest)) :
    bytes = content ++ crlf ++ rest := by
  induction bytes generalizing content with
  | nil => simp [splitLine] at h
  | cons a bytes ih =>
    cases bytes with
    | nil => simp [splitLine] at h
    | cons b bytes =>
      simp only [splitLine] at h
      split at h
      · next hab =>
        obtain ⟨rfl, rfl⟩ := hab
        cases h
        rfl
      · obtain ⟨⟨c, r⟩, hcr, heq⟩ := Option.map_eq_some_iff.1 h
        cases heq
        rw [ih hcr]
        rfl

/-- A line that is found takes two bytes besides its content. -/
theorem length_of_splitLine {bytes content rest : Bytes}
    (h : splitLine bytes = some (content, rest)) :
    bytes.length = content.length + 2 + rest.length := by
  rw [eq_of_splitLine h]
  simp only [crlf, List.length_append, List.length_cons, List.length_nil]

/-- The content of a line that is found does not hold the pair itself. -/
theorem hasCrlf_of_splitLine {bytes content rest : Bytes}
    (h : splitLine bytes = some (content, rest)) : hasCrlf content = false := by
  induction bytes generalizing content with
  | nil => simp [splitLine] at h
  | cons a bytes ih =>
    cases bytes with
    | nil => simp [splitLine] at h
    | cons b bytes =>
      simp only [splitLine] at h
      split at h
      · cases h
        rfl
      · next hab =>
        obtain ⟨⟨c, r⟩, hcr, heq⟩ := Option.map_eq_some_iff.1 h
        cases heq
        have hc := ih hcr
        cases c with
        | nil => rfl
        | cons d c =>
          have hdb : b = d := by
            have := eq_of_splitLine hcr
            simp only [List.cons_append, List.cons.injEq] at this
            exact this.1
          subst hdb
          simp [hasCrlf, hab, hc]

/-- Content without the pair is read back, whatever follows the line. -/
theorem splitLine_append_crlf {content : Bytes} (rest : Bytes) (h : hasCrlf content = false) :
    splitLine (content ++ crlf ++ rest) = some (content, rest) := by
  induction content with
  | nil => simp [splitLine, crlf]
  | cons a content ih =>
    cases content with
    | nil => simp [splitLine, crlf]
    | cons b content =>
      simp only [hasCrlf, Bool.or_eq_false_iff, decide_eq_false_iff_not] at h
      simp only [List.cons_append, splitLine, if_neg h.1]
      have := ih h.2
      simp only [List.cons_append] at this
      rw [this]
      rfl

end StoreTrial.Resp
