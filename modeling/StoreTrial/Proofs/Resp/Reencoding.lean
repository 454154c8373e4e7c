import StoreTrial.Proofs.Resp.Grammar
import StoreTrial.Proofs.Resp.RoundTrip

/-!
# Which values that were read can be written again

Several forms are read as one value, and version 3 writes one of them.  The one that is chosen for
errors is a line, but an error may also arrive behind its length, and then its text can hold an end
of line.  Written again, such an error ends early and the rest of its text stands in the stream as
the start of another frame.  No other value that was read has this fault: lengths and counts were
announced in 63 bits, and every simple text came from a line.

## Main results

* `Derives.everywhere_derives` — every frame inside a derived value is itself derived.
* `parse_encode_of_parse_iff` — what was read is read again exactly when no error text holds an
  end of line.
* `not_forall_parse_encode_of_parse` — so not everything that was read is read again.
-/

namespace StoreTrial.Resp

open Value

/-! ## Frames inside a derived value -/

theorem DerivesAll.exists_derives {bytes : Bytes} {vs : List Value} (h : DerivesAll bytes vs) :
    ∀ v ∈ vs, ∃ more, Derives more v := by
  induction vs generalizing bytes with
  | nil =>
    intro v hv
    cases hv
  | cons w vs ih =>
    intro v hv
    cases h with
    | cons hhead htail =>
      rcases List.mem_cons.1 hv with rfl | hv
      · exact ⟨_, hhead⟩
      · exact ih htail v hv

theorem everywhere_derives_of_items {items : List Value}
    (ih : ∀ v ∈ items, ∀ {bytes}, Derives bytes v → v.Everywhere fun w => ∃ more, Derives more w)
    {bytes : Bytes} (h : DerivesAll bytes items) :
    ∀ v ∈ items, v.Everywhere fun w => ∃ more, Derives more w := by
  intro v hv
  obtain ⟨more, hmore⟩ := h.exists_derives v hv
  exact ih v hv hmore

/-- Every frame inside a derived value is itself derived. -/
theorem Derives.everywhere_derives {bytes : Bytes} {v : Value} (h : Derives bytes v) :
    v.Everywhere fun w => ∃ more, Derives more w := by
  induction v using Value.induction generalizing bytes with
  | leaf v hv => exact (everywhere_leaf hv).2 ⟨bytes, h⟩
  | array items ih =>
    refine everywhere_array.2 ⟨⟨bytes, h⟩, ?_⟩
    cases h with
    | array hn hitems => exact everywhere_derives_of_items ih hitems
  | set items ih =>
    refine everywhere_set.2 ⟨⟨bytes, h⟩, ?_⟩
    cases h with
    | set hn hitems => exact everywhere_derives_of_items ih hitems
  | push items ih =>
    refine everywhere_push.2 ⟨⟨bytes, h⟩, ?_⟩
    cases h with
    | push hn hitems => exact everywhere_derives_of_items ih hitems
  | map entries ih =>
    refine everywhere_map.2 ⟨⟨bytes, h⟩, ?_⟩
    cases h with
    | map hn hentries =>
      intro e he
      obtain ⟨⟨_, hkey⟩, ⟨_, hvalue⟩⟩ := forall_mem_inTurn.1 hentries.exists_derives e he
      exact ⟨(ih e he).1 hkey, (ih e he).2 hvalue⟩

/-! ## One frame -/

theorem Announces.lt {content : Bytes} {n : Nat} (h : Announces content n) : n < 2 ^ 63 := by
  obtain ⟨i, -, hi⟩ := h
  have := i.toInt_lt
  omega

theorem Derives.fits {bytes : Bytes} {v : Value} (h : Derives bytes v) : v.Fits := by
  cases h with
  | bulk hn | unformatted hn | array hn | set hn | push hn | map hn => exact hn.lt
  | formatted hn =>
    have := hn.lt
    simp only [List.length_cons] at this
    show _ < _
    omega
  | simple | error | integer | null | boolean | double | noData | noItems | bulkError => trivial

/-- Whether the text of an error stays on its line. -/
def Value.ErrorOneLine : Value → Prop
  | .error text => ¬ crlf <:+: Bytes.ofText text
  | .simple _ | .integer _ | .bulk _ | .null | .array _ | .boolean _ | .double _ | .map _ | .set _
  | .push _ => True

instance : DecidablePred ErrorOneLine
  | .error text => inferInstanceAs (Decidable (¬ crlf <:+: Bytes.ofText text))
  | .simple _ | .integer _ | .bulk _ | .null | .array _ | .boolean _ | .double _ | .map _ | .set _
  | .push _ => isTrue trivial

/-- Of the texts that are read only those of errors can hold an end of line. -/
theorem Derives.oneLine_iff {bytes : Bytes} {v : Value} (h : Derives bytes v) :
    v.OneLine ↔ v.ErrorOneLine := by
  cases h with
  | simple hline => exact iff_of_true hline trivial
  | error | bulkError => exact Iff.rfl
  | integer | null | boolean | double | noData | noItems | bulk | formatted | unformatted | array
  | set | push | map => exact Iff.rfl

/-! ## Values that are read again -/

/--
**What was read is read again exactly when no error text holds an end of line.**  The value stands
alone then: nothing is left of the bytes that were written for it.
-/
theorem parse_encode_of_parse_iff {bytes rest : Bytes} {v : Value}
    (h : parse bytes = .complete v rest) :
    parse (encode .resp3 v) = .complete v [] ↔ v.Everywhere ErrorOneLine := by
  obtain ⟨taken, -, hderives⟩ := exists_derives_of_parse h
  have hparts := hderives.everywhere_derives
  have hfits : v.Everywhere Fits := fun w hw => (hparts w hw).elim fun _ hw => hw.fits
  have hlines : v.Everywhere OneLine ↔ v.Everywhere ErrorOneLine :=
    forall₂_congr fun w hw => (hparts w hw).elim fun _ hw => hw.oneLine_iff
  rw [← hlines]
  constructor
  · intro hread
    rw [← List.append_nil (encode .resp3 v)] at hread
    exact oneLine_of_parse_encode hfits hread
  · intro hline
    have hread := parse_encode hfits hline []
    rwa [List.append_nil] at hread

/-- A payload with a format, and an error with both bytes of an end of line the wrong way round. -/
theorem parse_encode_of_parse_reversed_return :
    parse [42, 50, 13, 10, 61, 53, 13, 10, 116, 120, 116, 58, 97, 13, 10, 33, 50, 13, 10, 10, 13,
        13, 10] = .complete (.array [.bulk [97], .error "\n\r"]) [] ∧
      parse (encode .resp3 (.array [.bulk [97], .error "\n\r"])) =
        .complete (.array [.bulk [97], .error "\n\r"]) [] := by
  have hread : parse [42, 50, 13, 10, 61, 53, 13, 10, 116, 120, 116, 58, 97, 13, 10, 33, 50, 13,
      10, 10, 13, 13, 10] = .complete (.array [.bulk [97], .error "\n\r"]) [] := rfl
  exact ⟨hread, (parse_encode_of_parse_iff hread).2 (by decide)⟩

/-- An error behind its length is read whole, and written as a line that ends inside its text. -/
theorem not_forall_parse_encode_of_parse :
    ¬ ∀ (bytes rest : Bytes) (v : Value), parse bytes = .complete v rest →
      parse (encode .resp3 v) = .complete v [] := by
  intro h
  have hread : parse [33, 52, 13, 10, 97, 13, 10, 98, 13, 10] = .complete (.error "a\r\nb") [] :=
    rfl
  have hagain : parse (encode .resp3 (.error "a\r\nb")) = .complete (.error "a") [98, 13, 10] :=
    rfl
  have hsame := (h _ _ _ hread).symm.trans hagain
  simp at hsame

end StoreTrial.Resp
