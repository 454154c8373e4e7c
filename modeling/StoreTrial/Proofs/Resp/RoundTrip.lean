import StoreTrial.Proofs.Resp.Parts
import StoreTrial.Proofs.Resp.ReadBack

/-!
# Which values survive the newer protocol

A value written for a peer of version 3 is read back, whatever follows it, exactly when each of its
texts stays on its line.  A carriage return or a line feed alone does no harm; the pair ends the
line early, and then the text that is read differs from the one that was written, so no reading of
the bytes gives the value back.

## Main results

* `parse_encode` — a value whose texts stay on their lines is read back.
* `oneLine_of_parse_encode` — no other value is.
* `parse_encode_eq_complete_iff` — both together, for every value and whatever follows it.
-/

namespace StoreTrial.Resp

open Value

/-! ## Values that are read back -/

/-- An array, set or push of elements that are read back. -/
theorem parse_aggregate {kind : UInt8} (hkind : kind = 42 ∨ kind = 126 ∨ kind = 62)
    {items : List Value} (hcount : items.length < 2 ^ 63)
    (h : ∀ v ∈ items, ∀ rest, parse (encode .resp3 v ++ rest) = .complete v rest) (rest : Bytes) :
    parse (header kind items.length ++ encodeItems .resp3 items ++ rest) =
      .complete (aggregate kind items) rest := by
  rw [encodeItems_eq_flatMap, List.append_assoc, parse_items hkind hcount, repeated_flatMap h]
  rfl

/-- A map of keys and values that are read back. -/
theorem parse_map {entries : List (Value × Value)} (hcount : entries.length < 2 ^ 63)
    (h : ∀ e ∈ entries, (∀ rest, parse (encode .resp3 e.1 ++ rest) = .complete e.1 rest) ∧
      ∀ rest, parse (encode .resp3 e.2 ++ rest) = .complete e.2 rest) (rest : Bytes) :
    parse (header 37 entries.length ++ encodeEntries .resp3 entries ++ rest) =
      .complete (.map entries) rest := by
  rw [encodeEntries_eq_flatMap, List.append_assoc, parse_entries hcount,
    repeated_flatMap fun e he => paired_append (h e he).1 (h e he).2]
  rfl

/-- A value whose texts stay on their lines is read back, whatever follows. -/
theorem parse_encode {v : Value} (hfits : v.Everywhere Fits) (hline : v.Everywhere OneLine)
    (rest : Bytes) : parse (encode .resp3 v ++ rest) = .complete v rest := by
  induction v using Value.induction generalizing rest with
  | leaf v hv =>
    rw [everywhere_leaf hv] at hfits hline
    cases v with
    | simple text => exact parse_simple (hasCrlf_eq_false_iff.2 hline) rest
    | error message => exact parse_error (hasCrlf_eq_false_iff.2 hline) rest
    | integer n => exact parse_integer n rest
    | bulk payload => exact parse_blob hfits rest
    | null => exact parse_null rest
    | boolean b => exact parse_boolean b rest
    | double x => exact parse_double x rest
    | array _ | map _ | set _ | push _ => exact hv.elim
  | array items ih =>
    obtain ⟨hcount, hitems⟩ := everywhere_array.1 hfits
    obtain ⟨-, hlines⟩ := everywhere_array.1 hline
    exact parse_aggregate (.inl rfl) hcount (fun v hv => ih v hv (hitems v hv) (hlines v hv)) rest
  | set items ih =>
    obtain ⟨hcount, hitems⟩ := everywhere_set.1 hfits
    obtain ⟨-, hlines⟩ := everywhere_set.1 hline
    exact parse_aggregate (.inr (.inl rfl)) hcount
      (fun v hv => ih v hv (hitems v hv) (hlines v hv)) rest
  | push items ih =>
    obtain ⟨hcount, hitems⟩ := everywhere_push.1 hfits
    obtain ⟨-, hlines⟩ := everywhere_push.1 hline
    exact parse_aggregate (.inr (.inr rfl)) hcount
      (fun v hv => ih v hv (hitems v hv) (hlines v hv)) rest
  | map entries ih =>
    obtain ⟨hcount, hpairs⟩ := everywhere_map.1 hfits
    obtain ⟨-, hlines⟩ := everywhere_map.1 hline
    refine parse_map hcount (fun e he => ⟨?_, ?_⟩) rest
    · exact (ih e he).1 (hpairs e he).1 (hlines e he).1
    · exact (ih e he).2 (hpairs e he).2 (hlines e he).2

/-! ## Values that are not -/

/-- A frame that is read as the text of its line has no end of line in that text. -/
theorem not_crlf_infix_of_parse {kind : UInt8} (make : String → Value)
    (hmake : Function.Injective make)
    (hbody : ∀ content after, frameBody parse kind content after =
      .ofLine after ((lineText content).map make))
    {bytes rest : Bytes} {text : String} (h : parse (kind :: bytes) = .complete (make text) rest) :
    ¬ crlf <:+: Bytes.ofText text := by
  rw [parse_cons] at h
  split at h
  · cases h
  · next content after hsplit =>
    rw [hbody] at h
    obtain ⟨hread, -⟩ := Reading.ofLine_eq_complete.1 h
    obtain ⟨text', htext, heq⟩ :
        ∃ text', lineText content = .ok text' ∧ make text' = make text := by
      cases hline : lineText content with
      | ok text' => exact ⟨text', rfl, by simpa [hline, Except.map] using hread⟩
      | error e => simp [hline, Except.map] at hread
    rw [hmake heq] at htext
    rw [← eq_ofText_of_lineText htext, ← hasCrlf_iff, hasCrlf_of_splitLine hsplit]
    exact Bool.false_ne_true

section Row

variable {α : Type} {read : Bytes → Reading α} {write : α → Bytes} {p : α → Prop}

/--
Things that come back from a row all satisfy a condition if each of them does when it comes back
first, and if those that satisfy it leave exactly what follows them.
-/
theorem forall_of_repeated {as : List α}
    (hp : ∀ a ∈ as, ∀ rest after, read (write a ++ rest) = .complete a after → p a)
    (hread : ∀ a ∈ as, p a → ∀ rest, read (write a ++ rest) = .complete a rest)
    {rest after : Bytes}
    (h : repeated read as.length (as.flatMap write ++ rest) = .complete as after) :
    ∀ a ∈ as, p a := by
  induction as with
  | nil => exact fun _ ha => absurd ha List.not_mem_nil
  | cons a as ih =>
    rw [List.length_cons, repeated, List.flatMap_cons, List.append_assoc] at h
    obtain ⟨b, middle, hb, h⟩ := Reading.andThen_eq_complete.1 h
    obtain ⟨bs, after', hbs, heq⟩ := Reading.andThen_eq_complete.1 h
    cases heq
    have hhead : p a := hp a (by simp) _ _ hb
    -- what follows the first one is the rest of the row
    rw [hread a (by simp) hhead] at hb
    cases hb
    have htail := ih (fun c hc => hp c (by simp [hc])) (fun c hc => hread c (by simp [hc])) hbs
    exact List.forall_mem_cons.2 ⟨hhead, htail⟩

end Row

/-- The elements that come back inside an aggregate stay on their lines if each does alone. -/
theorem oneLine_of_parse_aggregate {kind : UInt8} (hkind : kind = 42 ∨ kind = 126 ∨ kind = 62)
    {items : List Value} (hcount : items.length < 2 ^ 63)
    (hfits : ∀ v ∈ items, v.Everywhere Fits)
    (hline : ∀ v ∈ items, ∀ rest after, parse (encode .resp3 v ++ rest) = .complete v after →
      v.Everywhere OneLine) {rest after : Bytes}
    (h : parse (header kind items.length ++ encodeItems .resp3 items ++ rest) =
      .complete (aggregate kind items) after) : ∀ v ∈ items, v.Everywhere OneLine := by
  rw [encodeItems_eq_flatMap, List.append_assoc, parse_items hkind hcount] at h
  obtain ⟨items', _, hrow, heq⟩ := Reading.andThen_eq_complete.1 h
  have hsame : items' = items := by
    rcases hkind with rfl | rfl | rfl <;> cases heq <;> rfl
  subst hsame
  exact forall_of_repeated hline (fun v hv hv' => parse_encode (hfits v hv) hv') hrow

/-- The keys and values that come back inside a map stay on their lines if each does alone. -/
theorem oneLine_of_parse_map {entries : List (Value × Value)} (hcount : entries.length < 2 ^ 63)
    (hfits : ∀ e ∈ entries, e.1.Everywhere Fits ∧ e.2.Everywhere Fits)
    (hline : ∀ e ∈ entries,
      (∀ rest after, parse (encode .resp3 e.1 ++ rest) = .complete e.1 after →
        e.1.Everywhere OneLine) ∧
      ∀ rest after, parse (encode .resp3 e.2 ++ rest) = .complete e.2 after →
        e.2.Everywhere OneLine) {rest after : Bytes}
    (h : parse (header 37 entries.length ++ encodeEntries .resp3 entries ++ rest) =
      .complete (.map entries) after) :
    ∀ e ∈ entries, e.1.Everywhere OneLine ∧ e.2.Everywhere OneLine := by
  rw [encodeEntries_eq_flatMap, List.append_assoc, parse_entries hcount] at h
  obtain ⟨_, _, hrow, heq⟩ := Reading.andThen_eq_complete.1 h
  cases heq
  refine forall_of_repeated ?_ ?_ hrow
  · intro e he rest after hread
    rw [paired, List.append_assoc] at hread
    obtain ⟨key, middle, hkey, hread⟩ := Reading.andThen_eq_complete.1 hread
    obtain ⟨value, after', hvalue, heq⟩ := Reading.andThen_eq_complete.1 hread
    obtain ⟨rfl, rfl⟩ : (key, value) = e ∧ after' = after := by simpa using heq
    have hkey' := (hline _ he).1 _ _ hkey
    rw [parse_encode (hfits _ he).1 hkey'] at hkey
    cases hkey
    exact ⟨hkey', (hline _ he).2 _ _ hvalue⟩
  · intro e he hlines
    exact paired_append (parse_encode (hfits e he).1 hlines.1)
      (parse_encode (hfits e he).2 hlines.2)

/-- Only a value whose texts stay on their lines is read back. -/
theorem oneLine_of_parse_encode {v : Value} (hfits : v.Everywhere Fits) {rest after : Bytes}
    (h : parse (encode .resp3 v ++ rest) = .complete v after) : v.Everywhere OneLine := by
  induction v using Value.induction generalizing rest after with
  | leaf v hv =>
    rw [everywhere_leaf hv]
    cases v with
    | simple text =>
      exact not_crlf_infix_of_parse .simple (fun _ _ => Value.simple.inj) (fun _ _ => rfl) h
    | error message =>
      exact not_crlf_infix_of_parse .error (fun _ _ => Value.error.inj) (fun _ _ => rfl) h
    | integer _ | bulk _ | null | boolean _ | double _ => trivial
    | array _ | map _ | set _ | push _ => exact hv.elim
  | array items ih =>
    obtain ⟨hcount, hitems⟩ := everywhere_array.1 hfits
    exact everywhere_array.2 ⟨trivial, oneLine_of_parse_aggregate (.inl rfl) hcount hitems
      (fun v hv _ _ => ih v hv (hitems v hv)) h⟩
  | set items ih =>
    obtain ⟨hcount, hitems⟩ := everywhere_set.1 hfits
    exact everywhere_set.2 ⟨trivial, oneLine_of_parse_aggregate (.inr (.inl rfl)) hcount hitems
      (fun v hv _ _ => ih v hv (hitems v hv)) h⟩
  | push items ih =>
    obtain ⟨hcount, hitems⟩ := everywhere_push.1 hfits
    exact everywhere_push.2 ⟨trivial, oneLine_of_parse_aggregate (.inr (.inr rfl)) hcount hitems
      (fun v hv _ _ => ih v hv (hitems v hv)) h⟩
  | map entries ih =>
    obtain ⟨hcount, hpairs⟩ := everywhere_map.1 hfits
    refine everywhere_map.2 ⟨trivial, oneLine_of_parse_map hcount hpairs (fun e he => ⟨?_, ?_⟩) h⟩
    · exact fun _ _ => (ih e he).1 (hpairs e he).1
    · exact fun _ _ => (ih e he).2 (hpairs e he).2

/-- **A value is read back, whatever follows, exactly when its texts stay on their lines.** -/
theorem parse_encode_eq_complete_iff {v : Value} (hfits : v.Everywhere Fits) (rest : Bytes) :
    parse (encode .resp3 v ++ rest) = .complete v rest ↔ v.Everywhere OneLine :=
  ⟨oneLine_of_parse_encode hfits, fun hline => parse_encode hfits hline rest⟩

/-- A carriage return or a line feed alone does no harm; the pair does, at any depth. -/
theorem parse_encode_lone_return :
    parse (encode .resp3 (.map [(.double 1.5, .push [.simple "\na\r", .bulk [13, 10]])]) ++ [43]) =
      .complete (.map [(.double 1.5, .push [.simple "\na\r", .bulk [13, 10]])]) [43] ∧
    parse (encode .resp3 (.set [.error "\r\n"]) ++ [43]) ≠
      .complete (.set [.error "\r\n"]) [43] := by
  constructor
  · exact (parse_encode_eq_complete_iff (by decide) [43]).2 (by decide)
  · exact fun h => absurd ((parse_encode_eq_complete_iff (by decide) [43]).1 h) (by decide)

end StoreTrial.Resp
