import StoreTrial.Proofs.Resp.Parts
import StoreTrial.Proofs.Resp.ReadBack

/-!
# The grammar of frames

`Derives` says which byte strings are written forms of which value, in all the spellings that the
protocol allows: a number may carry a sign or leading zeros, null has three forms, an error two,
and a payload three.  It knows nothing of buffers, rests or missing bytes.  Reading accepts exactly
what it derives: a frame is taken off the front of a buffer if and only if the bytes that are taken
derive it, so that no buffer begins with two different frames.

## Main results

* `Derives.parse_append` — a derived frame is read, whatever follows it.
* `exists_derives_of_parse` — a frame that is read was derived by the bytes that it took.
* `parse_eq_complete_iff_derives` — both together, by the number of bytes that are taken.
-/

namespace StoreTrial.Resp

open Decimal (readInt64? readFloat?)
open Value (inTurn inTurn_nil inTurn_cons)

/-! ## Lines -/

/-- The content of a line that writes `a`: it stops at the first end of line, and all of it is
the text that is read. -/
def Writes {α : Type} (read : String → Option α) (content : Bytes) (a : α) : Prop :=
  ¬ crlf <:+: content ∧ ∃ text, content = Bytes.ofText text ∧ read text = some a

/-- The content of a line that writes a length or a count. -/
def Announces (content : Bytes) (n : Nat) : Prop :=
  ∃ i : Int64, Writes readInt64? content i ∧ i.toInt = n

/-! ## Frames -/

mutual

/-- The bytes, all of them, write the value. -/
inductive Derives : Bytes → Value → Prop where
  -- `+` and `-`: a text up to the end of the line
  | simple {text : String} (hline : ¬ crlf <:+: Bytes.ofText text) :
      Derives (line 43 (Bytes.ofText text)) (.simple text)
  | error {text : String} (hline : ¬ crlf <:+: Bytes.ofText text) :
      Derives (line 45 (Bytes.ofText text)) (.error text)
  -- `:`, `_`, `#` and `,`
  | integer {content : Bytes} {n : Int64} (hn : Writes readInt64? content n) :
      Derives (line 58 content) (.integer n)
  | null : Derives (line 95 []) .null
  | boolean (b : Bool) : Derives (line 35 [if b then 116 else 102]) (.boolean b)
  | double {content : Bytes} {x : Float} (hx : Writes readFloat? content x) :
      Derives (line 44 content) (.double x)
  -- `$` and `*` with the length or the count -1
  | noData {content : Bytes} (hn : Writes readInt64? content (-1)) :
      Derives (line 36 content) .null
  | noItems {content : Bytes} (hn : Writes readInt64? content (-1)) :
      Derives (line 42 content) .null
  -- `$`, `!` and `=`: a length, and that many bytes
  | bulk {content data : Bytes} (hn : Announces content data.length) :
      Derives (line 36 content ++ (data ++ crlf)) (.bulk data)
  | bulkError {content : Bytes} {text : String}
      (hn : Announces content (Bytes.ofText text).length) :
      Derives (line 33 content ++ (Bytes.ofText text ++ crlf)) (.error text)
  | formatted {content data : Bytes} {a b c : UInt8}
      (hn : Announces content (a :: b :: c :: 58 :: data).length) :
      Derives (line 61 content ++ (a :: b :: c :: 58 :: data ++ crlf)) (.bulk data)
  | unformatted {content data : Bytes} (hn : Announces content data.length)
      (hdata : ¬ ∃ a b c rest, data = a :: b :: c :: 58 :: rest) :
      Derives (line 61 content ++ (data ++ crlf)) (.bulk data)
  -- `*`, `~` and `>`: a count, and that many frames
  | array {content bytes : Bytes} {items : List Value} (hn : Announces content items.length)
      (hitems : DerivesAll bytes items) : Derives (line 42 content ++ bytes) (.array items)
  | set {content bytes : Bytes} {items : List Value} (hn : Announces content items.length)
      (hitems : DerivesAll bytes items) : Derives (line 126 content ++ bytes) (.set items)
  | push {content bytes : Bytes} {items : List Value} (hn : Announces content items.length)
      (hitems : DerivesAll bytes items) : Derives (line 62 content ++ bytes) (.push items)
  -- `%`: a count, and twice that many frames
  | map {content bytes : Bytes} {entries : List (Value × Value)}
      (hn : Announces content entries.length) (hentries : DerivesAll bytes (inTurn entries)) :
      Derives (line 37 content ++ bytes) (.map entries)

/-- The bytes write the values one after another. -/
inductive DerivesAll : Bytes → List Value → Prop where
  | nil : DerivesAll [] []
  | cons {bytes more : Bytes} {v : Value} {vs : List Value} (hhead : Derives bytes v)
      (htail : DerivesAll more vs) : DerivesAll (bytes ++ more) (v :: vs)

end

/-! ## What stands on a line -/

theorem lineText_eq_ok_iff {content : Bytes} {text : String} :
    lineText content = .ok text ↔ content = Bytes.ofText text := by
  constructor
  · exact eq_ofText_of_lineText
  · rintro rfl
    exact lineText_ofText text

theorem lineText_bind_eq_ok_iff {α : Type} {content : Bytes} {next : String → Except Error α}
    {a : α} :
    lineText content >>= next = .ok a ↔
      ∃ text, content = Bytes.ofText text ∧ next text = .ok a := by
  constructor
  · intro h
    cases htext : lineText content with
    | error e => simp [htext, bind, Except.bind] at h
    | ok text =>
      rw [htext] at h
      exact ⟨text, lineText_eq_ok_iff.1 htext, h⟩
  · rintro ⟨text, rfl, h⟩
    rw [lineText_ofText]
    exact h

theorem lineBoolean_eq_ok_iff {content : Bytes} {b : Bool} :
    lineBoolean content = .ok b ↔ content = [if b then 116 else 102] := by
  unfold lineBoolean
  by_cases htrue : content = [116]
  · subst htrue
    cases b <;> simp
  · by_cases hfalse : content = [102]
    · subst hfalse
      cases b <;> simp
    · cases b <;> simp [htrue, hfalse]

theorem hasFormat_iff {data : Bytes} :
    hasFormat data = true ↔ ∃ a b c rest, data = a :: b :: c :: 58 :: rest := by
  match data with
  | [] | [_] | [_, _] | [_, _, _] => simp [hasFormat]
  | a :: b :: c :: d :: rest => simp [hasFormat]

theorem writes_iff_lineInteger {content : Bytes} {n : Int64} :
    Writes readInt64? content n ↔ hasCrlf content = false ∧ lineInteger content = .ok n := by
  rw [Writes, hasCrlf_eq_false_iff, lineInteger, lineText_bind_eq_ok_iff]
  refine and_congr_right fun _ => exists_congr fun text => and_congr_right fun _ => ?_
  cases readInt64? text <;> simp

theorem writes_iff_lineDouble {content : Bytes} {x : Float} :
    Writes readFloat? content x ↔ hasCrlf content = false ∧ lineDouble content = .ok x := by
  rw [Writes, hasCrlf_eq_false_iff, lineDouble, lineText_bind_eq_ok_iff]
  refine and_congr_right fun _ => exists_congr fun text => and_congr_right fun _ => ?_
  cases readFloat? text <;> simp

theorem announces_iff (fault : Int64 → FormError) {content : Bytes} {n : Nat} :
    Announces content n ↔ hasCrlf content = false ∧ announced content fault = .ok n := by
  rw [announced_eq_ok_iff]
  constructor
  · rintro ⟨i, hwrites, hi⟩
    obtain ⟨hline, hread⟩ := writes_iff_lineInteger.1 hwrites
    exact ⟨hline, i, hread, hi⟩
  · rintro ⟨hline, i, hread, hi⟩
    exact ⟨i, writes_iff_lineInteger.2 ⟨hline, hread⟩, hi⟩

theorem writesNull_iff {content : Bytes} :
    writesNull content = true ↔ lineInteger content = .ok (-1) := by
  unfold writesNull
  cases lineInteger content <;> simp

/-! ## Derived frames are read -/

/-- Pairs are read as twice as many things. -/
theorem repeated_paired_iff {read : Bytes → Reading Value} {entries : List (Value × Value)}
    {bytes after : Bytes} :
    repeated (paired read) entries.length bytes = .complete entries after ↔
      repeated read (inTurn entries).length bytes = .complete (inTurn entries) after := by
  induction entries generalizing bytes with
  | nil => simp [repeated]
  | cons e entries ih =>
    obtain ⟨k, v⟩ := e
    simp only [List.length_cons, inTurn_cons, repeated, paired, Reading.andThen_eq_complete]
    constructor
    · rintro ⟨a, rest, ⟨b, middle, hk, c, _, hv, heq⟩, as, _, htail, heq'⟩
      cases heq
      cases heq'
      exact ⟨k, middle, hk, _, _, ⟨v, rest, hv, _, _, ih.1 htail, rfl⟩, rfl⟩
    · rintro ⟨a, middle, hk, as, _, ⟨b, rest, hv, bs, _, htail, heq⟩, heq'⟩
      cases heq
      cases heq'
      exact ⟨(k, v), rest, ⟨k, middle, hk, v, rest, hv, rfl⟩, entries, after, ih.2 htail,
        rfl⟩

section Derived

variable {kind : UInt8} {content : Bytes}

theorem parse_null_line (hkind : kind = 36 ∨ kind = 42) (hn : Writes readInt64? content (-1))
    (rest : Bytes) : parse (line kind content ++ rest) = .complete .null rest := by
  obtain ⟨hline, hread⟩ := writes_iff_lineInteger.1 hn
  have hnull : writesNull content = true := writesNull_iff.2 hread
  rw [parse_line kind rest hline]
  rcases hkind with rfl | rfl <;> simp [frameBody, hnull]

theorem parse_announced_blob (hkind : kind = 36 ∨ kind = 33 ∨ kind = 61) {data : Bytes}
    (hn : Announces content data.length) (rest : Bytes) {v : Value}
    (hvalue : blobValue kind data = .ok v) :
    parse (line kind content ++ (data ++ crlf) ++ rest) = .complete v rest := by
  obtain ⟨hline, hcount⟩ := (announces_iff .badLength).1 hn
  rw [List.append_assoc, parse_line kind _ hline, frameBody_blob _ _ hkind hcount,
    readBlob_append, hvalue]
  rfl

theorem parse_announced_items (hkind : kind = 42 ∨ kind = 126 ∨ kind = 62) {items : List Value}
    (hn : Announces content items.length) {bytes rest : Bytes}
    (hitems : repeated parse items.length (bytes ++ rest) = .complete items rest) :
    parse (line kind content ++ bytes ++ rest) = .complete (aggregate kind items) rest := by
  obtain ⟨hline, hcount⟩ := (announces_iff .badCount).1 hn
  rw [List.append_assoc, parse_line kind _ hline, frameBody_items _ _ hkind hcount, hitems]
  rfl

end Derived

mutual

/-- A derived frame is read, whatever follows it. -/
theorem Derives.parse_append {bytes : Bytes} {v : Value} (h : Derives bytes v) (rest : Bytes) :
    parse (bytes ++ rest) = .complete v rest :=
  match h with
  | .simple hline => parse_simple (hasCrlf_eq_false_iff.2 hline) rest
  | .error hline => parse_error (hasCrlf_eq_false_iff.2 hline) rest
  | .integer hn => by
    obtain ⟨hline, hread⟩ := writes_iff_lineInteger.1 hn
    exact parse_number_line hline hread rest
  | .null => parse_null rest
  | .boolean b => by
    have hread : lineBoolean [if b then 116 else 102] = .ok b := lineBoolean_eq_ok_iff.2 rfl
    exact parse_boolean_line (by cases b <;> rfl) hread rest
  | .double hx => by
    obtain ⟨hline, hread⟩ := writes_iff_lineDouble.1 hx
    exact parse_double_line hline hread rest
  | .noData hn => parse_null_line (.inl rfl) hn rest
  | .noItems hn => parse_null_line (.inr rfl) hn rest
  | .bulk hn => parse_announced_blob (.inl rfl) hn rest rfl
  | .bulkError hn => by
    refine parse_announced_blob (.inr (.inl rfl)) hn rest ?_
    simp [blobValue, lineText_ofText, Except.map]
  | .formatted hn => parse_announced_blob (.inr (.inr rfl)) hn rest rfl
  | .unformatted hn hdata => by
    refine parse_announced_blob (.inr (.inr rfl)) hn rest ?_
    simp [blobValue, mt hasFormat_iff.1 hdata]
  | .array hn hitems => parse_announced_items (.inl rfl) hn (hitems.repeated_append rest)
  | .set hn hitems => parse_announced_items (.inr (.inl rfl)) hn (hitems.repeated_append rest)
  | .push hn hitems => parse_announced_items (.inr (.inr rfl)) hn (hitems.repeated_append rest)
  | .map hn hentries => by
    obtain ⟨hline, hcount⟩ := (announces_iff .badMapCount).1 hn
    rw [List.append_assoc, parse_line 37 _ hline, frameBody_entries _ _ hcount,
      repeated_paired_iff.2 (hentries.repeated_append rest)]
    rfl

/-- Derived frames are read one after another. -/
theorem DerivesAll.repeated_append {bytes : Bytes} {vs : List Value} (h : DerivesAll bytes vs)
    (rest : Bytes) : repeated parse vs.length (bytes ++ rest) = .complete vs rest :=
  match h with
  | .nil => rfl
  | .cons hhead htail => by
    rw [List.length_cons, repeated, List.append_assoc, hhead.parse_append]
    simp only [Reading.andThen, htail.repeated_append rest]

end

/-! ## Frames that are read are derived -/

theorem Reading.ofLine_map_eq_complete {α β : Type} {rest after : Bytes} {e : Except Error α}
    {make : α → β} {b : β} :
    Reading.ofLine rest (e.map make) = .complete b after ↔
      ∃ a, e = .ok a ∧ make a = b ∧ rest = after := by
  cases e <;> simp [Reading.ofLine, Except.map]

/-- A reader that takes off the front bytes which derive the value that it yields. -/
def Sound (read : Bytes → Reading Value) : Prop :=
  ∀ bytes v rest, read bytes = .complete v rest →
    ∃ taken, bytes = taken ++ rest ∧ Derives taken v

theorem Sound.repeated {read : Bytes → Reading Value} (h : Sound read) {n : Nat}
    {bytes rest : Bytes} {vs : List Value} (hr : repeated read n bytes = .complete vs rest) :
    vs.length = n ∧ ∃ taken, bytes = taken ++ rest ∧ DerivesAll taken vs := by
  induction n generalizing bytes vs with
  | zero =>
    cases hr
    exact ⟨rfl, [], rfl, .nil⟩
  | succ n ih =>
    obtain ⟨v, middle, hv, hr⟩ := Reading.andThen_eq_complete.1 hr
    obtain ⟨tail, _, htail, heq⟩ := Reading.andThen_eq_complete.1 hr
    cases heq
    obtain ⟨first, rfl, hfirst⟩ := h _ _ _ hv
    obtain ⟨hlength, more, rfl, hmore⟩ := ih htail
    refine ⟨by rw [List.length_cons, hlength], first ++ more, ?_, .cons hfirst hmore⟩
    rw [List.append_assoc]

theorem length_of_repeated {α : Type} {read : Bytes → Reading α} {n : Nat} {bytes rest : Bytes}
    {as : List α} (h : repeated read n bytes = .complete as rest) : as.length = n := by
  induction n generalizing bytes as with
  | zero =>
    cases h
    rfl
  | succ n ih =>
    obtain ⟨a, middle, -, h⟩ := Reading.andThen_eq_complete.1 h
    obtain ⟨tail, _, htail, heq⟩ := Reading.andThen_eq_complete.1 h
    cases heq
    rw [List.length_cons, ih htail]

theorem exists_data_of_readBlob {kind : UInt8} {n : Nat} {bytes rest : Bytes} {v : Value}
    (h : readBlob kind n bytes = .complete v rest) :
    ∃ data, bytes = data ++ crlf ++ rest ∧ data.length = n ∧ blobValue kind data = .ok v := by
  unfold readBlob at h
  split at h
  · next a b after hdrop =>
    split at h
    · next hend =>
      obtain ⟨rfl, rfl⟩ := hend
      obtain ⟨hvalue, rfl⟩ := Reading.ofLine_eq_complete.1 h
      refine ⟨bytes.take n, ?_, ?_, hvalue⟩
      · calc bytes = bytes.take n ++ bytes.drop n := (List.take_append_drop n bytes).symm
          _ = bytes.take n ++ crlf ++ after := by rw [hdrop, List.append_assoc]; rfl
      · have hlength := congrArg List.length hdrop
        simp only [List.length_drop, List.length_cons] at hlength
        rw [List.length_take]
        omega
    · cases h
  · cases h

section Soundness

variable {inner : Bytes → Reading Value} {kind : UInt8} {content rest after : Bytes} {v : Value}

theorem derives_of_blobValue {data : Bytes} (hkind : kind = 36 ∨ kind = 33 ∨ kind = 61)
    (hn : Announces content data.length) (h : blobValue kind data = .ok v) :
    Derives (line kind content ++ (data ++ crlf)) v := by
  rcases hkind with rfl | rfl | rfl
  · cases h
    exact .bulk hn
  · change (lineText data).map .error = .ok v at h
    cases htext : lineText data with
    | error e => simp [htext, Except.map] at h
    | ok text =>
      rw [htext] at h
      cases h
      obtain rfl := lineText_eq_ok_iff.1 htext
      exact .bulkError hn
  · by_cases hformat : ∃ a b c more, data = a :: b :: c :: 58 :: more
    · obtain ⟨a, b, c, more, rfl⟩ := hformat
      cases h
      exact .formatted hn
    · have hvalue : blobValue 61 data = .ok (.bulk data) := by
        simp [blobValue, mt hasFormat_iff.1 hformat]
      rw [hvalue] at h
      cases h
      exact .unformatted hn hformat

theorem exists_derives_of_line (h : Derives (line kind content) v) :
    ∃ taken, after = taken ++ after ∧ Derives (line kind content ++ taken) v :=
  ⟨[], rfl, by rwa [List.append_nil]⟩

theorem exists_derives_of_readBlob (hkind : kind = 36 ∨ kind = 33 ∨ kind = 61) {n : Nat}
    (hn : Announces content n) (h : readBlob kind n rest = .complete v after) :
    ∃ taken, rest = taken ++ after ∧ Derives (line kind content ++ taken) v := by
  obtain ⟨data, hrest, rfl, hvalue⟩ := exists_data_of_readBlob h
  exact ⟨data ++ crlf, hrest, derives_of_blobValue hkind hn hvalue⟩

theorem exists_derives_of_items (hinner : Sound inner)
    (hkind : kind = 42 ∨ kind = 126 ∨ kind = 62) {n : Nat} (hn : Announces content n)
    (h : ((repeated inner n rest).andThen fun items rest =>
      .complete (aggregate kind items) rest) = .complete v after) :
    ∃ taken, rest = taken ++ after ∧ Derives (line kind content ++ taken) v := by
  obtain ⟨items, _, hitems, heq⟩ := Reading.andThen_eq_complete.1 h
  cases heq
  obtain ⟨rfl, taken, hrest, hall⟩ := hinner.repeated hitems
  refine ⟨taken, hrest, ?_⟩
  rcases hkind with rfl | rfl | rfl
  · exact .array hn hall
  · exact .set hn hall
  · exact .push hn hall

theorem exists_derives_of_entries (hinner : Sound inner) {n : Nat} (hn : Announces content n)
    (h : ((repeated (paired inner) n rest).andThen fun entries rest =>
      .complete (.map entries) rest) = .complete v after) :
    ∃ taken, rest = taken ++ after ∧ Derives (line 37 content ++ taken) v := by
  obtain ⟨entries, _, hentries, heq⟩ := Reading.andThen_eq_complete.1 h
  cases heq
  obtain rfl := length_of_repeated hentries
  obtain ⟨-, taken, hrest, hall⟩ := hinner.repeated (repeated_paired_iff.1 hentries)
  exact ⟨taken, hrest, .map hn hall⟩

/-- Whatever the kind, a line and what is read behind it derive the value. -/
theorem exists_derives_of_frameBody (hinner : Sound inner) (hline : hasCrlf content = false)
    (h : frameBody inner kind content rest = .complete v after) :
    ∃ taken, rest = taken ++ after ∧ Derives (line kind content ++ taken) v := by
  unfold frameBody at h
  by_cases hsimple : kind = 43
  · rw [if_pos hsimple] at h
    obtain ⟨text, htext, rfl, rfl⟩ := Reading.ofLine_map_eq_complete.1 h
    obtain rfl := lineText_eq_ok_iff.1 htext
    exact exists_derives_of_line (hsimple ▸ .simple (hasCrlf_eq_false_iff.1 hline))
  rw [if_neg hsimple] at h
  by_cases herror : kind = 45
  · rw [if_pos herror] at h
    obtain ⟨text, htext, rfl, rfl⟩ := Reading.ofLine_map_eq_complete.1 h
    obtain rfl := lineText_eq_ok_iff.1 htext
    exact exists_derives_of_line (herror ▸ .error (hasCrlf_eq_false_iff.1 hline))
  rw [if_neg herror] at h
  by_cases hinteger : kind = 58
  · rw [if_pos hinteger] at h
    obtain ⟨n, hn, rfl, rfl⟩ := Reading.ofLine_map_eq_complete.1 h
    exact exists_derives_of_line (hinteger ▸ .integer (writes_iff_lineInteger.2 ⟨hline, hn⟩))
  rw [if_neg hinteger] at h
  by_cases hnull : kind = 95
  · rw [if_pos hnull] at h
    split at h
    · next hcontent =>
      cases h
      exact exists_derives_of_line (hnull ▸ hcontent ▸ .null)
    · cases h
  rw [if_neg hnull] at h
  by_cases hboolean : kind = 35
  · rw [if_pos hboolean] at h
    obtain ⟨b, hb, rfl, rfl⟩ := Reading.ofLine_map_eq_complete.1 h
    obtain rfl := lineBoolean_eq_ok_iff.1 hb
    exact exists_derives_of_line (hboolean ▸ .boolean b)
  rw [if_neg hboolean] at h
  by_cases hdouble : kind = 44
  · rw [if_pos hdouble] at h
    obtain ⟨x, hx, rfl, rfl⟩ := Reading.ofLine_map_eq_complete.1 h
    exact exists_derives_of_line (hdouble ▸ .double (writes_iff_lineDouble.2 ⟨hline, hx⟩))
  rw [if_neg hdouble] at h
  by_cases hnothing : (kind = 36 ∨ kind = 42) ∧ writesNull content
  · rw [if_pos hnothing] at h
    obtain ⟨hkind, hwrites⟩ := hnothing
    have hn : Writes readInt64? content (-1) :=
      writes_iff_lineInteger.2 ⟨hline, writesNull_iff.1 hwrites⟩
    cases h
    rcases hkind with rfl | rfl
    · exact exists_derives_of_line (.noData hn)
    · exact exists_derives_of_line (.noItems hn)
  rw [if_neg hnothing] at h
  -- what is left announces a length or a count
  by_cases hblob : kind = 36 ∨ kind = 33 ∨ kind = 61
  · rw [if_pos hblob] at h
    split at h
    · cases h
    · next n hn => exact exists_derives_of_readBlob hblob ((announces_iff _).2 ⟨hline, hn⟩) h
  rw [if_neg hblob] at h
  by_cases hitems : kind = 42 ∨ kind = 126 ∨ kind = 62
  · rw [if_pos hitems] at h
    split at h
    · cases h
    · next n hn =>
      exact exists_derives_of_items hinner hitems ((announces_iff _).2 ⟨hline, hn⟩) h
  rw [if_neg hitems] at h
  by_cases hentries : kind = 37
  · rw [if_pos hentries] at h
    subst hentries
    split at h
    · cases h
    · next n hn => exact exists_derives_of_entries hinner ((announces_iff _).2 ⟨hline, hn⟩) h
  rw [if_neg hentries] at h
  cases h

end Soundness

theorem sound_frame (depth : Nat) : Sound (frame depth) := by
  induction depth with
  | zero =>
    intro bytes v rest h
    cases bytes <;> cases h
  | succ depth ih =>
    intro bytes v rest h
    cases bytes with
    | nil => cases h
    | cons kind bytes =>
      simp only [frame] at h
      split at h
      · cases h
      · next content after hsplit =>
        obtain ⟨taken, rfl, hderives⟩ :=
          exists_derives_of_frameBody ih (hasCrlf_of_splitLine hsplit) h
        refine ⟨line kind content ++ taken, ?_, hderives⟩
        rw [eq_of_splitLine hsplit]
        simp [line]

/-- A frame that is read was derived by the bytes that it took. -/
theorem exists_derives_of_parse {bytes rest : Bytes} {v : Value}
    (h : parse bytes = .complete v rest) : ∃ taken, bytes = taken ++ rest ∧ Derives taken v :=
  sound_frame bytes.length bytes v rest h

/-! ## The grammar and the reading -/

/--
**Reading accepts exactly the grammar.**  A value is read from a buffer and takes `n` bytes of it
if and only if its first `n` bytes derive the value; what is read always takes some number of bytes
off the front; and no buffer begins with two different frames.
-/
theorem parse_eq_complete_iff_derives (bytes : Bytes) :
    (∀ v n, parse bytes = .complete v (bytes.drop n) ↔ Derives (bytes.take n) v) ∧
    (∀ v rest, parse bytes = .complete v rest → ∃ n ≤ bytes.length, rest = bytes.drop n) ∧
    (∀ v w n m, n ≤ bytes.length → m ≤ bytes.length → Derives (bytes.take n) v →
      Derives (bytes.take m) w → n = m ∧ v = w) := by
  have hread : ∀ v n, Derives (bytes.take n) v → parse bytes = .complete v (bytes.drop n) := by
    intro v n h
    have hparse := h.parse_append (bytes.drop n)
    rwa [List.take_append_drop] at hparse
  refine ⟨?_, ?_, ?_⟩
  · intro v n
    constructor
    · intro h
      obtain ⟨taken, hbytes, hderives⟩ := exists_derives_of_parse h
      have hsplit : taken ++ bytes.drop n = bytes.take n ++ bytes.drop n := by
        rw [← hbytes, List.take_append_drop]
      rwa [← List.append_cancel_right hsplit]
    · exact hread v n
  · intro v rest h
    obtain ⟨taken, rfl, -⟩ := exists_derives_of_parse h
    refine ⟨taken.length, ?_, List.drop_left.symm⟩
    rw [List.length_append]
    omega
  · intro v w n m hn hm hv hw
    have hsame := (hread v n hv).symm.trans (hread w m hw)
    simp only [Reading.complete.injEq] at hsame
    obtain ⟨rfl, hdrop⟩ := hsame
    have hlength := congrArg List.length hdrop
    simp only [List.length_drop] at hlength
    exact ⟨by omega, rfl⟩

/-- A payload with its format, and an error whose length has a sign and a zero, in an array. -/
theorem derives_two_spellings :
    let bytes : Bytes := [42, 50, 13, 10, 61, 54, 13, 10, 116, 120, 116, 58, 13, 10, 13, 10,
      33, 43, 48, 49, 13, 10, 120, 13, 10, 58, 49]
    parse bytes = .complete (.array [.bulk [13, 10], .error "x"]) (bytes.drop 25) ∧
      Derives (bytes.take 25) (.array [.bulk [13, 10], .error "x"]) ∧
      (∃ n ≤ bytes.length, [58, 49] = bytes.drop n) ∧
      ∀ w m, m ≤ bytes.length → Derives (bytes.take m) w →
        25 = m ∧ .array [.bulk [13, 10], .error "x"] = w := by
  intro bytes
  obtain ⟨haccept, htakes, hunique⟩ := parse_eq_complete_iff_derives bytes
  have hparse : parse bytes = .complete (.array [.bulk [13, 10], .error "x"]) (bytes.drop 25) := rfl
  have hderives := (haccept _ _).1 hparse
  refine ⟨hparse, hderives, htakes _ _ hparse, ?_⟩
  intro w m hm hw
  exact hunique _ w 25 m (by decide) hm hderives hw

end StoreTrial.Resp
