import StoreTrial.Command.Basic
import StoreTrial.Proofs.Resp.Plain
import StoreTrial.Proofs.Session.Reading

/-!
# Requests on the wire

A request is an array of payloads, and these are written alike in both versions of the protocol:
the number of parts, and then each part behind its length.  What a part holds is never looked at,
so ends of lines, digits and the words of options may stand in any key or value.  The bytes of a
request therefore tell its parts, and the parts of a write tell its options.

## Main results

* `Command.encode_toFrame` — the bytes of a request, in either version.
* `Command.parts_eq_of_wire` — they tell its parts.
* `SetOptions.args_inj` — the arguments of a write tell its options.
* `Command.drain_wires` — requests that are written one after another are read one by one.
* `Command.requests_read_back` — all of this together.
-/

namespace StoreTrial

open Resp (Value Version blob crlf drain encode encodeItems header line parse splitLine)

/-! ## Numbers -/

theorem Decimal.ofNat_injective {m n : Nat} (h : ofNat m = ofNat n) : m = n := by
  have hdigits : digits m = digits n := by
    simpa [ofNat, String.toList_ofList] using congrArg String.toList h
  have hread := readNat?_digits m
  rw [hdigits, readNat?_digits] at hread
  exact (Option.some.inj hread).symm

theorem numeral_injective {m n : UInt64} (h : numeral m = numeral n) : m = n :=
  UInt64.toNat_inj.1 (Decimal.ofNat_injective (Bytes.ofText_injective h))

/-! ## Lines and payloads -/

namespace Resp

/-- A count on a line is told by its bytes, and so is what follows the line. -/
theorem header_append_inj {kind : UInt8} {m n : Nat} {xs ys : Bytes}
    (h : header kind m ++ xs = header kind n ++ ys) : m = n ∧ xs = ys := by
  have hsplit : ∀ (k : Nat) (rest : Bytes),
      splitLine (Bytes.ofText (Decimal.ofNat k) ++ crlf ++ rest) =
        some (Bytes.ofText (Decimal.ofNat k), rest) := fun k rest =>
    splitLine_append_crlf rest (hasCrlf_ofText (Decimal.return_not_mem_ofNat k))
  have hlines : Bytes.ofText (Decimal.ofNat m) ++ crlf ++ xs =
      Bytes.ofText (Decimal.ofNat n) ++ crlf ++ ys := by
    simpa [header, line] using h
  have hread := hsplit m xs
  rw [hlines, hsplit n ys] at hread
  obtain ⟨hnumeral, rfl⟩ : Bytes.ofText (Decimal.ofNat n) = Bytes.ofText (Decimal.ofNat m) ∧
      ys = xs := by simpa using hread
  exact ⟨(Decimal.ofNat_injective (Bytes.ofText_injective hnumeral)).symm, rfl⟩

/-- A payload is told by its bytes, and so is what follows it. -/
theorem blob_append_inj {p q xs ys : Bytes} (h : blob p ++ xs = blob q ++ ys) :
    p = q ∧ xs = ys := by
  simp only [blob, List.append_assoc] at h
  obtain ⟨hlength, hrest⟩ := header_append_inj h
  obtain ⟨hpayload, hend⟩ := List.append_inj hrest hlength
  exact ⟨hpayload, List.append_cancel_left hend⟩

theorem flatMap_blob_append_inj {ps qs : List Bytes} (hlength : ps.length = qs.length)
    {xs ys : Bytes} (h : ps.flatMap blob ++ xs = qs.flatMap blob ++ ys) : ps = qs ∧ xs = ys := by
  induction ps generalizing qs with
  | nil =>
    obtain rfl : qs = [] := List.eq_nil_of_length_eq_zero hlength.symm
    exact ⟨rfl, h⟩
  | cons p ps ih =>
    cases qs with
    | nil => simp at hlength
    | cons q qs =>
      simp only [List.flatMap_cons, List.append_assoc] at h
      obtain ⟨rfl, hrest⟩ := blob_append_inj h
      obtain ⟨rfl, hend⟩ := ih (by simpa using hlength) hrest
      exact ⟨rfl, hend⟩

/-- A request is written alike in both versions. -/
theorem encode_request (version : Version) (parts : List Bytes) :
    encode version (.request parts) = header 42 parts.length ++ parts.flatMap blob := by
  show header 42 (parts.map Value.bulk).length ++ encodeItems version (parts.map .bulk) = _
  rw [encodeItems_eq_flatMap, List.flatMap_map, List.length_map]
  rfl

end Resp

/-! ## Options -/

/-- The words by which a life is told. -/
def Expiration.words : List Bytes := [Bytes.ofText "EX", Bytes.ofText "PX", Bytes.ofText "KEEPTTL"]

theorem Expiration.exists_args (e : Expiration) :
    ∃ word rest, e.args = word :: rest ∧ word ∈ words := by
  cases e with
  | seconds n => exact ⟨_, _, rfl, by decide⟩
  | millis n => exact ⟨_, _, rfl, by decide⟩
  | keep => exact ⟨_, _, rfl, by decide⟩

/-- A life is told by its arguments, and so is what follows them. -/
theorem Expiration.args_append_inj {e e' : Expiration} {xs ys : List Bytes}
    (h : e.args ++ xs = e'.args ++ ys) : e = e' ∧ xs = ys := by
  have hexpire : Bytes.ofText "EX" ≠ Bytes.ofText "PX" := by decide
  have hsecond : Bytes.ofText "EX" ≠ Bytes.ofText "KEEPTTL" := by decide
  have hmilli : Bytes.ofText "PX" ≠ Bytes.ofText "KEEPTTL" := by decide
  cases e <;> cases e' <;> simp_all [args, hexpire.symm, hsecond.symm, hmilli.symm]
  case seconds.seconds | millis.millis => exact numeral_injective h.1

namespace SetOptions

/-- The arguments of a life, if one is given. -/
def lifeArgs (life : Option Expiration) : List Bytes := life.elim [] Expiration.args

/-- The arguments behind those of a life. -/
def lastArgs (condition : Option Condition) (previous : Bool) : List Bytes :=
  (condition.map Condition.arg).toList ++ if previous then [Bytes.ofText "GET"] else []

theorem args_eq (o : SetOptions) :
    o.args = lifeArgs o.expiration ++ lastArgs o.condition o.previous := by
  obtain ⟨expiration, condition, previous⟩ := o
  cases expiration <;> cases condition <;> simp [args, lifeArgs, lastArgs]

/-- The arguments behind those of a life do not begin like one. -/
theorem head_lastArgs_not_mem (condition : Option Condition) (previous : Bool) :
    ∀ word ∈ (lastArgs condition previous).head?, word ∉ Expiration.words := by
  rcases condition with _ | _ | _ <;> cases previous <;> decide

theorem lastArgs_inj {condition condition' : Option Condition} {previous previous' : Bool}
    (h : lastArgs condition previous = lastArgs condition' previous') :
    condition = condition' ∧ previous = previous' := by
  rcases condition with _ | _ | _ <;> rcases condition' with _ | _ | _ <;> cases previous <;>
    cases previous' <;> first | exact ⟨rfl, rfl⟩ | exact absurd h (by decide)

/-- A life is told by its arguments where what follows does not begin like one. -/
theorem lifeArgs_append_inj {life life' : Option Expiration} {xs ys : List Bytes}
    (hxs : ∀ word ∈ xs.head?, word ∉ Expiration.words)
    (hys : ∀ word ∈ ys.head?, word ∉ Expiration.words)
    (h : lifeArgs life ++ xs = lifeArgs life' ++ ys) : life = life' ∧ xs = ys := by
  have hnone : ∀ {e : Expiration} {xs ys : List Bytes},
      (∀ word ∈ xs.head?, word ∉ Expiration.words) → xs ≠ e.args ++ ys := by
    rintro e _ ys hxs rfl
    obtain ⟨word, rest, hargs, hword⟩ := e.exists_args
    exact hxs word (by simp [hargs]) hword
  cases life with
  | none =>
    cases life' with
    | none => exact ⟨rfl, h⟩
    | some e' => exact absurd h (hnone hxs)
  | some e =>
    cases life' with
    | none => exact absurd h.symm (hnone hys)
    | some e' =>
      obtain ⟨rfl, hrest⟩ := Expiration.args_append_inj h
      exact ⟨rfl, hrest⟩

/-- The arguments of a write tell its options. -/
theorem args_inj {o o' : SetOptions} (h : o.args = o'.args) : o = o' := by
  rw [args_eq, args_eq] at h
  obtain ⟨hlife, hlast⟩ :=
    lifeArgs_append_inj (head_lastArgs_not_mem _ _) (head_lastArgs_not_mem _ _) h
  obtain ⟨hcondition, hprevious⟩ := lastArgs_inj hlast
  obtain ⟨expiration, condition, previous⟩ := o
  cases hlife
  cases hcondition
  cases hprevious
  rfl

end SetOptions

/-! ## Requests -/

namespace Command

/-- The command inside of all blocks. -/
def innermost : Command → Command
  | .queued inner => inner.innermost
  | c => c

/-- A request holds the name and the arguments, or the parts that were given. -/
theorem parts_eq (c : Command) :
    c.parts = match c.innermost with
      | .raw parts => parts
      | _ => Bytes.ofText c.name :: c.args := by
  induction c with
  | queued inner ih => exact ih
  | _ => rfl

/-- The bytes of a request: the number of its parts, and each part behind its length. -/
def wire (c : Command) : Bytes := header 42 c.parts.length ++ c.parts.flatMap blob

theorem encode_toFrame (version : Version) (c : Command) : encode version c.toFrame = c.wire :=
  Resp.encode_request version c.parts

/-- The bytes of a request tell its parts, and what follows it. -/
theorem wire_append_inj {c d : Command} {xs ys : Bytes} (h : c.wire ++ xs = d.wire ++ ys) :
    c.parts = d.parts ∧ xs = ys := by
  simp only [wire, List.append_assoc] at h
  obtain ⟨hcount, hrest⟩ := Resp.header_append_inj h
  exact Resp.flatMap_blob_append_inj hcount hrest

theorem parts_eq_of_wire {c d : Command} (h : c.wire = d.wire) : c.parts = d.parts := by
  have happend : c.wire ++ [] = d.wire ++ [] := by rw [h]
  exact (wire_append_inj happend).1

/-- The bytes of a write tell its key, its value and its options. -/
theorem wire_set_inj {key value key' value' : Bytes} {options options' : SetOptions}
    (h : (set key value options).wire = (set key' value' options').wire) :
    key = key' ∧ value = value' ∧ options = options' := by
  have hparts := parts_eq_of_wire h
  simp only [parts, name, args, List.cons.injEq, true_and] at hparts
  obtain ⟨hkey, hvalue, hargs⟩ := hparts
  exact ⟨hkey, hvalue, SetOptions.args_inj hargs⟩

/--
Whether 63 bits are enough for the number of parts and the length of each.  They are for every
request that memory can hold.
-/
def Fits (c : Command) : Prop := c.parts.length < 2 ^ 63 ∧ ∀ part ∈ c.parts, part.length < 2 ^ 63

instance : DecidablePred Fits := fun c => inferInstanceAs
  (Decidable (c.parts.length < 2 ^ 63 ∧ ∀ part ∈ c.parts, part.length < 2 ^ 63))

/-- Requests that are written one after another are read one by one. -/
theorem drain_wires {cs : List Command} (h : ∀ c ∈ cs, c.Fits) :
    drain (cs.flatMap wire) = ⟨cs.map toFrame, .empty, []⟩ := by
  have hread : ∀ v ∈ cs.map toFrame, parse (encode .resp2 v) = .complete v [] := by
    intro v hv
    obtain ⟨c, hc, rfl⟩ := List.mem_map.1 hv
    have hplain : c.toFrame.Plain := Value.plain_request (h c hc).1 (h c hc).2
    simpa using hplain .resp2 []
  have htakes := takes_flatMap hread
  rw [List.flatMap_map] at htakes
  simp only [encode_toFrame] at htakes
  rw [htakes.drain_eq, Resp.drain_of_incomplete Resp.parse_nil]
  simp

/--
**Requests are binary safe.**  A request has the same bytes in both versions of the protocol;
requests that are written one after another are read as one array of payloads each, with nothing
left over, whatever the payloads hold; and the bytes of a write tell its key, its value and its
options.
-/
theorem requests_read_back :
    (∀ c : Command, encode .resp2 c.toFrame = encode .resp3 c.toFrame) ∧
    (∀ c : Command, c.parts = match c.innermost with
      | .raw parts => parts
      | _ => Bytes.ofText c.name :: c.args) ∧
    (∀ cs : List Command, (∀ c ∈ cs, c.Fits) → ∀ version : Version,
      drain (cs.flatMap fun c => encode version c.toFrame) =
        ⟨cs.map fun c => .array (c.parts.map .bulk), .empty, []⟩) ∧
    (∀ (version version' : Version) (key value key' value' : Bytes)
      (options options' : SetOptions),
      encode version (set key value options).toFrame =
          encode version' (set key' value' options').toFrame ↔
        key = key' ∧ value = value' ∧ options = options') := by
  refine ⟨fun c => ?_, parts_eq, fun cs h version => ?_, fun version version' => ?_⟩
  · rw [encode_toFrame, encode_toFrame]
  · simp only [encode_toFrame]
    exact drain_wires h
  · intro key value key' value' options options'
    rw [encode_toFrame, encode_toFrame]
    constructor
    · exact wire_set_inj
    · rintro ⟨rfl, rfl, rfl⟩
      rfl

/-- A key that is an option, a value that looks like a frame, and a raw request without parts. -/
theorem requests_read_back_options_as_keys :
    drain (([set [78, 88] [13, 10, 42, 49] { expiration := some .keep, previous := true },
        queued (queued (raw [[71, 69, 84], []])), raw []] : List Command).flatMap
          fun c => encode .resp3 c.toFrame) =
      ⟨[.array [.bulk [83, 69, 84], .bulk [78, 88], .bulk [13, 10, 42, 49],
            .bulk [75, 69, 69, 80, 84, 84, 76], .bulk [71, 69, 84]],
          .array [.bulk [71, 69, 84], .bulk []], .array []], .empty, []⟩ ∧
    encode .resp2 (set [] (Bytes.ofText "NX") {}).toFrame ≠
      encode .resp3 (set [] [] { condition := some .ifAbsent }).toFrame := by
  obtain ⟨-, -, hread, hset⟩ := requests_read_back
  constructor
  · exact hread _ (by decide) .resp3
  · intro h
    exact absurd ((hset ..).1 h).2.1 (by decide)

end Command

end StoreTrial
