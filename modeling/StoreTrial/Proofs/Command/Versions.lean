import StoreTrial.Command.Reply
import StoreTrial.Proofs.Resp.Downgrade

/-!
# Answers do not depend on the version

A server of the older version answers in the older shapes: `Value.down` is what a session reads
where a server of the newer version would have sent the value.  Every observation that a decoder
makes of a value can still be made of its older shape, with the same outcome.  So each command
makes the same of both answers, but for the values that its output holds, which are then in the
older shape themselves.

The converse does not hold.  A double is no text in the newer version, and in the older one it is a
payload, which is.

## Main results

* `Value.items?_down`, `Value.text?_down`, `Value.integer?_down` — what can be observed still can
  be.
* `Message.ofFrame?_down`, `Confirmation.ofKind?_down` — frames of a subscription.
* `Command.decode_down` — the answer to any command.
* `Command.answers_agree` — all of this, for what is read of a server's bytes.
-/

namespace StoreTrial

open Resp (Value encode parse)
open Resp.Value (FitsFlat OneLine)

/-! ## Observations -/

namespace Resp.Value

variable {v : Value}

theorem items?_down {items : List Value} (h : v.items? = some items) :
    v.down.items? = some (items.map down) := by
  cases v <;> simp [items?] at h <;> simp [down, items?, downItems_eq_map, h]

theorem text?_down {text : Bytes} (h : v.text? = some text) : v.down.text? = some text := by
  cases v <;> simp [text?] at h <;> simp [down, text?, h]

theorem integer?_down {n : Int64} (h : v.integer? = some n) : v.down.integer? = some n := by
  cases v <;> simp [integer?] at h <;> simp [down, integer?, h]

theorem reads_down {expected : String} (h : v.reads expected) : v.down.reads expected := by
  unfold reads at h
  split at h
  · next text htext => simpa [reads, text?_down htext] using h
  · cases h

theorem isNull_down : v.down.isNull = v.isNull := by
  cases v <;> rfl

end Resp.Value

/-! ## Frames of a subscription -/

/-- A confirmation is told by its older shape. -/
theorem Confirmation.ofKind?_down {kind : String} {v : Value} {k : Confirmation}
    (h : ofKind? kind v = some k) : ofKind? kind v.down = some k := by
  unfold ofKind? at h
  split at h
  · next word channel count hitems =>
    split at h
    · next hreads =>
      obtain ⟨name, hname, h⟩ := Option.bind_eq_some_iff.1 h
      obtain ⟨n, hn, rfl⟩ := Option.map_eq_some_iff.1 h
      simp [ofKind?, Value.items?_down hitems, Value.reads_down hreads, Value.text?_down hname,
        Value.integer?_down hn]
    · cases h
  · cases h

theorem Message.ofParts?_down {channel payload : Value} {m : Message}
    (h : ofParts? channel payload = some m) : ofParts? channel.down payload.down = some m := by
  obtain ⟨name, hname, h⟩ := Option.bind_eq_some_iff.1 h
  obtain ⟨text, htext, rfl⟩ := Option.map_eq_some_iff.1 h
  simp [ofParts?, Value.text?_down hname, Value.text?_down htext]

/-- A message is told by its older shape. -/
theorem Message.ofFrame?_down {v : Value} {m : Message} (h : ofFrame? v = some m) :
    ofFrame? v.down = some m := by
  unfold ofFrame? at h
  split at h
  · next word channel payload hitems =>
    split at h
    · next hreads =>
      simp [ofFrame?, Value.items?_down hitems, Value.reads_down hreads, ofParts?_down h]
    · cases h
  · next word pattern channel payload hitems =>
    split at h
    · next hreads =>
      simp [ofFrame?, Value.items?_down hitems, Value.reads_down hreads, ofParts?_down h]
    · cases h
  · cases h

/-! ## Answers -/

/-- The end of a block with the answers in the older shapes. -/
def ExecOutcome.down : ExecOutcome → ExecOutcome
  | .committed replies => .committed (replies.map Value.down)
  | .aborted => .aborted
  | .failed message => .failed message

/-- What a command makes of an answer, with the values in it in the older shapes. -/
def Command.downOutput : (c : Command) → c.Output → c.Output
  | .hello _, (properties : Value) => properties.down
  | .raw _, (reply : Value) => reply.down
  | .exec, outcome => ExecOutcome.down outcome
  | _, output => output

section Shapes

variable {v : Value}

theorem expectText_down {expected command : String} (h : expectText expected command v = .ok ()) :
    expectText expected command v.down = .ok () := by
  unfold expectText at h
  split at h
  · next hreads => simp [expectText, Value.reads_down hreads]
  · cases h

theorem expectInteger_down {command : String} {n : Int64} (h : expectInteger command v = .ok n) :
    expectInteger command v.down = .ok n := by
  unfold expectInteger at h
  split at h
  · next m hm =>
    cases h
    simp [expectInteger, Value.integer?_down hm]
  · cases h

theorem expectPayload_down {command : String} {payload : Option Bytes}
    (h : expectPayload command v = .ok payload) : expectPayload command v.down = .ok payload := by
  unfold expectPayload at h
  split at h
  · exact h
  · exact h
  · cases h

theorem expectConfirmation_down {read : Value → Option Confirmation} {command : String}
    {k : Confirmation} (hread : ∀ v k, read v = some k → read v.down = some k)
    (h : expectConfirmation read command v = .ok k) :
    expectConfirmation read command v.down = .ok k := by
  unfold expectConfirmation at h
  split at h
  · next k' hk =>
    cases h
    simp [expectConfirmation, hread v k hk]
  · cases h

theorem expectStored_down {reply : SetReply} (h : expectStored v = .ok reply) :
    expectStored v.down = .ok reply := by
  unfold expectStored at h
  split at h
  · next hnull => simpa [expectStored, Value.isNull_down, hnull] using h
  · next hnull =>
    split at h
    · next hreads => simpa [expectStored, Value.isNull_down, hnull, Value.reads_down hreads] using h
    · cases h

/-- The answer to a write, whether or not the value held before was asked for. -/
theorem expectWritten_down {previous : Bool} {reply : SetReply}
    (h : (if previous then (expectPayload "SET" v).map SetReply.previous else expectStored v) =
      .ok reply) :
    (if previous then (expectPayload "SET" v.down).map SetReply.previous
      else expectStored v.down) = .ok reply := by
  cases previous with
  | false => exact expectStored_down h
  | true =>
    cases hpayload : expectPayload "SET" v with
    | ok payload => simpa [hpayload, expectPayload_down hpayload] using h
    | error e => simp [hpayload, Except.map] at h

theorem expectProperties_down {properties : Value} (h : expectProperties v = .ok properties) :
    expectProperties v.down = .ok properties.down := by
  unfold expectProperties at h
  split at h
  · cases h
    rfl
  · cases h
    rfl
  · cases h

theorem expectOutcome_down {outcome : ExecOutcome} (h : expectOutcome v = .ok outcome) :
    expectOutcome v.down = .ok outcome.down := by
  unfold expectOutcome at h
  split at h
  · cases h
    rfl
  · cases h
    rfl
  · cases h
    simp [Value.down, expectOutcome, ExecOutcome.down, Resp.downItems_eq_map]
  · cases h

theorem expectQueued_down {command : String} {reply : QueueReply}
    (h : expectQueued command v = .ok reply) : expectQueued command v.down = .ok reply := by
  unfold expectQueued at h
  split at h
  · exact h
  · next herror =>
    split at h
    · next hreads =>
      have hdown := Value.reads_down hreads
      cases v <;> first | exact absurd rfl (herror _) | simp_all [expectQueued, Value.down]
    · cases h

end Shapes

/-- A command makes the same of the older shape of an answer. -/
theorem Command.decode_down (c : Command) {v : Value} {o : c.Output} (h : c.decode v = .ok o) :
    c.decode v.down = .ok (c.downOutput o) := by
  cases c with
  | hello version => exact expectProperties_down h
  | raw parts =>
    cases h
    rfl
  | ping | merge | multi | discard | watch keys => exact expectText_down h
  | set key value options => exact expectWritten_down h
  | get key => exact expectPayload_down h
  | del keys | present keys | publish channel message => exact expectInteger_down h
  | exec => exact expectOutcome_down h
  | subscribe channels | unsubscribe channels =>
    exact expectConfirmation_down (fun _ _ => Confirmation.ofKind?_down) h
  | queued inner => exact expectQueued_down h

/--
**Answers do not depend on the version.**  Written for the older version, an answer is read as its
older shape, whatever follows it.  Every command that makes something of the answer makes the same
of that shape, with the values in its output in their older shapes; and a frame that is a message
or a confirmation is the same one in its older shape.
-/
theorem Command.answers_agree {v : Value} (hfits : v.Everywhere FitsFlat)
    (hline : v.Everywhere OneLine) :
    (∀ rest, parse (encode .resp2 v ++ rest) = .complete v.down rest) ∧
    (∀ (c : Command) (o : c.Output), c.decode v = .ok o → c.decode v.down = .ok (c.downOutput o)) ∧
    (∀ m, Message.ofFrame? v = some m → Message.ofFrame? v.down = some m) ∧
    (∀ k, Confirmation.ofSubscribe? v = some k → Confirmation.ofSubscribe? v.down = some k) ∧
    (∀ k, Confirmation.ofUnsubscribe? v = some k →
      Confirmation.ofUnsubscribe? v.down = some k) := by
  refine ⟨?_, fun c o => c.decode_down, fun m => Message.ofFrame?_down, ?_, ?_⟩
  · exact fun rest => (Resp.derives_encode_resp2 hfits hline).parse_append rest
  · exact fun k => Confirmation.ofKind?_down
  · exact fun k => Confirmation.ofKind?_down

/-- A block whose answers are a truth value and a set of a double, in both shapes. -/
theorem Command.answers_agree_exec :
    parse (encode .resp2 (.array [.boolean true, .set [.double 1.5]])) =
        .complete (.array [.integer 1, .array [.bulk [49, 46, 53]]]) [] ∧
      exec.decode (.array [.boolean true, .set [.double 1.5]]) =
        .ok (.committed [.boolean true, .set [.double 1.5]]) ∧
      exec.decode (.array [.integer 1, .array [.bulk [49, 46, 53]]]) =
        .ok (.committed [.integer 1, .array [.bulk [49, 46, 53]]]) := by
  obtain ⟨hread, hdecode, -⟩ := answers_agree (v := .array [.boolean true, .set [.double 1.5]])
    (by decide) (by decide)
  have htext : Bytes.ofText (Resp.doubleText 1.5) = [49, 46, 53] := by decide +kernel
  have hdown : Value.down (.array [.boolean true, .set [.double 1.5]]) =
      .array [.integer 1, .array [.bulk [49, 46, 53]]] := by
    simp [Value.down, Value.downItems, htext]
  rw [hdown] at hread hdecode
  refine ⟨by simpa using hread [], rfl, ?_⟩
  rw [hdecode exec _ rfl]
  simp [downOutput, ExecOutcome.down, Value.down, Value.downItems, htext]

end StoreTrial
