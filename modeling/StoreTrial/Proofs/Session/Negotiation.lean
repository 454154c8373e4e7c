import StoreTrial.Proofs.Session.Prospect

/-!
# Which version a session speaks

The version of the protocol is kept twice: with the client, which tells it, and with its connection,
which writes requests in it.  Only a greeting touches either, and only after its answer was read and
understood; then it changes both.  So the two never differ, and both are what the last greeting that
succeeded asked for, whatever else was sent or went wrong.

## Main results

* `Client.Speaks.run` — a command leaves the version alone, also one that asks for another.
* `Client.Speaks.turn` — one turn changes both versions or none.
* `Client.negotiation_is_atomic` — what a client speaks after any turns.
-/

namespace StoreTrial

open Resp (Value Version)

namespace Client

/-- Whether a client tells a version and its connection writes in it. -/
structure Speaks (client : Client) (version : Version) : Prop where
  protocol : client.protocol = version
  connection : client.connection.version = version

/-! ## Single calls -/

theorem protocol_run (client : Client) (c : Command) :
    (client.run c).2.protocol = client.protocol := by
  rw [run_eq]

/-- A command leaves the version alone, also one that asks for another. -/
theorem Speaks.run {client : Client} {version : Version} (h : client.Speaks version)
    (c : Command) : (client.run c).2.Speaks version :=
  ⟨(client.protocol_run c).trans h.protocol, (client.version_run c).trans h.connection⟩

/-- A greeting that fails is a command and nothing more. -/
theorem eq_of_hello_error {client client' : Client} {version : Version} {e : ClientError}
    (h : client.hello version = (.error e, client')) :
    client' = (client.run (.hello version)).2 := by
  unfold hello at h
  split at h
  · cases h
  · next heq =>
    cases h
    rw [heq]

/-- A greeting that is understood changes both versions. -/
theorem hello_of_run_ok {client : Client} {version : Version} {properties : Value}
    (h : (client.run (.hello version)).1 = .ok properties) :
    client.hello version = (.ok properties,
      { connection := { (client.run (.hello version)).2.connection with version },
        protocol := version }) := by
  unfold hello
  split
  · next heq =>
    rw [heq] at h ⊢
    cases h
    rfl
  · next heq =>
    rw [heq] at h
    cases h

theorem speaks_of_hello_ok {client client' : Client} {version : Version} {properties : Value}
    (h : client.hello version = (.ok properties, client')) : client'.Speaks version := by
  unfold hello at h
  split at h
  · cases h
    exact ⟨rfl, rfl⟩
  · cases h

/-! ## Any number of turns -/

/-- What can happen to a client. -/
inductive Turn where
  | run (c : Command)
  | hello (version : Version)
  /-- The surroundings change what will arrive or how much can be written, or a call is given up
  while it has received a part of its answer. -/
  | disturb (transport : Transport) (buffer : Bytes)
  deriving Repr

/-- The client after a turn, and the version that it was greeted in, if it was. -/
def turn (client : Client) : Turn → Option Version × Client
  | .run c => (none, (client.run c).2)
  | .hello version =>
    match client.hello version with
    | (.ok _, client) => (some version, client)
    | (.error _, client) => (none, client)
  | .disturb transport buffer =>
    (none, { client with connection := { client.connection with transport, buffer } })

/-- The client after some turns, and the versions of all greetings that succeeded. -/
def turns (client : Client) : List Turn → List Version × Client
  | [] => ([], client)
  | t :: ts =>
    let (greeted, client) := client.turn t
    let (versions, client) := client.turns ts
    (greeted.toList ++ versions, client)

/-- A turn changes what is spoken only if it is a greeting that succeeds. -/
theorem Speaks.turn {client : Client} {current : Version} (h : client.Speaks current) (t : Turn) :
    (client.turn t).2.Speaks ((client.turn t).1.getD current) := by
  cases t with
  | run c => exact h.run c
  | disturb transport buffer => exact ⟨h.protocol, h.connection⟩
  | hello version =>
    unfold Client.turn
    dsimp only
    split
    · next heq => exact speaks_of_hello_ok heq
    · next heq =>
      rw [eq_of_hello_error heq]
      exact h.run (.hello version)

/-- After any turns the version of the last greeting that succeeded is spoken. -/
theorem Speaks.turns {client : Client} {current : Version} (h : client.Speaks current)
    (ts : List Turn) :
    (client.turns ts).2.Speaks ((client.turns ts).1.getLast?.getD current) := by
  induction ts generalizing client current with
  | nil => exact h
  | cons t ts ih =>
    have hrest := ih (h.turn t)
    unfold Client.turns
    dsimp only
    cases hgreeted : (client.turn t).1 with
    | none => simpa [hgreeted] using hrest
    | some version => simpa [hgreeted, List.getLast?_cons] using hrest

/--
**Negotiation is atomic.**  Whatever a client has sent, received and failed at, the version that it
tells and the one in which it writes are the same: that of the last greeting that succeeded, or
version 2 if there was none.  A greeting that fails leaves both as they were.
-/
theorem negotiation_is_atomic :
    (∀ (t : Transport) (ts : List Turn),
      ((overTransport t).turns ts).2.Speaks
        (((overTransport t).turns ts).1.getLast?.getD .resp2)) ∧
    (∀ (client client' : Client) (version : Version) (e : ClientError),
      client.hello version = (.error e, client') →
        client'.protocol = client.protocol ∧
          client'.connection.version = client.connection.version) := by
  constructor
  · intro t ts
    exact Speaks.turns ⟨rfl, rfl⟩ ts
  · intro client client' version e h
    rw [eq_of_hello_error h]
    exact ⟨client.protocol_run _, client.version_run _⟩

/-- A greeting that is answered, and one for which the transport has no room any more. -/
theorem negotiation_is_atomic_second_cut_off :
    ((overTransport { inbound := [.data (Bytes.ofText "%0\r\n")] }).turns
      [.hello .resp3, .disturb { inbound := [], limit := some 0 } [], .hello .resp2]).2.Speaks
        .resp3 ∧
    (({ connection := { transport := { inbound := [], limit := some 0 }, version := .resp3 },
        protocol := .resp3 } : Client).hello .resp2).2.protocol = .resp3 := by
  obtain ⟨hturns, hfailed⟩ := negotiation_is_atomic
  let start := overTransport { inbound := [.data (Bytes.ofText "%0\r\n")] }
  let full : Client :=
    { connection := { transport := { inbound := [], limit := some 0 }, version := .resp3 },
      protocol := .resp3 }
  have hfull : full.hello .resp2 = (.error Transport.full, full) := rfl
  have hrun : (start.run (.hello .resp3)).1 = .ok (.map []) := by
    have hanswer : start.answerTo [.hello .resp3] 0 = .ok (.map []) := by
      rw [answerTo_of_unlimited rfl, Connection.reply_of_takes
        (.single (rfl : Resp.parse _ = .complete (.map []) [])) Resp.parse_nil]
      rfl
    rw [(start.run_answerTo (.hello .resp3) []).1, hanswer]
    rfl
  have hversions : (start.turns
      [.hello .resp3, .disturb { inbound := [], limit := some 0 } [], .hello .resp2]).1 =
        [.resp3] := by
    simp only [turns, turn, hello_of_run_ok hrun]
    rfl
  have hlast := hturns { inbound := [.data (Bytes.ofText "%0\r\n")] }
    [.hello .resp3, .disturb { inbound := [], limit := some 0 } [], .hello .resp2]
  rw [show ((overTransport _).turns _).1 = _ from hversions] at hlast
  exact ⟨hlast, (hfailed _ _ _ _ hfull).1⟩

end Client

end StoreTrial
