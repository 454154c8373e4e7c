import StoreTrial.Dialogue
import StoreTrial.Session.Client

/-!
# Replays

A dialogue can be held with one client, whose transport delivers what a server once sent. No time
passes, and whatever is asked for beyond commands fails as if the server were gone.
-/

namespace StoreTrial

/-- Answers a request by one client; every session is the same. -/
def Client.answer : (r : Request) → Client → r.Answer × Client
  | .dial _, client => (.ok 0, client)
  | .greet _ version, client => client.hello version
  | .run _ c, client => client.run c
  | r, client => (r.failing .closed, client)

/-- Holds a dialogue with one client. -/
def Dialogue.replay {α : Type} (d : Dialogue α) (client : Client) : α × Client :=
  d.run Client.answer client

end StoreTrial
