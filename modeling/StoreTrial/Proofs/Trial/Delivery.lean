import StoreTrial.Proofs.Store.Channels
import StoreTrial.Proofs.Text.Lossy
import StoreTrial.Proofs.Trial.Rules
import StoreTrial.Trial.Delivery

/-!
# The case about published messages beside a server

Nobody else listens to the channel, so that the session under test is the only one to be sent what
the other publishes. All messages have arrived when the first is waited for; they are accepted one
by one, nothing is left behind the last, and leaving the channel finds the connection idle.

## Main results

* `Delivery.passes_pubSub` — the case passes beside a server that delivers.
-/

namespace StoreTrial

open Resp (Value)

/-! ## Runs that succeed -/

/-- A dialogue is followed by what depends on its result. -/
theorem Dialogue.beside_bind {α β : Type} {d : Dialogue α} {f : α → Dialogue β} {l l' : Loopback}
    {a : α} (h : d.beside l = (a, l')) : (d >>= f).beside l = (f a).beside l' := by
  rw [Dialogue.beside] at h
  rw [Dialogue.beside, Dialogue.run_bind, h]
  rfl

/-- A trial that succeeds is followed by what depends on its result. -/
theorem Trial.beside_bind {α β : Type} {t : Trial α} {f : α → Trial β} {l l' : Loopback} {a : α}
    (h : t.run.beside l = (.ok a, l')) : (t >>= f).run.beside l = (f a).run.beside l' :=
  run_bind_of_ok Loopback.answer h

namespace Delivery

variable {l l' : Loopback}

theorem run_inSession {α σ : Type} (answer : (r : Request) → σ → r.Answer × σ)
    (d : Dialogue (Except ClientError α)) (s : σ) :
    (inSession d).run.run answer s =
      ((d.run answer s).1.mapError CaseFailure.session, (d.run answer s).2) := by
  have hrun : (inSession d).run = Except.mapError .session <$> d := rfl
  rw [hrun, Dialogue.run_map]

/-- A request of a session succeeds where its answer is a result. -/
theorem run_inSession_eq_ok {α σ : Type} {answer : (r : Request) → σ → r.Answer × σ}
    {d : Dialogue (Except ClientError α)} {s s' : σ} {a : α} :
    (inSession d).run.run answer s = (.ok a, s') ↔ d.run answer s = (.ok a, s') := by
  rw [run_inSession]
  cases d.run answer s with
  | mk result s₁ => cases result <;> simp [Except.mapError]

theorem beside_inSession {α : Type} {d : Dialogue (Except ClientError α)} {a : α}
    (h : d.beside l = (.ok a, l')) : (inSession d).run.beside l = (.ok a, l') :=
  run_inSession_eq_ok.2 h

theorem beside_liftM {α : Type} {d : Dialogue α} {a : α} (h : d.beside l = (a, l')) :
    (liftM d : Trial α).run.beside l = (.ok a, l') := by
  rw [Dialogue.beside] at h
  rw [Dialogue.beside, Trial.run_liftM, h]

theorem beside_request {r : Request} {a : r.Answer} (h : Loopback.answer r l = (a, l')) :
    (Dialogue.request r).beside l = (a, l') := h

/-! ## The two parts of the case -/

/-- The exchange, and what follows when the listener has been stopped. -/
def conclude (b : Broadcast) (publisher subscriber : Nat) : Trial Unit := ExceptT.mk do
  let received ← (exchange b publisher subscriber).run
  match ← Dialogue.request (.stop subscriber) with
  | .error _ => return received
  | .ok () =>
    let left ← (leave b subscriber).run
    return received.bind fun () => left

theorem pubSub_eq (e : Endpoint) (b : Broadcast) : pubSub e b = (do
    let subscriber ← e.enter
    let _ ← inSession (Dialogue.request (.subscribe subscriber (Bytes.ofText b.channel)))
    liftM (Dialogue.request (.listen subscriber))
    let publisher ← e.enter
    conclude b publisher subscriber) := rfl

/-! ## Publishing -/

section Broadcasts

variable {b : Broadcast} {i j : Nat} {session publisher : ServerSession} {unread : List Value}
  {forwarded : List Message} (hchannel : (Bytes.ofText b.channel).length < 2 ^ 63)

/-- The messages as they are sent. -/
def contentsOf (texts : List String) : List Bytes := texts.map Bytes.ofText

/-- The messages as a listener takes them. -/
def arrivalsOf (b : Broadcast) (texts : List String) : List Message :=
  (contentsOf texts).map (Message.mk (Bytes.ofText b.channel))

/-- The messages as they are sent to the listener. -/
def framesOf (b : Broadcast) (texts : List String) : List Value :=
  (contentsOf texts).map (Server.messageFrame (Bytes.ofText b.channel))

theorem publishAll_cons (text : String) (texts : List String) (session : Nat) :
    publishAll { b with messages := text :: texts } session = (do
      (do
        let receivers : Int64 ← inSession (Dialogue.request
          (.run session (.publish (Bytes.ofText b.channel) (Bytes.ofText text))))
        unless 1 ≤ receivers do throw (.unheard text receivers))
      publishAll { b with messages := texts } session) := rfl

include hchannel

/-- All messages are left to be read by the only listener. -/
theorem exists_publishAll (texts : List String)
    (htexts : ∀ text ∈ texts, (Bytes.ofText text).length < 2 ^ 63) (hne : i ≠ j)
    (hblock : publisher.block = none) (hidle : l.Idle j publisher)
    (hlistener : l.server.listenersOf (Bytes.ofText b.channel) = [i])
    (hdrops : l.server.divergence.dropsMessages = false)
    (hholding : l.Holding i session unread forwarded) :
    ∃ l', (publishAll { b with messages := texts } j).run.beside l = (.ok (), l') ∧
      l'.Holding i session (unread ++ framesOf b texts) forwarded := by
  induction texts generalizing l unread with
  | nil => exact ⟨l, rfl, by simpa [framesOf, contentsOf] using hholding⟩
  | cons text texts ih =>
    obtain ⟨htext, htexts⟩ := List.forall_mem_cons.1 htexts
    obtain ⟨l₁, hanswer, hserver, hidle₁, hholding₁⟩ :=
      Loopback.exists_answer_publish hidle hne hholding hblock hlistener hdrops hchannel htext
    obtain ⟨l₂, hrun, hholding₂⟩ := ih htexts hidle₁ (hserver ▸ hlistener) (hserver ▸ hdrops)
      hholding₁
    refine ⟨l₂, ?_, by simpa [framesOf, contentsOf] using hholding₂⟩
    have hheard := Trial.beside_bind (beside_inSession (beside_request hanswer))
      (f := fun receivers => (do unless 1 ≤ receivers do throw (.unheard text receivers)))
    rw [publishAll_cons, Trial.beside_bind hheard]
    exact hrun

/-! ## Waiting -/

omit hchannel in
/-- A message of the case is accepted if it has not arrived before. -/
theorem accept_arrival {text : String} (hread : Bytes.lossyText (Bytes.ofText text) = text)
    (hmem : text ∈ b.messages) {arrived : List String} (hnew : text ∉ arrived) :
    accept b arrived ⟨Bytes.ofText b.channel, Bytes.ofText text⟩ = .ok (text :: arrived) := by
  simp [accept, hread, hmem, hnew]

/-- All messages that have arrived are accepted, and none is left. -/
theorem exists_await (deadline : Duration) (texts : List String) {contents : List Bytes}
    (hcontents : ∀ m ∈ contents, m.length < 2 ^ 63) (hnodup : texts.Nodup)
    (hmem : ∀ text ∈ texts, text ∈ b.messages)
    (hread : ∀ text ∈ texts, Bytes.lossyText (Bytes.ofText text) = text) {arrived : List String}
    (hnew : ∀ text ∈ texts, text ∉ arrived)
    (hholding : l.Holding i session
      (contents.map (Server.messageFrame (Bytes.ofText b.channel))) forwarded)
    (hnext : forwarded ++ contents.map (Message.mk (Bytes.ofText b.channel)) = arrivalsOf b texts) :
    ∃ arrived' l', (await b i deadline texts.length arrived).run.beside l = (.ok arrived', l') ∧
      l'.Holding i session [] [] := by
  induction texts generalizing l contents forwarded arrived with
  | nil =>
    obtain ⟨rfl, hnone⟩ := List.append_eq_nil_iff.1 hnext
    obtain rfl := List.map_eq_nil_iff.1 hnone
    exact ⟨arrived, l, rfl, hholding⟩
  | cons text texts ih =>
    rw [List.nodup_cons] at hnodup
    obtain ⟨hmem, hmems⟩ := List.forall_mem_cons.1 hmem
    obtain ⟨hread, hreads⟩ := List.forall_mem_cons.1 hread
    obtain ⟨hnew, hnews⟩ := List.forall_mem_cons.1 hnew
    obtain ⟨l₁, hanswer, hholding₁⟩ :=
      Loopback.exists_answer_receive hchannel hcontents hholding hnext deadline
    have hlater : ∀ other ∈ texts, other ∉ text :: arrived := by
      intro other hother hseen
      obtain rfl | hseen := List.mem_cons.1 hseen
      · exact hnodup.1 hother
      · exact hnews other hother hseen
    have hempty : ∀ m ∈ ([] : List Bytes), m.length < 2 ^ 63 := by simp
    obtain ⟨arrived', l₂, hrun, hholding₂⟩ := ih hempty hnodup.2 hmems hreads hlater hholding₁
      (List.append_nil _)
    refine ⟨arrived', l₂, ?_, hholding₂⟩
    rw [List.length_cons, await, Trial.beside_bind (beside_liftM (beside_request hanswer))]
    simp only [accept_arrival hread hmem hnew]
    exact hrun

/-- When all messages have been accepted, none is left behind them. -/
theorem exists_receiveAll (deadline : Duration)
    (hmessages : ∀ text ∈ b.messages, (Bytes.ofText text).length < 2 ^ 63)
    (hnodup : b.messages.Nodup)
    (hread : ∀ text ∈ b.messages, Bytes.lossyText (Bytes.ofText text) = text)
    (hholding : l.Holding i session (framesOf b b.messages) []) :
    ∃ l', (receiveAll b i deadline).run.beside l = (.ok (), l') ∧ l'.Holding i session [] [] := by
  have hcontents : ∀ m ∈ contentsOf b.messages, m.length < 2 ^ 63 := by
    intro m hm
    obtain ⟨text, htext, rfl⟩ := List.mem_map.1 hm
    exact hmessages text htext
  obtain ⟨arrived, l₁, hawait, hholding₁⟩ := exists_await hchannel deadline b.messages hcontents
    hnodup (fun _ h => h) hread (fun _ _ => List.not_mem_nil) hholding rfl
  obtain ⟨l₂, htake, hholding₂⟩ := Loopback.exists_answer_take hholding₁
  refine ⟨l₂, ?_, hholding₂⟩
  rw [receiveAll, Trial.beside_bind hawait, Trial.beside_bind (beside_liftM (beside_request htake))]
  rfl

/-! ## The case -/

/-- The channel is left behind by its only listener. -/
theorem exists_leave (hidle : l.Idle i session) (hblock : session.block = none)
    (hchannels : session.channels = [Bytes.ofText b.channel]) :
    ∃ l', (leave b i).run.beside l = (.ok (), l') := by
  obtain ⟨l', hanswer⟩ := Loopback.exists_answer_unsubscribe (l := l.tick) hidle hblock hchannels
    hchannel (⟨l.tick.now⟩ + b.limit)
  refine ⟨l', ?_⟩
  have hdeadline : (deadlineOf b.limit).beside l = (⟨l.tick.now⟩ + b.limit, l.tick) := rfl
  rw [leave, Trial.beside_bind (beside_liftM hdeadline),
    Trial.beside_bind (beside_liftM (beside_request hanswer))]
  rfl

/-- The case ends well when both sessions have been opened and the channel has one listener. -/
theorem passes_conclude (hmessages : ∀ text ∈ b.messages, (Bytes.ofText text).length < 2 ^ 63)
    (hnodup : b.messages.Nodup)
    (hread : ∀ text ∈ b.messages, Bytes.lossyText (Bytes.ofText text) = text) (hne : i ≠ j)
    (hblock : publisher.block = none) (hidle : l.Idle j publisher)
    (hlistener : l.server.listenersOf (Bytes.ofText b.channel) = [i])
    (hdrops : l.server.divergence.dropsMessages = false) (hholding : l.Holding i session [] [])
    (hopen : session.block = none) (hchannels : session.channels = [Bytes.ofText b.channel]) :
    ((conclude b j i).run.beside l).1 = .ok () := by
  obtain ⟨l₁, hpublish, hsent⟩ :=
    exists_publishAll hchannel b.messages hmessages hne hblock hidle hlistener hdrops hholding
  have hdeadline : (deadlineOf b.limit).beside l₁ = (⟨l₁.tick.now⟩ + b.limit, l₁.tick) := rfl
  obtain ⟨l₂, hreceive, hnone⟩ := exists_receiveAll (l := l₁.tick) hchannel
    (⟨l₁.tick.now⟩ + b.limit) hmessages hnodup hread hsent
  have hexchange : (exchange b j i).run.beside l = (.ok (), l₂) := by
    rw [exchange, Trial.beside_bind hpublish, Trial.beside_bind (beside_liftM hdeadline)]
    exact hreceive
  obtain ⟨l₃, hleave⟩ := exists_leave (l := l₂.tick) hchannel hnone hopen hchannels
  rw [conclude, ExceptT.run_mk, Dialogue.beside_bind hexchange,
    Dialogue.beside_bind (beside_request (Loopback.answer_stop hnone))]
  dsimp only
  rw [Dialogue.beside_bind hleave]
  rfl

/-- The case passes beside a server that delivers, if nobody else listens to its channel. -/
theorem passes_pubSub (e : Endpoint)
    (hmessages : ∀ text ∈ b.messages, (Bytes.ofText text).length < 2 ^ 63)
    (hnodup : b.messages.Nodup)
    (hread : ∀ text ∈ b.messages, Bytes.lossyText (Bytes.ofText text) = text)
    (hnobody : l.server.listenersOf (Bytes.ofText b.channel) = [])
    (hdrops : l.server.divergence.dropsMessages = false) :
    ((pubSub e b).run.beside l).1 = .ok () := by
  obtain ⟨l₁, henter, hidle, -, hserver, -, hlength⟩ := exists_enter e l
  obtain ⟨p, hsubscribe, hp⟩ :=
    Loopback.exists_answer_subscribe hidle rfl rfl (hserver ▸ hnobody) hchannel
  obtain ⟨p', hp', -⟩ := hidle
  let i := l.peers.length
  let joined : Loopback := (l₁.tick.moved i p { l₁.server with
    listeners := l₁.server.listeners.insert (Bytes.ofText b.channel) [i] }).tick
  obtain ⟨hi, -⟩ := List.getElem?_eq_some_iff.1 hp'
  have hsubscriber : joined.peers[i]? = some p := List.getElem?_set_self hi
  have hothers : joined.peers.length = i + 1 := (List.length_set ..).trans hlength
  obtain ⟨l₂, henter', hidle', hkept, hserver', -, -⟩ := exists_enter e joined
  have hne : i ≠ joined.peers.length := by omega
  have hlistener : l₂.server.listenersOf (Bytes.ofText b.channel) = [i] := by
    rw [hserver']
    simp [joined, Loopback.tick, Loopback.moved, Server.listenersOf, Table.get?_insert]
  have hdelivers : l₂.server.divergence.dropsMessages = false := by
    rw [hserver']
    show l₁.server.divergence.dropsMessages = false
    rw [hserver, hdrops]
  rw [pubSub_eq, Trial.beside_bind henter, Trial.beside_bind (beside_inSession (beside_request
    hsubscribe)), Trial.beside_bind (beside_liftM (beside_request rfl)), Trial.beside_bind henter']
  exact passes_conclude hchannel hmessages hnodup hread hne rfl hidle' hlistener hdelivers
    ⟨p, hkept i p hsubscriber, hp⟩ rfl rfl

end Broadcasts

end Delivery

end StoreTrial
