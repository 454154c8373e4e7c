import Mathlib.Data.List.Perm.Subperm
import StoreTrial.Proofs.Trial.Delivery
import StoreTrial.Proofs.Trial.Scene

/-!
# Duplicates and strays in the case about published messages

When the case passes, what it took from the listener are the messages that were published, each
once and on the channel. This is not all that the session received: messages can stand ahead of the
confirmation that it has joined, and nobody examines what the listener forwards behind the last
look, or what arrives while the session leaves. So each message came once between the two
confirmations only if what stood ahead of the first is what was never examined.

## Main results

* `Delivery.exactlyOnce_of_receiveAll` — what is taken when nothing is missing.
* `Delivery.exists_attends_of_pubSub` — what a session has read when the case passes.
* `Delivery.exactlyOnce_iff_of_pubSub` — when it has received each message once.
* `Delivery.not_forall_exactlyOnce` — the case can pass although a message came twice.
-/

namespace StoreTrial

open Resp (Value)

/-! ## Turns that only pass -/

namespace Scene

variable {w w' : Scene} {frames : List Value}

/-- Whether some turns have passed, and nothing was asked of the session that listens. -/
inductive Passed : Scene → Scene → Prop where
  | refl (w : Scene) : Passed w w
  | next {w w' : Scene} (h : Passed w.next w') : Passed w w'

theorem Passed.single (w : Scene) : Passed w w.next := .next (.refl _)

theorem Passed.taken_eq (h : Passed w w') : w'.taken = w.taken := by
  induction h with
  | refl => rfl
  | next _ ih => rw [ih, taken_next]

theorem Passed.kept_of_not_listening (h : Passed w w') (hkept : w.Kept frames)
    (hidle : w.isListening = false) : w'.Kept frames ∧ w'.isListening = false := by
  induction h with
  | refl => exact ⟨hkept, hidle⟩
  | next _ ih =>
    obtain ⟨hkept, hidle⟩ := hkept.next_of_not_listening hidle
    exact ih hkept hidle

/-- Opening a session asks nothing of the one that listens. -/
theorem passed_enter (e : Endpoint) (w : Scene) : Passed w (e.enter.run.run answer w).2 := by
  cases h : e.protocol with
  | resp2 =>
    rw [enter_of_resp2 h, Dialogue.run]
    split <;> exact .single w
  | resp3 =>
    rw [enter_of_resp3 h, Dialogue.run]
    split
    · exact .single w
    · rw [Dialogue.run]
      split <;> exact .next (.single w.next)

end Scene

namespace Delivery

variable {w w' : Scene} {b : Broadcast} {frames : List Value}

open Scene (Passed Kept)

/-- Publishing asks nothing of the session that listens. -/
theorem passed_publishAll (b : Broadcast) (session : Nat) (w : Scene) :
    Passed w ((publishAll b session).run.run Scene.answer w).2 := by
  obtain ⟨channel, texts, limit⟩ := b
  induction texts generalizing w with
  | nil => exact .refl w
  | cons text texts ih =>
    obtain ⟨reply, hreply⟩ : ∃ reply, (Dialogue.request (.run session
        (.publish (Bytes.ofText channel) (Bytes.ofText text)))).run Scene.answer w =
          (reply, w.next) := ⟨_, rfl⟩
    have hcons := publishAll_cons (b := ⟨channel, [], limit⟩) text texts session
    rw [hcons, Trial.run_bind, Trial.run_bind, run_inSession, hreply]
    cases reply with
    | error e => exact .single w
    | ok receivers =>
      dsimp only [Except.mapError]
      split_ifs
      · exact .next (ih w.next)
      · exact .single w

/-! ## Waiting -/

/-- Whether the messages are those of a case, each once and on its channel. -/
def Broadcast.ExactlyOnce (b : Broadcast) (messages : List Message) : Prop :=
  messages.Perm (arrivalsOf b b.messages)

/-- What has arrived when messages were accepted one after another. -/
theorem accepted_of_foldlM {messages : List Message} {arrived arrived' : List String}
    (h : messages.foldlM (accept b) arrived = .ok arrived') :
    arrived' = (messages.map (Bytes.lossyText ·.payload)).reverse ++ arrived ∧
      (∀ m ∈ messages, m.channel = Bytes.ofText b.channel ∧
        Bytes.lossyText m.payload ∈ b.messages) ∧
      (arrived.Nodup → arrived'.Nodup) := by
  induction messages generalizing arrived with
  | nil =>
    cases h
    simp
  | cons m messages ih =>
    rw [List.foldlM_cons] at h
    cases haccept : accept b arrived m with
    | error e =>
      rw [haccept] at h
      cases h
    | ok next =>
      rw [haccept] at h
      obtain ⟨hchannel, hmem, hnew, rfl⟩ := accept_eq_ok haccept
      obtain ⟨rfl, hmessages, hnodup⟩ := ih h
      refine ⟨by simp, ?_, fun harrived => hnodup (List.nodup_cons.2 ⟨hnew, harrived⟩)⟩
      rw [List.forall_mem_cons]
      exact ⟨⟨hchannel, hmem⟩, hmessages⟩

/-- As many messages as were published, all of them accepted, are all that were published. -/
theorem exactlyOnce_of_foldlM
    (hlegible : ∀ text ∈ b.messages, Bytes.replacement ∉ text.toList) {messages : List Message}
    (hlength : messages.length = b.messages.length) {arrived : List String}
    (h : messages.foldlM (accept b) [] = .ok arrived) :
    b.ExactlyOnce messages ∧ ∀ text ∈ b.messages, text ∈ arrived := by
  obtain ⟨rfl, hmessages, hnodup⟩ := accepted_of_foldlM h
  rw [List.append_nil] at hnodup ⊢
  let texts := messages.map (Bytes.lossyText ·.payload)
  have hsubset : texts ⊆ b.messages := by
    intro text htext
    obtain ⟨m, hm, rfl⟩ := List.mem_map.1 htext
    exact (hmessages m hm).2
  have hdistinct : texts.Nodup := List.nodup_reverse.1 (hnodup List.nodup_nil)
  have hperm : texts.Perm b.messages :=
    (List.subperm_of_subset hdistinct hsubset).perm_of_length_le (by rw [List.length_map, hlength])
  refine ⟨?_, fun text htext => List.mem_reverse.2 (hperm.mem_iff.2 htext)⟩
  have hread : messages = arrivalsOf b texts := by
    rw [arrivalsOf, contentsOf, List.map_map, List.map_map]
    refine (List.map_id' messages).symm.trans (List.map_congr_left fun m hm => ?_)
    obtain ⟨hchannel, hmem⟩ := hmessages m hm
    have hpayload := Bytes.ofText_lossyText (hlegible _ hmem)
    simp [hpayload, ← hchannel]
  rw [Broadcast.ExactlyOnce, hread]
  exact (hperm.map Bytes.ofText).map _

/-- The messages that are taken while some are missing are accepted one after another. -/
theorem exists_taken_of_await {session missing : Nat} {deadline : Duration}
    {arrived arrived' : List String}
    (h : (await b session deadline missing arrived).run.run Scene.answer w = (.ok arrived', w')) :
    ∃ messages, messages.length = missing ∧ w'.taken = w.taken ++ messages ∧
      messages.foldlM (accept b) arrived = .ok arrived' := by
  induction missing generalizing w arrived with
  | zero =>
    cases h
    exact ⟨[], rfl, (List.append_nil _).symm, rfl⟩
  | succ missing ih =>
    rw [await] at h
    obtain ⟨delivery, w₁, hreceive, h⟩ := Trial.exists_of_run_bind _ h
    rw [Trial.run_liftM, Dialogue.run_request] at hreceive
    cases delivery with
    | message m =>
      obtain ⟨hmessage, hw₁⟩ := Prod.mk.inj hreceive
      have htaken : w₁.taken = w.taken ++ [m] := by
        have hpop : w.next.pop.1 = some m := Scene.pop_of_receive (Except.ok.inj hmessage)
        have hw : w.next.receive.2 = w₁ := hw₁
        rw [← hw, Scene.receive_snd, Scene.taken_pop, hpop, Scene.taken_next]
        rfl
      obtain ⟨next, w₂, hnext, h⟩ := Trial.exists_of_run_bind _ h
      obtain ⟨haccept, rfl⟩ : accept b arrived m = .ok next ∧ w₁ = w₂ := Prod.mk.inj hnext
      obtain ⟨messages, hlength, htaken', hmessages⟩ := ih h
      refine ⟨m :: messages, by rw [List.length_cons, hlength], ?_, ?_⟩
      · rw [htaken', htaken, List.append_assoc, List.singleton_append]
      · rw [List.foldlM_cons, haccept]
        exact hmessages
    | stopped => cases h
    | late => cases h

/-- What is taken when nothing is missing are the messages that were published. -/
theorem exactlyOnce_of_receiveAll
    (hlegible : ∀ text ∈ b.messages, Bytes.replacement ∉ text.toList) {session : Nat}
    {deadline : Duration}
    (h : (receiveAll b session deadline).run.run Scene.answer w = (.ok (), w')) :
    ∃ messages, w'.taken = w.taken ++ messages ∧ b.ExactlyOnce messages := by
  rw [receiveAll] at h
  obtain ⟨arrived, w₁, hawait, h⟩ := Trial.exists_of_run_bind _ h
  obtain ⟨messages, hlength, htaken, hmessages⟩ := exists_taken_of_await hawait
  obtain ⟨honce, hall⟩ := exactlyOnce_of_foldlM hlegible hlength hmessages
  obtain ⟨left, w₂, htake, h⟩ := Trial.exists_of_run_bind _ h
  rw [Trial.run_liftM, Dialogue.run_request] at htake
  obtain ⟨hleft, hw₂⟩ := Prod.mk.inj htake
  cases left with
  | some m =>
    -- nothing more can be accepted
    obtain ⟨e, haccept⟩ := accept_error hall m
    dsimp only at h
    rw [haccept] at h
    cases h
  | none =>
    obtain rfl : w₂ = w' := (Prod.mk.inj h).2
    have hnone : w₁.next.pop.1 = none := Except.ok.inj hleft
    have hpop : w₁.next.pop.2 = w₂ := hw₂
    refine ⟨messages, ?_, honce⟩
    rw [← hpop, Scene.taken_pop, hnone, Scene.taken_next, htaken]
    exact List.append_nil _

theorem exactlyOnce_of_exchange
    (hlegible : ∀ text ∈ b.messages, Bytes.replacement ∉ text.toList) {publisher subscriber : Nat}
    (h : (exchange b publisher subscriber).run.run Scene.answer w = (.ok (), w')) :
    ∃ messages, w'.taken = w.taken ++ messages ∧ b.ExactlyOnce messages := by
  rw [exchange] at h
  obtain ⟨_, w₁, hpublish, h⟩ := Trial.exists_of_run_bind _ h
  obtain ⟨deadline, w₂, hclock, h⟩ := Trial.exists_of_run_bind _ h
  have hpassed : Passed w w₁ := by
    have hpassed := passed_publishAll b publisher w
    rwa [hpublish] at hpassed
  obtain rfl : w₁.next = w₂ := (Prod.mk.inj hclock).2
  obtain ⟨messages, htaken, honce⟩ := exactlyOnce_of_receiveAll hlegible h
  exact ⟨messages, by rw [htaken, Scene.taken_next, hpassed.taken_eq], honce⟩

/-! ## Joining and leaving -/

open Subscriber (Settles ruling)

/-- What a session reads while it joins a channel that nobody reads from before. -/
theorem exists_kept_of_subscribe (hkept : w.Kept frames) (hidle : w.isListening = false)
    {session : Nat} {channel : Bytes} {k : Confirmation}
    (h : Scene.answer (.subscribe session channel) w = (.ok k, w')) :
    ∃ joining, w'.Kept (frames ++ joining) ∧ w'.taken = w.taken ∧
      Settles (ruling Confirmation.ofSubscribe? channel) joining (.ok k) := by
  obtain ⟨hnext, -⟩ := hkept.next_of_not_listening hidle
  obtain ⟨joining, haccounts, hsettles⟩ := w.next.subscriber.exists_accounts_subscribe channel
  obtain ⟨hresult, rfl⟩ := Prod.mk.inj h
  have hk : (w.next.subscriber.subscribe channel).1 = .ok k := hresult
  exact ⟨joining, hnext.step haccounts rfl (List.append_nil _).symm, Scene.taken_next w,
    hk ▸ hsettles⟩

/-- What a session reads until it has left a channel. -/
theorem exists_kept_of_unsubscribe (hkept : w.Kept frames) {session : Nat} {channel : Bytes}
    {deadline : Duration} {k : Confirmation}
    (h : Scene.answer (.unsubscribe session channel deadline) w = (some (.ok k), w')) :
    ∃ heard leaving, w'.Kept (frames ++ (heard ++ leaving)) ∧ w'.taken = w.taken ∧
      Settles (ruling Confirmation.ofUnsubscribe? channel) leaving (.ok k) := by
  obtain ⟨heard, hnext⟩ := hkept.exists_next
  obtain ⟨leaving, haccounts, hsettles⟩ := w.next.subscriber.exists_accounts_unsubscribe channel
  obtain ⟨hresult, rfl⟩ := Prod.mk.inj h
  have hk : (w.next.subscriber.unsubscribe channel).1 = .ok k := Scene.eq_of_inTime hresult
  refine ⟨heard, leaving, ?_, Scene.taken_next w, hk ▸ hsettles⟩
  rw [← List.append_assoc]
  exact hnext.step haccounts rfl (List.append_nil _).symm

theorem exists_kept_of_leave (hkept : w.Kept frames) {session : Nat}
    (h : (leave b session).run.run Scene.answer w = (.ok (), w')) :
    ∃ heard leaving k, w'.Kept (frames ++ (heard ++ leaving)) ∧ w'.taken = w.taken ∧
      Settles (ruling Confirmation.ofUnsubscribe? (Bytes.ofText b.channel)) leaving (.ok k) := by
  rw [leave] at h
  obtain ⟨deadline, w₁, hclock, h⟩ := Trial.exists_of_run_bind _ h
  obtain rfl : w.next = w₁ := (Prod.mk.inj hclock).2
  obtain ⟨result, w₂, hanswer, h⟩ := Trial.exists_of_run_bind _ h
  rw [Trial.run_liftM, Dialogue.run_request] at hanswer
  obtain ⟨hresult, hw₂⟩ := Prod.mk.inj hanswer
  cases result with
  | none => cases h
  | some result =>
    obtain ⟨k, w₃, hconfirmed, h⟩ := Trial.exists_of_run_bind _ h
    obtain ⟨rfl, rfl⟩ : result = .ok k ∧ w₂ = w₃ := Prod.mk.inj (run_inSession_eq_ok.1 hconfirmed)
    have hunsubscribe : Scene.answer (.unsubscribe session (Bytes.ofText b.channel) deadline)
        w.next = (some (.ok k), w₂) :=
      Prod.ext (Except.ok.inj hresult) hw₂
    obtain ⟨more, hnext⟩ := hkept.exists_next
    obtain ⟨heard, leaving, hkept', htaken, hsettles⟩ :=
      exists_kept_of_unsubscribe hnext hunsubscribe
    split_ifs at h
    · obtain rfl : w₂ = w' := (Prod.mk.inj h).2
      refine ⟨more ++ heard, leaving, k, ?_, htaken.trans (Scene.taken_next w), hsettles⟩
      simpa only [List.append_assoc] using hkept'
    · cases h

/-! ## The case -/

/-- Where the case ends well the exchange has, and the session has left unless it was lost. -/
theorem exists_exchange_of_conclude {publisher subscriber : Nat}
    (h : (conclude b publisher subscriber).run.run Scene.answer w = (.ok (), w')) :
    ∃ w₁, (exchange b publisher subscriber).run.run Scene.answer w = (.ok (), w₁) ∧
      (w'.lost ≠ none ∧ (Scene.answer (.stop subscriber) w₁).2 = w' ∨
        (leave b subscriber).run.run Scene.answer (Scene.answer (.stop subscriber) w₁).2 =
          (.ok (), w')) := by
  obtain ⟨received, w₁, hexchange⟩ : ∃ received w₁,
    (exchange b publisher subscriber).run.run Scene.answer w = (received, w₁) := ⟨_, _, rfl⟩
  rw [conclude, ExceptT.run_mk, Dialogue.run_bind, hexchange, Dialogue.run_bind,
    Dialogue.run_request] at h
  cases hstop : (Scene.answer (.stop subscriber) w₁).1 with
  | error e =>
    rw [hstop] at h
    obtain ⟨rfl, rfl⟩ := Prod.mk.inj h
    exact ⟨w₁, hexchange, .inl ⟨by simp [Scene.lost_of_stop hstop], rfl⟩⟩
  | ok stopped =>
    rw [hstop, Dialogue.run_bind] at h
    obtain ⟨hresult, hw'⟩ := Prod.mk.inj h
    cases received with
    | error e => cases hresult
    | ok _ => exact ⟨w₁, hexchange, .inr (Prod.ext hresult hw')⟩

/-- What the session reads from the exchange on, and what is taken. -/
theorem exists_kept_of_conclude
    (hlegible : ∀ text ∈ b.messages, Bytes.replacement ∉ text.toList) (hkept : w.Kept frames)
    (htaken : w.taken = []) {publisher subscriber : Nat}
    (h : (conclude b publisher subscriber).run.run Scene.answer w = (.ok (), w')) :
    ∃ during, w'.Kept (frames ++ during) ∧ b.ExactlyOnce w'.taken ∧
      (w'.lost = none → ∃ heard leaving k, during = heard ++ leaving ∧
        Settles (ruling Confirmation.ofUnsubscribe? (Bytes.ofText b.channel)) leaving (.ok k)) := by
  obtain ⟨w₁, hexchange, hend⟩ := exists_exchange_of_conclude h
  obtain ⟨messages, htaken₁, honce⟩ := exactlyOnce_of_exchange hlegible hexchange
  obtain ⟨exchanging, hkept₁⟩ := hkept.exists_run (exchange b publisher subscriber).run
  rw [hexchange] at hkept₁
  obtain ⟨stopping, hkept₂⟩ := hkept₁.exists_answer (.stop subscriber)
  have htaken₂ : (Scene.answer (.stop subscriber) w₁).2.taken = messages := by
    show w₁.next.taken = messages
    rw [Scene.taken_next, htaken₁, htaken, List.nil_append]
  simp only [List.append_assoc] at hkept₂
  obtain ⟨hlost, rfl⟩ | hleave := hend
  · exact ⟨exchanging ++ stopping, hkept₂, htaken₂ ▸ honce, fun hnone => absurd hnone hlost⟩
  · obtain ⟨heard, leaving, k, hkept₃, htaken₃, hsettles⟩ := exists_kept_of_leave hkept₂ hleave
    simp only [List.append_assoc] at hkept₃
    refine ⟨exchanging ++ (stopping ++ (heard ++ leaving)), hkept₃, ?_, fun _ => ?_⟩
    · rw [htaken₃, htaken₂]
      exact honce
    · exact ⟨exchanging ++ (stopping ++ heard), leaving, k, by simp only [List.append_assoc],
        hsettles⟩

/--
What a session has read since it was opened: the frames up to the one that confirms that it has
joined a channel, and those behind it. Unless its listener was lost, the last one confirms that it
has left the channel.
-/
structure Attends (w : Scene) (channel : Bytes) (joining during : List Value) : Prop where
  takes : Takes w.incoming (joining ++ during) w.subscriber.connection.stream
  joined : ∃ k, Settles (ruling Confirmation.ofSubscribe? channel) joining (.ok k)
  left : w.lost = none → ∃ heard leaving k, during = heard ++ leaving ∧
    Settles (ruling Confirmation.ofUnsubscribe? channel) leaving (.ok k)

/-- What the session has read when the case passes, and what was taken of it. -/
theorem exists_attends_of_pubSub (hlegible : ∀ text ∈ b.messages, Bytes.replacement ∉ text.toList)
    {e : Endpoint} {c : Connection} {turns : List Scene.Turn}
    (h : (pubSub e b).run.run Scene.answer (.opening c turns) = (.ok (), w')) :
    ∃ joining during, Attends w' (Bytes.ofText b.channel) joining during ∧
      b.ExactlyOnce w'.taken ∧
      w'.taken ++ w'.unexamined = messagesOf joining ++ messagesOf during := by
  rw [pubSub_eq] at h
  obtain ⟨subscriber, w₁, henter, h⟩ := Trial.exists_of_run_bind _ h
  obtain ⟨k, w₂, hsubscribed, h⟩ := Trial.exists_of_run_bind _ h
  obtain ⟨_, w₃, hlisten, h⟩ := Trial.exists_of_run_bind _ h
  obtain ⟨publisher, w₄, henter', h⟩ := Trial.exists_of_run_bind _ h
  -- up to the confirmation nobody else reads
  have hpassed₁ : Passed (.opening c turns) w₁ := by
    have hpassed := Scene.passed_enter e (.opening c turns)
    rwa [henter] at hpassed
  have hsubscribe : Scene.answer (.subscribe subscriber (Bytes.ofText b.channel)) w₁ =
    (.ok k, w₂) := run_inSession_eq_ok.1 hsubscribed
  obtain ⟨hkept₁, hidle₁⟩ := hpassed₁.kept_of_not_listening (Scene.kept_opening c turns) rfl
  obtain ⟨joining, hkept₂, htaken₂, hjoined⟩ :=
    exists_kept_of_subscribe hkept₁ hidle₁ hsubscribe
  -- the listener runs while the publisher is opened
  have hw₃ : (Scene.answer (.listen subscriber) w₂).2 = w₃ := (Prod.mk.inj hlisten).2
  have hpassed₄ : Passed w₃ w₄ := by
    have hpassed := Scene.passed_enter e w₃
    rwa [henter'] at hpassed
  obtain ⟨listening, hkept₃⟩ := hkept₂.exists_answer (.listen subscriber)
  rw [hw₃] at hkept₃
  obtain ⟨entering, hkept₄⟩ := hkept₃.exists_run e.enter.run
  rw [henter'] at hkept₄
  have htaken₄ : w₄.taken = [] := by
    rw [hpassed₄.taken_eq, ← hw₃]
    show w₂.next.taken = []
    rw [Scene.taken_next, htaken₂, hpassed₁.taken_eq]
    rfl
  obtain ⟨during, hkept, honce, hleft⟩ := exists_kept_of_conclude hlegible hkept₄ htaken₄ h
  simp only [List.nil_append, List.append_assoc] at hkept
  refine ⟨joining, listening ++ (entering ++ during), ⟨hkept.takes, ⟨k, hjoined⟩, fun hnone => ?_⟩,
    honce, ?_⟩
  · obtain ⟨heard, leaving, k', rfl, hsettles⟩ := hleft hnone
    exact ⟨listening ++ (entering ++ heard), leaving, k', by simp only [List.append_assoc],
      hsettles⟩
  · rw [hkept.taken_append_unexamined, messagesOf_append]

/--
**A case that passes has looked at some of the messages only.** What it took are the messages that
were published, each once and on the channel; all that the session has read are these and the ones
that nobody examined. So between the confirmations each message came once if, and only if, the
messages ahead of the first confirmation are as many and the same as those not examined.
-/
theorem exactlyOnce_iff_of_pubSub
    (hlegible : ∀ text ∈ b.messages, Bytes.replacement ∉ text.toList) {e : Endpoint}
    {c : Connection} {turns : List Scene.Turn}
    (h : (pubSub e b).run.run Scene.answer (.opening c turns) = (.ok (), w')) :
    ∃ joining during, Attends w' (Bytes.ofText b.channel) joining during ∧
      b.ExactlyOnce w'.taken ∧
      w'.taken ++ w'.unexamined = messagesOf joining ++ messagesOf during ∧
      (b.ExactlyOnce (messagesOf during) ↔ (messagesOf joining).Perm w'.unexamined) := by
  obtain ⟨joining, during, hattends, honce, hread⟩ := exists_attends_of_pubSub hlegible h
  refine ⟨joining, during, hattends, honce, hread, ?_⟩
  have hsame : (messagesOf joining ++ messagesOf during).Perm (w'.unexamined ++ w'.taken) :=
    hread ▸ List.perm_append_comm
  constructor
  · intro hduring
    have htaken : (messagesOf during).Perm w'.taken := hduring.trans honce.symm
    exact (List.perm_append_right_iff w'.taken).1 ((htaken.append_left _).symm.trans hsame)
  · intro hjoining
    have htaken : (w'.unexamined ++ messagesOf during).Perm (w'.unexamined ++ w'.taken) :=
      (hjoining.append_right _).symm.trans hsame
    exact ((List.perm_append_left_iff w'.unexamined).1 htaken).trans honce

/-! ## A message that came twice -/

/-- One message. -/
def oneMessage : Broadcast := { channel := "ch", messages := ["a"], limit := .zero }

/-- A frame about the channel. -/
def frameOf (kind : String) (last : Value) : Value :=
  .array [.bulk (Bytes.ofText kind), .bulk (Bytes.ofText oneMessage.channel), last]

def joins : Value := frameOf "subscribe" (.integer 1)

def brings : Value := frameOf "message" (.bulk (Bytes.ofText "a"))

def leaves : Value := frameOf "unsubscribe" (.integer 0)

/-- A frame is sent. -/
def sends (v : Value) : Scene.Event := .arrives (.data (Resp.encode .resp2 v))

/-- The message comes once while it is waited for, and once more before the listener stops. -/
def twice : List Scene.Turn :=
  [{}, { events := [sends joins] }, {}, {}, { reply := .ok (.integer 1) }, {},
    { events := [sends brings, .looks, .looks] }, {}, { events := [sends brings, .looks, .looks] },
    {}, { events := [sends leaves] }]

/-- The channel, and the only message on it. -/
abbrev onlyChannel : Bytes := Bytes.ofText oneMessage.channel
abbrev onlyMessage : Message := ⟨onlyChannel, Bytes.ofText "a"⟩

/-- The session in front of one of the turns, when it has read some frames. -/
def stage (written : Bytes) (version : Resp.Version) (frames : List Value) (n : Nat)
    (isListening : Bool) : Scene :=
  { subscriber := { connection := { transport := { inbound := [], written }, version } }
    incoming := frames.flatMap (Resp.encode .resp2)
    turns := twice.drop n
    isListening }

/-- The session behind the last look, when the message has been forwarded once more. -/
def behind (written : Bytes) (version : Resp.Version) (frames : List Value) (n : Nat) : Scene :=
  { stage written version frames n false with forwarded := [onlyMessage], taken := [onlyMessage] }

/-- A confirmation that has arrived alone is all that the session reads. -/
theorem exists_confirmed {bytes : Bytes} {v : Value}
    (hbuffer : w.subscriber.connection.buffer = [])
    (hinbound : w.subscriber.connection.transport.inbound = [.data bytes])
    (hlimit : w.subscriber.connection.transport.limit = none)
    (hparse : Resp.parse bytes = .complete v []) {read : Value → Option Confirmation}
    {k : Confirmation} (hread : read v = some k) (c : Command) :
    ∃ written version, w.withSubscriber (·.confirm c k.channel read) =
      (.ok k, { w with subscriber :=
        { w.subscriber with connection :=
          { transport := { inbound := [], written }, version } } }) := by
  obtain ⟨⟨⟨_, written, _⟩, _, version⟩, hconfirm, ⟨rfl, rfl, rfl⟩⟩ :=
    Subscriber.confirm_of_arrived (c := c) hbuffer hinbound hlimit hparse hread rfl
  exact ⟨written, version, by rw [Scene.withSubscriber, hconfirm]⟩

theorem exists_subscribed_twice : ∃ written version,
    Scene.answer (.subscribe 0 onlyChannel) (stage [] .resp2 [] 1 false) =
      (.ok ⟨onlyChannel, 1⟩, stage written version [joins] 2 false) := by
  obtain ⟨written, version, hjoin⟩ := exists_confirmed (w := (stage [] .resp2 [] 1 false).next)
    rfl rfl rfl (by cbv : Resp.parse (Resp.encode .resp2 joins) = .complete joins [])
    (by cbv : Confirmation.ofSubscribe? joins = some ⟨onlyChannel, 1⟩) (.subscribe [onlyChannel])
  exact ⟨written, version, hjoin.trans (by cbv)⟩

theorem exists_left_twice (written : Bytes) (version : Resp.Version) : ∃ written' version',
    (leave oneMessage 0).run.run Scene.answer (behind written version [joins, brings, brings] 9) =
      (.ok (), behind written' version' [joins, brings, brings, leaves] 11) := by
  let late := behind written version [joins, brings, brings] 10
  obtain ⟨written', version', hleave⟩ := exists_confirmed (w := late.next) rfl rfl rfl
    (by cbv : Resp.parse (Resp.encode .resp2 leaves) = .complete leaves [])
    (by cbv : Confirmation.ofUnsubscribe? leaves = some ⟨onlyChannel, 0⟩)
    (.unsubscribe [onlyChannel])
  have hclock : (liftM (deadlineOf oneMessage.limit) : Trial Duration).run.run Scene.answer
      (behind written version [joins, brings, brings] 9) = (.ok .zero, late) := rfl
  have hunsubscribe : (liftM (Dialogue.request (.unsubscribe 0 onlyChannel .zero)) :
      Trial _).run.run Scene.answer late = (.ok (some (.ok ⟨onlyChannel, 0⟩)),
        behind written' version' [joins, brings, brings, leaves] 11) := by
    rw [Trial.run_liftM, Dialogue.run_request]
    refine Prod.ext (congrArg Except.ok ?_) ((congrArg Prod.snd hleave).trans (by cbv))
    exact congrArg (fun answered => Scene.inTime _ answered.1) hleave
  refine ⟨written', version', ?_⟩
  rw [leave, Trial.run_bind_of_ok _ hclock]
  dsimp only
  rw [Trial.run_bind_of_ok _ hunsubscribe]
  rfl

theorem exists_concluded_twice (written : Bytes) (version : Resp.Version) :
    ∃ written' version',
      (conclude oneMessage 0 0).run.run Scene.answer (stage written version [joins] 4 true) =
        (.ok (), behind written' version' [joins, brings, brings, leaves] 11) := by
  have hexchange : (exchange oneMessage 0 0).run.run Scene.answer
      (stage written version [joins] 4 true) =
      (.ok (), { stage written version [joins, brings] 8 true with taken := [onlyMessage] }) := by
    cbv
  have hstop : Scene.answer (.stop 0)
      { stage written version [joins, brings] 8 true with taken := [onlyMessage] } =
      (.ok (), behind written version [joins, brings, brings] 9) := by
    cbv
  obtain ⟨written', version', hleave⟩ := exists_left_twice written version
  refine ⟨written', version', ?_⟩
  rw [conclude, ExceptT.run_mk, Dialogue.run_bind, hexchange, Dialogue.run_bind,
    Dialogue.run_request, hstop]
  dsimp only
  rw [Dialogue.run_bind, hleave]
  rfl

/-- The case passes, and nobody has examined the second message. -/
theorem exists_passes_twice : ∃ w',
    (pubSub .stockReference oneMessage).run.run Scene.answer
        (.opening { transport := { inbound := [] } } twice) = (.ok (), w') ∧
      w'.lost = none ∧ w'.subscriber.connection.stream = [] ∧
      w'.incoming = [joins, brings, brings, leaves].flatMap (Resp.encode .resp2) := by
  obtain ⟨written, version, hsubscribe⟩ := exists_subscribed_twice
  obtain ⟨written', version', hconclude⟩ := exists_concluded_twice written version
  have henter : Endpoint.stockReference.enter.run.run Scene.answer
      (.opening { transport := { inbound := [] } } twice) =
      (.ok 0, stage [] .resp2 [] 1 false) := rfl
  have hjoin : (inSession (Dialogue.request (.subscribe 0 onlyChannel))).run.run Scene.answer
      (stage [] .resp2 [] 1 false) =
      (.ok ⟨onlyChannel, 1⟩, stage written version [joins] 2 false) :=
    run_inSession_eq_ok.2 hsubscribe
  have hlisten : (liftM (Dialogue.request (.listen 0)) : Trial Unit).run.run Scene.answer
      (stage written version [joins] 2 false) =
      (.ok (), stage written version [joins] 3 true) := rfl
  have henter' : Endpoint.stockReference.enter.run.run Scene.answer
      (stage written version [joins] 3 true) = (.ok 0, stage written version [joins] 4 true) := rfl
  refine ⟨behind written' version' [joins, brings, brings, leaves] 11, ?_, rfl, rfl, rfl⟩
  rw [pubSub_eq, Trial.run_bind_of_ok _ henter, Trial.run_bind_of_ok _ hjoin,
    Trial.run_bind_of_ok _ hlisten, Trial.run_bind_of_ok _ henter', hconclude]

theorem legible_oneMessage :
    ∀ text ∈ oneMessage.messages, Bytes.replacement ∉ text.toList := by decide

theorem exactlyOnce_iff_twice :
    (∀ text ∈ oneMessage.messages, Bytes.replacement ∉ text.toList) ∧
    ∃ w', (pubSub .stockReference oneMessage).run.run Scene.answer
        (.opening { transport := { inbound := [] } } twice) = (.ok (), w') ∧
      ∃ joining during, Attends w' onlyChannel joining during ∧
        oneMessage.ExactlyOnce w'.taken ∧
        w'.taken ++ w'.unexamined = messagesOf joining ++ messagesOf during ∧
        (oneMessage.ExactlyOnce (messagesOf during) ↔
          (messagesOf joining).Perm w'.unexamined) := by
  obtain ⟨w', hrun, -⟩ := exists_passes_twice
  exact ⟨legible_oneMessage, w', hrun, exactlyOnce_iff_of_pubSub legible_oneMessage hrun⟩

/-- So a duplicate can be missed: the case passes although the message came twice. -/
theorem not_forall_exactlyOnce :
    ¬ ∀ (e : Endpoint) (b : Broadcast) (c : Connection) (turns : List Scene.Turn) (w' : Scene),
      b.messages.Nodup → (∀ text ∈ b.messages, Bytes.replacement ∉ text.toList) →
      (pubSub e b).run.run Scene.answer (.opening c turns) = (.ok (), w') →
      ∀ joining during, Attends w' (Bytes.ofText b.channel) joining during →
        b.ExactlyOnce (messagesOf during) := by
  intro h
  obtain ⟨w', hrun, -, hstream, hincoming⟩ := exists_passes_twice
  have hparse : ∀ v ∈ [joins, brings, brings, leaves],
      Resp.parse (Resp.encode .resp2 v) = .complete v [] := by
    simp only [List.mem_cons, List.not_mem_nil, or_false, forall_eq_or_imp, forall_eq]
    refine ⟨?_, ?_, ?_, ?_⟩ <;> cbv
  have hattends : Attends w' onlyChannel [joins] [brings, brings, leaves] := by
    refine ⟨?_, ⟨⟨onlyChannel, 1⟩, .first (by cbv)⟩, fun _ =>
      ⟨[brings, brings], [leaves], ⟨onlyChannel, 0⟩, rfl, .first (by cbv)⟩⟩
    rw [hincoming, hstream]
    exact takes_flatMap hparse
  have honce := h _ _ _ _ _ (List.nodup_singleton _) legible_oneMessage hrun _ _ hattends
  have hmessages : messagesOf [brings, brings, leaves] = [onlyMessage, onlyMessage] := by cbv
  rw [hmessages] at honce
  exact absurd honce.length_eq (by decide)

end Delivery

end StoreTrial
