import StoreTrial.Proofs.Trial.Strays

/-!
# What a listener has left when it stops

When the listener has stopped, all that it forwarded stands in its queue.  The case first takes as
many messages as are missing and then looks for one more; since nothing can be accepted once all
have arrived, this comes to one pass over the whole queue, which ends at the first message that is
not accepted, and to a count at the end.  A pass that gets to the end with all counted has seen each
message once, whatever their order.

## Main results

* `Delivery.run_receiveAll` — the two parts of the wait are one pass over the queue.
* `Delivery.exists_foldlM_accept` — messages that are all different and expected are accepted.
* `Delivery.receiveAll_eq_ok_iff_perm` — the wait ends well exactly if each message is there once.
-/

namespace StoreTrial

/-! ## Queues -/

namespace Scene

variable {w : Scene} {m : Message} {queue : List Message}

/-- Once the listener has stopped nothing is added to its queue. -/
theorem forwarded_next_of_not_listening (h : w.isListening = false) :
    w.next.forwarded = w.forwarded ∧ w.next.isListening = false :=
  play_of_not_listening (P := fun later => later.forwarded = w.forwarded)
    (fun _ _ hsame => hsame) rfl (w := { w with turns := w.turns.drop 1 }) h _

/-- What is left in the queue is handed out, oldest first. -/
theorem exists_receive_cons (h : w.isListening = false) (hqueue : w.forwarded = m :: queue)
    (session : Nat) (deadline : Duration) :
    ∃ w', answer (.receive session deadline) w = (.message m, w') ∧
      w'.isListening = false ∧ w'.forwarded = queue := by
  obtain ⟨hforwarded, hstopped⟩ := forwarded_next_of_not_listening h
  refine ⟨{ w.next with forwarded := queue, taken := w.next.taken ++ [m] }, ?_, hstopped, rfl⟩
  show w.next.receive = _
  simp only [receive, pop, hforwarded, hqueue]

/-- When the queue is empty a wait ends at once. -/
theorem exists_receive_nil (h : w.isListening = false) (hqueue : w.forwarded = [])
    (session : Nat) (deadline : Duration) :
    ∃ w', answer (.receive session deadline) w = (.stopped, w') := by
  obtain ⟨hforwarded, hstopped⟩ := forwarded_next_of_not_listening h
  refine ⟨w.next, ?_⟩
  show w.next.receive = _
  simp [receive, pop, hforwarded, hqueue, hstopped]

/-- A look at the queue takes the oldest message. -/
theorem exists_take (h : w.isListening = false) (session : Nat) :
    ∃ w', answer (.take session) w = (w.forwarded.head?, w') := by
  obtain ⟨hforwarded, -⟩ := forwarded_next_of_not_listening h
  refine ⟨w.next.pop.2, ?_⟩
  show w.next.pop = _
  cases hqueue : w.forwarded <;> simp [pop, hforwarded, hqueue]

end Scene

/-- What is asked for is answered. -/
theorem Trial.run_liftM_request {σ : Type} {answer : (r : Request) → σ → r.Answer × σ}
    {r : Request} {s s' : σ} {a : r.Answer} (h : answer r s = (a, s')) :
    (liftM (Dialogue.request r) : Trial r.Answer).run.run answer s = (.ok a, s') := by
  rw [run_liftM, Dialogue.run_request, h]

namespace Delivery

variable {b : Broadcast} {w : Scene} {session : Nat} {deadline : Duration}

/-! ## One pass -/

/-- One pass over a queue: every message is accepted, and all are there in the end. -/
def pass (b : Broadcast) (arrived : List String) (queue : List Message) :
    Except CaseFailure Unit := do
  let arrived ← queue.foldlM (accept b) arrived
  if arrived.length < b.messages.length then
    throw (.listenerStopped arrived.length b.messages.length)

/-- When all messages have been accepted they are counted. -/
theorem pass_of_foldlM {arrived arrived' : List String} {queue : List Message}
    (h : queue.foldlM (accept b) arrived = .ok arrived') :
    pass b arrived queue = if arrived'.length < b.messages.length then
      .error (.listenerStopped arrived'.length b.messages.length) else .ok () := by
  rw [pass, h]
  rfl

theorem pass_cons_of_error {arrived : List String} {m : Message} {failure : CaseFailure}
    (h : accept b arrived m = .error failure) (queue : List Message) :
    pass b arrived (m :: queue) = .error failure := by
  rw [pass, List.foldlM_cons, h]
  rfl

theorem pass_cons_of_ok {arrived arrived' : List String} {m : Message}
    (h : accept b arrived m = .ok arrived') (queue : List Message) :
    pass b arrived (m :: queue) = pass b arrived' queue := by
  rw [pass, List.foldlM_cons, h]
  rfl

/-- The look behind the last message. -/
def lookBehind (b : Broadcast) (session : Nat) (arrived : List String) : Trial Unit := do
  match ← liftM (Dialogue.request (.take session)) with
  | some m =>
    let _ ← await.liftExcept (accept b arrived m)
  | none => return

theorem receiveAll_eq (b : Broadcast) (session : Nat) (deadline : Duration) :
    receiveAll b session deadline =
      await b session deadline b.messages.length [] >>= lookBehind b session := rfl

/-- Whether what has arrived are messages of a case, each once. -/
structure Broadcast.Arrived (b : Broadcast) (arrived : List String) : Prop where
  nodup : arrived.Nodup
  subset : arrived ⊆ b.messages

theorem Broadcast.Arrived.accept {arrived arrived' : List String} {m : Message}
    (h : b.Arrived arrived) (haccept : accept b arrived m = .ok arrived') :
    b.Arrived arrived' ∧ arrived'.length = arrived.length + 1 := by
  obtain ⟨-, hmem, hnew, rfl⟩ := accept_eq_ok haccept
  exact ⟨⟨List.nodup_cons.2 ⟨hnew, h.nodup⟩, List.cons_subset.2 ⟨hmem, h.subset⟩⟩, rfl⟩

/-- When as many have arrived as there are messages, all have. -/
theorem Broadcast.Arrived.subset_of_length {arrived : List String} (h : b.Arrived arrived)
    (hlength : b.messages.length ≤ arrived.length) : b.messages ⊆ arrived :=
  ((List.subperm_of_subset h.nodup h.subset).perm_of_length_le hlength).symm.subset

/-- The look behind the last message finds nothing, or what cannot be accepted. -/
theorem run_lookBehind {arrived : List String} (harrived : b.Arrived arrived)
    (hlength : arrived.length = b.messages.length) (hstopped : w.isListening = false) :
    ((lookBehind b session arrived).run.run Scene.answer w).1 = pass b arrived w.forwarded := by
  obtain ⟨w', htake⟩ := Scene.exists_take hstopped session
  rw [lookBehind, Trial.run_bind_of_ok _ (Trial.run_liftM_request htake)]
  cases hqueue : w.forwarded with
  | nil =>
    rw [pass_of_foldlM rfl, if_neg hlength.not_lt]
    rfl
  | cons m queue =>
    obtain ⟨failure, haccept⟩ := accept_error (harrived.subset_of_length hlength.ge) m
    rw [pass_cons_of_error haccept]
    simp only [List.head?_cons, haccept]
    rfl

/-- The wait for the messages that are missing, and the look behind the last of them. -/
theorem run_await {missing : Nat} {arrived : List String} (harrived : b.Arrived arrived)
    (hmissing : arrived.length + missing = b.messages.length) (hstopped : w.isListening = false) :
    ((await b session deadline missing arrived >>= lookBehind b session).run.run Scene.answer
      w).1 = pass b arrived w.forwarded := by
  induction missing generalizing w arrived with
  | zero => exact run_lookBehind harrived hmissing hstopped
  | succ missing ih =>
    rw [await, bind_assoc]
    cases hqueue : w.forwarded with
    | nil =>
      obtain ⟨w', hreceive⟩ := Scene.exists_receive_nil hstopped hqueue session deadline
      have hshort : arrived.length < b.messages.length := by omega
      rw [Trial.run_bind_of_ok _ (Trial.run_liftM_request hreceive), pass_of_foldlM rfl,
        if_pos hshort]
      rfl
    | cons m queue =>
      obtain ⟨w', hreceive, hstopped', hqueue'⟩ :=
        Scene.exists_receive_cons hstopped hqueue session deadline
      rw [Trial.run_bind_of_ok _ (Trial.run_liftM_request hreceive)]
      cases haccept : accept b arrived m with
      | error failure =>
        rw [pass_cons_of_error haccept]
        simp only [haccept]
        rfl
      | ok arrived' =>
        obtain ⟨harrived', hlength⟩ := harrived.accept haccept
        rw [pass_cons_of_ok haccept, ← hqueue']
        simp only [haccept]
        exact ih harrived' (by omega) hstopped'

/-- **The two parts of the wait are one pass over the queue.** -/
theorem run_receiveAll (hstopped : w.isListening = false) :
    ((receiveAll b session deadline).run.run Scene.answer w).1 = pass b [] w.forwarded := by
  rw [receiveAll_eq]
  exact run_await ⟨List.nodup_nil, List.nil_subset _⟩ (Nat.zero_add _) hstopped

/-! ## Passes that get to the end -/

section Passes

variable {queue : List Message}

/-- The messages of a case, each once, are those on its channel with its texts in some order. -/
theorem Broadcast.exactlyOnce_iff (b : Broadcast) (queue : List Message) : b.ExactlyOnce queue ↔
    (∀ m ∈ queue, m.channel = Bytes.ofText b.channel) ∧
      (queue.map (·.payload)).Perm (b.messages.map Bytes.ofText) := by
  constructor
  · intro h
    refine ⟨fun m hm => ?_, ?_⟩
    · obtain ⟨payload, -, rfl⟩ := List.mem_map.1 (h.mem_iff.1 hm)
      rfl
    · have hpayloads := h.map (·.payload)
      rw [arrivalsOf, List.map_map] at hpayloads
      exact hpayloads.trans (List.map_id' _ ▸ .refl _)
  · rintro ⟨hchannel, hperm⟩
    have hqueue : queue = (queue.map (·.payload)).map (Message.mk (Bytes.ofText b.channel)) := by
      rw [List.map_map]
      refine (List.map_id' queue).symm.trans (List.map_congr_left fun m hm => ?_)
      simp [← hchannel m hm]
    rw [Broadcast.ExactlyOnce, hqueue]
    exact hperm.map _

/-- Messages that are all expected and different are accepted one after another. -/
theorem exists_foldlM_accept {arrived : List String}
    (hexpected : ∀ m ∈ queue, m.channel = Bytes.ofText b.channel ∧
      Bytes.lossyText m.payload ∈ b.messages)
    (hnodup : (queue.map (Bytes.lossyText ·.payload)).Nodup)
    (hnew : ∀ m ∈ queue, Bytes.lossyText m.payload ∉ arrived) :
    ∃ arrived', queue.foldlM (accept b) arrived = .ok arrived' := by
  induction queue generalizing arrived with
  | nil => exact ⟨arrived, rfl⟩
  | cons m queue ih =>
    obtain ⟨⟨hchannel, hmem⟩, hexpected⟩ := List.forall_mem_cons.1 hexpected
    obtain ⟨hm, hnew⟩ := List.forall_mem_cons.1 hnew
    rw [List.map_cons, List.nodup_cons] at hnodup
    have haccept : accept b arrived m = .ok (Bytes.lossyText m.payload :: arrived) := by
      simp [accept, hchannel, hmem, hm]
    have hlater : ∀ other ∈ queue,
        Bytes.lossyText other.payload ∉ Bytes.lossyText m.payload :: arrived := by
      intro other hother hseen
      obtain heq | hseen := List.mem_cons.1 hseen
      · exact hnodup.1 (heq ▸ List.mem_map_of_mem hother)
      · exact hnew other hother hseen
    rw [List.foldlM_cons, haccept]
    exact ih hexpected hnodup.2 hlater

variable (hascii : ∀ text ∈ b.messages, ∀ c ∈ text.toList, c.val ≤ 127)

include hascii

theorem exactlyOnce_of_pass (h : pass b [] queue = .ok ()) : b.ExactlyOnce queue := by
  have hlegible : ∀ text ∈ b.messages, Bytes.replacement ∉ text.toList := fun text htext hmem =>
    absurd (hascii text htext _ hmem) (by decide)
  cases hfold : queue.foldlM (accept b) [] with
  | error failure =>
    rw [pass, hfold] at h
    cases h
  | ok arrived =>
    obtain ⟨harrived, hmessages, hnodup⟩ := accepted_of_foldlM hfold
    have hlength : arrived.length = queue.length := by simp [harrived]
    have hsubset : arrived ⊆ b.messages := by
      intro text htext
      rw [harrived, List.append_nil, List.mem_reverse] at htext
      obtain ⟨m, hm, rfl⟩ := List.mem_map.1 htext
      exact (hmessages m hm).2
    have hle := (List.subperm_of_subset (hnodup List.nodup_nil) hsubset).length_le
    have hall : ¬ arrived.length < b.messages.length := by
      intro hshort
      rw [pass_of_foldlM hfold, if_pos hshort] at h
      cases h
    exact (exactlyOnce_of_foldlM hlegible (by omega) hfold).1

theorem pass_of_exactlyOnce (hnodup : b.messages.Nodup) (h : b.ExactlyOnce queue) :
    pass b [] queue = .ok () := by
  have hread : (b.messages.map Bytes.ofText).map Bytes.lossyText = b.messages := by
    rw [List.map_map]
    exact (List.map_congr_left fun text htext =>
      Bytes.lossyText_ofText (hascii text htext)).trans (List.map_id' _)
  obtain ⟨hchannel, hpayloads⟩ := (b.exactlyOnce_iff queue).1 h
  have htexts : (queue.map (Bytes.lossyText ·.payload)).Perm b.messages := by
    have hlossy := hpayloads.map Bytes.lossyText
    rwa [hread, List.map_map] at hlossy
  have hexpected : ∀ m ∈ queue, m.channel = Bytes.ofText b.channel ∧
      Bytes.lossyText m.payload ∈ b.messages := fun m hm =>
    ⟨hchannel m hm, htexts.mem_iff.1 (List.mem_map_of_mem hm)⟩
  obtain ⟨arrived, hfold⟩ := exists_foldlM_accept hexpected (htexts.nodup_iff.2 hnodup)
    fun _ _ => List.not_mem_nil
  obtain ⟨harrived, -, -⟩ := accepted_of_foldlM hfold
  have hlength : arrived.length = b.messages.length := by
    rw [harrived, List.append_nil, List.length_reverse, htexts.length_eq]
  rw [pass_of_foldlM hfold, if_neg hlength.not_lt]

end Passes

/-! ## What is left in the queue -/

/-- What can be amiss with messages that should be those of a case, each once. -/
inductive Broadcast.Amiss (b : Broadcast) (queue : List Message) : Prop
  | missing {text : String} (hmem : text ∈ b.messages)
      (h : ∀ m ∈ queue, m.payload ≠ Bytes.ofText text)
  | repeated (h : ¬ (queue.map (·.payload)).Nodup)
  | unknown {m : Message} (hm : m ∈ queue) (h : ∀ text ∈ b.messages, m.payload ≠ Bytes.ofText text)
  | illegible {m : Message} (hm : m ∈ queue) (h : Bytes.text? m.payload = none)
  | foreign {m : Message} (hm : m ∈ queue) (h : m.channel ≠ Bytes.ofText b.channel)

/-- Where anything is amiss the messages are not those of the case. -/
theorem Broadcast.Amiss.not_exactlyOnce {b : Broadcast} {queue : List Message}
    (hnodup : b.messages.Nodup) (h : b.Amiss queue) : ¬ b.ExactlyOnce queue := by
  intro honce
  obtain ⟨hchannel, hperm⟩ := (b.exactlyOnce_iff queue).1 honce
  have hknown : ∀ m ∈ queue, ∃ text ∈ b.messages, Bytes.ofText text = m.payload := fun m hm =>
    List.mem_map.1 (hperm.mem_iff.1 (List.mem_map_of_mem hm))
  cases h with
  | missing hmem h =>
    obtain ⟨m, hm, hpayload⟩ := List.mem_map.1 (hperm.mem_iff.2 (List.mem_map_of_mem hmem))
    exact h m hm hpayload
  | repeated h =>
    exact h (hperm.nodup_iff.2 (hnodup.map fun _ _ heq => Bytes.ofText_injective heq))
  | unknown hm h =>
    obtain ⟨text, htext, hpayload⟩ := hknown _ hm
    exact h text htext hpayload.symm
  | illegible hm h =>
    obtain ⟨text, -, hpayload⟩ := hknown _ hm
    rw [← hpayload, Bytes.text?_ofText] at h
    cases h
  | foreign hm h => exact h (hchannel _ hm)

/--
**Each message once, or a failure.**  When the listener has stopped, the wait ends well if and only
if the messages that it left in its queue are all on the channel and their payloads are those of the
case in some order.  If one is missing, or came twice, or is not known, not legible or on another
channel, wherever it stands, the wait fails.  The texts of a case are in ASCII and all different.
-/
theorem receiveAll_eq_ok_iff_perm {b : Broadcast} (hnodup : b.messages.Nodup)
    (hascii : ∀ text ∈ b.messages, ∀ c ∈ text.toList, c.val ≤ 127) {w : Scene}
    (hstopped : w.isListening = false) (session : Nat) (deadline : Duration) :
    (((receiveAll b session deadline).run.run Scene.answer w).1 = .ok () ↔
      (∀ m ∈ w.forwarded, m.channel = Bytes.ofText b.channel) ∧
        (w.forwarded.map (·.payload)).Perm (b.messages.map Bytes.ofText)) ∧
    (b.Amiss w.forwarded → ∃ failure,
      ((receiveAll b session deadline).run.run Scene.answer w).1 = .error failure) := by
  rw [run_receiveAll hstopped, ← b.exactlyOnce_iff]
  refine ⟨⟨exactlyOnce_of_pass hascii, pass_of_exactlyOnce hascii hnodup⟩, fun hamiss => ?_⟩
  cases hpass : pass b [] w.forwarded with
  | ok _ => exact absurd (exactlyOnce_of_pass hascii hpass) (hamiss.not_exactlyOnce hnodup)
  | error failure => exact ⟨failure, rfl⟩

/-- A case with two messages. -/
def twoMessages : Broadcast := { channel := "ch", messages := ["a", "B7"], limit := .zero }

/-- A listener that has stopped and left messages with these payloads. -/
def leftBehind (payloads : List String) : Scene :=
  { Scene.opening { transport := { inbound := [] } } [] with
    forwarded := arrivalsOf twoMessages payloads }

/-- The order of the messages does not matter, but none may come a second time. -/
theorem receiveAll_eq_ok_iff_perm_swapped :
    ((receiveAll twoMessages 0 .zero).run.run Scene.answer (leftBehind ["B7", "a"])).1 = .ok () ∧
    ∃ failure, ((receiveAll twoMessages 0 .zero).run.run Scene.answer
      (leftBehind ["B7", "a", "B7"])).1 = .error failure := by
  have hnodup : twoMessages.messages.Nodup := by decide
  have hascii : ∀ text ∈ twoMessages.messages, ∀ c ∈ text.toList, c.val ≤ 127 := by
    simp [twoMessages]
  obtain ⟨hswapped, -⟩ := receiveAll_eq_ok_iff_perm hnodup hascii
    (w := leftBehind ["B7", "a"]) rfl 0 .zero
  obtain ⟨-, hrepeated⟩ := receiveAll_eq_ok_iff_perm hnodup hascii
    (w := leftBehind ["B7", "a", "B7"]) rfl 0 .zero
  refine ⟨hswapped.2 ⟨by decide, by decide⟩, hrepeated (.repeated ?_)⟩
  simp [leftBehind, arrivalsOf, contentsOf]

end Delivery

end StoreTrial
