import StoreTrial.Proofs.Trial.Boundaries
import StoreTrial.Proofs.Trial.Delivery

/-!
# Settings with which a case can pass

Accepted settings are meant to be those that the cases can run with. There are four things that a
case needs beside them: texts enough for its keys, which is not asked where they are too many to be
counted; one more text for a watched key; and a life that is not zero for a value that expires,
since servers refuse one.

## Main results

* `Case.passes_of_runnable` — with these settings a case passes beside a server that conforms.
* `Case.runnable_of_passes` — with others it never does.
* `Case.exists_draw_passes_iff` — both, for accepted settings and a server that starts empty.
-/

namespace StoreTrial

open Step (payload)

/-- Whether the settings let a case pass at all, beside what is asked of accepted ones. -/
structure Case.Runnable (config : ConformanceConfig) (c : Case) : Prop where
  texts : c.size config ≤ alphabetSize ^ config.textLength.toNat
  watched : c = .txWatch → c.size config < alphabetSize ^ config.textLength.toNat
  seconds : c = .setEx → config.expireSeconds ≠ 0
  millis : c = .setPx → config.expireMillis ≠ 0

section Trials

variable (e : Endpoint) {config : ConformanceConfig} (hmemory : config.InMemory)
  (haccepted : config.Accepted) {c : Case} {draw : Draw} (hdraw : draw.Possible config c)
  (l : Loopback) (hconforms : l.server.divergence = {})

include hmemory haccepted hdraw hconforms

/-! ## Settings that serve a case -/

omit haccepted in
/-- The case about published messages passes if nobody else listens to its channel. -/
theorem Case.pubSub_passes (hchannel : Short config.channel)
    (hnobody : l.server.listenersOf (payload config.channel) = []) :
    ((Case.pubSub.trial e config draw).run.beside l).1 = .ok () := by
  have hmessages : ∀ text ∈ draw.data.keys, (payload text).length < 2 ^ 63 :=
    fun text htext => ((hdraw.random_keys text htext).short hmemory.text).sendable
  have hread : ∀ text ∈ draw.data.keys, Bytes.lossyText (Bytes.ofText text) = text :=
    fun text htext => Bytes.lossyText_ofText fun letter hletter =>
      val_le_of_mem_alphabet ((hdraw.random_keys text htext).mem_alphabet letter hletter)
  exact Delivery.passes_pubSub (b := config.broadcast draw.data) hchannel.sendable e hmessages
    draw.data.nodup hread hnobody (by rw [hconforms])

/-- With runnable settings a case passes beside a server that conforms, unless the watched key is
drawn among those of the pairs. -/
theorem Case.passes_of_runnable (hrunnable : c.Runnable config) (hchannel : Short config.channel)
    (hnobody : l.server.listenersOf (payload config.channel) = [])
    (hfresh : ∀ key ∈ draw.data.keys, l.server.store.live? l.now (payload key) = none)
    (hwatched : c = .txWatch → draw.watched ∉ draw.data.keys) :
    ((c.trial e config draw).run.beside l).1 = .ok () := by
  by_cases hpubSub : c = .pubSub
  · subst hpubSub
    exact Case.pubSub_passes e hmemory hdraw l hconforms hchannel hnobody
  · have hserved : c.Served config :=
      ⟨hrunnable.seconds, hrunnable.millis, fun _ => haccepted.mergeVersions⟩
    refine Case.passes_of_served e (hdraw.fits hmemory) l hfresh hpubSub hserved ?_ ?_ hwatched
    · rw [hconforms]
    · rw [hconforms]
      cases c <;> rfl

/-! ## Settings that do not -/

omit hconforms in
/-- A case about pairs with a life fails if the life is zero. -/
theorem Case.fails_of_lifeless
    (hlifeless : c = .setEx ∧ config.expireSeconds = 0 ∨ c = .setPx ∧ config.expireMillis = 0) :
    ∃ failure, ((c.trial e config draw).run.beside l).1 = .error failure := by
  have hpairs := (hdraw.fits hmemory).pairs
  have hpos : c.size config ≠ 0 := by
    have hsize : c.size config = config.kvSize.toNat := by
      obtain ⟨rfl, -⟩ | ⟨rfl, -⟩ := hlifeless <;> rfl
    rw [hsize]
    exact fun h => haccepted.kvSize (UInt64.toNat_inj.1 h)
  have hnonempty : draw.data.pairs ≠ [] := by
    intro hnil
    rw [← hdraw.size_eq, Dataset.size, hnil] at hpos
    exact hpos rfl
  obtain ⟨rfl, hzero⟩ | ⟨rfl, hzero⟩ := hlifeless
  · exact Case.fails_of_steps e config draw l (by decide) fun _ _ =>
      fails_setEx rfl hzero hpairs hnonempty
  · exact Case.fails_of_steps e config draw l (by decide) fun _ _ =>
      fails_setPx rfl hzero hpairs hnonempty

/-- A case that passes had what it needs. -/
theorem Case.runnable_of_passes (hok : ((c.trial e config draw).run.beside l).1 = .ok ()) :
    c.Runnable config := by
  have hpassed : ¬ ∃ failure, ((c.trial e config draw).run.beside l).1 = .error failure := by
    rintro ⟨failure, herror⟩
    rw [hok] at herror
    cases herror
  refine ⟨hdraw.size_le, ?_, ?_, ?_⟩
  · rintro rfl
    refine Nat.lt_of_le_of_ne hdraw.size_le fun hall => hpassed ?_
    exact Case.txWatch_fails_of_mem e config (hdraw.fits hmemory) l (by rw [hconforms])
      (by rw [hconforms]) (hdraw.mem_keys hall) hdraw.value_ne_rival
  · exact fun hc hzero => hpassed
      (Case.fails_of_lifeless e hmemory haccepted hdraw l (.inl ⟨hc, hzero⟩))
  · exact fun hc hzero => hpassed
      (Case.fails_of_lifeless e hmemory haccepted hdraw l (.inr ⟨hc, hzero⟩))

end Trials

/-! ## Accepted settings -/

/-- A case can pass with accepted settings, beside a server that conforms and starts empty, if and
only if there are texts enough and the life that it gives is not zero. -/
theorem Case.exists_draw_passes_iff (e : Endpoint) {config : Config}
    (hvalid : config.validate = .ok ()) (hmemory : config.conformance.InMemory)
    (hchannel : Short config.conformance.channel) (now : Nat) (lags : List Nat) (c : Case) :
    (∃ draw : Draw, draw.Possible config.conformance c ∧
      ((c.trial e config.conformance draw).run.beside { now, lags }).1 = .ok ()) ↔
    c.Runnable config.conformance := by
  have haccepted := Config.conformance_of_validate hvalid
  constructor
  · rintro ⟨draw, hdraw, hok⟩
    exact Case.runnable_of_passes e hmemory haccepted hdraw _ rfl hok
  · intro hrunnable
    have hdraw : ∃ draw : Draw, draw.Possible config.conformance c ∧
        (c = .txWatch → draw.watched ∉ draw.data.keys) := by
      by_cases hwatch : c = .txWatch
      · obtain ⟨draw, hdraw, hnew⟩ := Case.exists_possible_new (hrunnable.watched hwatch)
        exact ⟨draw, hdraw, fun _ => hnew⟩
      · obtain ⟨draw, hdraw⟩ := Case.exists_possible hrunnable.texts
        exact ⟨draw, hdraw, fun h => absurd h hwatch⟩
    obtain ⟨draw, hdraw, hwatched⟩ := hdraw
    exact ⟨draw, hdraw, Case.passes_of_runnable e hmemory haccepted hdraw { now, lags } rfl
      hrunnable hchannel rfl (fun _ _ => rfl) hwatched⟩

/-- Messages of one letter can be published and received. -/
theorem Case.exists_draw_passes_oneLetter : ∃ draw : Draw,
    draw.Possible oneLetter.conformance .pubSub ∧
      ((Case.pubSub.trial {} oneLetter.conformance draw).run.beside
        { now := 7, lags := [1, 0, 2] }).1 = .ok () :=
  (Case.exists_draw_passes_iff {} validate_oneLetter inMemory_oneLetter (by decide) 7 [1, 0, 2]
    .pubSub).2 ⟨by decide, nofun, nofun, nofun⟩

/-- Settings in which a value in the case about seconds lives for none. -/
def lifeless : Config where
  conformance := { oneLetter.conformance with expireSeconds := 0 }

theorem validate_lifeless : lifeless.validate = .ok () := by decide +kernel

theorem inMemory_lifeless : lifeless.conformance.InMemory := by decide

/-- Accepted settings may keep a case from passing, whatever is drawn. -/
theorem Case.not_forall_exists_draw_passes :
    ¬ ∀ (e : Endpoint) (config : Config) (c : Case) (now : Nat) (lags : List Nat),
      config.validate = .ok () → ∃ draw : Draw, draw.Possible config.conformance c ∧
        ((c.trial e config.conformance draw).run.beside { now, lags }).1 = .ok () := by
  intro hall
  obtain ⟨draw, hdraw, hok⟩ := hall {} lifeless .setEx 0 [] validate_lifeless
  obtain ⟨failure, herror⟩ := Case.fails_of_lifeless {} inMemory_lifeless
    (Config.conformance_of_validate validate_lifeless) hdraw {} (.inl ⟨rfl, rfl⟩)
  rw [hok] at herror
  cases herror

end StoreTrial
