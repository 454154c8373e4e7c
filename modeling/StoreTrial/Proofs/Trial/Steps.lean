import StoreTrial.Proofs.Decimal.Extent
import StoreTrial.Proofs.Trial.Rules
import StoreTrial.Trial.Blocks
import StoreTrial.Trial.Writes

/-!
# Steps beside a server

What each step of a case comes to beside a server, outside of blocks. A step about a key is told by
what the store keeps under the key.

## Main results

* `passes_storeAll`, `passes_readAll`, `passes_absentAll` — the loops that all cases are made of.
* `passes_onKeys`, `fails_onKeys` — the rules of every command on keys, of which the others are
  cases.
-/

namespace StoreTrial

open Resp (Value)
open Step (payload)

/-! ## Texts that can be sent -/

theorem payload_append (a b : String) : payload (a ++ b) = payload a ++ payload b := by
  simp [payload, Bytes.ofText_eq_flatMap]

theorem length_payload_le (text : String) : (payload text).length ≤ 4 * text.toList.length := by
  rw [payload, Bytes.ofText_eq_flatMap]
  induction text.toList with
  | nil => simp
  | cons c cs ih =>
    have := Char.utf8Size_le_four c
    simp only [List.flatMap_cons, List.length_append, String.length_utf8EncodeChar,
      List.length_cons]
    omega

/-- The numeral of a number of 64 bits has at most twenty digits. -/
theorem length_payload_ofNat_le {n : Nat} (h : n < 2 ^ 64) :
    (payload (Decimal.ofNat n)).length ≤ 80 := by
  have hlength : (Decimal.digits n).length ≤ 20 := by
    rcases Nat.eq_zero_or_pos n with rfl | hpos
    · decide +kernel
    · exact Decimal.length_le_of_lt hpos (h.trans (by decide))
  have hle := length_payload_le (Decimal.ofNat n)
  rw [Decimal.ofNat, String.toList_ofList] at hle
  exact hle.trans (by omega)

/-- Whether the length of a text can be announced. -/
def Sendable (text : String) : Prop := (payload text).length < 2 ^ 63

instance (text : String) : Decidable (Sendable text) :=
  inferInstanceAs (Decidable ((payload text).length < 2 ^ 63))

/-- Whether the length of a text can be announced with what a script may add to it. No text in
memory is longer. -/
def Short (text : String) : Prop := (payload text).length + 256 < 2 ^ 63

instance (text : String) : Decidable (Short text) :=
  inferInstanceAs (Decidable ((payload text).length + 256 < 2 ^ 63))

theorem Short.sendable {text : String} (h : Short text) : Sendable text := by
  unfold Short at h
  unfold Sendable
  omega

/-- Whether the keys and values of pairs are short. -/
def ShortAll (pairs : List (String × String)) : Prop := ∀ pair ∈ pairs, Short pair.1 ∧ Short pair.2

instance (pairs : List (String × String)) : Decidable (ShortAll pairs) :=
  inferInstanceAs (Decidable (∀ pair ∈ pairs, Short pair.1 ∧ Short pair.2))

theorem ShortAll.sendable {pairs : List (String × String)} (h : ShortAll pairs) :
    ∀ pair ∈ pairs, Sendable pair.1 ∧ Sendable pair.2 :=
  fun pair hpair => ⟨(h pair hpair).1.sendable, (h pair hpair).2.sendable⟩

theorem Short.sendable_modified {value : String} (h : Short value) :
    Sendable (Script.modified value) := by
  have hadded : (payload "modify_").length ≤ 256 := by decide
  show (payload ("modify_" ++ value)).length < 2 ^ 63
  rw [payload_append, List.length_append]
  unfold Short at h
  omega

theorem ShortAll.sendable_modifiedAll {pairs : List (String × String)} (h : ShortAll pairs) :
    ∀ pair ∈ Script.modifiedAll pairs, Sendable pair.1 ∧ Sendable pair.2 := by
  intro pair hpair
  obtain ⟨original, hmem, rfl⟩ := List.mem_map.1 hpair
  exact ⟨(h original hmem).1.sendable, (h original hmem).2.sendable_modified⟩

/-! ## Commands that can be sent -/

namespace Command

theorem length_args_le (o : SetOptions) : o.args.length ≤ 4 := by
  obtain ⟨expiration, condition, previous⟩ := o
  rcases expiration with _ | expiration | expiration | _ <;> cases condition <;> cases previous <;>
    simp [SetOptions.args, Expiration.args]

theorem length_le_of_mem_args {o : SetOptions} {arg : Bytes} (h : arg ∈ o.args) :
    arg.length ≤ 80 := by
  have hnumeral : ∀ n : UInt64, (numeral n).length ≤ 80 := fun n =>
    length_payload_ofNat_le n.toNat_lt
  obtain ⟨expiration, condition, previous⟩ := o
  simp only [SetOptions.args, List.mem_append] at h
  obtain (h | h) | h := h
  · rcases expiration with _ | n | n | _
    · cases h
    · obtain rfl | rfl : arg = Bytes.ofText "EX" ∨ arg = numeral n := by
        simpa [Expiration.args] using h
      · decide
      · exact hnumeral n
    · obtain rfl | rfl : arg = Bytes.ofText "PX" ∨ arg = numeral n := by
        simpa [Expiration.args] using h
      · decide
      · exact hnumeral n
    · obtain rfl : arg = Bytes.ofText "KEEPTTL" := by simpa [Expiration.args] using h
      decide
  · rcases condition with _ | _ | _
    · cases h
    · obtain rfl := List.mem_singleton.1 h
      decide
    · obtain rfl := List.mem_singleton.1 h
      decide
  · split at h
    · obtain rfl := List.mem_singleton.1 h
      decide
    · cases h

theorem plain_set {key value : String} (hkey : Sendable key) (hvalue : Sendable value)
    (options : SetOptions) : (set (payload key) (payload value) options).toFrame.Plain := by
  have hcount := length_args_le options
  refine Value.plain_request ?_ ?_
  · show options.args.length + 3 < 2 ^ 63
    omega
  · rintro part hpart
    obtain rfl | rfl | rfl | hpart : part = payload "SET" ∨ part = payload key ∨
        part = payload value ∨ part ∈ options.args := by
      simpa [parts, name, args] using hpart
    · decide
    · exact hkey
    · exact hvalue
    · have := length_le_of_mem_args hpart
      omega

theorem plain_onKey {c : Command} {key : String} (hkey : Sendable key) {name : String}
    (hparts : c.parts = [payload name, payload key]) (hname : Sendable name) :
    c.toFrame.Plain := by
  refine Value.plain_request ?_ ?_
  · rw [hparts]
    exact (by decide : 2 < 2 ^ 63)
  · rw [hparts]
    simpa using ⟨hname, hkey⟩

theorem plain_get {key : String} (hkey : Sendable key) : (get (payload key)).toFrame.Plain :=
  plain_onKey hkey rfl (by decide : Sendable "GET")

theorem plain_del {key : String} (hkey : Sendable key) : (del [payload key]).toFrame.Plain :=
  plain_onKey hkey rfl (by decide : Sendable "DEL")

theorem plain_present {key : String} (hkey : Sendable key) :
    (present [payload key]).toFrame.Plain :=
  plain_onKey hkey rfl (by decide : Sendable "EXISTS")

theorem plain_bare {c : Command} {name : String} (hparts : c.parts = [payload name])
    (hname : Sendable name) : c.toFrame.Plain := by
  refine Value.plain_request ?_ ?_
  · rw [hparts]
    exact (by decide : 1 < 2 ^ 63)
  · rw [hparts]
    exact List.forall_mem_singleton.2 hname

end Command

/-! ## What answers mean -/

theorem plain_ok : Store.ok.Plain := Value.plain_simple (by decide +kernel)

theorem reads_ok : Store.ok.reads "OK" = true := by decide +kernel

theorem expectText_ok (command : String) : expectText "OK" command Store.ok = .ok () :=
  if_pos reads_ok

theorem plain_held (content : Option Bytes) (h : ∀ value ∈ content, value.length < 2 ^ 63) :
    (Store.held (content.map fun value => ⟨value, none⟩)).Plain := by
  cases content with
  | none => exact Value.plain_null
  | some value => exact Value.plain_bulk (h value rfl)

namespace Command

variable {key value : Bytes} {o : SetOptions}

theorem result_set_ok (h : o.previous = false) :
    (set key value o).result Store.ok = .ok .stored := by
  have hnull : Store.ok.isNull = false := rfl
  show decode (set key value o) Store.ok = _
  simp [decode, h, expectStored, hnull, reads_ok]

theorem result_set_null (h : o.previous = false) :
    (set key value o).result .null = .ok .notStored := by
  show decode (set key value o) .null = _
  simp only [decode, h]
  rfl

theorem result_set_previous (h : o.previous = true) (content : Option Bytes) :
    (set key value o).result (Store.held (content.map fun value => ⟨value, none⟩)) =
      .ok (.previous content) := by
  cases content with
  | none =>
    show decode (set key value o) .null = _
    simp only [decode, h]
    rfl
  | some bytes =>
    show decode (set key value o) (.bulk bytes) = _
    simp only [decode, h]
    rfl

theorem result_get (key : Bytes) (content : Option Bytes) :
    (get key).result (Store.held (content.map fun value => ⟨value, none⟩)) = .ok content := by
  cases content <;> rfl

end Command

section Steps

variable {session : Party → Nat} {σ : Nat → ServerSession} {d : Divergence} {s : Store}
  {moment : Nat} {party : Party} {key value : String} {content : Option Bytes}

/-! ## Commands on keys -/

/-- What a command on keys does to what is known of the server. -/
theorem Stands.exists_onKeys {l : Loopback} (h : Stands session σ d s moment l)
    (hblock : (σ (session party)).block = none) {c : Command} (hkeys : c.OnKeys)
    (hc : c.toFrame.Plain) {v : Value} (hv : v.Plain) (hpush : v.isPush = false) {s' : Store}
    (hexecute : s.execute d l.tick.now false c.parts = (v, s'))
    (fault : c.Output → Option CaseFailure) :
    ∃ l', (Step.performAll session [.expect party c fault]).run.beside l =
        (verdict fault (c.result v), l') ∧
      l'.now = l.tick.now ∧ Stands session σ d s' moment l' := by
  have hhandle : l.server.handle l.tick.now (σ (session party)) c.toFrame =
      Server.reply v (σ (session party)) { l.server with store := s' } := by
    simp only [Server.handle_onKeys hblock hkeys, h.divergence, h.store, hexecute]
  obtain ⟨l', hrun, hnow, h'⟩ := h.exists_expect hc hv hpush hhandle
  rw [Function.update_eq_self] at h'
  exact ⟨l', hrun, hnow, h'⟩

section OnKeys

variable (hblock : (σ (session party)).block = none) {c : Command} (hkeys : c.OnKeys)
  (hc : c.toFrame.Plain) {v : Value} (hv : v.Plain) (hpush : v.isPush = false) {s' : Store}
  (hexecute : ∀ now, moment ≤ now → s.execute d now false c.parts = (v, s'))
  {fault : c.Output → Option CaseFailure}

include hblock hkeys hc hv hpush hexecute

/-- A command on keys passes if what the store answers is not at fault. -/
theorem passes_onKeys (hfault : verdict fault (c.result v) = .ok ()) :
    Passes session (Stands session σ d s moment) [.expect party c fault]
      (Stands session σ d s' moment) := by
  intro l h
  obtain ⟨l', hrun, -, h'⟩ := h.exists_onKeys hblock hkeys hc hv hpush
    (hexecute l.tick.now (h.le_now.trans (Nat.le_add_right ..))) fault
  exact ⟨l', hfault ▸ hrun, h'⟩

/-- A command on keys fails if what the store answers is at fault. -/
theorem fails_onKeys {failure : CaseFailure}
    (hfault : verdict fault (c.result v) = .error failure) :
    Fails session (Stands session σ d s moment) [.expect party c fault] := by
  intro l h
  obtain ⟨l', hrun, -, -⟩ := h.exists_onKeys hblock hkeys hc hv hpush
    (hexecute l.tick.now (h.le_now.trans (Nat.le_add_right ..))) fault
  exact ⟨failure, l', hfault ▸ hrun⟩

end OnKeys

/-! ## Writes -/

/-- A write passes if what the store answers is not at fault. -/
theorem passes_set (hblock : (σ (session party)).block = none) (hkey : Sendable key)
    (hvalue : Sendable value) {options : SetOptions} {v : Value} (hv : v.Plain)
    (hpush : v.isPush = false) {s' : Store}
    (hset : ∀ now, moment ≤ now →
      Store.set d now s (payload key :: payload value :: options.args) = (v, s'))
    {fault : SetReply → Option CaseFailure} {reply : SetReply}
    (hresult : (Command.set (payload key) (payload value) options).result v = .ok reply)
    (hfault : fault reply = none) :
    Passes session (Stands session σ d s moment)
      [.expect party (.set (payload key) (payload value) options) fault]
      (Stands session σ d s' moment) := by
  refine passes_onKeys hblock (Command.onKeys_set ..) (Command.plain_set hkey hvalue options) hv
    hpush (fun now hnow => ?_) ?_
  · exact (Store.execute_set (Store.word_ofText "SET" (by decide)) _).trans (hset now hnow)
  · rw [hresult, verdict, hfault]
    rfl

theorem passes_store (hd : d.deniesWrites = false) (hblock : (σ (session party)).block = none)
    (hkey : Sendable key) (hvalue : Sendable value) :
    Passes session (Stands session σ d s moment) [.store party key value]
      (Stands session σ d (s.put (payload key) ⟨payload value, none⟩) moment) := by
  refine passes_set hblock hkey hvalue plain_ok rfl (fun now _ => ?_)
    (Command.result_set_ok rfl) rfl
  show Store.set d now s [payload key, payload value] = _
  rw [Store.set_plain, hd]
  rfl

/-- All pairs are written. -/
theorem passes_storeAll (hd : d.deniesWrites = false)
    (hblock : (σ (session .checker)).block = none) {pairs : List (String × String)}
    (hsend : ∀ pair ∈ pairs, Sendable pair.1 ∧ Sendable pair.2) :
    Passes session (Stands session σ d s moment) (Script.storeAll pairs)
      (Stands session σ d (s.putAll pairs) moment) := by
  refine .map (fun done => Stands session σ d (s.putAll done) moment) ?_
  rintro done ⟨key, value⟩ rest rfl
  obtain ⟨hkey, hvalue⟩ := hsend (key, value) (by simp)
  rw [Store.putAll_append]
  exact passes_store hd hblock hkey hvalue

/-! ## Reading -/

/-- A key is answered by what is kept under it. -/
theorem execute_read (h : s.Keeps moment (payload key) content) {now : Nat} (hnow : moment ≤ now) :
    s.execute d now false (Command.get (payload key)).parts =
      (Store.held (content.map fun value => ⟨value, none⟩), s) := by
  rw [← h now hnow]
  exact Store.execute_get (Store.word_ofText "GET" (by decide)) _

theorem passes_read (hblock : (σ (session party)).block = none) (hkey : Sendable key)
    (hvalue : Sendable value) (h : s.Keeps moment (payload key) (some (payload value))) :
    Passes session (Stands session σ d s moment) [.read party key value]
      (Stands session σ d s moment) := by
  have hheld : ∀ bytes ∈ some (payload value), bytes.length < 2 ^ 63 := by
    rintro bytes ⟨⟩
    exact hvalue
  refine passes_onKeys hblock (Command.onKeys_get _)
    (Command.plain_get hkey) (plain_held _ hheld) rfl (fun _ hnow => execute_read h hnow) ?_
  rw [Command.result_get]
  simp [verdict, faultUnless]

/-- A key that holds another value is found at fault. -/
theorem fails_read (hblock : (σ (session party)).block = none) (hkey : Sendable key) {bytes : Bytes}
    (hbytes : bytes.length < 2 ^ 63) (h : s.Keeps moment (payload key) (some bytes))
    (hne : bytes ≠ payload value) :
    Fails session (Stands session σ d s moment) [.read party key value] := by
  have hheld : ∀ held ∈ some bytes, held.length < 2 ^ 63 := by
    rintro held ⟨⟩
    exact hbytes
  have hfault : verdict (fun actual : Option Bytes => faultUnless (actual == some (payload value))
      (.value key (some (payload value)) actual)) (.ok (some bytes)) =
        .error (.value key (some (payload value)) (some bytes)) := by
    simp [verdict, faultUnless, hne]
  exact fails_onKeys hblock (Command.onKeys_get _) (Command.plain_get hkey) (plain_held _ hheld) rfl
    (fun _ hnow => execute_read h hnow) ((congrArg _ (Command.result_get _ _)).trans hfault)

/-- All pairs are kept. -/
theorem passes_readAll (hblock : (σ (session .checker)).block = none)
    {pairs : List (String × String)} (hsend : ∀ pair ∈ pairs, Sendable pair.1 ∧ Sendable pair.2)
    (h : ∀ pair ∈ pairs, s.Keeps moment (payload pair.1) (some (payload pair.2))) :
    Passes session (Stands session σ d s moment) (Script.readAll pairs)
      (Stands session σ d s moment) :=
  .map_of_forall fun pair hpair =>
    passes_read hblock (hsend pair hpair).1 (hsend pair hpair).2 (h pair hpair)

/-- A pair under whose key another value is kept is found at fault, wherever it stands. -/
theorem fails_readAll (hblock : (σ (session .checker)).block = none)
    {pairs : List (String × String)} (hsend : ∀ pair ∈ pairs, Sendable pair.1 ∧ Sendable pair.2)
    {before after : List (String × String)} {pair : String × String}
    (hpairs : pairs = before ++ pair :: after)
    (hbefore : ∀ pair ∈ before, s.Keeps moment (payload pair.1) (some (payload pair.2)))
    {bytes : Bytes} (hbytes : bytes.length < 2 ^ 63)
    (h : s.Keeps moment (payload pair.1) (some bytes)) (hne : bytes ≠ payload pair.2) :
    Fails session (Stands session σ d s moment) (Script.readAll pairs) := by
  subst hpairs
  have hread : Fails session (Stands session σ d s moment) [.read .checker pair.1 pair.2] :=
    fails_read hblock (hsend pair (by simp)).1 hbytes h hne
  rw [Script.readAll, List.map_append]
  exact (passes_readAll hblock (fun pair hpair => hsend pair (List.mem_append_left _ hpair))
    hbefore).fails_append (hread.cons _)

theorem passes_absent (hblock : (σ (session .checker)).block = none) (hkey : Sendable key)
    (h : s.Keeps moment (payload key) none) (aftermath : Aftermath) :
    Passes session (Stands session σ d s moment) [.absent aftermath key]
      (Stands session σ d s moment) := by
  refine passes_onKeys hblock (Command.onKeys_present _)
    (Command.plain_present hkey) (Value.plain_integer 0) rfl (fun now hnow => ?_) rfl
  have hlive : s.live? now (payload key) = none := h now hnow
  refine (Store.execute_exists (Store.word_ofText "EXISTS" (by decide)) _).trans ?_
  simp [Store.count, hlive]

/-- No key is kept. -/
theorem passes_absentAll (hblock : (σ (session .checker)).block = none)
    {pairs : List (String × String)} (hsend : ∀ pair ∈ pairs, Sendable pair.1)
    (h : ∀ pair ∈ pairs, s.Keeps moment (payload pair.1) none) (aftermath : Aftermath) :
    Passes session (Stands session σ d s moment) (Script.absentAll aftermath pairs)
      (Stands session σ d s moment) :=
  .map_of_forall fun pair hpair =>
    passes_absent hblock (hsend pair hpair) (h pair hpair) aftermath

/-- A key under which something is live is found at fault. -/
theorem fails_absent (hblock : (σ (session .checker)).block = none) (hkey : Sendable key)
    (h : ∀ now, moment ≤ now → (s.live? now (payload key)).isSome) (aftermath : Aftermath) :
    Fails session (Stands session σ d s moment) [.absent aftermath key] := by
  have hexecute : ∀ now, moment ≤ now →
      s.execute d now false [payload "EXISTS", payload key] = (.integer 1, s) := by
    intro now hnow
    refine (Store.execute_exists (Store.word_ofText "EXISTS" (by decide)) _).trans ?_
    simp [Store.count, h now hnow]
  exact fails_onKeys hblock (Command.onKeys_present _) (Command.plain_present hkey)
    (Value.plain_integer 1) rfl hexecute rfl

/-! ## Deletions -/

theorem passes_delete (hblock : (σ (session .checker)).block = none) (hkey : Sendable key)
    {bytes : Bytes} (h : s.Keeps moment (payload key) (some bytes)) :
    Passes session (Stands session σ d s moment) [.delete key]
      (Stands session σ d (s.remove (payload key)) moment) := by
  refine passes_onKeys hblock (Command.onKeys_del _)
    (Command.plain_del hkey) (Value.plain_integer 1) rfl (fun now hnow => ?_) rfl
  refine (Store.execute_del (Store.word_ofText "DEL" (by decide)) _ _).trans ?_
  simp [Store.delete, h now hnow]

end Steps

end StoreTrial
