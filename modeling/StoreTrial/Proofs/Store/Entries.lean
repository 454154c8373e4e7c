import Mathlib.Logic.Function.Basic
import StoreTrial.Store.Basic

/-!
# What a store keeps under a key

From some moment on a request finds the same under a key: one value that does not expire, or
nothing. This lasts as time goes on, and whatever is done to other keys; so what a key keeps is
known from the last operation that concerned it.

## Main results

* `Store.keeps_none` — a key that is not live stays so.
* `Store.keeps_putAll`, `Store.keeps_removeAll` — what is kept after pairs under distinct keys have
  been written, and after keys have been deleted.
* `Store.Keeps.compact`, `Store.exists_live?_restore` — compaction loses nothing that is kept, and
  writing the log again brings back what was deleted.
* `Store.Shows.write` — what is found under all keys when one of them has changed.
-/

namespace StoreTrial

/-! ## Tables -/

namespace Table

variable {α : Type} {t : Table α} {key : Bytes} {test : α → Bool}

/-- A value that passes the test is found under its key as before. -/
theorem get?_filter {a : α} (h : t.get? key = some a) (htest : test a = true) :
    (t.filter test).get? key = some a := by
  obtain ⟨pairs⟩ := t
  simp only [get?, filter] at h ⊢
  induction pairs with
  | nil => simp at h
  | cons pair pairs ih =>
    obtain ⟨k, b⟩ := pair
    by_cases hk : key = k
    · subst hk
      simp only [List.lookup_cons_self, Option.some.injEq] at h
      subst h
      simp [htest]
    · have hne : (key == k) = false := by simp [hk]
      simp only [List.lookup_cons, hne] at h
      by_cases hb : test b <;> simp [hb, List.lookup_cons, hne, ih h]

/-- A key without a value has none in a part of the table. -/
theorem get?_filter_none (h : t.get? key = none) : (t.filter test).get? key = none := by
  obtain ⟨pairs⟩ := t
  simp only [get?, filter, List.lookup_eq_none_iff] at h ⊢
  exact fun pair hpair => h pair (List.mem_filter.1 hpair).1

end Table

/-! ## Views -/

/-- What is found under each key as time goes on. -/
abbrev View := Bytes → Nat → Option Entry

namespace View

/-- The view with a value under a key that does not expire, or with nothing there. -/
def write (view : View) (key : Bytes) (content : Option Bytes) : View :=
  Function.update view key fun _ => content.map (⟨·, none⟩)

/-- What is found after writes to some keys, each with a content of its own. -/
theorem foldl_write (content : Bytes → Option Bytes) (keys : List Bytes) (view : View)
    (key : Bytes) : keys.foldl (fun view key => view.write key (content key)) view key =
      if key ∈ keys then fun _ => (content key).map (⟨·, none⟩) else view key := by
  induction keys generalizing view with
  | nil => simp
  | cons first keys ih =>
    rw [List.foldl_cons, ih]
    by_cases hmem : key ∈ keys
    · simp [hmem]
    · by_cases hfirst : key = first
      · subst hfirst
        simp [hmem, write]
      · simp [hmem, hfirst, write]

end View

/-! ## One key -/

theorem Entry.isLive_of_le {e : Entry} {now moment : Nat} (h : e.isLive moment = true)
    (hle : now ≤ moment) : e.isLive now = true := by
  unfold Entry.isLive at h ⊢
  split
  · rfl
  · next expiry hexpiry =>
    simp only [hexpiry, decide_eq_true_eq] at h ⊢
    omega

namespace Store

variable {s : Store} {now moment : Nat} {key other : Bytes} {content : Option Bytes}

theorem live?_put_self (s : Store) (now : Nat) (key : Bytes) (e : Entry) :
    (s.put key e).live? now key = (some e).filter (·.isLive now) := by
  simp [live?, put, touch, Table.get?_insert]

theorem live?_put (hne : key ≠ other) (now : Nat) (e : Entry) :
    (s.put other e).live? now key = s.live? now key := by
  simp [live?, put, touch, Table.get?_insert, hne]

theorem get?_remove_self (s : Store) (key : Bytes) : (s.remove key).entries.get? key = none := by
  simp [remove, touch, Table.get?_erase]

theorem get?_remove (hne : key ≠ other) :
    (s.remove other).entries.get? key = s.entries.get? key := by
  simp [remove, touch, Table.get?_erase, hne]

theorem live?_eq_none_of_get? (h : s.entries.get? key = none) (now : Nat) :
    s.live? now key = none := by
  rw [live?, h, Option.filter_none]

/-- What requests find under a key from a moment on: a value that does not expire, or nothing. -/
def Keeps (s : Store) (now : Nat) (key : Bytes) (content : Option Bytes) : Prop :=
  ∀ moment, now ≤ moment → s.live? moment key = content.map fun value => ⟨value, none⟩

theorem Keeps.of_le (h : s.Keeps now key content) (hle : now ≤ moment) :
    s.Keeps moment key content :=
  fun _ hmoment => h _ (Nat.le_trans hle hmoment)

/-- A key that is not live stays so. -/
theorem keeps_none (h : s.live? now key = none) : s.Keeps now key none := by
  intro moment hle
  rw [live?, Option.filter_eq_none_iff] at h
  rw [live?, Option.map_none, Option.filter_eq_none_iff]
  exact fun e he hlive => h e he (Entry.isLive_of_le hlive hle)

/-! ## Writes and deletions -/

theorem keeps_put (s : Store) (now : Nat) (key value : Bytes) :
    (s.put key ⟨value, none⟩).Keeps now key (some value) :=
  fun _ _ => live?_put_self ..

theorem Keeps.put (h : s.Keeps now key content) (hne : key ≠ other) (e : Entry) :
    (s.put other e).Keeps now key content :=
  fun moment hle => (live?_put hne moment e).trans (h moment hle)

theorem Keeps.remove (h : s.Keeps now key content) (hne : key ≠ other) :
    (s.remove other).Keeps now key content := by
  intro moment hle
  rw [live?, get?_remove hne]
  exact h moment hle

/-! ## Pairs -/

/-- The store after all pairs have been written without options. -/
def putAll (s : Store) (pairs : List (String × String)) : Store :=
  pairs.foldl (fun s pair => s.put (Bytes.ofText pair.1) ⟨Bytes.ofText pair.2, none⟩) s

/-- The store after all keys have been deleted. -/
def removeAll (s : Store) (keys : List String) : Store :=
  keys.foldl (fun s key => s.remove (Bytes.ofText key)) s

theorem putAll_append (s : Store) (xs ys : List (String × String)) :
    s.putAll (xs ++ ys) = (s.putAll xs).putAll ys := List.foldl_append

theorem removeAll_append (s : Store) (xs ys : List String) :
    s.removeAll (xs ++ ys) = (s.removeAll xs).removeAll ys := List.foldl_append

section Pairs

variable {name : String} {pairs : List (String × String)} {keys : List String}

theorem Keeps.putAll (h : s.Keeps now (Bytes.ofText name) content)
    (hnew : name ∉ pairs.map Prod.fst) :
    (s.putAll pairs).Keeps now (Bytes.ofText name) content := by
  induction pairs generalizing s with
  | nil => exact h
  | cons pair pairs ih =>
    rw [List.map_cons, List.mem_cons, not_or] at hnew
    exact ih (h.put (fun heq => hnew.1 (Bytes.ofText_injective heq)) _) hnew.2

/-- Pairs under distinct keys are all kept. -/
theorem keeps_putAll (hnodup : (pairs.map Prod.fst).Nodup) {pair : String × String}
    (hmem : pair ∈ pairs) (s : Store) (now : Nat) :
    (s.putAll pairs).Keeps now (Bytes.ofText pair.1) (some (Bytes.ofText pair.2)) := by
  induction pairs generalizing s with
  | nil => cases hmem
  | cons head pairs ih =>
    rw [List.map_cons, List.nodup_cons] at hnodup
    obtain rfl | hmem := List.mem_cons.1 hmem
    · exact (keeps_put s now _ _).putAll hnodup.1
    · exact ih hnodup.2 hmem _

theorem Keeps.removeAll (h : s.Keeps now (Bytes.ofText name) content) (hnew : name ∉ keys) :
    (s.removeAll keys).Keeps now (Bytes.ofText name) content := by
  induction keys generalizing s with
  | nil => exact h
  | cons key keys ih =>
    rw [List.mem_cons, not_or] at hnew
    exact ih (h.remove fun heq => hnew.1 (Bytes.ofText_injective heq)) hnew.2

/-- No deleted key has an entry. -/
theorem get?_removeAll (s : Store) (keys : List String) (name : String) :
    (s.removeAll keys).entries.get? (Bytes.ofText name) =
      if name ∈ keys then none else s.entries.get? (Bytes.ofText name) := by
  induction keys generalizing s with
  | nil => simp [removeAll]
  | cons key keys ih =>
    show ((s.remove (Bytes.ofText key)).removeAll keys).entries.get? _ = _
    rw [ih]
    by_cases heq : name = key
    · simp [heq, get?_remove_self]
    · have hne : Bytes.ofText name ≠ Bytes.ofText key := fun h => heq (Bytes.ofText_injective h)
      simp [heq, get?_remove hne]

theorem keeps_removeAll (hmem : name ∈ keys) (s : Store) (now : Nat) :
    (s.removeAll keys).Keeps now (Bytes.ofText name) none :=
  fun moment _ => live?_eq_none_of_get? ((get?_removeAll s keys name).trans (if_pos hmem)) moment

end Pairs

/-! ## Compaction -/

/-- Compaction loses no value that is kept. -/
theorem Keeps.compact {value : Bytes} (h : s.Keeps now key (some value)) (moment : Nat) :
    (s.compact moment).Keeps now key (some value) := by
  obtain ⟨hget, -⟩ := Option.filter_eq_some_iff.1 (h now (Nat.le_refl _))
  intro later _
  have hfilter : (s.entries.filter (·.isLive moment)).get? key = some ⟨value, none⟩ :=
    Table.get?_filter hget rfl
  show ((s.entries.filter (·.isLive moment)).get? key).filter (·.isLive later) = _
  rw [hfilter]
  rfl

/-- Compaction brings nothing back. -/
theorem keeps_compact_none (h : s.entries.get? key = none) (moment now : Nat) :
    (s.compact moment).Keeps now key none :=
  fun later _ => live?_eq_none_of_get? (Table.get?_filter_none h) later

/-- One record of the log, written again; the record of a deletion writes nothing. -/
def writeAgain (entries : Table Entry) (record : Bytes × Option Bytes) : Table Entry :=
  record.2.elim entries fun value => entries.insert record.1 ⟨value, none⟩

theorem restore_eq (s : Store) : s.restore.entries = s.log.foldl writeAgain s.entries := by
  show s.log.foldl _ s.entries = _
  congr 1
  funext entries ⟨key, value⟩
  cases value <;> rfl

/-- A record of the key itself leaves a value, and any other what was there. -/
theorem exists_get?_writeAgain {entries : Table Entry} {record : Bytes × Option Bytes}
    (h : (∃ value, record = (key, some value)) ∨ ∃ w, entries.get? key = some ⟨w, none⟩) :
    ∃ w, (writeAgain entries record).get? key = some ⟨w, none⟩ := by
  obtain ⟨value, rfl⟩ | ⟨w, hw⟩ := h
  · exact ⟨value, by simp [writeAgain, Table.get?_insert]⟩
  · obtain ⟨other, written⟩ := record
    cases written with
    | none => exact ⟨w, hw⟩
    | some value =>
      by_cases hne : key = other
      · exact ⟨value, by simp [writeAgain, Table.get?_insert, hne]⟩
      · exact ⟨w, by simpa [writeAgain, Table.get?_insert, hne] using hw⟩

theorem exists_get?_foldl_writeAgain {log : List (Bytes × Option Bytes)} {entries : Table Entry}
    {value : Bytes} (h : (key, some value) ∈ log ∨ ∃ w, entries.get? key = some ⟨w, none⟩) :
    ∃ w, (log.foldl writeAgain entries).get? key = some ⟨w, none⟩ := by
  induction log generalizing entries with
  | nil => exact h.resolve_left List.not_mem_nil
  | cons record log ih =>
    apply ih
    obtain hmem | hthere := h
    · obtain rfl | hmem := List.mem_cons.1 hmem
      · exact .inr (exists_get?_writeAgain (.inl ⟨value, rfl⟩))
      · exact .inl hmem
    · exact .inr (exists_get?_writeAgain (.inr hthere))

/-- Writing the log again brings back a value under every key that was ever written. -/
theorem exists_live?_restore {value : Bytes} (h : (key, some value) ∈ s.log) (now : Nat) :
    ∃ e, s.restore.live? now key = some e := by
  obtain ⟨w, hw⟩ := @exists_get?_foldl_writeAgain key s.log s.entries value (.inl h)
  rw [← restore_eq] at hw
  exact ⟨⟨w, none⟩, by simp [live?, hw, Entry.isLive]⟩

/-! ## The log -/

/-- All pairs that are written are logged. -/
theorem log_putAll (s : Store) (pairs : List (String × String)) :
    (s.putAll pairs).log =
      s.log ++ pairs.map fun pair => (Bytes.ofText pair.1, some (Bytes.ofText pair.2)) := by
  induction pairs generalizing s with
  | nil => simp [putAll]
  | cons pair pairs ih =>
    show ((s.put (Bytes.ofText pair.1) ⟨Bytes.ofText pair.2, none⟩).putAll pairs).log = _
    simp [ih, put, touch]

/-- All keys that are deleted are logged. -/
theorem log_removeAll (s : Store) (keys : List String) :
    (s.removeAll keys).log = s.log ++ keys.map fun key => (Bytes.ofText key, none) := by
  induction keys generalizing s with
  | nil => simp [removeAll]
  | cons key keys ih =>
    show ((s.remove (Bytes.ofText key)).removeAll keys).log = _
    simp [ih, remove, touch]

/-! ## Entries that last -/

/-- Whether no entry expires. -/
def Lasting (s : Store) : Prop := ∀ key e, s.entries.get? key = some e → e.expiresAt = none

theorem Lasting.live?_eq (h : s.Lasting) (now : Nat) (key : Bytes) :
    s.live? now key = s.entries.get? key := by
  cases hget : s.entries.get? key with
  | none => exact live?_eq_none_of_get? hget now
  | some e => simp [live?, hget, Entry.isLive, h key e hget]

/-! ## All keys at once -/

section Views

variable {view : View}

/-- Whether a view tells what requests find from a moment on. -/
def Shows (s : Store) (now : Nat) (view : View) : Prop :=
  ∀ key moment, now ≤ moment → s.live? moment key = view key moment

theorem Shows.of_le (h : s.Shows now view) (hle : now ≤ moment) : s.Shows moment view :=
  fun key _ hmoment => h key _ (Nat.le_trans hle hmoment)

/-- What is kept under one key, while all others are shown as before. -/
theorem Shows.write {s' : Store} {content : Option Bytes} (h : s.Shows now view)
    (hkeeps : s'.Keeps now key content)
    (hothers : ∀ other, other ≠ key → ∀ moment, s'.live? moment other = s.live? moment other) :
    s'.Shows now (view.write key content) := by
  intro other moment hmoment
  by_cases hother : other = key
  · subst hother
    rw [View.write, Function.update_self, hkeeps moment hmoment]
  · rw [View.write, Function.update_of_ne hother, hothers other hother]
    exact h other moment hmoment

theorem Shows.put (h : s.Shows now view) (key value : Bytes) :
    (s.put key ⟨value, none⟩).Shows now (view.write key (some value)) :=
  h.write (keeps_put s now key value) fun _ hother moment => live?_put hother moment _

theorem Shows.remove (h : s.Shows now view) (key : Bytes) :
    (s.remove key).Shows now (view.write key none) := by
  refine h.write (fun moment _ => live?_eq_none_of_get? (get?_remove_self s key) moment) ?_
  intro other hother moment
  rw [live?, get?_remove hother, ← live?]

end Views

end Store

end StoreTrial
