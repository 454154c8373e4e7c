import StoreTrial.Command.Basic
import StoreTrial.Proofs.Store.Entries
import StoreTrial.Store.Server

/-!
# What a server answers

Each request of a case has one answer and one effect on the store. They are told here in terms of
what is live under a key, for a server that may diverge from the contract in any way.

## Main results

* `Server.handle_onKeys` — outside of a block a request on keys is executed.
* `Server.handle_queued`, `Server.handle_unqueued` — inside of one it is queued or spoils the block.
* `Server.handle_exec`, `Server.handle_discard` — how a block ends.
* `Server.runBlock_stores` — a block of plain writes writes all pairs.
-/

namespace StoreTrial

open Resp (Value)

/-! ## Names and options -/

namespace Store

/-- The names and options that requests are made of. -/
def words : List String :=
  ["SET", "GET", "DEL", "EXISTS", "MERGE", "MULTI", "EXEC", "DISCARD", "WATCH", "HELLO", "EX", "PX",
    "NX", "XX", "3", "NOSUCHCOMMAND"]

/-- A name that is written in upper case is read as it is. -/
theorem word_ofText : ∀ text ∈ words, word (Bytes.ofText text) = text := by decide +kernel

/-! ## Requests on keys -/

/-- A plain write of a text under a key. -/
def storeRequest (pair : String × String) : List Bytes :=
  [Bytes.ofText "SET", Bytes.ofText pair.1, Bytes.ofText pair.2]

/-- A deletion of a key. -/
def deleteRequest (key : String) : List Bytes := [Bytes.ofText "DEL", Bytes.ofText key]

variable {d : Divergence} {now : Nat} {inBlock : Bool} {s : Store} {key value : Bytes}

section Execute

-- the name is a variable, since its letters are slow to compute wherever they are not needed
variable {head : Bytes}

theorem execute_set (h : word head = "SET") (args : List Bytes) :
    s.execute d now inBlock (head :: args) = set d now s args := by
  simp only [execute.eq_def, h]

theorem execute_get (h : word head = "GET") (key : Bytes) :
    s.execute d now inBlock [head, key] = (held (s.live? now key), s) := by
  simp only [execute.eq_def, h]

theorem execute_del (h : word head = "DEL") (key : Bytes) (keys : List Bytes) :
    s.execute d now inBlock (head :: key :: keys) = delete now inBlock (key :: keys) 0 s := by
  simp only [execute.eq_def, h]

theorem execute_exists (h : word head = "EXISTS") (key : Bytes) :
    s.execute d now inBlock [head, key] = (count now [key] s, s) := by
  simp only [execute.eq_def, h]

theorem execute_merge (h : word head = "MERGE") :
    s.execute d now inBlock [head] = merge d now s := by
  simp only [execute.eq_def, h]

end Execute

/-! ### Writes -/

section Parts

variable {o : WriteOptions} {options : List Bytes}

theorem set_of_options (h : readOptions now {} options = .ok o) :
    set d now s (key :: value :: options) = write d now o options.isEmpty key value s := by
  simp only [set, h]

/-- One option that is not about life. -/
theorem readOptions_single {option : Bytes} (hadd : WriteOptions.add? {} (word option) = some o)
    (hboth : (o.ifAbsent && o.ifPresent) = false) : readOptions now {} [option] = .ok o := by
  simp [readOptions, hadd, hboth]

end Parts

/-- A write without options is applied. -/
theorem set_plain :
    set d now s [key, value] = (if d.deniesWrites then .null else ok, s.put key ⟨value, none⟩) := by
  rw [set_of_options rfl]
  simp [write, WriteOptions.expiry]

theorem execute_store (pair : String × String) :
    s.execute d now inBlock (storeRequest pair) =
      (if d.deniesWrites then .null else ok,
        s.put (Bytes.ofText pair.1) ⟨Bytes.ofText pair.2, none⟩) := by
  rw [storeRequest, execute_set (word_ofText "SET" (by decide)), set_plain]

theorem amount?_numeral {n : UInt64} (hn : n ≠ 0) : amount? (numeral n) = some n.toNat := by
  have hpos : 0 < n.toNat := by
    rw [Nat.pos_iff_ne_zero]
    exact fun h => hn (UInt64.toNat_inj.1 h)
  have hbound : n.toNat < 2 ^ 64 := n.toNat_lt
  simp [amount?, numeral, Decimal.ofNat, Decimal.readUnsigned?_digits, hpos, hbound]

/-- No life is given by zero. -/
theorem amount?_numeral_zero : amount? (numeral 0) = none := by decide +kernel

section Options

variable {option : Bytes}

/-- A write with a life is applied, and its value expires when the life is over. -/
theorem set_expiring {unit : Nat} {n : UInt64}
    (hadd : ∀ o : WriteOptions, o.add? (word option) = none)
    (hunit : unit? (word option) = some unit) (hn : n ≠ 0) :
    set d now s [key, value, option, numeral n] =
      (ok, s.put key ⟨value, some (now + n.toNat * unit)⟩) := by
  have hoptions : readOptions now {} [option, numeral n] =
      .ok { expiresAt := some (now + n.toNat * unit) } := by
    simp [readOptions, hadd, hunit, amount?_numeral hn]
  rw [set_of_options hoptions]
  simp [write, WriteOptions.expiry]

/-- A write with a life of no time is refused. -/
theorem set_lifeless {unit : Nat} (hadd : ∀ o : WriteOptions, o.add? (word option) = none)
    (hunit : unit? (word option) = some unit) :
    set d now s [key, value, option, numeral 0] = (.error badLife, s) := by
  simp [set, readOptions, hadd, hunit, amount?_numeral_zero]

/-- A write on the condition of absence. -/
theorem set_ifAbsent (h : word option = "NX") :
    set d now s [key, value, option] =
      if (s.live? now key).isSome && !d.replacesPresent then (.null, s)
      else (ok, s.put key ⟨value, none⟩) := by
  rw [set_of_options (readOptions_single (by rw [h]; rfl) rfl)]
  simp [write, WriteOptions.expiry]

/-- A write on the condition of presence. -/
theorem set_ifPresent (h : word option = "XX") :
    set d now s [key, value, option] =
      if (s.live? now key).isNone then (.null, s) else (ok, s.put key ⟨value, none⟩) := by
  rw [set_of_options (readOptions_single (by rw [h]; rfl) rfl)]
  simp [write, WriteOptions.expiry]

/-- A write that asks for the value held before. -/
theorem set_previous (h : word option = "GET") :
    set d now s [key, value, option] =
      (held (s.live? now key), s.put key ⟨value, none⟩) := by
  rw [set_of_options (readOptions_single (by rw [h]; rfl) rfl)]
  simp [write, WriteOptions.expiry]

end Options

end Store

/-! ## Commands on keys -/

namespace Command

/-- Whether a command is a request on keys. -/
def OnKeys (c : Command) : Prop :=
  ∃ head args, c.parts = head :: args ∧
    Store.word head ∈ ["SET", "GET", "DEL", "EXISTS", "MERGE"]

/-- A request whose name is written in upper case is known by it. -/
theorem onKeys_of_parts {c : Command} (text : String) {args : List Bytes}
    (hparts : c.parts = Bytes.ofText text :: args)
    (htext : text ∈ ["SET", "GET", "DEL", "EXISTS", "MERGE"]) : c.OnKeys := by
  have hwords : ∀ text ∈ ["SET", "GET", "DEL", "EXISTS", "MERGE"], text ∈ Store.words := by decide
  refine ⟨Bytes.ofText text, args, hparts, ?_⟩
  rwa [Store.word_ofText text (hwords text htext)]

theorem onKeys_set (key value : Bytes) (options : SetOptions) : (set key value options).OnKeys :=
  onKeys_of_parts "SET" rfl (by decide)

theorem onKeys_get (key : Bytes) : (get key).OnKeys := onKeys_of_parts "GET" rfl (by decide)

theorem onKeys_del (keys : List Bytes) : (del keys).OnKeys := onKeys_of_parts "DEL" rfl (by decide)

theorem onKeys_present (keys : List Bytes) : (present keys).OnKeys :=
  onKeys_of_parts "EXISTS" rfl (by decide)

theorem onKeys_merge : merge.OnKeys := onKeys_of_parts "MERGE" rfl (by decide)

end Command

namespace Server

open Store (storeRequest deleteRequest)

variable {now : Nat} {session : ServerSession} {server : Server} {c : Command}

@[simp] theorem parts?_toFrame (c : Command) : parts? c.toFrame = some c.parts := by
  have hmap : ∀ parts : List Bytes, (parts.map Value.bulk).mapM Value.payload? = some parts := by
    intro parts
    induction parts with
    | nil => rfl
    | cons part parts ih => simp [Value.payload?, ih]
  exact hmap c.parts

/-! ## Outside of a block -/

section Requests

variable {head : Bytes} {args : List Bytes} {name : String}

theorem handle_outside (hblock : session.block = none) (hparts : c.parts = head :: args)
    (hname : Store.word head = name) :
    handle now session server c.toFrame =
      dispatch now session server name args (head :: args) := by
  simp only [handle, parts?_toFrame, hparts, hblock, hname]

end Requests

/-- Outside of a block a request on keys is executed. -/
theorem handle_onKeys (hblock : session.block = none) (hc : c.OnKeys) :
    handle now session server c.toFrame =
      reply (server.store.execute server.divergence now false c.parts).1 session
        { server with store := (server.store.execute server.divergence now false c.parts).2 } := by
  obtain ⟨head, args, hparts, hname⟩ := hc
  rw [handle_outside hblock hparts rfl, hparts]
  simp only [List.mem_cons, List.not_mem_nil, or_false] at hname
  rcases hname with h | h | h | h | h <;> rw [h] <;> rfl

/-- Opens a block. -/
theorem handle_multi (hblock : session.block = none) :
    handle now session server Command.multi.toFrame =
      reply Store.ok { session with block := some [], spoiled := false } server := by
  rw [handle_outside hblock rfl (Store.word_ofText "MULTI" (by decide))]
  show multi session server = _
  simp [multi, hblock]

/-- Watches a key in the version that it has. -/
theorem handle_watch (hblock : session.block = none) (key : Bytes) :
    handle now session server (Command.watch [key]).toFrame =
      reply Store.ok
        { session with watched := session.watched ++ [(key, server.store.version key)] }
        server := by
  rw [handle_outside hblock rfl (Store.word_ofText "WATCH" (by decide))]
  show watch session server [key] = _
  simp [watch, hblock]

/-- A greeting in version 3 is answered in it. -/
theorem handle_greeting (hblock : session.block = none) :
    handle now session server (Command.hello .resp3).toFrame =
      reply (properties { session with protocol := .resp3 })
        { session with protocol := .resp3 } server := by
  have hparts : (Command.hello .resp3).parts = [Bytes.ofText "HELLO", Bytes.ofText "3"] := by
    decide +kernel
  rw [handle_outside hblock hparts (Store.word_ofText "HELLO" (by decide))]
  show greet session server (some (Store.word (Bytes.ofText "3"))) = _
  rw [Store.word_ofText "3" (by decide)]
  rfl

/-! ## Inside of a block -/

section Block

variable {requests : List (List Bytes)} {head : Bytes} {args : List Bytes} {name : String}

theorem handle_inside (hblock : session.block = some requests) (hparts : c.parts = head :: args)
    (hname : Store.word head = name) :
    handle now session server c.toFrame =
      if name ∈ immediate then dispatch now session server name args (head :: args)
      else queue session server requests name (head :: args) := by
  simp only [handle, parts?_toFrame, hparts, hblock, hname]

/-- A request on keys is queued. -/
theorem handle_queued (hblock : session.block = some requests) (hc : c.OnKeys) :
    handle now session server c.toFrame =
      reply (.simple "QUEUED") { session with block := some (requests ++ [c.parts]) } server := by
  obtain ⟨head, args, hparts, hname⟩ := hc
  rw [handle_inside hblock hparts rfl, hparts]
  simp only [List.mem_cons, List.not_mem_nil, or_false] at hname
  rcases hname with h | h | h | h | h <;> simp [h, queue, immediate, queueable]

/-- A request that is not known spoils the block. -/
theorem handle_unqueued (hblock : session.block = some requests) (hparts : c.parts = head :: args)
    (hname : Store.word head = name) (himmediate : name ∉ immediate) (hknown : name ∉ queueable) :
    handle now session server c.toFrame =
      reply (Store.unknown name) { session with spoiled := true } server := by
  rw [handle_inside hblock hparts hname, if_neg himmediate, queue, if_neg hknown]

/-- A block that is discarded leaves nothing behind, if the server keeps to that. -/
theorem handle_discard (hblock : session.block = some requests) :
    handle now session server Command.discard.toFrame =
      reply Store.ok { session with block := none, watched := [] }
        (if server.divergence.appliesDiscarded then applyAll now server requests else server) := by
  rw [handle_inside hblock rfl (Store.word_ofText "DISCARD" (by decide)), if_pos (by decide)]
  show discard now session server = _
  simp [discard, hblock]

/-- The session after its block has ended. -/
def closed (session : ServerSession) : ServerSession :=
  { session with block := none, watched := [], spoiled := false }

/-- The end of a block that could not be queued as a whole. -/
theorem handle_exec_spoiled (hblock : session.block = some requests)
    (hspoiled : session.spoiled = true) :
    handle now session server Command.exec.toFrame =
      reply (.error "EXECABORT Transaction discarded because of previous errors.")
        (closed session) server := by
  rw [handle_inside hblock rfl (Store.word_ofText "EXEC" (by decide)), if_pos (by decide)]
  show reply (exec now session server).1 (exec now session server).2.1
    (exec now session server).2.2 = _
  simp [exec, hblock, hspoiled, closed]

/-- The end of a block that was queued as a whole. -/
theorem handle_exec (hblock : session.block = some requests) (hspoiled : session.spoiled = false) :
    handle now session server Command.exec.toFrame =
      reply (applyBlock now server session.watched requests).1 (closed session)
        (applyBlock now server session.watched requests).2 := by
  rw [handle_inside hblock rfl (Store.word_ofText "EXEC" (by decide)), if_pos (by decide)]
  show reply (exec now session server).1 (exec now session server).2.1
    (exec now session server).2.2 = _
  simp [exec, hblock, hspoiled, closed]

end Block

/-! ## Blocks of writes -/

section Apply

variable {d : Divergence} {s : Store}

/-- A block of plain writes writes all pairs and goes on. -/
theorem runBlock_stores (hd : d.deniesWrites = false) (pairs : List (String × String))
    (requests : List (List Bytes)) (s : Store) :
    runBlock d now (pairs.map storeRequest ++ requests) s =
      ((runBlock d now requests (s.putAll pairs)).1.map
        (List.replicate pairs.length Store.ok ++ ·),
        (runBlock d now requests (s.putAll pairs)).2) := by
  induction pairs generalizing s with
  | nil => simp [Store.putAll]
  | cons pair pairs ih =>
    have hexecute : s.execute d now true (storeRequest pair) =
        (Store.ok, s.put (Bytes.ofText pair.1) ⟨Bytes.ofText pair.2, none⟩) := by
      simp [Store.execute_store, hd]
    have hput : s.putAll (pair :: pairs) =
        (s.put (Bytes.ofText pair.1) ⟨Bytes.ofText pair.2, none⟩).putAll pairs := rfl
    simp only [List.map_cons, List.cons_append, runBlock, hexecute, ih, hput, Store.ok,
      Option.map_map, Function.comp_def, List.length_cons, List.replicate_succ]

/-- A block stops at the deletion of a key that is not live. -/
theorem runBlock_deletion {key : String} (h : s.live? now (Bytes.ofText key) = none)
    (requests : List (List Bytes)) :
    runBlock d now (deleteRequest key :: requests) s = (none, s) := by
  have hexecute : s.execute d now true (deleteRequest key) = (.error "ERR no such key", s) := by
    rw [deleteRequest, Store.execute_del (Store.word_ofText "DEL" (by decide))]
    simp [Store.delete, h]
  simp [runBlock, hexecute]

/-- A discarded block of plain writes that is applied all the same. -/
theorem applyAll_stores (server : Server) (pairs : List (String × String)) :
    applyAll now server (pairs.map storeRequest) =
      { server with store := server.store.putAll pairs } := by
  simp only [applyAll, List.foldl_map, Store.execute_store, Store.putAll]

end Apply

/-! ## What becomes of a block -/

section Apply

variable {watched : List (Bytes × Nat)} {requests : List (List Bytes)} {s : Store}

/-- A block whose requests all succeed is applied. -/
theorem applyBlock_of_some
    (hchanged : (hasChanged server.store watched && !server.divergence.ignoresWatches) = false)
    {replies : List Value}
    (hrun : runBlock server.divergence now requests server.store = (some replies, s)) :
    applyBlock now server watched requests = (.array replies, { server with store := s }) := by
  simp only [applyBlock, hchanged, hrun, Bool.false_eq_true, if_false]

/-- A block with a request that fails is rolled back, unless the server keeps it. -/
theorem applyBlock_of_none
    (hchanged : (hasChanged server.store watched && !server.divergence.ignoresWatches) = false)
    (hrun : runBlock server.divergence now requests server.store = (none, s)) :
    applyBlock now server watched requests =
      (.null, { server with
        store := if server.divergence.keepsFailedBlocks then s else rollBack server.store s }) := by
  simp only [applyBlock, hchanged, hrun, Bool.false_eq_true, if_false]

/-- A block is not applied when a watched key has changed, unless the server ignores that. -/
theorem applyBlock_of_changed (hchanged : hasChanged server.store watched = true)
    (hd : server.divergence.ignoresWatches = false) :
    applyBlock now server watched requests = (.null, server) := by
  simp [applyBlock, hchanged, hd]

/-- What is rolled back is as it was. -/
theorem keeps_rollBack {key : Bytes} {content : Option Bytes} {moment : Nat}
    (h : s.Keeps moment key content) (after : Store) :
    (rollBack s after).Keeps moment key content := h

end Apply

/-! ## Watched keys -/

theorem hasChanged_put (s : Store) (key : Bytes) (e : Entry) :
    hasChanged (s.put key e) [(key, s.version key)] = true := by
  simp [hasChanged, Store.put, Store.touch, Store.version, Table.get?_insert]

end Server

end StoreTrial
