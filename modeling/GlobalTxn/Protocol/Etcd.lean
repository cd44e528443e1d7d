import GlobalTxn.Protocol.Stores
import GlobalTxn.Protocol.Records
import GlobalTxn.Protocol.Ident
import GlobalTxn.Etcd.Sessions
import GlobalTxn.Etcd.Locks
import GlobalTxn.Etcd.LeaseLocks
import GlobalTxn.Uri.Etcd

/-! # Answers about stores kept in etcd

The stores connect to a fresh etcd server through the address `etcd://{server}{root}`, with
credentials in the query if a user is given; an address that does not read is the answer.
No route leads to that server: every request of the stores fails as unreachable, and a store
with a user fails already when it connects, as it logs in first.  Steps are those of the stores
kept in memory, against the etcd-backed store, and each answer also shows every key of the
server.  A few steps work on the server itself: they write or delete a key directly, make the
next comparing transactions fail, or show the whole server.
-/

namespace GlobalTxn.Protocol

open Member

/-- The address of the server the stores connect to, as it appears in messages. -/
def serverAddress : String := "127.0.0.1:2379"

/-- Plays a conversation of the stores with the server.  No route leads there, so every request
fails as unreachable and the server keeps its keys. -/
def converse {α : Type} (c : Etcd.Client α) (s : Etcd.KeySpace) : α × Etcd.KeySpace :=
  (Etcd.Client.runUnreachable c, s)

/-- The root directory of the stores, read from the request's `root` and `user` through the
address they make; the error answer if that address does not read or the connection fails. -/
def etcdRootInput (req : Value) : Decode (Except Value String) := do
  let root ← withDefault req "root" string "/seamtc"
  let user ← match req.get? "user" with
    | some (.arr [.str name, .str password]) => pure (some (name, password))
    | some (.arr [_, _]) => throw "bad user"
    | some _ => throw "user is not [name, password]"
    | none => pure none
  let query := match user with
    | some (name, password) => "?username=" ++ name ++ "&password=" ++ password
    | none => ""
  let uri := "etcd://" ++ serverAddress ++ root ++ query
  pure <| match Uri.EtcdUri.parse .standard uri with
    | .error e => .error (errorValue "Error" (e.message uri))
    | .ok u =>
      match (converse (Etcd.Client.connect user) {}).1 with
      | .ok () => .ok u.root
      | .error e => .error (errorValue "Error" e.text)

/-- The keys of a server by key, each as `[key, value_hex, create_revision, mod_revision,
version, lease]`. -/
def kvsValue (s : Etcd.KeySpace) : Value :=
  .list (fun kv => .arr [.str kv.key, .str (hexOf kv.value), .nat kv.createRevision,
    .nat kv.modRevision, .nat kv.version, .nat kv.lease]) s.sorted

/-- The whole server: its revision, its keys and its leases. -/
def serverValue (s : Etcd.KeySpace) : Value :=
  .obj [("revision", .nat s.revision), ("kvs", kvsValue s),
    ("leases", .list (fun l => .obj [("id", .nat l.id), ("ttl", .nat l.ttl),
      ("expire_at", .nat l.expireAt)]) s.leases)]

/-- Whether a step works on the server itself. -/
def isServerStep (name : String) : Bool :=
  ["etcd_put", "etcd_delete", "etcd_conflicts", "etcd_dump"].contains name

/-- Runs a step on the server itself: its result and the server after it.  A key written
this way has no lease; a key deleted this way leaves the revision alone. -/
def serverStep (s : Etcd.KeySpace) (step : Value) : Decode (Value × Etcd.KeySpace) := do
  match ← need step "do" string with
  | "etcd_put" =>
    let key ← need step "key" string
    let value ← match ← optional step "hex" (stringCalled "hex") with
      | some h => bytesOfHex h
      | none => pure (Text.Utf8.encode (← need step "text" string))
    pure (.null, s.put key value 0)
  | "etcd_delete" =>
    let key ← need step "key" string
    pure (.bool (s.find? key).isSome, { s with kvs := Etcd.erase s.kvs key })
  | "etcd_conflicts" =>
    let n ← withDefault step "n" word 1
    pure (.null, { s with conflicts := n })
  | "etcd_dump" => pure (serverValue s, s)
  | other => throw s!"unknown step {other}"

/-- The answer of a step: its result or error, then more members. -/
def stepAnswer {ε : Type} (errorOf : ε → Value) (r : Except ε Value)
    (extra : List (String × Value)) : Value :=
  match r with
  | .ok v => .obj (("result", v) :: extra)
  | .error e => stepFailure (errorOf e) extra

/-- Runs the steps of an etcd-backed store against a fresh server, where each step gives its
outcome, the members to show after it and the state it leaves. -/
def runEtcdSteps {σ : Type} (req : Value) (start : σ)
    (step : σ → Value → Decode (Value × σ)) : Decode Value := do
  let steps ← list req "steps"
  let (answers, _) ← steps.foldlM (fun (acc, st) s => do
    let (a, st) ← step st s
    pure (acc ++ [a], st)) ([], start)
  pure <| .obj [("steps", .arr answers)]

/-! ## Sessions -/

/-- The sessions of an etcd-backed store in brief, by xid, read through the store. -/
def etcdSessionsState (root : String) (s : Etcd.KeySpace) :
    List (String × Value) × Etcd.KeySpace :=
  let (r, s) := converse (Etcd.Sessions.findBy SessionRecord.codec root GlobalStatus.all).run s
  let sessions := (r.toOption.getD []).mergeSort fun a b => decide (a.xid ≤ b.xid)
  (sessionsState sessions, s)

/-- Runs one step on an etcd-backed session store. -/
def etcdSessionStep (root : String) (s : Etcd.KeySpace) (step : Value) :
    Decode (Value × Etcd.KeySpace) := do
  let name ← need step "do" string
  let (r, s) ← if isServerStep name then do
      let (v, s) ← serverStep s step
      pure (.ok v, s)
    else
      match ← sessionCallInput step with
      | .len => throw "len is only for the memory store"
      | call => pure (converse (call.perform (Etcd.Sessions.store SessionRecord.codec root)).run s)
  let (state, s) := etcdSessionsState root s
  pure (stepAnswer storeErrorValue r (state ++ [("kvs", kvsValue s)]), s)

/-- Answers `etcd_session_store`. -/
def answerEtcdSessionStore (req : Value) : Decode Value := do
  match ← etcdRootInput req with
  | .error v => pure v
  | .ok root => runEtcdSteps req ({} : Etcd.KeySpace) (etcdSessionStep root)

/-! ## Row locks -/

/-- The row keys a lock call names. -/
def LockCall.rowKeys : LockCall → List String
  | .acquire o key | .release o key =>
    ((RowLock.expand o key).toOption.getD []).map (·.rowKey)
  | .query key => [key]
  | .collect b | .acquireBranch b | .releaseBranch b =>
    ((LockManager.collect b).toOption.getD []).map (·.rowKey)
  | .releaseSession s =>
    ((s.branches.flatMapM LockManager.collect).toOption.getD []).map (·.rowKey)
  | .isLockable xid resourceId key =>
    ((RowLock.expand ⟨xid, 0, 0, resourceId⟩ key).toOption.getD []).map (·.rowKey)
  | .len => []

/-- The held rows among the named ones, by row key, read through an etcd-backed store. -/
def etcdRows (root : String) (named : List String) (s : Etcd.KeySpace) :
    List (String × LockHolder) × Etcd.KeySpace :=
  let keys := (named.mergeSort fun a b => decide (a ≤ b)).eraseDups
  keys.foldl (fun (rows, s) k =>
    match converse (Etcd.Locks.owner? LockHolder.codec root k).run s with
    | (.ok (some h), s) => (rows ++ [(k, h)], s)
    | (_, s) => (rows, s)) ([], s)

/-- Runs one step on an etcd-backed lock store; `named` are the row keys named so far. -/
def etcdLockStep (root : String) (st : List String × Etcd.KeySpace) (step : Value) :
    Decode (Value × List String × Etcd.KeySpace) := do
  let (named, s) := st
  let name ← need step "do" string
  let (r, named, s) ← if isServerStep name then do
      let (v, s) ← serverStep s step
      pure (.ok v, named, s)
    else
      match ← lockCallInput step with
      | .len => throw "len is only for the memory store"
      | call =>
        let (r, s) := converse (call.perform (Etcd.Locks.store LockHolder.codec root)).run s
        pure (r, named ++ call.rowKeys, s)
  let (rows, s) := etcdRows root named s
  pure (stepAnswer lockErrorValue r [("rows", lockRowsValue rows), ("kvs", kvsValue s)],
    named, s)

/-- Answers `etcd_lock_store`. -/
def answerEtcdLockStore (req : Value) : Decode Value := do
  match ← etcdRootInput req with
  | .error v => pure v
  | .ok root => runEtcdSteps req (([] : List String), ({} : Etcd.KeySpace)) (etcdLockStep root)

/-! ## Lease locks -/

/-- Runs one step on etcd-backed lease locks with a manual clock.  A failed step shows the keys
of the server but not the clock. -/
def etcdLeaseStep (root : String) (st : Clock × Etcd.KeySpace) (step : Value) :
    Decode (Value × Clock × Etcd.KeySpace) := do
  let (c, s) := st
  let talk (m : Etcd.LeaseLocksM Bool) : Except String Value × Etcd.KeySpace :=
    let (r, s) := converse m.run s
    (r.map Value.bool |>.mapError (·.text), s)
  let name ← need step "do" string
  let (r, c, s) ← if isServerStep name then do
      let (v, s) ← serverStep s step
      pure (.ok v, c, s)
    else
      match name with
      | "acquire" =>
        let lock ← need step "name" string
        let owner ← need step "owner" string
        let span ← spanField step "lease" 10000
        let (r, s) := talk (Etcd.LeaseLocks.tryAcquire root lock owner span)
        pure (r, c, s)
      | "release" =>
        let lock ← need step "name" string
        let owner ← need step "owner" string
        let (r, s) := talk (Etcd.LeaseLocks.release root lock owner)
        pure (r, c, s)
      | "advance" =>
        let span ← spanField step "by" 0
        pure (.ok .null, c.advance span, s)
      | "elapsed_since" =>
        let m ← need step "millis" word
        pure (.ok (.nat (c.elapsedSince m)), c, s)
      | "debug" => pure (.ok (.str s!"Clock::Manual({c.now})"), c, s)
      | other => throw s!"unknown step {other}"
  let answer := match r with
    | .ok v => .obj [("result", v), ("now", .nat c.now), ("kvs", kvsValue s)]
    | .error e => stepFailure (errorValue "Error" e) [("kvs", kvsValue s)]
  pure (answer, c, s)

/-- Answers `etcd_locker`. -/
def answerEtcdLocker (req : Value) : Decode Value := do
  let start ← withDefault req "start" word 0
  match ← etcdRootInput req with
  | .error v => pure v
  | .ok root => runEtcdSteps req (Clock.mk start, ({} : Etcd.KeySpace)) (etcdLeaseStep root)

end GlobalTxn.Protocol
