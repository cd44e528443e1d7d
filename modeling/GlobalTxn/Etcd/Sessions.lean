import GlobalTxn.Etcd.Client
import GlobalTxn.Record.Session

/-! # Sessions kept in etcd

Each global session is one key `{root}/sessions/{xid}`, whose value is the session's record.

* Adding a session is a transaction that writes only if the key does not exist yet.
* Every other change reads the record, changes the session, and writes the record back in a
  transaction that holds only if the key has not changed since it was read.  If another writer
  came in between, the change starts over; after `maxAttempts` tries it gives up.
* Removing a session is a plain delete.

A record that cannot be read back is a corrupted session.  Listing sessions skips such
records, and gives the others in key order, stably sorted by begin time, so sessions that began
at the same time come in xid order.

A failed request is an internal store failure with the text of the failure.
-/

namespace GlobalTxn.Etcd

/-- Conversations of the session store; they fail with a store error. -/
abbrev SessionsM := ExceptT StoreError Client

namespace Sessions

/-- How often a change is tried before giving up. -/
def maxAttempts : Nat := 8

/-- The directory of the sessions under `root`. -/
def dir (root : String) : String := root ++ "/sessions/"

/-- The key of session `xid` under `root`. -/
def key (root xid : String) : String := dir root ++ xid

/-- Sends a request of the session store. -/
def request {β : Type} (req : Request β) : SessionsM β :=
  Client.ask (fun e => StoreError.internal e.text) req

variable (codec : Wire.Codec SessionRecord)

/-- The session of a stored key. -/
def decode (kv : KeyValue) : Except StoreError GlobalSession :=
  SessionRecord.readSession codec ("session " ++ kv.keyText) kv.value

/-- The bytes a session is stored as. -/
def encode (s : GlobalSession) : List UInt8 := codec.encode (SessionRecord.ofSession s)

/-- The session stored for `xid`, with the revision of its last change. -/
def read (root xid : String) : SessionsM (Option (Nat × GlobalSession)) := do
  match (← request (.range (.one (key root xid)))).head? with
  | none => pure none
  | some kv => pure (some (kv.modRevision, ← liftExcept (decode codec kv)))

/-- Changes the stored session `xid` by `f` and answers the changed session.  A missing
session is an error, or nothing happens and the answer is `none` if `missingOk`. -/
def modify (root xid : String) (missingOk : Bool)
    (f : GlobalSession → Except StoreError GlobalSession) : SessionsM (Option GlobalSession) :=
  attempt maxAttempts
where
  /-- One try, with `n` tries left after it. -/
  attempt : Nat → SessionsM (Option GlobalSession)
    | 0 => throw (.internal s!"fail to modify session {xid} after {maxAttempts} attempts")
    | n + 1 => do
      let some (rev, stored) ← read codec root xid
        | if missingOk then pure none else throw (.sessionNotFound xid)
      let s ← liftExcept (f stored)
      let k := key root xid
      if ← request (.txn [⟨k, .modRevision, rev⟩] [.put k (encode codec s) 0]) then
        pure (some s)
      else attempt n

/-- Stores a new session; its xid must be free. -/
def add (root : String) (s : GlobalSession) : SessionsM Unit := do
  let k := key root s.xid
  unless ← request (.txn [⟨k, .createRevision, 0⟩] [.put k (encode codec s) 0]) do
    throw (.sessionAlreadyExists s.xid)

/-- Replaces the global fields of a stored session and keeps its stored branches; answers the
session as stored. -/
def update (root : String) (s : GlobalSession) : SessionsM GlobalSession := do
  match ← modify codec root s.xid false (fun stored => .ok { s with branches := stored.branches })
    with
  | some s => pure s
  | none => throw (.sessionNotFound s.xid)

/-- Removes a session with its branches; removing an absent session does nothing. -/
def remove (root xid : String) : SessionsM Unit := do
  let _ ← request (.delete (key root xid))

/-- Appends a branch to its session, which must still be in `begin`. -/
def addBranch (root : String) (b : Branch) : SessionsM Unit := do
  let _ ← modify codec root b.xid false fun stored =>
    if stored.status = .begin then .ok (stored.addBranch b)
    else .error (.sessionNotActive b.xid stored.status)

/-- Replaces a stored branch, found by its xid and id. -/
def updateBranch (root : String) (b : Branch) : SessionsM Unit := do
  let _ ← modify codec root b.xid false fun stored =>
    match stored.findBranch? b.branchId with
    | some _ => .ok (stored.replaceBranch b)
    | none => .error (.branchNotFound b.xid b.branchId)

/-- Removes a branch from its session; removing an absent branch or from an absent session
does nothing. -/
def removeBranch (root xid : String) (branchId : Nat) : SessionsM Unit := do
  let _ ← modify codec root xid true fun stored => .ok (stored.removeBranch branchId)

/-- The session stored for `xid`. -/
def find? (root xid : String) : SessionsM (Option GlobalSession) := do
  pure ((← read codec root xid).map (·.2))

/-- The readable sessions in any of the given statuses, oldest first, ties in key order. -/
def findBy (root : String) (statuses : List GlobalStatus) : SessionsM (List GlobalSession) := do
  let kvs ← request (.range (.prefixed (dir root)))
  let sessions := kvs.filterMap fun kv => (decode codec kv).toOption
  pure ((sessions.filter fun s => statuses.contains s.status).mergeSort
    fun a b => decide (a.beginTime ≤ b.beginTime))

/-- The sessions under `root` as a session store. -/
def store (root : String) : SessionStore SessionsM where
  add := add codec root
  update := update codec root
  remove := remove root
  addBranch := addBranch codec root
  updateBranch := updateBranch codec root
  removeBranch := removeBranch codec root
  find? := find? codec root
  findBy := findBy codec root

end Sessions

end GlobalTxn.Etcd
