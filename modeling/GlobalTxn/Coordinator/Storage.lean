import GlobalTxn.Coordinator.Config
import GlobalTxn.Coordinator.Participants
import GlobalTxn.Ident.Generator
import GlobalTxn.Lease
import GlobalTxn.Lock.Manager
import GlobalTxn.Etcd.Sessions
import GlobalTxn.Etcd.Locks
import GlobalTxn.Etcd.LeaseLocks

/-! # Where coordinator nodes keep their state

A coordinator node works against a manual clock, a session store, a lock store, lease locks,
its id generator and the branch participants; `Env` bundles them.  Sessions, row locks and
lease locks are each kept either in a table in memory or in an etcd server under a root
directory.  The etcd server, when one is used, is part of the environment too, but no route
leads to it from the node: every request of the node fails as unreachable, and only steps on
the server itself change its keys.

The stores are reached over connections that may fail: `Faults` says how many of the next
session writes (adds, updates and removals of sessions or branches), session reads, lock
acquisitions, releases and queries fail.  A failing acquisition gets as far as locking the
first row and then fails; every other failing call changes nothing.  `Env.sessionStore` and
`Env.lockStore` are the stores as the coordinator sees them, failures included;
`Env.sessionsKept` and `Env.locksKept` reach the data directly.

The environment also carries the clock of the runtime that runs the nodes' tasks (`Timers`),
which only waiting moves; the manual clock of the sessions moves only when a step says so.
-/

namespace GlobalTxn

/-- Where sessions are kept. -/
inductive SessionBacking where
  /-- In a table in memory. -/
  | table (t : SessionTable)
  /-- In etcd, under a root directory. -/
  | etcd (root : String)
  deriving DecidableEq, Repr, Inhabited

/-- Where row locks are kept. -/
inductive LockBacking where
  /-- In a table in memory. -/
  | table (t : LockTable)
  /-- In etcd under a root directory; `asked` are the rows asked for so far, in order. -/
  | etcd (root : String) (asked : List String)
  deriving DecidableEq, Repr, Inhabited

/-- Where lease locks are kept. -/
inductive LeaseBacking where
  /-- In a table in memory. -/
  | table (t : LeaseTable)
  /-- In etcd, under a root directory. -/
  | etcd (root : String)
  deriving DecidableEq, Repr, Inhabited

/-- How many of the next calls of each kind fail. -/
structure Faults where
  sessionWrites : Nat := 0
  sessionReads : Nat := 0
  lockAcquires : Nat := 0
  lockReleases : Nat := 0
  lockQueries : Nat := 0
  deriving DecidableEq, Repr, Inhabited

/-- The clock of the runtime that runs the nodes' tasks, in milliseconds from the start of the
scenario, and how many timers the runtime has set: timers are numbered in the order they are
set, and timers that end at one time fire in that order. -/
structure Timers where
  now : Nat := 0
  count : Nat := 0
  deriving DecidableEq, Repr, Inhabited

/-- Everything one coordinator node works against. -/
structure Env where
  clock : Clock
  server : Etcd.KeySpace := {}
  sessions : SessionBacking := .table {}
  locks : LockBacking := .table {}
  leases : LeaseBacking := .table {}
  faults : Faults := {}
  participants : Participants := {}
  ids : IdGenerator
  /-- The xids that handlers of the node at work hold latched, also while they wait. -/
  latched : List String := []
  timers : Timers := {}
  deriving DecidableEq, Repr, Inhabited

/-- Computations on the environment that may fail with an `ε`. -/
abbrev EnvM (ε : Type) := ExceptT ε (StateM Env)

namespace Env

/-- Runs a conversation with the etcd server.  No route leads there: every request fails as
unreachable, and the server keeps its keys. -/
def talk {ε α : Type} (c : ExceptT ε Etcd.Client α) : EnvM ε α :=
  liftExcept (Etcd.Client.runUnreachable c.run)

/-! ## Sessions -/

/-- Runs a session operation where the sessions are kept. -/
def onSessions {α : Type} (table : SessionTableM α) (etcd : String → Etcd.SessionsM α) :
    EnvM StoreError α := do
  match (← get).sessions with
  | .table t =>
    let (r, t) := (table.run).run t
    modify fun env => { env with sessions := .table t }
    liftExcept r
  | .etcd root => talk (etcd root)

/-- The sessions as they are kept, reached without failures.  In etcd they are kept as
Protobuf records. -/
def sessionsKept : SessionStore (EnvM StoreError) where
  add s := onSessions (SessionTable.store.add s) fun root =>
    (Etcd.Sessions.store SessionRecord.codec root).add s
  update s := onSessions (SessionTable.store.update s) fun root =>
    (Etcd.Sessions.store SessionRecord.codec root).update s
  remove xid := onSessions (SessionTable.store.remove xid) fun root =>
    (Etcd.Sessions.store SessionRecord.codec root).remove xid
  addBranch b := onSessions (SessionTable.store.addBranch b) fun root =>
    (Etcd.Sessions.store SessionRecord.codec root).addBranch b
  updateBranch b := onSessions (SessionTable.store.updateBranch b) fun root =>
    (Etcd.Sessions.store SessionRecord.codec root).updateBranch b
  removeBranch xid id := onSessions (SessionTable.store.removeBranch xid id) fun root =>
    (Etcd.Sessions.store SessionRecord.codec root).removeBranch xid id
  find? xid := onSessions (SessionTable.store.find? xid) fun root =>
    (Etcd.Sessions.store SessionRecord.codec root).find? xid
  findBy ss := onSessions (SessionTable.store.findBy ss) fun root =>
    (Etcd.Sessions.store SessionRecord.codec root).findBy ss

/-- Spends one failing session write, if any is left. -/
def failSessionWrite : EnvM StoreError Unit := do
  let env ← get
  if env.faults.sessionWrites > 0 then
    set { env with faults := { env.faults with sessionWrites := env.faults.sessionWrites - 1 } }
    throw (.internal "injected store write failure")

/-- Spends one failing session read, if any is left. -/
def failSessionRead : EnvM StoreError Unit := do
  let env ← get
  if env.faults.sessionReads > 0 then
    set { env with faults := { env.faults with sessionReads := env.faults.sessionReads - 1 } }
    throw (.internal "injected store read failure")

/-- The session store as the coordinator reaches it, injected failures included. -/
def sessionStore : SessionStore (EnvM StoreError) where
  add s := do failSessionWrite; sessionsKept.add s
  update s := do failSessionWrite; sessionsKept.update s
  remove xid := do failSessionWrite; sessionsKept.remove xid
  addBranch b := do failSessionWrite; sessionsKept.addBranch b
  updateBranch b := do failSessionWrite; sessionsKept.updateBranch b
  removeBranch xid id := do failSessionWrite; sessionsKept.removeBranch xid id
  find? xid := do failSessionRead; sessionsKept.find? xid
  findBy ss := do failSessionRead; sessionsKept.findBy ss

/-! ## Row locks -/

/-- Runs a lock operation where the row locks are kept. -/
def onLocks {α : Type} (table : LockTableM α) (etcd : String → Etcd.LocksM α) :
    EnvM LockError α := do
  match (← get).locks with
  | .table t =>
    let (r, t) := (table.run).run t
    modify fun env => { env with locks := .table t }
    liftExcept r
  | .etcd root _ => talk (etcd root)

/-- Notes rows asked for, where the locks are kept in etcd. -/
def noteAsked (locks : List RowLock) : EnvM LockError Unit :=
  modify fun env => match env.locks with
    | .etcd root asked => { env with locks := .etcd root (asked ++ locks.map (·.rowKey)) }
    | .table _ => env

/-- The row locks as they are kept, reached without failures.  In etcd their holders are kept
as Protobuf records. -/
def locksKept : LockStore (EnvM LockError) where
  acquire locks := onLocks (LockTable.store.acquire locks) fun root =>
    (Etcd.Locks.store LockHolder.codec root).acquire locks
  release locks := onLocks (LockTable.store.release locks) fun root =>
    (Etcd.Locks.store LockHolder.codec root).release locks
  owner? key := onLocks (LockTable.store.owner? key) fun root =>
    (Etcd.Locks.store LockHolder.codec root).owner? key

/-- The lock store as the coordinator reaches it, injected failures included. -/
def lockStore : LockStore (EnvM LockError) where
  acquire locks := do
    noteAsked locks
    let env ← get
    if env.faults.lockAcquires > 0 then
      set { env with faults := { env.faults with lockAcquires := env.faults.lockAcquires - 1 } }
      let _ ← tryCatch (locksKept.acquire (locks.take 1)) fun _ => pure false
      throw (.internal "injected lock acquire failure")
    locksKept.acquire locks
  release locks := do
    let env ← get
    if env.faults.lockReleases > 0 then
      set { env with faults := { env.faults with lockReleases := env.faults.lockReleases - 1 } }
      throw (.internal "injected lock release failure")
    locksKept.release locks
  owner? key := do
    let env ← get
    if env.faults.lockQueries > 0 then
      set { env with faults := { env.faults with lockQueries := env.faults.lockQueries - 1 } }
      throw (.internal "injected lock query failure")
    locksKept.owner? key

/-! ## Lease locks -/

/-- Runs a lease-lock operation where the lease locks are kept; a failure is its text. -/
def onLeases {α : Type} (table : LeaseTable → Nat → α × LeaseTable)
    (etcd : String → Etcd.LeaseLocksM α) : EnvM String α := do
  let env ← get
  match env.leases with
  | .table t =>
    let (a, t) := table t env.clock.now
    set { env with leases := .table t }
    pure a
  | .etcd root => talk (ExceptT.adapt Etcd.RpcError.text (etcd root))

/-- Acquires or extends lease lock `name` for `owner` for `span` milliseconds; `false` if
another owner holds it. -/
def tryAcquireLease (name owner : String) (span : Nat) : EnvM String Bool :=
  onLeases (·.tryAcquire name owner span) fun root =>
    Etcd.LeaseLocks.tryAcquire root name owner span

/-- Releases lease lock `name` if `owner` holds it. -/
def releaseLease (name owner : String) : EnvM String Bool :=
  onLeases (·.release name owner) fun root => Etcd.LeaseLocks.release root name owner

/-! ## Views -/

/-- Every readable stored session, in xid order. -/
def storedSessions : EnvM StoreError (List GlobalSession) := do
  pure ((← sessionsKept.findBy GlobalStatus.all).mergeSort fun a b => decide (a.xid ≤ b.xid))

/-- The held rows with their holders, by row key: every row of a table, or, in etcd, the rows
the store was asked for that it holds and can read. -/
def heldRows : EnvM LockError (List (String × LockHolder)) := do
  match (← get).locks with
  | .table t => pure t.sorted
  | .etcd _ asked =>
    let keys := (asked.mergeSort fun a b => decide (a ≤ b)).eraseDups
    keys.filterMapM fun k =>
      tryCatch (do pure ((← locksKept.owner? k).map (k, ·))) fun _ => pure none

/-- How many sessions a table holds; none are counted in etcd, which no request reaches. -/
def sessionCount (env : Env) : Nat :=
  match env.sessions with
  | .table t => t.sessions.length
  | .etcd _ => 0

/-- How many rows are held: every row of a table, or, in etcd, the keys under the lock
directory as a read of the server finds them, none if the read fails. -/
def lockRowCount (env : Env) : Nat :=
  match env.locks with
  | .table t => t.size
  | .etcd root _ =>
    let read := Etcd.Client.send (.range (.prefixed (root ++ "/locks/")))
    match Etcd.Client.runUnreachable read with
    | .ok kvs => kvs.length
    | .error _ => 0

end Env

end GlobalTxn
