import GlobalTxn.Coordinator.Drive

/-! # The coordinator's operations for transaction managers and participants

A transaction manager begins a global transaction and later commits or rolls it back;
participants register branches and report their phase-one outcome.  Commit and rollback are
idempotent: asked again, they answer the status the session is in without driving it again,
and an unknown xid counts as finished.

`recover` puts the row locks of every stored session that holds them back into the lock
service, as after a restart over the same session store.
-/

namespace GlobalTxn

namespace CoordM

/-- Starts a global transaction and returns its xid.  The id is drawn before the session is
stored, so a failed store still uses it up. -/
def begin (c : Config) (applicationId group name : String) (timeout : Duration) :
    CoordM String := do
  if timeout.nanos == 0 then
    throw (.invalidArgument "global transaction timeout must be positive")
  let id ← nextId
  let xid := formatXid c.address id
  let s := GlobalSession.new xid id applicationId group name timeout (← now)
  storeWith .beginFailed (sessionStore.add s)
  pure xid

/-- Enlists a branch into the transaction `xid` and returns its id.  A session that is
already committing or rolling back accepts only a registration it has seen, and answers its
id again.  A branch holding row locks locks all rows of its key or none. -/
def register (t : BranchType) (resourceId clientId xid applicationData lockKey : String) :
    CoordM Nat := do
  let s ← load xid
  match s.status with
  | .begin => pure ()
  | .committing | .rollbacking =>
    match s.branches.find? (·.isSameRegistration t resourceId clientId lockKey) with
    | some b => return b.branchId
    | none => throw (.invalidStatus xid s.status .branchRegister)
  | status => throw (.invalidStatus xid status .branchRegister)
  let id ← nextId
  let b : Branch := ⟨s.xid, s.transactionId, id, s.transactionServiceGroup, resourceId, clientId,
    t, .registered, lockKey, applicationData, ← now⟩
  unless ← locking (LockManager.acquireBranch lockStore b) do
    throw (.lockConflict xid lockKey)
  match ← storeResult (sessionStore.addBranch b) with
  | .ok () => pure id
  | .error e =>
    let _ ← lockingResult (LockManager.releaseBranch lockStore b)
    match e with
    | .sessionNotActive _ status => throw (.invalidStatus xid status .branchRegister)
    | e => throw (.store e)

/-- Records a status a participant reports for its branch, with new application data if
given. -/
def report (xid : String) (branchId : Nat) (status : BranchStatus)
    (applicationData : Option String) : CoordM Unit := do
  let s ← load xid
  let some b := s.findBranch? branchId | throw (.branchNotFound xid branchId)
  unless b.branchType.acceptsReport status do
    throw (.invalidArgument s!"{b.branchType} branch {branchId} can not report status {status}")
  let b := { b with status, applicationData := applicationData.getD b.applicationData }
  store (sessionStore.updateBranch b)

/-- Commits the transaction `xid`.  With asynchronous commit on, a session whose branches
all commit asynchronously is answered committed at once and its rows are unlocked; its
branches are committed by a later scan. -/
def commit (c : Config) (xid : String) : CoordM GlobalStatus := do
  let some s ← store (sessionStore.find? xid) | pure .finished
  match s.status with
  | .begin =>
    if c.asyncCommit && s.hasBranch && s.canBeCommittedAsync then
      let s ← transitAndPersist s .asyncCommitting
      let _ ← lockingResult (LockManager.releaseSession lockStore s)
      pure .committed
    else
      let s ← transitAndPersist s .committing
      drive c .commit s
  | .asyncCommitting => pure .committed
  | status =>
    if status.isCommitBound || status.isCommitOutcome then pure status
    else throw (.invalidStatus xid status .commit)

/-- Rolls back the transaction `xid`. -/
def rollback (c : Config) (xid : String) : CoordM GlobalStatus := do
  let some s ← store (sessionStore.find? xid) | pure .finished
  match s.status with
  | .begin =>
    let s ← transitAndPersist s .rollbacking
    drive c .rollback s
  | status =>
    if status.isRollbackBound || status.isRollbackOutcome then pure status
    else throw (.invalidStatus xid status .rollback)

/-- The status of the transaction `xid`; an unknown one is finished. -/
def status (xid : String) : CoordM GlobalStatus := do
  pure ((← store (sessionStore.find? xid)).map (·.status) |>.getD .finished)

/-- Takes the outcome reported by participants of a transaction that drives itself.  A final
outcome ends the session; an intermediate one is recorded as it is, outside the state
machine. -/
def globalReport (xid : String) (status : GlobalStatus) : CoordM GlobalStatus := do
  let some s ← store (sessionStore.find? xid) | pure .finished
  unless s.reportsGlobalOutcome do
    throw (.invalidStatus xid s.status .globalReport)
  match status with
  | .committed | .rollbacked | .timeoutRollbacked =>
    locking (LockManager.releaseSession lockStore s)
    store (sessionStore.remove xid)
  | .committing | .commitRetrying | .commitFailed | .rollbacking | .rollbackRetrying
  | .rollbackFailed =>
    let _ ← store (sessionStore.update { s with status, gmtUpdated := ← now })
  | _ => throw (.invalidArgument s!"can not report global status {status}")
  pure status

/-- Whether the rows of `lockKey` are free or already held by `xid`. -/
def lockQuery (t : BranchType) (resourceId xid lockKey : String) : CoordM Bool := do
  unless t.holdsRowLocks do
    throw (.invalidArgument s!"{t} branches hold no row locks")
  locking (LockManager.isLockable lockStore xid resourceId lockKey)

/-- Counts of a recovery: sessions, branches, and branches whose rows others hold. -/
structure Recovery where
  sessions : Nat := 0
  branches : Nat := 0
  lockConflicts : Nat := 0
  deriving DecidableEq, Repr

/-- Locks again the rows of every stored session that holds row locks. -/
def recover : CoordM Recovery := do
  let sessions ← store (sessionStore.findBy GlobalStatus.all)
  sessions.foldlM (fun r s => do
    let r := { r with sessions := r.sessions + 1, branches := r.branches + s.branches.length }
    if !s.status.holdsRowLocks then return r
    s.branches.foldlM (fun r b => do
      if ← locking (LockManager.acquireBranch lockStore b) then pure r
      else pure { r with lockConflicts := r.lockConflicts + 1 }) r) {}

end CoordM

end GlobalTxn
