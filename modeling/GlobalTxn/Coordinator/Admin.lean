import GlobalTxn.Coordinator.Drive

/-! # Operations for operators

Each operation is valid only for sessions in some statuses and fails with
`CoordError.invalidStatus` otherwise.  Operators delete sessions and branches (with or
without asking the participants), pause and resume retrying, drive a session at once, and
send a failed session back to retrying.
-/

namespace GlobalTxn

namespace GlobalStatus

/-- Statuses in which an operator may delete a session: failed, retrying, finished,
stopped, or already being deleted. -/
def isDeletable (s : GlobalStatus) : Bool :=
  s ∈ failedCommit || s ∈ failedRollback || s ∈ retryCommit || s ∈ retryRollback ||
    s ∈ finishedGroup || s ∈ stopped || s == .deleting

/-- Statuses in which an operator may delete one branch: those of `isDeletable` but the
finished ones. -/
def isBranchDeletable (s : GlobalStatus) : Bool :=
  s ∈ failedCommit || s ∈ failedRollback || s ∈ retryCommit || s ∈ retryRollback ||
    s ∈ stopped || s == .deleting

end GlobalStatus

namespace CoordM

/-- Deletes a branch's data at its participant and unlocks its rows; answers whether the
branch may now be removed.  A branch that failed phase one has nothing to delete remotely.
A participant that fails, or stays silent until the branch timeout has passed, or rows that
cannot be unlocked, answer `false`. -/
def deleteAtParticipant (c : Config) (b : Branch) : CoordM Bool := do
  if b.status != .phaseOneFailed then
    match ← requestDelete b with
    | .answered true => pure ()
    | .silent =>
      sleep c.branchTimeout
      return false
    | _ => return false
  match ← lockingResult (LockManager.releaseBranch lockStore b) with
  | .ok () => pure true
  | .error _ => pure false

/-- Deletes the session `xid` with its branches, asking each participant first. -/
def deleteGlobal (c : Config) (xid : String) : CoordM Unit := do
  let s ← load xid
  unless s.status.isDeletable do
    throw (.invalidStatus xid s.status .deleteGlobalSession)
  let s ← if s.status == .deleting then pure s else transitAndPersist s .deleting
  let s ← s.branches.foldlM (fun s b => do
    unless ← deleteAtParticipant c b do
      throw (.branchDeleteFailed xid b.branchId)
    removeBranch s b false) s
  endSession s

/-- Drops the session `xid` and its row locks, whatever its status and its participants. -/
def forceDeleteGlobal (xid : String) : CoordM Unit := do
  let s ← load xid
  let s ← if s.status == .deleting then pure s else transitAndPersist s .deleting
  endSession s

/-- Pauses retrying of the session `xid`. -/
def stopRetry (xid : String) : CoordM GlobalStatus := do
  let s ← load xid
  let target ← match s.status with
    | .committing | .commitRetrying => pure .stopCommitOrCommitRetry
    | status =>
      if status == .rollbacking || status ∈ GlobalStatus.retryRollback then
        pure .stopRollbackOrRollbackRetry
      else throw (.invalidStatus xid status .stopGlobalRetry)
  let _ ← transitAndPersist s target
  pure target

/-- Resumes retrying of the paused session `xid`. -/
def startRetry (xid : String) : CoordM GlobalStatus := do
  let s ← load xid
  let target ← match s.status with
    | .stopCommitOrCommitRetry => pure .commitRetrying
    | .stopRollbackOrRollbackRetry => pure .rollbackRetrying
    | status => throw (.invalidStatus xid status .startGlobalRetry)
  let _ ← transitAndPersist s target
  pure target

/-- Drives the session `xid` in its decided direction at once; a paused session is resumed
first.  Answers whether the drive completed. -/
def send (c : Config) (xid : String) : CoordM Bool := do
  let s ← load xid
  let status := s.status
  if status == .committing || status ∈ GlobalStatus.retryCommit then
    return (← drive c .commit s) == .committed
  if status == .stopCommitOrCommitRetry then
    let s ← transitAndPersist s .commitRetrying
    return (← drive c .commit s) == .committed
  if status == .rollbacking || status ∈ GlobalStatus.retryRollback then
    return rolledBack (← drive c .rollback s)
  if status == .stopRollbackOrRollbackRetry then
    let s ← transitAndPersist s .rollbackRetrying
    return rolledBack (← drive c .rollback s)
  throw (.invalidStatus xid status .sendCommitOrRollback)
where
  /-- Whether a rollback reached its outcome. -/
  rolledBack (s : GlobalStatus) : Bool := s == .rollbacked || s == .timeoutRollbacked

/-- Sends the failed session `xid` back to retrying. -/
def changeStatus (xid : String) : CoordM GlobalStatus := do
  let s ← load xid
  let target ←
    if s.status ∈ GlobalStatus.failedCommit then pure .commitRetrying
    else if s.status ∈ GlobalStatus.failedRollback then pure .rollbackRetrying
    else throw (.invalidStatus xid s.status .changeGlobalStatus)
  let _ ← transitAndPersist s target
  pure target

/-- Deletes one branch of the session `xid`, asking its participant first. -/
def deleteBranch (c : Config) (xid : String) (branchId : Nat) : CoordM Unit := do
  let s ← load xid
  unless s.status.isBranchDeletable do
    throw (.invalidStatus xid s.status .deleteBranch)
  let some b := s.findBranch? branchId | throw (.branchNotFound xid branchId)
  unless ← deleteAtParticipant c b do
    throw (.branchDeleteFailed xid branchId)
  let _ ← removeBranch s b false

/-- Drops one branch and its row locks without asking its participant. -/
def forceDeleteBranch (xid : String) (branchId : Nat) : CoordM Unit := do
  let s ← load xid
  let some b := s.findBranch? branchId | throw (.branchNotFound xid branchId)
  let _ ← removeBranch s b true

end CoordM

end GlobalTxn
