import GlobalTxn.Coordinator.Env

/-! # Driving phase two

Once a session is persisted in a status that decides its direction, the coordinator sends
phase-two requests to its branches: commits in registration order, rollbacks in reverse.
A branch that needs no phase two, or whose participant is done, is removed with its row
locks.  The first branch that is not done stops the drive: its reported status is kept, the
session moves to the retrying or failed status of the direction, and later drives resume
from that branch.  A participant that stays silent is waited for until the branch timeout has
passed, a pause of the drive, and then counts as not done.  When every branch is done the
session reaches its outcome and is removed with its locks.

Every operation re-reads its session from the store, changes a private copy, and writes it
back before it reports success; the store is the only place session state lives.
-/

namespace GlobalTxn

/-- The direction of phase two. -/
inductive Direction where
  | commit
  | rollback
  deriving DecidableEq, Repr

namespace Direction

/-- The request sent to participants. -/
def action : Direction → Action
  | commit => .commit
  | rollback => .rollback

/-- The branch status a participant reports on success. -/
def doneStatus : Direction → BranchStatus
  | commit => .phaseTwoCommitted
  | rollback => .phaseTwoRollbacked

/-- How a participant's answer is treated. -/
def outcome : Direction → Branch → BranchStatus → PhaseTwoOutcome
  | commit, b, s => b.branchType.commitOutcome s
  | rollback, b, s => b.branchType.rollbackOutcome s

/-- The order branches are driven in. -/
def order : Direction → List Nat → List Nat
  | commit, ids => ids
  | rollback, ids => ids.reverse

/-- The status of a session whose drive stopped at a branch worth retrying. -/
def retrying : Direction → GlobalStatus → GlobalStatus
  | commit, .asyncCommitting => .asyncCommitting
  | commit, _ => .commitRetrying
  | rollback, s => if s.isTimeoutRollback then .timeoutRollbackRetrying else .rollbackRetrying

/-- The status of a session whose drive stopped at a branch that cannot succeed. -/
def failed : Direction → GlobalStatus
  | commit => .commitFailed
  | rollback => .rollbackFailed

/-- The outcome of a session all of whose branches are done. -/
def completed : Direction → GlobalStatus → GlobalStatus
  | commit, _ => .committed
  | rollback, s => if s.isTimeoutRollback then .timeoutRollbacked else .rollbacked

end Direction

namespace CoordM

/-- The stored session `xid`; it must exist. -/
def load (xid : String) : CoordM GlobalSession := do
  match ← store (sessionStore.find? xid) with
  | some s => pure s
  | none => throw (.globalNotFound xid)

/-- Moves a session to `target` and persists it; the session is taken back as stored, so
branches registered meanwhile are adopted. -/
def transitAndPersist (s : GlobalSession) (target : GlobalStatus) : CoordM GlobalSession := do
  let s ← transit s target
  store (sessionStore.update s)

/-- Removes a branch from a session and from the store, releasing its row locks first if
`unlock`. -/
def removeBranch (s : GlobalSession) (b : Branch) (unlock : Bool) : CoordM GlobalSession := do
  if unlock then locking (LockManager.releaseBranch lockStore b)
  store (sessionStore.removeBranch s.xid b.branchId)
  pure (s.removeBranch b.branchId)

/-- Releases the row locks of a session and removes it. -/
def endSession (s : GlobalSession) : CoordM Unit := do
  locking (LockManager.releaseSession lockStore s)
  store (sessionStore.remove s.xid)

/-- Records where a drive stopped: the branch's reported status, if it changed, and the
session's new status. -/
def suspend (s : GlobalSession) (b : Branch) (reported : Option BranchStatus)
    (status : GlobalStatus) : CoordM GlobalStatus := do
  match reported with
  | some r => if r != b.status then store (sessionStore.updateBranch { b with status := r })
  | none => pure ()
  let s ← transit s status
  let _ ← store (sessionStore.update s)
  pure status

/-- Drives phase two of a session persisted in a status of direction `dir`, under settings
`c`: a participant that stays silent is waited for until the branch timeout has passed. -/
def drive (c : Config) (dir : Direction) (s : GlobalSession) : CoordM GlobalStatus :=
  go s (dir.order s.branchIds)
where
  /-- Drives the branches with the given ids in turn. -/
  go (s : GlobalSession) : List Nat → CoordM GlobalStatus
    | [] => do
      let status := dir.completed s.status
      let s ← transit s status
      let _ ← store (sessionStore.update s)
      endSession s
      pure status
    | id :: rest => do
      match s.findBranch? id with
      | none => go s rest
      | some b =>
        if b.branchType.skipsPhaseTwo b.status then
          let s ← removeBranch s b true
          go s rest
        else
          match ← requestPhaseTwo dir.action b dir.doneStatus with
          | .answered r =>
            match dir.outcome b r with
            | .done =>
              let s ← removeBranch s b true
              go s rest
            | .retryable => suspend s b (some r) (dir.retrying s.status)
            | .unretryable => suspend s b (some r) dir.failed
          | .failed _ => suspend s b none (dir.retrying s.status)
          | .silent =>
            sleep c.branchTimeout
            suspend s b none (dir.retrying s.status)

end CoordM

end GlobalTxn
