import GlobalTxn.Coordinator.Drive
import GlobalTxn.Coordinator.ScanKind

/-! # What each scan does to one session

Scans move sessions forward without their transaction managers.  Each session scan first
lists its candidates (sessions in some statuses, oldest first, that pass a test) and then
handles each candidate on its own: it reloads the session, gives up if the session is no
longer a candidate, and otherwise drives it.  A handler answers whether it handled the
session; the scan counts the handled ones.

* The timeout check rolls back `Begin` sessions past their deadline: as a timeout rollback
  once they are overdue by the grace span, as a plain one before.
* Retrying commits drives `CommitRetrying` sessions, and `Committing` ones nobody has touched
  for the dead-session threshold; a `Committed` session without branches is removed.  When the
  commit retry span since the session began is used up, the session stops in
  `CommitRetryTimeout`.
* Asynchronous committing unlocks and drives `AsyncCommitting` sessions.
* Retrying rollbacks does the same for the rollback statuses.  When the rollback retry span
  is used up, the session stops (unlocked) in a retry-timeout status only if the settings
  say so; otherwise it keeps being driven with its rows locked.
* Undo log deletion asks participants to purge old undo logs once, and counts one.

A handler latches the xid of its session while it runs (`underLatch`), so that two handlers of
one node never work on one session at once: the second passes it over.
-/

namespace GlobalTxn

namespace Config

/-- Whether nobody has driven a session for so long that its driver is presumably gone. -/
def isOrphaned (c : Config) (now : Nat) (s : GlobalSession) : Bool :=
  decide (c.deadSessionThreshold ≤ now - s.gmtUpdated)

/-- Whether a retry span, if set, has passed since the session began. -/
def isExhausted (span : Option Nat) (now : Nat) (s : GlobalSession) : Bool :=
  span.any fun max => decide (max ≤ now - s.beginTime)

/-- Sessions the commit retry scan drives. -/
def isRetryCommitting (c : Config) (now : Nat) (s : GlobalSession) : Bool :=
  match s.status with
  | .commitRetrying => true
  | .committing => c.isOrphaned now s
  | .committed => !s.hasBranch
  | _ => false

/-- Sessions the rollback retry scan drives. -/
def isRetryRollbacking (c : Config) (now : Nat) (s : GlobalSession) : Bool :=
  match s.status with
  | .rollbackRetrying | .timeoutRollbackRetrying => true
  | .rollbacking | .timeoutRollbacking => c.isOrphaned now s
  | .rollbacked | .timeoutRollbacked => !s.hasBranch
  | _ => false

end Config

namespace ScanKind

/-- The statuses a session scan lists its candidates from. -/
def statuses : ScanKind → List GlobalStatus
  | timeoutCheck => [.begin]
  | retryCommitting => [.commitRetrying, .committing, .committed]
  | asyncCommitting => [.asyncCommitting]
  | retryRollbacking =>
    [.rollbackRetrying, .timeoutRollbackRetrying, .timeoutRollbacking, .rollbacking, .rollbacked,
      .timeoutRollbacked]
  | undoLogDelete => []

/-- Whether a session is a candidate of a scan at clock reading `now`. -/
def isCandidate (c : Config) (now : Nat) : ScanKind → GlobalSession → Bool
  | timeoutCheck, s => s.status == .begin && s.isTimedOut now
  | retryCommitting, s => c.isRetryCommitting now s
  | asyncCommitting, s => s.status == .asyncCommitting
  | retryRollbacking, s => c.isRetryRollbacking now s
  | undoLogDelete, _ => false

end ScanKind

namespace CoordM

/-- The xids of the candidates of a scan, oldest first. -/
def candidates (c : Config) (kind : ScanKind) : CoordM (List String) := do
  let now ← now
  let sessions ← store (sessionStore.findBy kind.statuses)
  pure ((sessions.filter (kind.isCandidate c now)).map (·.xid))

/-- The session `xid` if it is still a candidate. -/
def reload (c : Config) (kind : ScanKind) (xid : String) : CoordM (Option GlobalSession) := do
  let now ← now
  pure ((← store (sessionStore.find? xid)).filter (kind.isCandidate c now))

/-- Drives a session and counts it as handled. -/
def driveHandled (c : Config) (dir : Direction) (s : GlobalSession) : CoordM Bool := do
  let _ ← drive c dir s
  pure true

/-- Rolls back a timed-out session. -/
def rollbackTimedOut (c : Config) (xid : String) : CoordM Bool := do
  let now ← now
  let some s ← reload c .timeoutCheck xid | pure false
  let status :=
    if c.timeoutRollbackGrace ≤ now - s.deadline then .timeoutRollbacking else .rollbacking
  let s ← transitAndPersist s status
  driveHandled c .rollback s

/-- Drives a commit again, or stops it once its retry span is used up. -/
def retryCommit (c : Config) (xid : String) : CoordM Bool := do
  let some s ← reload c .retryCommitting xid | pure false
  if s.status == .committed then
    endSession s
    return true
  if Config.isExhausted c.maxCommitRetryTimeout (← now) s then
    let s ← if s.status == .committing then transit s .commitRetrying else pure s
    let _ ← transitAndPersist s .commitRetryTimeout
    return true
  driveHandled c .commit s

/-- Unlocks and drives a session committed asynchronously. -/
def commitAsync (c : Config) (xid : String) : CoordM Bool := do
  let some s ← reload c .asyncCommitting xid | pure false
  locking (LockManager.releaseSession lockStore s)
  driveHandled c .commit s

/-- Drives a rollback again, or, if the settings say so, stops it unlocked once its retry
span is used up. -/
def retryRollback (c : Config) (xid : String) : CoordM Bool := do
  let some s ← reload c .retryRollbacking xid | pure false
  if s.status == .rollbacked || s.status == .timeoutRollbacked then
    endSession s
    return true
  if Config.isExhausted c.maxRollbackRetryTimeout (← now) s && c.rollbackRetryTimeoutUnlock then
    let status := if s.status.isTimeoutRollback then .timeoutRollbackRetryTimeout
      else .rollbackRetryTimeout
    let s ← if s.status == .rollbacking then transit s .rollbackRetrying else pure s
    locking (LockManager.releaseSession lockStore s)
    let _ ← transitAndPersist s status
    return true
  driveHandled c .rollback s

/-- The handler of a session scan. -/
def handler (c : Config) : ScanKind → String → CoordM Bool
  | .timeoutCheck => rollbackTimedOut c
  | .retryCommitting => retryCommit c
  | .asyncCommitting => commitAsync c
  | .retryRollbacking => retryRollback c
  | .undoLogDelete => fun _ => pure false

/-- Runs a handler holding the latch of its session from its start to its end, waits
included; a session whose latch is held already is passed over. -/
def underLatch (xid : String) (m : CoordM Bool) : CoordM Bool := do
  unless (← tryLatch xid) do return false
  holding xid m

end CoordM

end GlobalTxn
