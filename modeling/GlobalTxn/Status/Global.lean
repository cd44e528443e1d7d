/-! # Status of a global transaction

A global transaction moves through a fixed state machine.  Every status has a stable integer
`code` under which it is persisted, and a `name` under which it is shown.  This module holds
the statuses, the named groups of statuses that scans and operator commands select by, the
predicates the coordinator branches on, and `canTransitTo`, the table of permitted edges.

Main statements:

* `ofCode?_code`: reading the code of a status gives the status back;
* `code_injective`: two statuses never share a code;
* `canTransitTo_deleting`: every status but `unknown` may move to `deleting`.
-/

namespace GlobalTxn

/-- Status of a global transaction, in the order of their persisted codes 0 to 20. -/
inductive GlobalStatus where
  | unknown
  | begin
  | committing
  | commitRetrying
  | rollbacking
  | rollbackRetrying
  | timeoutRollbacking
  | timeoutRollbackRetrying
  | asyncCommitting
  | committed
  | commitFailed
  | rollbacked
  | rollbackFailed
  | timeoutRollbacked
  | timeoutRollbackRetryTimeout
  | finished
  | commitRetryTimeout
  | rollbackRetryTimeout
  | deleting
  | stopCommitOrCommitRetry
  | stopRollbackOrRollbackRetry
  deriving DecidableEq, Repr, Inhabited

namespace GlobalStatus

/-- Every status, in code order. -/
def all : List GlobalStatus :=
  [unknown, begin, committing, commitRetrying, rollbacking, rollbackRetrying,
    timeoutRollbacking, timeoutRollbackRetrying, asyncCommitting, committed, commitFailed,
    rollbacked, rollbackFailed, timeoutRollbacked, timeoutRollbackRetryTimeout, finished,
    commitRetryTimeout, rollbackRetryTimeout, deleting, stopCommitOrCommitRetry,
    stopRollbackOrRollbackRetry]

/-- The persisted code of a status. -/
def code : GlobalStatus → Int
  | unknown => 0
  | begin => 1
  | committing => 2
  | commitRetrying => 3
  | rollbacking => 4
  | rollbackRetrying => 5
  | timeoutRollbacking => 6
  | timeoutRollbackRetrying => 7
  | asyncCommitting => 8
  | committed => 9
  | commitFailed => 10
  | rollbacked => 11
  | rollbackFailed => 12
  | timeoutRollbacked => 13
  | timeoutRollbackRetryTimeout => 14
  | finished => 15
  | commitRetryTimeout => 16
  | rollbackRetryTimeout => 17
  | deleting => 18
  | stopCommitOrCommitRetry => 19
  | stopRollbackOrRollbackRetry => 20

/-- The status persisted under `c`, if any. -/
def ofCode? (c : Int) : Option GlobalStatus :=
  all.find? (·.code == c)

/-- The name a status is shown by. -/
def name : GlobalStatus → String
  | unknown => "Unknown"
  | begin => "Begin"
  | committing => "Committing"
  | commitRetrying => "CommitRetrying"
  | rollbacking => "Rollbacking"
  | rollbackRetrying => "RollbackRetrying"
  | timeoutRollbacking => "TimeoutRollbacking"
  | timeoutRollbackRetrying => "TimeoutRollbackRetrying"
  | asyncCommitting => "AsyncCommitting"
  | committed => "Committed"
  | commitFailed => "CommitFailed"
  | rollbacked => "Rollbacked"
  | rollbackFailed => "RollbackFailed"
  | timeoutRollbacked => "TimeoutRollbacked"
  | timeoutRollbackRetryTimeout => "TimeoutRollbackRetryTimeout"
  | finished => "Finished"
  | commitRetryTimeout => "CommitRetryTimeout"
  | rollbackRetryTimeout => "RollbackRetryTimeout"
  | deleting => "Deleting"
  | stopCommitOrCommitRetry => "StopCommitOrCommitRetry"
  | stopRollbackOrRollbackRetry => "StopRollbackOrRollbackRetry"

instance : ToString GlobalStatus := ⟨name⟩

/-! ## Named groups of statuses -/

/-- Sessions whose commit is retried by the commit retry scan. -/
def retryCommit : List GlobalStatus := [commitRetrying]

/-- Sessions whose rollback is retried by the rollback retry scan. -/
def retryRollback : List GlobalStatus :=
  [rollbackRetrying, timeoutRollbackRetrying, timeoutRollbacking]

/-- Sessions on their way to commit. -/
def committingGroup : List GlobalStatus := [commitRetrying, committing]

/-- Sessions on their way to rollback. -/
def rollbackingGroup : List GlobalStatus :=
  [rollbackRetrying, timeoutRollbackRetrying, timeoutRollbacking, rollbacking]

/-- Sessions whose commit failed for good or ran out of retries. -/
def failedCommit : List GlobalStatus := [commitFailed, commitRetryTimeout]

/-- Sessions whose rollback failed for good or ran out of retries. -/
def failedRollback : List GlobalStatus :=
  [timeoutRollbacked, rollbackFailed, rollbackRetryTimeout, timeoutRollbackRetryTimeout]

/-- Sessions that reached an outcome. -/
def finishedGroup : List GlobalStatus := [committed, finished, rollbacked]

/-- Sessions an operator paused. -/
def stopped : List GlobalStatus := [stopCommitOrCommitRetry, stopRollbackOrRollbackRetry]

/-- The groups with the names they are listed under, in a fixed order. -/
def groups : List (String × List GlobalStatus) :=
  [("RETRY_COMMIT", retryCommit), ("RETRY_ROLLBACK", retryRollback),
    ("COMMIT_ING", committingGroup), ("ROLLBACK_ING", rollbackingGroup),
    ("FAIL_COMMIT", failedCommit), ("FAIL_ROLLBACK", failedRollback),
    ("FINISH", finishedGroup), ("STOP", stopped)]

/-! ## Predicates -/

/-- Statuses a commit drive may start from. -/
def isCommitBound : GlobalStatus → Bool
  | committing | commitRetrying | asyncCommitting | stopCommitOrCommitRetry => true
  | _ => false

/-- Statuses a rollback drive may start from. -/
def isRollbackBound : GlobalStatus → Bool
  | rollbacking | rollbackRetrying | timeoutRollbacking | timeoutRollbackRetrying
  | stopRollbackOrRollbackRetry => true
  | _ => false

/-- Rollbacks started because the transaction timed out. -/
def isTimeoutRollback : GlobalStatus → Bool
  | timeoutRollbacking | timeoutRollbackRetrying => true
  | _ => false

/-- Outcomes of a commit decision, as the transaction manager sees them. -/
def isCommitOutcome : GlobalStatus → Bool
  | committed | commitFailed | commitRetryTimeout => true
  | _ => false

/-- Outcomes of a rollback decision, as the transaction manager sees them. -/
def isRollbackOutcome : GlobalStatus → Bool
  | rollbacked | rollbackFailed | timeoutRollbacked | rollbackRetryTimeout
  | timeoutRollbackRetryTimeout => true
  | _ => false

/-- Whether sessions in this status keep the row locks of their branches. -/
def holdsRowLocks : GlobalStatus → Bool
  | unknown | asyncCommitting | committed | rollbacked | timeoutRollbacked | finished
  | rollbackRetryTimeout | timeoutRollbackRetryTimeout => false
  | _ => true

/-- Statuses a driver may enter again while it retries. -/
def reentersWhileRetrying : GlobalStatus → Bool
  | commitRetrying | asyncCommitting | rollbackRetrying | timeoutRollbackRetrying
  | timeoutRollbacking => true
  | _ => false

/-- Permitted edges to a status other than `deleting` and other than the status itself. -/
def stepsTo : GlobalStatus → GlobalStatus → Bool
  | begin, target =>
    [committing, asyncCommitting, rollbacking, timeoutRollbacking].contains target
  | committing, target =>
    [committed, commitFailed, commitRetrying, stopCommitOrCommitRetry].contains target
  | commitRetrying, target =>
    [committed, commitFailed, commitRetryTimeout, stopCommitOrCommitRetry].contains target
  | asyncCommitting, target => [committed, commitFailed, commitRetryTimeout].contains target
  | rollbacking, target =>
    [rollbacked, rollbackFailed, rollbackRetrying, timeoutRollbacking,
      stopRollbackOrRollbackRetry].contains target
  | rollbackRetrying, target => rollbackRetryEdge target
  | timeoutRollbacking, target => rollbackRetryEdge target
  | timeoutRollbackRetrying, target => rollbackRetryEdge target
  | stopCommitOrCommitRetry, target =>
    [commitRetrying, committed, commitFailed].contains target
  | stopRollbackOrRollbackRetry, target =>
    [rollbackRetrying, rollbacked, rollbackFailed].contains target
  | commitFailed, target => target == commitRetrying
  | commitRetryTimeout, target => target == commitRetrying
  | rollbackFailed, target => target == rollbackRetrying
  | rollbackRetryTimeout, target => target == rollbackRetrying
  | timeoutRollbackRetryTimeout, target => target == rollbackRetrying
  | timeoutRollbacked, target => target == rollbackRetrying
  | committed, target => target == finished
  | rollbacked, target => target == finished
  | unknown, _ => false
  | finished, _ => false
  | deleting, _ => false
where
  /-- Where a rollback that is retrying may go. -/
  rollbackRetryEdge (target : GlobalStatus) : Bool :=
    [rollbacked, timeoutRollbacked, rollbackFailed, rollbackRetrying, timeoutRollbackRetrying,
      rollbackRetryTimeout, timeoutRollbackRetryTimeout,
      stopRollbackOrRollbackRetry].contains target

/-- Permitted edges of the state machine.  Any known status may move to `deleting`; a status
may be entered again only while retrying; all other edges are those of `stepsTo`. -/
def canTransitTo (s target : GlobalStatus) : Bool :=
  if target = deleting then s != unknown
  else if s = target then s.reentersWhileRetrying
  else s.stepsTo target

/-- The statuses `s` may move to, in code order. -/
def targets (s : GlobalStatus) : List GlobalStatus :=
  all.filter s.canTransitTo

/-! ## Lemmas -/

theorem ofCode?_code (s : GlobalStatus) : ofCode? s.code = some s := by
  cases s <;> rfl

theorem code_injective {s t : GlobalStatus} (h : s.code = t.code) : s = t := by
  have := congrArg ofCode? h
  rwa [ofCode?_code, ofCode?_code, Option.some.injEq] at this

theorem mem_all (s : GlobalStatus) : s ∈ all := by
  cases s <;> simp [all]

theorem canTransitTo_deleting (s : GlobalStatus) :
    s.canTransitTo deleting = (s != unknown) := by
  simp [canTransitTo]

end GlobalStatus

end GlobalTxn
