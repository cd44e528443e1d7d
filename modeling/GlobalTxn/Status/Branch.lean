/-! # Status of a branch transaction

A branch is one participant of a global transaction.  It passes through phase one (it is
registered, then reports whether its local work is done) and phase two (the coordinator asks
it to commit or to roll back, and it answers with how that went).  Each status has a stable
integer `code` and a `name`; phase-two names carry an underscore between their parts
(`PhaseTwo_CommitFailed_Retryable`).

Main statements: `ofCode?_code` (codes read back) and `isPhaseTwo_iff` (phase two is exactly
the codes from 5 on).
-/

namespace GlobalTxn

/-- Status of a branch, in the order of their persisted codes 0 to 11. -/
inductive BranchStatus where
  | unknown
  | registered
  | phaseOneDone
  | phaseOneFailed
  | phaseOneTimeout
  | phaseTwoCommitted
  | phaseTwoCommitFailedRetryable
  | phaseTwoCommitFailed
  | phaseTwoRollbacked
  | phaseTwoRollbackFailedRetryable
  | phaseTwoRollbackFailedUnretryable
  | phaseTwoRollbackFailed
  deriving DecidableEq, Repr, Inhabited

namespace BranchStatus

/-- Every status, in code order. -/
def all : List BranchStatus :=
  [unknown, registered, phaseOneDone, phaseOneFailed, phaseOneTimeout, phaseTwoCommitted,
    phaseTwoCommitFailedRetryable, phaseTwoCommitFailed, phaseTwoRollbacked,
    phaseTwoRollbackFailedRetryable, phaseTwoRollbackFailedUnretryable, phaseTwoRollbackFailed]

/-- The persisted code of a status. -/
def code : BranchStatus → Int
  | unknown => 0
  | registered => 1
  | phaseOneDone => 2
  | phaseOneFailed => 3
  | phaseOneTimeout => 4
  | phaseTwoCommitted => 5
  | phaseTwoCommitFailedRetryable => 6
  | phaseTwoCommitFailed => 7
  | phaseTwoRollbacked => 8
  | phaseTwoRollbackFailedRetryable => 9
  | phaseTwoRollbackFailedUnretryable => 10
  | phaseTwoRollbackFailed => 11

/-- The status persisted under `c`, if any. -/
def ofCode? (c : Int) : Option BranchStatus :=
  all.find? (·.code == c)

/-- The name a status is shown by. -/
def name : BranchStatus → String
  | unknown => "Unknown"
  | registered => "Registered"
  | phaseOneDone => "PhaseOne_Done"
  | phaseOneFailed => "PhaseOne_Failed"
  | phaseOneTimeout => "PhaseOne_Timeout"
  | phaseTwoCommitted => "PhaseTwo_Committed"
  | phaseTwoCommitFailedRetryable => "PhaseTwo_CommitFailed_Retryable"
  | phaseTwoCommitFailed => "PhaseTwo_CommitFailed"
  | phaseTwoRollbacked => "PhaseTwo_Rollbacked"
  | phaseTwoRollbackFailedRetryable => "PhaseTwo_RollbackFailed_Retryable"
  | phaseTwoRollbackFailedUnretryable => "PhaseTwo_RollbackFailed_Unretryable"
  | phaseTwoRollbackFailed => "PhaseTwo_RollbackFailed"

instance : ToString BranchStatus := ⟨name⟩

/-- Statuses of phase one: registered, or reported done, failed or timed out. -/
def isPhaseOne : BranchStatus → Bool
  | registered | phaseOneDone | phaseOneFailed | phaseOneTimeout => true
  | _ => false

/-- Statuses of phase two: an answer to a commit or rollback request. -/
def isPhaseTwo (s : BranchStatus) : Bool :=
  decide (phaseTwoCommitted.code ≤ s.code)

theorem ofCode?_code (s : BranchStatus) : ofCode? s.code = some s := by
  cases s <;> rfl

theorem code_injective {s t : BranchStatus} (h : s.code = t.code) : s = t := by
  have := congrArg ofCode? h
  rwa [ofCode?_code, ofCode?_code, Option.some.injEq] at this

theorem isPhaseTwo_iff (s : BranchStatus) : s.isPhaseTwo = true ↔ 5 ≤ s.code := by
  simp [isPhaseTwo]; rfl

end BranchStatus

end GlobalTxn
