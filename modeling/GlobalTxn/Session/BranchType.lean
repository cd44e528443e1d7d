import GlobalTxn.Status.Branch

/-! # Branch types and how the coordinator treats each

A branch is one of four kinds of participant:

* `at`: automatic transactions; the coordinator holds global row locks for them and their
  phase-two commit may finish after the outcome is reported;
* `tcc`: try-confirm-cancel; cancel runs even if try failed, so phase two is never skipped;
* `saga`: participants report the global outcome themselves, and failed compensations are
  retried until the state machine gives up;
* `xa`: phase two is decided by the coordinator and never reported by the participant.

`PhaseTwoOutcome` classifies a participant's phase-two answer: done, worth retrying, or not.
-/

namespace GlobalTxn

/-- How the coordinator should treat a participant's phase-two answer. -/
inductive PhaseTwoOutcome where
  | done
  | retryable
  | unretryable
  deriving DecidableEq, Repr, Inhabited

/-- The name an outcome is shown by. -/
def PhaseTwoOutcome.name : PhaseTwoOutcome → String
  | .done => "Done"
  | .retryable => "Retryable"
  | .unretryable => "Unretryable"

/-- The four kinds of branch, in the order of their codes 0 to 3. -/
inductive BranchType where
  | at
  | tcc
  | saga
  | xa
  deriving DecidableEq, Repr, Inhabited

namespace BranchType

/-- Every branch type, in code order. -/
def all : List BranchType := [.at, .tcc, .saga, .xa]

/-- The persisted code of a branch type. -/
def code : BranchType → Int
  | .at => 0
  | .tcc => 1
  | .saga => 2
  | .xa => 3

/-- The branch type persisted under `c`, if any. -/
def ofCode? (c : Int) : Option BranchType :=
  all.find? (·.code == c)

/-- The name a branch type is shown by. -/
def name : BranchType → String
  | .at => "AT"
  | .tcc => "TCC"
  | .saga => "SAGA"
  | .xa => "XA"

instance : ToString BranchType := ⟨name⟩

/-- Whether branches of this type take global row locks when they register. -/
def holdsRowLocks : BranchType → Bool
  | .at => true
  | _ => false

/-- Whether phase-two commit may complete after the global outcome was reported. -/
def commitsAsync : BranchType → Bool
  | .at => true
  | _ => false

/-- Whether participants drive the global outcome themselves through a global report. -/
def reportsGlobalOutcome : BranchType → Bool
  | .saga => true
  | _ => false

/-- Whether a branch in the given phase-one status needs no phase-two request.  A failed try
of a `tcc` branch is still cancelled. -/
def skipsPhaseTwo : BranchType → BranchStatus → Bool
  | .tcc, _ => false
  | _, s => s == .phaseOneFailed

/-- Whether a participant may report the given status.  An `xa` participant reports phase one
only. -/
def acceptsReport : BranchType → BranchStatus → Bool
  | .xa, s => s.isPhaseOne && s != .registered
  | _, s => s != .unknown && s != .registered

/-- How an answer to a commit request is treated. -/
def commitOutcome (_ : BranchType) : BranchStatus → PhaseTwoOutcome
  | .phaseTwoCommitted => .done
  | .phaseTwoCommitFailed | .phaseOneFailed => .unretryable
  | _ => .retryable

/-- How an answer to a rollback request is treated.  Failed compensations of a `saga` are
retried unless the participant says they cannot succeed. -/
def rollbackOutcome : BranchType → BranchStatus → PhaseTwoOutcome
  | .saga, .phaseTwoRollbacked => .done
  | .saga, .phaseTwoRollbackFailedUnretryable => .unretryable
  | .saga, _ => .retryable
  | _, .phaseTwoRollbacked => .done
  | _, .phaseTwoRollbackFailed | _, .phaseTwoRollbackFailedUnretryable => .unretryable
  | _, _ => .retryable

theorem ofCode?_code (t : BranchType) : ofCode? t.code = some t := by
  cases t <;> rfl

end BranchType

end GlobalTxn
