/-! # Settings of a coordinator node

Spans are in milliseconds.  `scanParallelism` is at least one: a request for none is raised
to one.  The lease locks of the scans are held under `lockOwner`, which is the node's
address unless an owner is set.
-/

namespace GlobalTxn

/-- Settings of one coordinator node. -/
structure Config where
  nodeId : Nat := 1
  address : String := "127.0.0.1:8091"
  branchTimeout : Nat := 30000
  maxCommitRetryTimeout : Option Nat := none
  maxRollbackRetryTimeout : Option Nat := none
  rollbackRetryTimeoutUnlock : Bool := false
  asyncCommit : Bool := false
  committingRetryPeriod : Nat := 1000
  asyncCommittingRetryPeriod : Nat := 1000
  rollbackingRetryPeriod : Nat := 1000
  timeoutRetryPeriod : Nat := 1000
  undoLogDeletePeriod : Nat := 24 * 3600 * 1000
  undoLogSaveDays : Nat := 7
  timeoutRollbackGrace : Nat := 0
  deadSessionThreshold : Nat := 10000
  scanParallelism : Nat := 16
  schedulerLockLease : Nat := 60000
  schedulerLockOwner : Option String := none
  deriving DecidableEq, Repr, Inhabited

namespace Config

/-- The owner the node holds scan locks under. -/
def lockOwner (c : Config) : String := c.schedulerLockOwner.getD c.address

/-- Sets the number of sessions a scan handles at once, at least one. -/
def withScanParallelism (c : Config) (n : Nat) : Config := { c with scanParallelism := Nat.max n 1 }

end Config

end GlobalTxn
