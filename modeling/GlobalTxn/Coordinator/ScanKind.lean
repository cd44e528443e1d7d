/-! # Kinds of background scan

A coordinator moves sessions forward without their transaction managers through five
periodic scans.  Each kind is guarded cluster-wide by a lease lock of its own name, so that at
most one coordinator runs it at a time.
-/

namespace GlobalTxn

/-- The five background scans. -/
inductive ScanKind where
  /-- Rolls back timed-out sessions that never left `begin`. -/
  | timeoutCheck
  /-- Drives retrying and orphaned commits again. -/
  | retryCommitting
  /-- Finishes branch commits of sessions committed asynchronously. -/
  | asyncCommitting
  /-- Drives retrying and orphaned rollbacks again. -/
  | retryRollbacking
  /-- Asks participants to purge old undo logs. -/
  | undoLogDelete
  deriving DecidableEq, Repr, Inhabited

namespace ScanKind

/-- Every kind, in a fixed order. -/
def all : List ScanKind :=
  [timeoutCheck, retryCommitting, asyncCommitting, retryRollbacking, undoLogDelete]

/-- The name a kind is shown by. -/
def name : ScanKind → String
  | timeoutCheck => "TimeoutCheck"
  | retryCommitting => "RetryCommitting"
  | asyncCommitting => "AsyncCommitting"
  | retryRollbacking => "RetryRollbacking"
  | undoLogDelete => "UndoLogDelete"

/-- The kind shown by `s`, if any. -/
def ofName? (s : String) : Option ScanKind := all.find? (·.name == s)

/-- Name of the lease lock guarding the scan across coordinators. -/
def lockName : ScanKind → String
  | timeoutCheck => "TxTimeoutCheck"
  | retryCommitting => "RetryCommitting"
  | asyncCommitting => "AsyncCommitting"
  | retryRollbacking => "RetryRollbacking"
  | undoLogDelete => "UndoLogDelete"

end ScanKind

end GlobalTxn
