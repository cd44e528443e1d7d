import GlobalTxn.Store.Sessions
import GlobalTxn.Lock.Manager

/-! # Failures of coordinator operations

Every failure names its cause.  `CoordError.kind` names the kind (the kind of an underlying
store failure follows a dot), `CoordError.message` gives the text, and
`CoordError.isRetryable` says whether the caller may try the same request again later.
-/

namespace GlobalTxn

/-- Failures of a call to a participant. -/
inductive RemotingError where
  /-- No answer within the timeout (milliseconds). -/
  | timeout (xid : String) (branchId : Nat) (timeout : Nat)
  | clientUnreachable (clientId resourceId : String)
  | internal (message : String)
  deriving DecidableEq, Repr

namespace RemotingError

/-- The name of the kind of failure. -/
def kind : RemotingError → String
  | timeout .. => "Timeout"
  | clientUnreachable .. => "ClientUnreachable"
  | internal .. => "Internal"

/-- Text of a failure. -/
def message : RemotingError → String
  | timeout xid branchId t => s!"branch {branchId} of {xid} got no response in {spanText t}"
  | clientUnreachable c r => s!"client {c} of resource {r} unreachable"
  | internal m => m

end RemotingError

/-- Operations that only some statuses allow. -/
inductive Operation where
  | branchRegister
  | commit
  | rollback
  | globalReport
  | deleteGlobalSession
  | stopGlobalRetry
  | startGlobalRetry
  | sendCommitOrRollback
  | changeGlobalStatus
  | deleteBranch
  deriving DecidableEq, Repr

/-- The words an operation is named by. -/
def Operation.text : Operation → String
  | .branchRegister => "branch register"
  | .commit => "commit"
  | .rollback => "rollback"
  | .globalReport => "global report"
  | .deleteGlobalSession => "delete global session"
  | .stopGlobalRetry => "stop global retry"
  | .startGlobalRetry => "start global retry"
  | .sendCommitOrRollback => "send commit or rollback"
  | .changeGlobalStatus => "change global status"
  | .deleteBranch => "delete branch"

/-- Failures of coordinator operations. -/
inductive CoordError where
  | beginFailed (source : StoreError)
  | lockConflict (xid lockKey : String)
  | globalNotFound (xid : String)
  | branchNotFound (xid : String) (branchId : Nat)
  | invalidStatus (xid : String) (status : GlobalStatus) (operation : Operation)
  | invalidArgument (message : String)
  | branchDeleteFailed (xid : String) (branchId : Nat)
  | store (e : StoreError)
  | lockStore (e : LockError)
  | remoting (e : RemotingError)
  | internal (message : String)
  deriving DecidableEq, Repr

namespace CoordError

/-- The name of the kind of failure. -/
def kind : CoordError → String
  | beginFailed e => "BeginFailed." ++ e.kind
  | lockConflict .. => "LockConflict"
  | globalNotFound .. => "GlobalNotFound"
  | branchNotFound .. => "BranchNotFound"
  | invalidStatus .. => "InvalidStatus"
  | invalidArgument .. => "InvalidArgument"
  | branchDeleteFailed .. => "BranchDeleteFailed"
  | store e => "Store." ++ e.kind
  | lockStore e => "LockStore." ++ e.kind
  | remoting e => "Remoting." ++ e.kind
  | internal .. => "Internal"

/-- Text of a failure. -/
def message : CoordError → String
  | beginFailed e => "fail to begin global transaction: " ++ e.message
  | lockConflict xid key =>
    s!"global lock of {Text.quote key} for {xid} conflicts with other transactions"
  | globalNotFound xid => s!"global transaction {xid} not found"
  | branchNotFound xid branchId => s!"branch {branchId} of {xid} not found"
  | invalidStatus xid status op =>
    s!"global transaction {xid} in status {status} does not allow {op.text}"
  | invalidArgument m => "invalid argument: " ++ m
  | branchDeleteFailed xid branchId =>
    s!"fail to delete branch {branchId} of {xid}, please try again"
  | store e => e.message
  | lockStore e => e.message
  | remoting e => e.message
  | internal m => m

/-- Whether the caller may retry the same request later. -/
def isRetryable : CoordError → Bool
  | lockConflict .. | branchDeleteFailed .. | beginFailed .. | store .. | lockStore ..
  | remoting .. => true
  | globalNotFound .. | branchNotFound .. | invalidStatus .. | invalidArgument ..
  | internal .. => false

/-- A lock-store failure as a coordinator failure: a bad lock key is a bad argument. -/
def ofLock : LockError → CoordError
  | e@(.invalidKey ..) => invalidArgument e.message
  | e => lockStore e

/-- An illegal transition inside the coordinator is an internal failure. -/
def ofTransition (e : IllegalTransition) : CoordError := internal e.message

end CoordError

end GlobalTxn
