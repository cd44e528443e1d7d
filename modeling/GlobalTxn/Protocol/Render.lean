import GlobalTxn.Protocol.Status
import GlobalTxn.Store.Sessions
import GlobalTxn.Lock.Manager

/-! # Sessions, branches, locks and errors as answer values

Sessions appear in two forms: in full (`sessionValue`), and in the brief form used to show
the state of a store after each step (`briefSession`).  A timeout is shown in whole
milliseconds, saturated.
-/

namespace GlobalTxn.Protocol

/-- A branch in full. -/
def branchValue (b : Branch) : Value :=
  .obj [("xid", .str b.xid), ("transaction_id", .nat b.transactionId),
    ("branch_id", .nat b.branchId), ("resource_group_id", .str b.resourceGroupId),
    ("resource_id", .str b.resourceId), ("client_id", .str b.clientId),
    ("branch_type", .str b.branchType.name), ("status", branchStatusValue b.status),
    ("lock_key", .str b.lockKey), ("application_data", .str b.applicationData),
    ("begin_time", .nat b.beginTime)]

/-- A session in full. -/
def sessionValue (s : GlobalSession) : Value :=
  .obj [("xid", .str s.xid), ("transaction_id", .nat s.transactionId),
    ("application_id", .str s.applicationId),
    ("transaction_service_group", .str s.transactionServiceGroup),
    ("transaction_name", .str s.transactionName), ("status", globalStatusValue s.status),
    ("timeout_ms", .nat s.timeout.millis), ("begin_time", .nat s.beginTime),
    ("gmt_updated", .nat s.gmtUpdated), ("application_data", .str s.applicationData),
    ("branches", .list branchValue s.branches)]

/-- A session in brief: status, times and the essentials of each branch. -/
def briefSession (s : GlobalSession) : Value :=
  .obj [("xid", .str s.xid), ("status", globalStatusValue s.status),
    ("begin_time", .nat s.beginTime), ("gmt_updated", .nat s.gmtUpdated),
    ("branches", .list briefBranch s.branches)]
where
  /-- A branch in brief. -/
  briefBranch (b : Branch) : Value :=
    .obj [("branch_id", .nat b.branchId), ("type", .str b.branchType.name),
      ("status", branchStatusValue b.status), ("lock_key", .str b.lockKey),
      ("application_data", .str b.applicationData)]

/-- The holder of a row. -/
def holderValue (h : LockHolder) : Value :=
  .obj [("xid", .str h.xid), ("transaction_id", .nat h.transactionId),
    ("branch_id", .nat h.branchId)]

/-- A row lock with its key and text. -/
def rowLockValue (l : RowLock) : Value :=
  .obj [("xid", .str l.xid), ("transaction_id", .nat l.transactionId),
    ("branch_id", .nat l.branchId), ("resource_id", .str l.resourceId),
    ("table", .str l.tableName), ("pk", .str l.pk), ("row_key", .str l.rowKey),
    ("display", .str l.display)]

/-- Held rows with their holders, each as `[row_key, xid, branch_id]`. -/
def lockRowsValue (rows : List (String × LockHolder)) : Value :=
  .list (fun (k, h) => .arr [.str k, .str h.xid, .nat h.branchId]) rows

/-- An error answer of a given kind. -/
def errorValue (kind message : String) : Value :=
  .obj [("error", .str kind), ("message", .str message)]

/-- A session-store failure as an answer. -/
def storeErrorValue (e : StoreError) : Value := errorValue e.kind e.message

/-- A lock-store failure as an answer. -/
def lockErrorValue (e : LockError) : Value := errorValue e.kind e.message

/-- Adds members to an object. -/
def withMembers (v : Value) (extra : List (String × Value)) : Value :=
  match v with
  | .obj members => .obj (members ++ extra)
  | other => .obj (("result", other) :: extra)

end GlobalTxn.Protocol
