import GlobalTxn.Protocol.Status
import GlobalTxn.Protocol.Ident
import GlobalTxn.Session.Global

/-! # Sessions and branches described in requests

A request describes a session by its members, each with a default: the application `app`,
the service group `group`, the name `tx`, status `begin`, a timeout of 60 s, begin time 0,
an update time equal to the begin time, no application data and no branches.  A branch
inside a session takes its xid and transaction id from the session.

The members are read in a fixed order, and the first that cannot be read is the complaint: a
branch's in the order of its fields; a session's identity first, then its timeout and begin
time, then its names, its status, its update time, its data and last its branches.
-/

namespace GlobalTxn.Protocol

open Member

/-- Reads a branch; `owner` gives the xid and transaction id of the session it belongs to,
if it is read inside one.  Without an owner the xid is required and the id defaults to 0. -/
def branchInput (owner : Option (String × Nat)) (v : Value) : Decode Branch := do
  let xid ← match owner with
    | some (xid, _) => withDefault v "xid" string xid
    | none => need v "xid" string
  let transactionId ← withDefault v "transaction_id" word (owner.map (·.2) |>.getD 0)
  let branchId ← need v "branch_id" word
  let resourceGroupId ← withDefault v "resource_group_id" string ""
  let resourceId ← withDefault v "resource_id" string "res"
  let clientId ← withDefault v "client_id" string "cli"
  let branchType ← withDefault v "branch_type" branchTypeField .at
  let status ← withDefault v "status" branchStatusField .registered
  let lockKey ← withDefault v "lock_key" string ""
  let applicationData ← withDefault v "application_data" string ""
  let beginTime ← withDefault v "begin_time" word 0
  pure ⟨xid, transactionId, branchId, resourceGroupId, resourceId, clientId, branchType, status,
    lockKey, applicationData, beginTime⟩

/-- Reads a session with its branches: its identity, then its times, then its names, then the
rest. -/
def sessionInput (v : Value) : Decode GlobalSession := do
  let xid ← need v "xid" string
  let transactionId ← withDefault v "transaction_id" word 0
  let timeout ← spanField v "timeout" 60000
  let beginTime ← withDefault v "begin_time" word 0
  let applicationId ← withDefault v "application_id" string "app"
  let group ← withDefault v "transaction_service_group" string "group"
  let name ← withDefault v "transaction_name" string "tx"
  let status ← withDefault v "status" globalStatusField .begin
  let gmtUpdated ← withDefault v "gmt_updated" word beginTime
  let applicationData ← withDefault v "application_data" string ""
  let branches ← list v "branches"
  let branches ← branches.mapM (branchInput (some (xid, transactionId)))
  let s := GlobalSession.new xid transactionId applicationId group name (Duration.ofMillis timeout)
    beginTime
  pure { s with status, gmtUpdated, applicationData, branches }

end GlobalTxn.Protocol
