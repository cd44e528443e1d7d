import GlobalTxn.Record.Wire
import GlobalTxn.Store.Sessions

/-! # Session records

A session is stored as one record with its branches embedded.  The record holds the raw
fields: statuses and branch types as their integer codes, the timeout in whole milliseconds
(saturated), and no xid or transaction id per branch, since they are the session's.

Fields, by tag.  Session: 1 xid, 2 transaction id, 3 application, 4 service group, 5 name,
6 status (32-bit signed), 7 timeout, 8 begin time, 9 update time, 10 application data,
11 branches (repeated messages).  Branch: 1 id, 2 resource group, 3 resource, 4 client,
5 type (32-bit signed), 6 status (32-bit signed), 7 lock key, 8 application data, 9 begin
time.

Reading keeps the last value of a repeated scalar field, appends a branch for each branch
field, and skips unknown fields.  Turning a record back into a session checks the session's
status first, then each branch's type and status in order; an unknown code is a corrupted
record.
-/

namespace GlobalTxn

/-- The stored form of a branch. -/
structure BranchRecord where
  branchId : Nat := 0
  resourceGroupId : String := ""
  resourceId : String := ""
  clientId : String := ""
  branchType : Int := 0
  status : Int := 0
  lockKey : String := ""
  applicationData : String := ""
  beginTime : Nat := 0
  deriving DecidableEq, Repr, Inhabited

/-- The stored form of a session with its branches. -/
structure SessionRecord where
  xid : String := ""
  transactionId : Nat := 0
  applicationId : String := ""
  transactionServiceGroup : String := ""
  transactionName : String := ""
  status : Int := 0
  timeoutMillis : Nat := 0
  beginTime : Nat := 0
  gmtUpdated : Nat := 0
  applicationData : String := ""
  branches : List BranchRecord := []
  deriving DecidableEq, Repr, Inhabited

namespace BranchRecord

/-- The record of a branch. -/
def ofBranch (b : Branch) : BranchRecord :=
  ⟨b.branchId, b.resourceGroupId, b.resourceId, b.clientId, b.branchType.code, b.status.code,
    b.lockKey, b.applicationData, b.beginTime⟩

/-- The bytes of a branch record. -/
def encode (r : BranchRecord) : List UInt8 :=
  Wire.uint64Field 1 r.branchId ++ Wire.stringField 2 r.resourceGroupId ++
    Wire.stringField 3 r.resourceId ++ Wire.stringField 4 r.clientId ++
    Wire.int32Field 5 r.branchType ++ Wire.int32Field 6 r.status ++
    Wire.stringField 7 r.lockKey ++ Wire.stringField 8 r.applicationData ++
    Wire.uint64Field 9 r.beginTime

/-- Reads one field of a branch record. -/
def readField (r : BranchRecord) (tag : Nat) (w : Wire.WireType) : Wire.Read BranchRecord :=
  fun bytes =>
    let inField {α : Type} (field : String) (x : Except Wire.DecodeError α) :=
      Wire.within "BranchSessionRecord" field x
    match tag with
    | 1 => inField "branch_id" do
      let (v, rest) ← Wire.readUInt64 w bytes
      pure ({ r with branchId := v }, rest)
    | 2 => inField "resource_group_id" do
      let (v, rest) ← Wire.readString w bytes
      pure ({ r with resourceGroupId := v }, rest)
    | 3 => inField "resource_id" do
      let (v, rest) ← Wire.readString w bytes
      pure ({ r with resourceId := v }, rest)
    | 4 => inField "client_id" do
      let (v, rest) ← Wire.readString w bytes
      pure ({ r with clientId := v }, rest)
    | 5 => inField "branch_type" do
      let (v, rest) ← Wire.readInt32 w bytes
      pure ({ r with branchType := v }, rest)
    | 6 => inField "status" do
      let (v, rest) ← Wire.readInt32 w bytes
      pure ({ r with status := v }, rest)
    | 7 => inField "lock_key" do
      let (v, rest) ← Wire.readString w bytes
      pure ({ r with lockKey := v }, rest)
    | 8 => inField "application_data" do
      let (v, rest) ← Wire.readString w bytes
      pure ({ r with applicationData := v }, rest)
    | 9 => inField "begin_time" do
      let (v, rest) ← Wire.readUInt64 w bytes
      pure ({ r with beginTime := v }, rest)
    | _ => (fun (_, rest) => (r, rest)) <$> Wire.skipField 99 tag w bytes

/-- The branch of a record, in the session `xid` with transaction id `transactionId`. -/
def toBranch (r : BranchRecord) (xid : String) (transactionId : Nat) :
    Except StoreError Branch := do
  let some t := BranchType.ofCode? r.branchType
    | throw (.corrupted s!"branch {r.branchId} of {xid} has unknown type {r.branchType}")
  let some status := BranchStatus.ofCode? r.status
    | throw (.corrupted s!"branch {r.branchId} of {xid} has unknown status {r.status}")
  pure ⟨xid, transactionId, r.branchId, r.resourceGroupId, r.resourceId, r.clientId, t, status,
    r.lockKey, r.applicationData, r.beginTime⟩

/-- A branch record whose numbers fit the words they are written in: below `2 ^ 64`, or from
`-2 ^ 31` to below `2 ^ 31`, written out. -/
structure Fits (b : BranchRecord) : Prop where
  branchId : b.branchId < 18446744073709551616
  branchType : -2147483648 ≤ b.branchType ∧ b.branchType < 2147483648
  status : -2147483648 ≤ b.status ∧ b.status < 2147483648
  beginTime : b.beginTime < 18446744073709551616

end BranchRecord

namespace SessionRecord

/-- The record of a session. -/
def ofSession (s : GlobalSession) : SessionRecord :=
  ⟨s.xid, s.transactionId, s.applicationId, s.transactionServiceGroup, s.transactionName,
    s.status.code, s.timeout.millis, s.beginTime, s.gmtUpdated, s.applicationData,
    s.branches.map BranchRecord.ofBranch⟩

/-- The bytes of a session record. -/
def encode (r : SessionRecord) : List UInt8 :=
  Wire.stringField 1 r.xid ++ Wire.uint64Field 2 r.transactionId ++
    Wire.stringField 3 r.applicationId ++ Wire.stringField 4 r.transactionServiceGroup ++
    Wire.stringField 5 r.transactionName ++ Wire.int32Field 6 r.status ++
    Wire.uint64Field 7 r.timeoutMillis ++ Wire.uint64Field 8 r.beginTime ++
    Wire.uint64Field 9 r.gmtUpdated ++ Wire.stringField 10 r.applicationData ++
    r.branches.flatMap fun b => Wire.delimited 11 b.encode

/-- Reads one field of a session record. -/
def readField (r : SessionRecord) (tag : Nat) (w : Wire.WireType) : Wire.Read SessionRecord :=
  fun bytes =>
    let inField {α : Type} (field : String) (x : Except Wire.DecodeError α) :=
      Wire.within "GlobalSessionRecord" field x
    match tag with
    | 1 => inField "xid" do
      let (v, rest) ← Wire.readString w bytes
      pure ({ r with xid := v }, rest)
    | 2 => inField "transaction_id" do
      let (v, rest) ← Wire.readUInt64 w bytes
      pure ({ r with transactionId := v }, rest)
    | 3 => inField "application_id" do
      let (v, rest) ← Wire.readString w bytes
      pure ({ r with applicationId := v }, rest)
    | 4 => inField "transaction_service_group" do
      let (v, rest) ← Wire.readString w bytes
      pure ({ r with transactionServiceGroup := v }, rest)
    | 5 => inField "transaction_name" do
      let (v, rest) ← Wire.readString w bytes
      pure ({ r with transactionName := v }, rest)
    | 6 => inField "status" do
      let (v, rest) ← Wire.readInt32 w bytes
      pure ({ r with status := v }, rest)
    | 7 => inField "timeout_millis" do
      let (v, rest) ← Wire.readUInt64 w bytes
      pure ({ r with timeoutMillis := v }, rest)
    | 8 => inField "begin_time" do
      let (v, rest) ← Wire.readUInt64 w bytes
      pure ({ r with beginTime := v }, rest)
    | 9 => inField "gmt_updated" do
      let (v, rest) ← Wire.readUInt64 w bytes
      pure ({ r with gmtUpdated := v }, rest)
    | 10 => inField "application_data" do
      let (v, rest) ← Wire.readString w bytes
      pure ({ r with applicationData := v }, rest)
    | 11 => inField "branches" do
      let (b, rest) ← Wire.readNested BranchRecord.readField {} w bytes
      pure ({ r with branches := r.branches ++ [b] }, rest)
    | _ => (fun (_, rest) => (r, rest)) <$> Wire.skipField 100 tag w bytes

/-- Reads a session record from its bytes. -/
def decode (bytes : List UInt8) : Except Wire.DecodeError SessionRecord :=
  Wire.readMessage readField {} bytes

/-- The session of a record, if its codes are known. -/
def toSession (r : SessionRecord) : Except StoreError GlobalSession := do
  let some status := GlobalStatus.ofCode? r.status
    | throw (.corrupted s!"{r.xid} has unknown status {r.status}")
  let branches ← r.branches.mapM (·.toBranch r.xid r.transactionId)
  let s := GlobalSession.new r.xid r.transactionId r.applicationId r.transactionServiceGroup
    r.transactionName (Duration.ofMillis r.timeoutMillis) r.beginTime
  pure { s with branches, status, gmtUpdated := r.gmtUpdated, applicationData := r.applicationData }

/-- A session record whose numbers fit the words they are written in, and whose bytes are fewer
than `2 ^ 64`. -/
structure Fits (r : SessionRecord) : Prop where
  transactionId : r.transactionId < 18446744073709551616
  status : -2147483648 ≤ r.status ∧ r.status < 2147483648
  timeoutMillis : r.timeoutMillis < 18446744073709551616
  beginTime : r.beginTime < 18446744073709551616
  gmtUpdated : r.gmtUpdated < 18446744073709551616
  branches : ∀ b ∈ r.branches, b.Fits
  size : r.encode.length < 18446744073709551616

/-- The Protobuf wire format of session records. -/
def codec : Wire.Codec SessionRecord := ⟨encode, decode, Fits⟩

/-- The session stored as `bytes`, read with `codec`: a record that cannot be read is a
corrupted session, named by `what`. -/
def readSession (codec : Wire.Codec SessionRecord) (what : String) (bytes : List UInt8) :
    Except StoreError GlobalSession :=
  match codec.decode bytes with
  | .error e => .error (.corrupted (what ++ ": " ++ e.message))
  | .ok r => r.toSession

end SessionRecord

end GlobalTxn
