import GlobalTxn.Protocol.Render
import GlobalTxn.Protocol.Inputs
import GlobalTxn.Record.Session
import GlobalTxn.Text.Utf8
import GlobalTxn.Text.Hex

/-! # Answers about session records

Records travel as lowercase hexadecimal text.  Reading hex refuses text of odd length (in
bytes) before it looks at the digits; then each two bytes are read as a number in base 16,
which may be two digits of either case, or a plus sign and one digit.  The text is cut into
those pairs of bytes as a string of characters, so a cut that falls inside a character stops
the program with a `Panic` answer that names the character and its bytes.
-/

namespace GlobalTxn.Protocol

open Member

/-- Lowercase hex of bytes. -/
def hexOf (bytes : List UInt8) : String :=
  String.join (bytes.map fun b => String.ofList [digit (b.toNat / 16), digit (b.toNat % 16)])
where
  /-- The digit of a number below 16. -/
  digit (n : Nat) : Char := if n < 10 then Char.ofNat (48 + n) else Char.ofNat (87 + n)

/-- The value of a byte that is a hex digit. -/
def hexByteValue? (b : UInt8) : Option Nat :=
  if b.toNat < 128 then Text.hexValue? (Char.ofNat b.toNat) else none

/-- What the program says when it stops at a cut that ends at byte `i` of `s`, inside a
character. -/
def cutInsideChar (s : String) (i : Nat) : String :=
  match Text.Utf8.charAt? s i with
  | some (c, start) =>
    let shown := Text.quoteChar c
    let stop := start + c.utf8Size
    s!"end byte index {i} is not a char boundary; " ++
      s!"it is inside {shown} (bytes {start}..{stop} of string)"
  | none => s!"end byte index {i} is out of bounds of string"

/-- The bytes of hex text.  A cut between two bytes that ends inside a character stops the
program before those bytes are read. -/
def bytesOfHex (s : String) : Decode (List UInt8) :=
  if s.utf8ByteSize % 2 = 1 then throw "odd length hex" else go 0 (Text.Utf8.encode s)
where
  /-- Reads the bytes of the text two at a time, from byte `pos` of it on. -/
  go (pos : Nat) : List UInt8 → Decode (List UInt8)
    | [] => pure []
    | [_] => throw "odd length hex"
    | a :: b :: rest =>
      if rest.head?.any (Text.Utf8.isTrail 0x80 0xBF) then
        .error (.panic (cutInsideChar s (pos + 2)))
      else
        let value := if a = 43 then hexByteValue? b
          else (fun x y => x * 16 + y) <$> hexByteValue? a <*> hexByteValue? b
        match value with
        | some v => (v.toUInt8 :: ·) <$> go (pos + 2) rest
        | none => throw "invalid hex"

example : bytesOfHex "+f0A" = .ok [15, 10] := by rfl

example : bytesOfHex "0a\u00e9" = .error "invalid hex" := by rfl

example : bytesOfHex "\u00e90a0" = .error "odd length hex" := by rfl

example : (match bytesOfHex "a\u00e9b" with | .error r => some r | .ok _ => none) =
    some (.panic ("end byte index 2 is not a char boundary; " ++
      "it is inside \x27\u00e9\x27 (bytes 1..3 of string)")) := by
  decide +kernel


/-- A branch record as a value. -/
def branchRecordValue (r : BranchRecord) : Value :=
  .obj [("branch_id", .nat r.branchId), ("resource_group_id", .str r.resourceGroupId),
    ("resource_id", .str r.resourceId), ("client_id", .str r.clientId),
    ("branch_type", .int r.branchType), ("status", .int r.status), ("lock_key", .str r.lockKey),
    ("application_data", .str r.applicationData), ("begin_time", .nat r.beginTime)]

/-- A session record as a value. -/
def sessionRecordValue (r : SessionRecord) : Value :=
  .obj [("xid", .str r.xid), ("transaction_id", .nat r.transactionId),
    ("application_id", .str r.applicationId),
    ("transaction_service_group", .str r.transactionServiceGroup),
    ("transaction_name", .str r.transactionName), ("status", .int r.status),
    ("timeout_millis", .nat r.timeoutMillis), ("begin_time", .nat r.beginTime),
    ("gmt_updated", .nat r.gmtUpdated), ("application_data", .str r.applicationData),
    ("branches", .list branchRecordValue r.branches)]

/-- Reads a branch record; every member defaults to zero or empty. -/
def branchRecordInput (v : Value) : Decode BranchRecord := do
  pure ⟨← withDefault v "branch_id" word 0, ← withDefault v "resource_group_id" string "",
    ← withDefault v "resource_id" string "", ← withDefault v "client_id" string "",
    ← withDefault v "branch_type" int32 0, ← withDefault v "status" int32 0,
    ← withDefault v "lock_key" string "", ← withDefault v "application_data" string "",
    ← withDefault v "begin_time" word 0⟩

/-- Reads a session record, its branches first; every member defaults to zero or empty. -/
def sessionRecordInput (v : Value) : Decode SessionRecord := do
  let branches ← (← list v "branches").mapM branchRecordInput
  pure ⟨← withDefault v "xid" string "", ← withDefault v "transaction_id" word 0,
    ← withDefault v "application_id" string "",
    ← withDefault v "transaction_service_group" string "",
    ← withDefault v "transaction_name" string "", ← withDefault v "status" int32 0,
    ← withDefault v "timeout_millis" word 0, ← withDefault v "begin_time" word 0,
    ← withDefault v "gmt_updated" word 0, ← withDefault v "application_data" string "",
    branches⟩

/-- The session of a record as a value, or why the record is corrupted. -/
def recordSessionValue (r : SessionRecord) : Value :=
  match r.toSession with
  | .ok s => sessionValue s
  | .error e => storeErrorValue e

/-- The answer of bytes that are no record. -/
def decodeErrorValue (e : Wire.DecodeError) : Value := errorValue "DecodeError" e.message

/-- Answers `session_record`: a session's record, its bytes, and the session read back. -/
def answerSessionRecord (req : Value) : Decode Value := do
  let s ← part req "session" sessionInput
  let r := SessionRecord.ofSession s
  let bytes := r.encode
  pure <| match SessionRecord.decode bytes with
    | .error e => decodeErrorValue e
    | .ok back =>
      let same := match back.toSession with
        | .ok s' => decide (s' = s)
        | .error _ => false
      .obj [("hex", .str (hexOf bytes)), ("record", sessionRecordValue r),
        ("roundtrip_equal", .bool same), ("session", recordSessionValue back)]

/-- Answers `record`: the bytes of a record given field by field, and its session. -/
def answerRecord (req : Value) : Decode Value := do
  let r ← part req "record" sessionRecordInput
  let bytes := r.encode
  pure <| .obj [("hex", .str (hexOf bytes)), ("encoded_len", .nat bytes.length),
    ("session", recordSessionValue r)]

/-- Answers `record_decode`: the record read from hex, written again, and its session. -/
def answerRecordDecode (req : Value) : Decode Value := do
  let bytes ← bytesOfHex (← need req "hex" string)
  pure <| match SessionRecord.decode bytes with
    | .error e => decodeErrorValue e
    | .ok r =>
      .obj [("record", sessionRecordValue r), ("hex", .str (hexOf r.encode)),
        ("session", recordSessionValue r)]

end GlobalTxn.Protocol
