import GlobalTxn.Record.Wire
import GlobalTxn.Lock.Row

/-! # Lock holder records

A held row is stored as the record of its holder, in the Protobuf wire format: 1 xid,
2 transaction id, 3 branch id.  Reading keeps the last value of a repeated field and skips
unknown fields, like every record reader here; a failure is located in the field of
`LockHolderRecord` it happened in.
-/

namespace GlobalTxn

namespace LockHolder

/-- The bytes of the record of a holder. -/
def encode (h : LockHolder) : List UInt8 :=
  Wire.stringField 1 h.xid ++ Wire.uint64Field 2 h.transactionId ++
    Wire.uint64Field 3 h.branchId

/-- Reads one field of a holder record. -/
def readField (h : LockHolder) (tag : Nat) (w : Wire.WireType) : Wire.Read LockHolder :=
  fun bytes =>
    let inField {α : Type} (field : String) (x : Except Wire.DecodeError α) :=
      Wire.within "LockHolderRecord" field x
    match tag with
    | 1 => inField "xid" do
      let (v, rest) ← Wire.readString w bytes
      pure ({ h with xid := v }, rest)
    | 2 => inField "transaction_id" do
      let (v, rest) ← Wire.readUInt64 w bytes
      pure ({ h with transactionId := v }, rest)
    | 3 => inField "branch_id" do
      let (v, rest) ← Wire.readUInt64 w bytes
      pure ({ h with branchId := v }, rest)
    | _ => (fun (_, rest) => (h, rest)) <$> Wire.skipField 100 tag w bytes

/-- Reads a holder from the bytes of its record. -/
def decode (bytes : List UInt8) : Except Wire.DecodeError LockHolder :=
  Wire.readMessage readField ⟨"", 0, 0⟩ bytes

example : decode (encode ⟨"tc:1", 7, 300⟩) = .ok ⟨"tc:1", 7, 300⟩ := by rfl

/-- A holder whose numbers fit 64-bit words and whose record takes fewer than `2 ^ 64`
bytes. -/
structure Fits (h : LockHolder) : Prop where
  transactionId : h.transactionId < 18446744073709551616
  branchId : h.branchId < 18446744073709551616
  size : h.encode.length < 18446744073709551616

/-- The Protobuf wire format of holder records. -/
def codec : Wire.Codec LockHolder := ⟨encode, decode, Fits⟩

end LockHolder

end GlobalTxn
