/-! # Transaction ids in text: xids

A global transaction is named by its xid, `address:transactionId`, where the address may
itself contain colons.  The transaction id is read back from the text after the last colon:
an optional `+` and one or more ASCII digits whose value fits in 64 bits.
-/

namespace GlobalTxn

/-- The xid of a transaction: its coordinator's address, a colon, and its id. -/
def formatXid (address : String) (transactionId : Nat) : String :=
  address ++ ":" ++ toString transactionId

/-- The value of a decimal numeral of ASCII digits, most significant first. -/
def decimalValue (ds : List Char) : Nat :=
  Nat.ofDigitChars 10 ds 0

/-- An unsigned 64-bit number in decimal without a sign: one or more ASCII digits, with a
value below `UInt64.size`. -/
def parseDigits? (ds : List Char) : Option Nat :=
  if ds.isEmpty || !ds.all Char.isDigit then none
  else if decimalValue ds < UInt64.size then some (decimalValue ds)
  else none

/-- An unsigned 64-bit number in decimal: an optional `+`, then its digits. -/
def parseWord? : List Char → Option Nat
  | '+' :: digits => parseDigits? digits
  | digits => parseDigits? digits

/-- The text after the last colon, if there is a colon. -/
def afterLastColon? (cs : List Char) : Option (List Char) :=
  if cs.contains ':' then some (cs.reverse.takeWhile (· != ':')).reverse else none

/-- The transaction id named by an xid. -/
def transactionId? (xid : String) : Option Nat :=
  (afterLastColon? xid.toList).bind parseWord?

end GlobalTxn
