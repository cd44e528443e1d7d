import GlobalTxn.Text.Utf8

/-! # The Protobuf wire format

Records are stored in the Protobuf wire format: a message is a run of fields, each a key
(the field's tag and wire type, as a varint) and a value.  This module writes and reads the
pieces: base-128 varints of at most ten bytes for 64-bit words, keys, and length-delimited
bytes and text, and it skips fields a reader does not know, groups included.

Writing leaves out fields at their default (zero or empty).  A negative 32-bit integer is
written as its 64-bit two's complement, in ten bytes.

A failed read names its problem, and the path of message fields it happened in, innermost
first; `DecodeError.message` gives the text.  Reading works on the whole rest of the input:
a nested message is read until the rest has shrunk by its length, and a field that reads
past that point is an error of the nested message.
-/

namespace GlobalTxn.Wire

/-- The six wire types. -/
inductive WireType where
  | varint
  | sixtyFourBit
  | lengthDelimited
  | startGroup
  | endGroup
  | thirtyTwoBit
  deriving DecidableEq, Repr

namespace WireType

/-- The code of a wire type in a key. -/
def code : WireType → Nat
  | varint => 0
  | sixtyFourBit => 1
  | lengthDelimited => 2
  | startGroup => 3
  | endGroup => 4
  | thirtyTwoBit => 5

/-- The wire type of a code. -/
def ofCode? : Nat → Option WireType
  | 0 => some varint
  | 1 => some sixtyFourBit
  | 2 => some lengthDelimited
  | 3 => some startGroup
  | 4 => some endGroup
  | 5 => some thirtyTwoBit
  | _ => none

/-- The name of a wire type. -/
def name : WireType → String
  | varint => "Varint"
  | sixtyFourBit => "SixtyFourBit"
  | lengthDelimited => "LengthDelimited"
  | startGroup => "StartGroup"
  | endGroup => "EndGroup"
  | thirtyTwoBit => "ThirtyTwoBit"

theorem ofCode?_code (w : WireType) : ofCode? w.code = some w := by cases w <;> rfl

end WireType

/-- Why bytes cannot be read. -/
inductive Problem where
  | invalidVarint
  | bufferUnderflow
  | invalidKey (key : Nat)
  | invalidWireTypeValue (value : Nat)
  | invalidTag
  | invalidWireType (actual expected : WireType)
  | notUtf8
  | unexpectedEndGroup
  | delimitedLengthExceeded
  | recursionLimit
  deriving DecidableEq, Repr

/-- Text of a problem. -/
def Problem.message : Problem → String
  | .invalidVarint => "invalid varint"
  | .bufferUnderflow => "buffer underflow"
  | .invalidKey key => s!"invalid key value: {key}"
  | .invalidWireTypeValue v => s!"invalid wire type value: {v}"
  | .invalidTag => "invalid tag value: 0"
  | .invalidWireType actual expected =>
    s!"invalid wire type: {actual.name} (expected {expected.name})"
  | .notUtf8 => "invalid string value: data is not UTF-8 encoded"
  | .unexpectedEndGroup => "unexpected end group tag"
  | .delimitedLengthExceeded => "delimited length exceeded"
  | .recursionLimit => "recursion limit reached"

/-- A failed read: the problem, and the message fields it happened in, innermost first. -/
structure DecodeError where
  path : List (String × String) := []
  problem : Problem
  deriving DecidableEq, Repr

/-- Text of a failed read. -/
def DecodeError.message (e : DecodeError) : String :=
  "failed to decode Protobuf message: " ++
    String.join (e.path.map fun (m, f) => s!"{m}.{f}: ") ++ e.problem.message

/-- Reading the rest of the input. -/
abbrev Read (α : Type) := List UInt8 → Except DecodeError (α × List UInt8)

/-- Fails with a problem. -/
def fail {α : Type} (p : Problem) : Except DecodeError α := .error { problem := p }

/-- Marks the failures of a read as happening in field `field` of message `msg`. -/
def within {α : Type} (msg field : String) (r : Except DecodeError α) : Except DecodeError α :=
  match r with
  | .error e => .error { e with path := e.path ++ [(msg, field)] }
  | ok => ok

/-! ## Varints -/

/-- The varint of a number below `2 ^ 64`: seven bits a byte, low bits first, the top bit of
each byte but the last set. -/
def writeVarint (n : Nat) : List UInt8 := go (n + 1) n
where
  /-- Writes `n`; each byte takes seven bits off, so `fuel` above the byte count suffices. -/
  go : Nat → Nat → List UInt8
    | 0, _ => []
    | fuel + 1, n => if n < 128 then [n.toUInt8] else (n % 128 + 128).toUInt8 :: go fuel (n / 128)

/-- Reads a varint of at most ten bytes; the tenth byte may only hold the top bit of a 64-bit
word. -/
def readVarint : Read Nat := go 0 0
where
  /-- Reads byte `i` of a varint whose lower bytes gave `acc`. -/
  go (i acc : Nat) : Read Nat
    | [] => fail .invalidVarint
    | b :: rest =>
      let acc := acc + (b.toNat % 128) <<< (7 * i)
      if b.toNat < 128 then
        if i = 9 ∧ 2 ≤ b.toNat then fail .invalidVarint else .ok (acc, rest)
      else if i = 9 then fail .invalidVarint
      else go (i + 1) acc rest

/-- A 64-bit two's complement word of a 32-bit signed integer. -/
def wordOfInt (v : Int) : Nat := if v < 0 then ((UInt64.size : Int) + v).toNat else v.toNat

/-- The 32-bit signed integer of the low 32 bits of a word. -/
def int32OfWord (w : Nat) : Int :=
  let low : Nat := w % UInt32.size
  if low < UInt32.size / 2 then (low : Int) else (low : Int) - UInt32.size

/-! ## Writing fields -/

/-- The key of a field. -/
def key (tag : Nat) (w : WireType) : List UInt8 := writeVarint (tag * 8 + w.code)

/-- A 64-bit unsigned field, left out at zero. -/
def uint64Field (tag : Nat) (v : Nat) : List UInt8 :=
  if v = 0 then [] else key tag .varint ++ writeVarint v

/-- A 32-bit signed field, left out at zero. -/
def int32Field (tag : Nat) (v : Int) : List UInt8 :=
  if v = 0 then [] else key tag .varint ++ writeVarint (wordOfInt v)

/-- Length-delimited bytes under a key. -/
def delimited (tag : Nat) (bytes : List UInt8) : List UInt8 :=
  key tag .lengthDelimited ++ writeVarint bytes.length ++ bytes

/-- A text field, left out when empty. -/
def stringField (tag : Nat) (s : String) : List UInt8 :=
  if s.isEmpty then [] else delimited tag (Text.Utf8.encode s)

/-! ## Reading fields -/

/-- Reads a key: the tag (at least one) and the wire type. -/
def readKey : Read (Nat × WireType) := fun bytes => do
  let (k, rest) ← readVarint bytes
  if k ≥ UInt32.size then fail (.invalidKey k)
  else
    match WireType.ofCode? (k % 8) with
    | none => fail (.invalidWireTypeValue (k % 8))
    | some w => if k / 8 = 0 then fail .invalidTag else .ok ((k / 8, w), rest)

/-- Checks that a field has the wire type its reader expects. -/
def expect (expected actual : WireType) : Except DecodeError Unit :=
  if actual = expected then .ok () else fail (.invalidWireType actual expected)

/-- Reads the value of a 64-bit unsigned field. -/
def readUInt64 (w : WireType) : Read Nat := fun bytes => do
  expect .varint w
  readVarint bytes

/-- Reads the value of a 32-bit signed field: the low 32 bits of the varint. -/
def readInt32 (w : WireType) : Read Int := fun bytes => do
  expect .varint w
  let (v, rest) ← readVarint bytes
  pure (int32OfWord v, rest)

/-- Reads a length and checks that as many bytes follow. -/
def readLength : Read Nat := fun bytes => do
  let (n, rest) ← readVarint bytes
  if n > rest.length then fail .bufferUnderflow else pure (n, rest)

/-- Reads the value of a text field. -/
def readString (w : WireType) : Read String := fun bytes => do
  expect .lengthDelimited w
  let (n, rest) ← readLength bytes
  match Text.Utf8.toString? (rest.take n) with
  | some s => pure (s, rest.drop n)
  | none => fail .notUtf8

/-- Drops `n` bytes, which must be there. -/
def readFixed (n : Nat) : Read Unit := fun bytes =>
  if n > bytes.length then fail .bufferUnderflow else .ok ((), bytes.drop n)

/-- Skips a value that is not a group. -/
def skipPlain (w : WireType) : Read Unit := fun bytes =>
  match w with
  | .varint => (fun (_, rest) => ((), rest)) <$> readVarint bytes
  | .sixtyFourBit => readFixed 8 bytes
  | .thirtyTwoBit => readFixed 4 bytes
  | .lengthDelimited => do
    let (n, rest) ← readLength bytes
    pure ((), rest.drop n)
  | .startGroup | .endGroup => fail .unexpectedEndGroup

/-- Skips the rest of the open groups `open` (innermost first).  Fields nested `depth` or
more groups deep are refused.  Each key read takes at least one byte, so `fuel` bytes of
input need at most `fuel` rounds. -/
def skipGroups (depth : Nat) : Nat → List Nat → Read Unit
  | _, [], bytes => .ok ((), bytes)
  | 0, _ :: _, _ => fail .invalidVarint
  | fuel + 1, tag :: outer, bytes => do
    let ((inner, w), rest) ← readKey bytes
    match w with
    | .endGroup =>
      if inner = tag then skipGroups depth fuel outer rest else fail .unexpectedEndGroup
    | .startGroup =>
      if depth ≤ outer.length + 1 then fail .recursionLimit
      else skipGroups depth fuel (inner :: tag :: outer) rest
    | w =>
      if depth ≤ outer.length + 1 then fail .recursionLimit
      else
        let ((), rest) ← skipPlain w rest
        skipGroups depth fuel (tag :: outer) rest

/-- Skips the value of a field a reader does not know; `depth` is how many more levels of
nesting the reader allows. -/
def skipField (depth : Nat) (tag : Nat) (w : WireType) : Read Unit := fun bytes =>
  if depth = 0 then fail .recursionLimit
  else
    match w with
    | .startGroup => skipGroups depth (bytes.length + 1) [tag] bytes
    | .endGroup => fail .unexpectedEndGroup
    | w => skipPlain w bytes

/-- Reads the fields of a message into `m` until only `limit` bytes are left.  `field`
reads one field's value; each round reads a key, so `fuel` bytes need at most `fuel` rounds. -/
def readFields {M : Type} (field : M → Nat → WireType → Read M) (limit : Nat) :
    Nat → M → Read M
  | 0, m, bytes => .ok (m, bytes)
  | fuel + 1, m, bytes =>
    if bytes.length ≤ limit then .ok (m, bytes)
    else do
      let ((tag, w), rest) ← readKey bytes
      let (m, rest) ← field m tag w rest
      readFields field limit fuel m rest

/-- Reads a whole message from bytes. -/
def readMessage {M : Type} (field : M → Nat → WireType → Read M) (m : M)
    (bytes : List UInt8) :
    Except DecodeError M :=
  (·.1) <$> readFields field 0 bytes.length m bytes

/-- Reads a length-delimited nested message into `m`. -/
def readNested {M : Type} (field : M → Nat → WireType → Read M) (m : M) (w : WireType) :
    Read M := fun bytes => do
  expect .lengthDelimited w
  let (n, rest) ← readLength bytes
  let limit := rest.length - n
  let (m, after) ← readFields field limit rest.length m rest
  if after.length = limit then pure (m, after) else fail .delimitedLengthExceeded

example : writeVarint 300 = [0xAC, 0x02] := by decide
example : readVarint [0xAC, 0x02, 7] = .ok (300, [7]) := rfl

/-! ## Codecs -/

/-- A codec of the records of type `α`: the bytes a record is written as, the record read back
from bytes or why none can be, and the records it is meant to write, whose numbers fit the
words they are written in.  The stores write and read their records through one. -/
structure Codec (α : Type) where
  encode : α → List UInt8
  decode : List UInt8 → Except DecodeError α
  fits : α → Prop

/-- A codec reads back the record `a` from the bytes it writes for it. -/
def Codec.ReadsBack {α : Type} (codec : Codec α) (a : α) : Prop :=
  codec.decode (codec.encode a) = .ok a

/-- A codec reads back every record it is meant to write. -/
def Codec.RoundTrips {α : Type} (codec : Codec α) : Prop :=
  ∀ a, codec.fits a → codec.ReadsBack a

end GlobalTxn.Wire
