import GlobalTxn.Protocol.Value
import GlobalTxn.Ident.Generator
import GlobalTxn.Ident.Xid
import GlobalTxn.Time
import GlobalTxn.Coordinator.ScanKind

/-! # Answers about ids, xids, time and scan kinds -/

namespace GlobalTxn.Protocol

open Member

/-- An error that is no coordinator error: its kind is `Error`. -/
def plainError (message : String) : Value :=
  .obj [("error", .str "Error"), ("message", .str message)]

/-- A span member given as `<name>_secs` or `<name>_ms`; seconds win.  `none` if neither is
given. -/
def spanField? (req : Value) (name : String) : Decode (Option Nat) := do
  match ← optional req (name ++ "_secs") word with
  | some secs => pure (some (secs * 1000))
  | none => optional req (name ++ "_ms") word

/-- A span member given in milliseconds only. -/
def millisField? (req : Value) (name : String) : Decode (Option Nat) :=
  optional req (name ++ "_ms") word

/-- A span member with a default in milliseconds. -/
def spanField (req : Value) (name : String) (dflt : Nat) : Decode Nat :=
  (spanField? req name).map (·.getD dflt)

/-- Answers `xid`: reads the transaction id of an xid, or writes an xid and reads it back. -/
def answerXid (req : Value) : Decode Value := do
  match ← optional req "xid" (stringCalled "xid") with
  | some xid => pure <| .obj [("transaction_id", .opt .nat (transactionId? xid))]
  | none =>
    let address ← need req "address" string
    let id ← need req "transaction_id" word
    let xid := formatXid address id
    pure <| .obj [("xid", .str xid), ("parsed", .opt .nat (transactionId? xid))]

/-- Answers `id_generator`: the ids after `skip` discarded ones. -/
def answerIdGenerator (req : Value) : Decode Value := do
  let nodeId ← need req "node_id" shortWord
  let now ← need req "now" word
  let skip ← withDefault req "skip" word 0
  let count ← withDefault req "count" word 3
  if 200 < count ∨ 2000000 < skip then throw "count at most 200 and skip at most 2000000"
  pure <| match IdGenerator.create nodeId now with
    | .error e => plainError e.message
    | .ok g =>
      let ids := ((g.skip skip).take count).1
      .obj [("ids", .list .nat ids), ("node_ids", .list (.nat ∘ IdGenerator.nodeIdOf) ids)]

/-- Answers `node_id_of`. -/
def answerNodeIdOf (req : Value) : Decode Value := do
  let id ← need req "id" word
  pure <| .obj [("node_id", .nat (IdGenerator.nodeIdOf id))]

/-- Answers `millis_of`. -/
def answerMillisOf (req : Value) : Decode Value := do
  let secs ← withDefault req "secs" word 0
  let nanos ← withDefault req "nanos" word 0
  if nanos ≥ 1000000000 then throw "nanos out of range"
  pure <| .obj [("millis", .nat (millisOf (spanOfParts secs nanos)))]

/-- Answers `clock`.  A manual clock shows its reading.  The readings of the system clock
follow the wall time (`SystemClock.read`), so only facts that hold at every wall time are
answered: its readings never go back, the first one lies after 2020, moving it does nothing,
and little time has passed since the first reading. -/
def answerClock (req : Value) : Decode Value := do
  match ← optional req "manual" (fun _ x => (word "manual" x).mapError
      fun _ => Refusal.badInput "manual is not u64") with
  | some now => pure <| .obj [("debug", .str s!"Clock::Manual({now})"), ("now", .nat now)]
  | none =>
    let _ ← withDefault req "default" boolean false
    pure <| .obj [("debug", .str "Clock::System"), ("monotonic", .bool true),
      ("after_2020", .bool true), ("advance_ignored", .bool true), ("elapsed_small", .bool true)]

/-- Answers `scan_kinds`. -/
def answerScanKinds : Value :=
  .obj [("kinds", .list (fun k => .obj [("kind", .str k.name), ("lock_name", .str k.lockName)])
    ScanKind.all)]

end GlobalTxn.Protocol
