import GlobalTxn.Protocol.Status
import GlobalTxn.Protocol.Ident
import GlobalTxn.Protocol.Stores
import GlobalTxn.Protocol.Scenario
import GlobalTxn.Protocol.Records
import GlobalTxn.Protocol.EtcdUri
import GlobalTxn.Protocol.StopSignal
import GlobalTxn.Protocol.Etcd
import GlobalTxn.Protocol.Document

/-! # Answering requests

Every request is an object whose member `op` names what is asked; `answer` dispatches on it.
A request that cannot be read is answered by a `BadInput` error naming the problem, and one
that stops the program by a `Panic` error with what the program said.  `answerLine` reads a
request from its line of text and writes the answer as a line.
-/

namespace GlobalTxn.Protocol

open Member


/-- The answer to a request, or the complaint about it. -/
def dispatch (req : Value) : Decode Value := do
  let op ← need req "op" string
  match op with
  | "global_status" => answerGlobalStatus req
  | "can_transit" => answerCanTransit req
  | "branch_status" => answerBranchStatus req
  | "branch_type" => answerBranchType req
  | "xid" => answerXid req
  | "id_generator" => answerIdGenerator req
  | "node_id_of" => answerNodeIdOf req
  | "millis_of" => answerMillisOf req
  | "clock" => answerClock req
  | "scan_kinds" => pure answerScanKinds
  | "parse_lock_key" => answerParseLockKey req
  | "row_key" => answerRowKey req
  | "global_session" => answerGlobalSession req
  | "session_store" => answerSessionStore req
  | "lock_store" => answerLockStore req
  | "locker" => answerLocker req
  | "etcd_session_store" => answerEtcdSessionStore req
  | "etcd_lock_store" => answerEtcdLockStore req
  | "etcd_locker" => answerEtcdLocker req
  | "coordinator" => answerScenario req
  | "session_record" => answerSessionRecord req
  | "record" => answerRecord req
  | "record_decode" => answerRecordDecode req
  | "etcd_uri" => answerEtcdUri req
  | "config" => answerConfig req
  | "drop_watcher" => answerDropWatcher req
  | other => throw s!"unknown op {other}"

/-- The answer to one request. -/
def answer (req : Value) : Value :=
  match dispatch req with
  | .ok v => v
  | .error r => r.answer

/-- The answer to one request line, written compactly: a line that is no JSON document is a
malformed request. -/
def answerLine (line : String) : String :=
  match Value.ofText? line with
  | .ok req => (answer req).compact
  | .error reason => (Refusal.badInput s!"invalid json: {reason}").answer.compact

end GlobalTxn.Protocol
