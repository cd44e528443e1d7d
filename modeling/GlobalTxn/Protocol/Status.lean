import GlobalTxn.Protocol.Value
import GlobalTxn.Session.BranchType
import GlobalTxn.Status.Global

/-! # Answers about statuses and branch types

Describes a global status (its predicates, the groups it belongs to and where it may move),
one edge of the state machine, a branch status, and a branch type with its treatment of every
branch status.
-/

namespace GlobalTxn.Protocol

open Member

/-- A global status named by a request member; an unknown code is a bad input. -/
def globalStatusField (key : String) (x : Value) : Decode GlobalStatus := do
  let c ← int32 key x
  match GlobalStatus.ofCode? c with
  | some s => pure s
  | none => throw s!"unknown global status code {c}"

/-- A branch status named by a request member; an unknown code is a bad input. -/
def branchStatusField (key : String) (x : Value) : Decode BranchStatus := do
  let c ← int32 key x
  match BranchStatus.ofCode? c with
  | some s => pure s
  | none => throw s!"unknown branch status code {c}"

/-- A branch type named by a request member; an unknown code is a bad input. -/
def branchTypeField (key : String) (x : Value) : Decode BranchType := do
  let c ← int32 key x
  match BranchType.ofCode? c with
  | some t => pure t
  | none => throw s!"unknown branch type code {c}"

/-- A global status given as an item of a list of codes; an item that is no 32-bit integer is
a bad status. -/
def globalStatusItem (x : Value) : Decode GlobalStatus := do
  let c ← (int32 "" x).mapError fun _ => Refusal.badInput "bad status"
  match GlobalStatus.ofCode? c with
  | some s => pure s
  | none => throw s!"unknown global status code {c}"

/-- A global status by name. -/
def globalStatusValue (s : GlobalStatus) : Value := .str s.name

/-- A branch status by name. -/
def branchStatusValue (s : BranchStatus) : Value := .str s.name

/-- A global status with its predicates, groups and targets. -/
def describeGlobalStatus (s : GlobalStatus) : Value :=
  .obj [("status", globalStatusValue s), ("code", .int s.code),
    ("is_commit_bound", .bool s.isCommitBound), ("is_rollback_bound", .bool s.isRollbackBound),
    ("is_timeout_rollback", .bool s.isTimeoutRollback),
    ("is_commit_outcome", .bool s.isCommitOutcome),
    ("is_rollback_outcome", .bool s.isRollbackOutcome),
    ("holds_row_locks", .bool s.holdsRowLocks),
    ("member_of", .list (fun g => .str g.1) (GlobalStatus.groups.filter (·.2.contains s))),
    ("can_transit_to", .list globalStatusValue s.targets)]

/-- A branch status with its phase. -/
def describeBranchStatus (s : BranchStatus) : Value :=
  .obj [("status", branchStatusValue s), ("code", .int s.code),
    ("is_phase_one", .bool s.isPhaseOne), ("is_phase_two", .bool s.isPhaseTwo)]

/-- A branch type with its treatment of every branch status. -/
def describeBranchType (t : BranchType) : Value :=
  .obj [("branch_type", .str t.name), ("code", .int t.code), ("name", .str t.name),
    ("holds_row_locks", .bool t.holdsRowLocks), ("commits_async", .bool t.commitsAsync),
    ("reports_global_outcome", .bool t.reportsGlobalOutcome),
    ("per_status", .list perStatus BranchStatus.all)]
where
  /-- The treatment of one branch status. -/
  perStatus (s : BranchStatus) : Value :=
    .obj [("status", branchStatusValue s), ("skips_phase_two", .bool (t.skipsPhaseTwo s)),
      ("accepts_report", .bool (t.acceptsReport s)),
      ("commit_outcome", .str (t.commitOutcome s).name),
      ("rollback_outcome", .str (t.rollbackOutcome s).name)]

/-- Answers `global_status`. -/
def answerGlobalStatus (req : Value) : Decode Value := do
  let c ← need req "code" int32
  pure <| match GlobalStatus.ofCode? c with
    | some s => describeGlobalStatus s
    | none => .obj [("status", .null)]

/-- Answers `can_transit`. -/
def answerCanTransit (req : Value) : Decode Value := do
  let s ← need req "from" globalStatusField
  let t ← need req "to" globalStatusField
  pure <| .obj [("from", globalStatusValue s), ("to", globalStatusValue t),
    ("allowed", .bool (s.canTransitTo t))]

/-- Answers `branch_status`. -/
def answerBranchStatus (req : Value) : Decode Value := do
  let c ← need req "code" int32
  pure <| match BranchStatus.ofCode? c with
    | some s => describeBranchStatus s
    | none => .obj [("status", .null)]

/-- Answers `branch_type`. -/
def answerBranchType (req : Value) : Decode Value := do
  let c ← need req "code" int32
  pure <| match BranchType.ofCode? c with
    | some t => describeBranchType t
    | none => .obj [("branch_type", .null)]

end GlobalTxn.Protocol
