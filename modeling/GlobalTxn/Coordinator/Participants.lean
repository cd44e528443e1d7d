import GlobalTxn.Session.Global

/-! # Branch participants

Participants answer from scripts: each branch has a queue of replies, and a branch whose
queue is empty answers with success.  A reply may also be that the participant cannot be
reached, or that it never answers.  Every request is logged as a `Call`; purging undo logs is
logged too, and fails while injected purge failures remain.
-/

namespace GlobalTxn

/-- A scripted answer of a participant. -/
inductive Reply where
  /-- Answers a commit or rollback with this status, and a delete with success. -/
  | status (s : BranchStatus)
  /-- Answers a delete with this flag, and a commit or rollback with success. -/
  | deleted (ok : Bool)
  /-- The participant cannot be reached. -/
  | unreachable
  /-- The participant never answers. -/
  | hang
  deriving DecidableEq, Repr

/-- What a phase-two or delete request asks of a participant. -/
inductive Action where
  | commit
  | rollback
  | delete
  deriving DecidableEq, Repr

/-- The name of an action. -/
def Action.name : Action → String
  | .commit => "commit"
  | .rollback => "rollback"
  | .delete => "delete"

/-- A logged request to participants. -/
inductive Call where
  /-- A request about one branch, with the branch status sent along. -/
  | branch (action : Action) (xid : String) (branchId : Nat) (status : BranchStatus)
  /-- A request to purge undo logs older than some days. -/
  | purge (saveDays : Nat)
  deriving DecidableEq, Repr

/-- The xid a call is about; purges are about none. -/
def Call.xid : Call → String
  | .branch _ xid _ _ => xid
  | .purge _ => ""

/-- The branch participants: their scripted replies, how many purges fail, whether purging
is a request at all, and the log of requests. -/
structure Participants where
  replies : List (Nat × List Reply) := []
  failPurges : Nat := 0
  purgeIsRequest : Bool := true
  calls : List Call := []
  deriving DecidableEq, Repr, Inhabited

namespace Participants

/-- The replies queued for a branch. -/
def queue (p : Participants) (branchId : Nat) : List Reply :=
  ((p.replies.find? (·.1 == branchId)).map (·.2)).getD []

/-- Sets the replies queued for a branch. -/
def setQueue (p : Participants) (branchId : Nat) (q : List Reply) : Participants :=
  { p with replies := (p.replies.filter (·.1 != branchId)) ++ [(branchId, q)] }

/-- Queues more replies for a branch, after those already queued. -/
def script (p : Participants) (branchId : Nat) (rs : List Reply) : Participants :=
  p.setQueue branchId (p.queue branchId ++ rs)

/-- Logs a request about a branch and takes its next reply, if any. -/
def request (p : Participants) (action : Action) (b : Branch) : Option Reply × Participants :=
  let p := { p with calls := p.calls ++ [.branch action b.xid b.branchId b.status] }
  match p.queue b.branchId with
  | [] => (none, p)
  | r :: rs => (some r, p.setQueue b.branchId rs)

end Participants

end GlobalTxn
