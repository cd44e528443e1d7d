import GlobalTxn.Session.Branch
import GlobalTxn.Status.Global
import GlobalTxn.Time

/-! # Global sessions

A `GlobalSession` is one distributed transaction with its branches in registration order.
Its status moves only along the edges of `GlobalStatus.canTransitTo` when it moves through
`transit`; an attempt to take another edge is an `IllegalTransition`.

The branch list is the view of a session's branches: `addBranch` appends, `removeBranch`
drops the first branch with a given id, `setBranchStatus` updates it in place.

Main statements: `branchIds_addBranch`, `transit_status` and `transit_eq_error_iff`.
-/

namespace GlobalTxn

/-- An attempt to move a global session along an edge the state machine does not have. -/
structure IllegalTransition where
  source : GlobalStatus
  target : GlobalStatus
  deriving DecidableEq, Repr

/-- Text of an illegal transition. -/
def IllegalTransition.message (e : IllegalTransition) : String :=
  s!"illegal global status transition from {e.source} to {e.target}"

/-- One distributed transaction and its branches in registration order. -/
structure GlobalSession where
  xid : String
  transactionId : Nat
  applicationId : String
  transactionServiceGroup : String
  transactionName : String
  status : GlobalStatus
  timeout : Duration
  beginTime : Nat
  gmtUpdated : Nat
  applicationData : String
  branches : List Branch
  deriving DecidableEq, Repr, Inhabited

namespace GlobalSession

/-- A session that just began at `now`: status `begin`, no branches, no application data. -/
def new (xid : String) (transactionId : Nat)
    (applicationId transactionServiceGroup transactionName : String)
    (timeout : Duration) (now : Nat) : GlobalSession :=
  { xid, transactionId, applicationId, transactionServiceGroup, transactionName,
    status := .begin, timeout, beginTime := now, gmtUpdated := now, applicationData := "",
    branches := [] }

/-- The ids of the branches, in registration order. -/
def branchIds (s : GlobalSession) : List Nat := s.branches.map (·.branchId)

/-- Whether the session has any branch. -/
def hasBranch (s : GlobalSession) : Bool := !s.branches.isEmpty

/-- The first branch with the given id. -/
def findBranch? (s : GlobalSession) (branchId : Nat) : Option Branch :=
  s.branches.find? (·.branchId == branchId)

/-- Appends a branch after the others. -/
def addBranch (s : GlobalSession) (b : Branch) : GlobalSession :=
  { s with branches := s.branches ++ [b] }

/-- Drops the first branch with the given id. -/
def removeBranch (s : GlobalSession) (branchId : Nat) : GlobalSession :=
  { s with branches := s.branches.eraseP (·.branchId == branchId) }

/-- Replaces the first branch whose id is that of `b` by `b`. -/
def replaceBranch (s : GlobalSession) (b : Branch) : GlobalSession :=
  { s with branches := replaceFirst s.branches }
where
  /-- Replaces the first branch with `b`'s id. -/
  replaceFirst : List Branch → List Branch
    | [] => []
    | c :: cs => if c.branchId == b.branchId then b :: cs else c :: replaceFirst cs

/-- Sets the status of the first branch with the given id, if there is one. -/
def setBranchStatus (s : GlobalSession) (branchId : Nat) (status : BranchStatus) : GlobalSession :=
  match s.findBranch? branchId with
  | some b => s.replaceBranch { b with status }
  | none => s

/-- The instant the session times out: its begin time plus its timeout, saturated. -/
def deadline (s : GlobalSession) : Nat := Millis.addSat s.beginTime s.timeout.millis

/-- Whether the session has timed out at `now`. -/
def isTimedOut (s : GlobalSession) (now : Nat) : Bool := decide (s.deadline ≤ now)

/-- Whether every branch may finish phase-two commit after the outcome is reported. -/
def canBeCommittedAsync (s : GlobalSession) : Bool :=
  s.branches.all (·.branchType.commitsAsync)

/-- Whether every branch reports the global outcome itself. -/
def reportsGlobalOutcome (s : GlobalSession) : Bool :=
  s.branches.all (·.branchType.reportsGlobalOutcome)

/-- Moves the session to `target` at `now`, if the state machine has that edge. -/
def transit (s : GlobalSession) (target : GlobalStatus) (now : Nat) :
    Except IllegalTransition GlobalSession :=
  if s.status.canTransitTo target then .ok { s with status := target, gmtUpdated := now }
  else .error ⟨s.status, target⟩

/-- Text of a session: `xid(Status, n branches)`. -/
def display (s : GlobalSession) : String :=
  s!"{s.xid}({s.status}, {s.branches.length} branches)"

@[simp] theorem branchIds_addBranch (s : GlobalSession) (b : Branch) :
    (s.addBranch b).branchIds = s.branchIds ++ [b.branchId] := by
  simp [branchIds, addBranch]

theorem transit_status {s t : GlobalSession} {target : GlobalStatus} {now : Nat}
    (h : s.transit target now = .ok t) : t.status = target ∧ t.gmtUpdated = now := by
  unfold transit at h
  split at h
  · cases h; exact ⟨rfl, rfl⟩
  · cases h

theorem transit_eq_error_iff (s : GlobalSession) (target : GlobalStatus) (now : Nat) (e) :
    s.transit target now = .error e ↔
      s.status.canTransitTo target = false ∧ e = ⟨s.status, target⟩ := by
  unfold transit
  cases h : s.status.canTransitTo target
  · simp only [Bool.false_eq_true, if_false, Except.error.injEq, true_and]
    exact ⟨fun he => he.symm, fun he => he.symm⟩
  · simp

end GlobalSession

end GlobalTxn
