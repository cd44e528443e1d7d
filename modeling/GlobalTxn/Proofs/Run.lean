import GlobalTxn.Coordinator.Operations
import GlobalTxn.Coordinator.Admin
import GlobalTxn.Coordinator.Pool

/-! # Runs of a coordinator

A run starts from empty stores and performs, one at a time, the coordinator's operations: those
of transaction managers and participants, the five scans and the operators' commands
(`Op`).  Between them the world may change on its own (`Event`): participants get new scripted
replies, the manual clock moves, and session-store calls may be made to fail.

An operation runs alone: its steps follow each other with nothing in between, and a wait for
a silent participant ends at once.  Inside a scan the handlers of the candidates still run side
by side, as `Pool` has them.

The views the statements about runs use are `Env.stored` (the session kept under an xid) and
`Env.lockRows` (the held rows with their holders).
-/

namespace GlobalTxn

/-- The coordinator's operations with their arguments. -/
inductive Op where
  | begin (applicationId group name : String) (timeout : Duration)
  | register (t : BranchType) (resourceId clientId xid applicationData lockKey : String)
  | report (xid : String) (branchId : Nat) (status : BranchStatus)
      (applicationData : Option String)
  | commit (xid : String)
  | rollback (xid : String)
  | status (xid : String)
  | globalReport (xid : String) (status : GlobalStatus)
  | lockQuery (t : BranchType) (resourceId xid lockKey : String)
  | recover
  | scan (kind : ScanKind)
  | deleteGlobal (xid : String)
  | forceDeleteGlobal (xid : String)
  | stopRetry (xid : String)
  | startRetry (xid : String)
  | send (xid : String)
  | changeStatus (xid : String)
  | deleteBranch (xid : String) (branchId : Nat)
  | forceDeleteBranch (xid : String) (branchId : Nat)

namespace Op

/-- What an operation does under settings `c`; only whether it succeeded is kept. -/
def program (c : Config) : Op → CoordM Unit
  | begin a g n t => discard (CoordM.begin c a g n t)
  | register t r cl x d k => discard (CoordM.register t r cl x d k)
  | report x id s d => CoordM.report x id s d
  | commit x => discard (CoordM.commit c x)
  | rollback x => discard (CoordM.rollback c x)
  | status x => discard (CoordM.status x)
  | globalReport x s => discard (CoordM.globalReport x s)
  | lockQuery t r x k => discard (CoordM.lockQuery t r x k)
  | recover => discard CoordM.recover
  | scan kind => discard (CoordM.scanNow c kind)
  | deleteGlobal x => CoordM.deleteGlobal c x
  | forceDeleteGlobal x => CoordM.forceDeleteGlobal x
  | stopRetry x => discard (CoordM.stopRetry x)
  | startRetry x => discard (CoordM.startRetry x)
  | send x => discard (CoordM.send c x)
  | changeStatus x => discard (CoordM.changeStatus x)
  | deleteBranch x id => CoordM.deleteBranch c x id
  | forceDeleteBranch x id => CoordM.forceDeleteBranch x id

end Op

/-- One step of a run: an operation of the coordinator, or a change of its world. -/
inductive Event where
  | op (o : Op)
  /-- The participant of a branch queues more replies. -/
  | script (branchId : Nat) (replies : List Reply)
  /-- The manual clock moves forward. -/
  | advance (span : Nat)
  /-- The next `n` session-store writes fail. -/
  | failWrites (n : Nat)
  /-- The next `n` session-store reads fail. -/
  | failReads (n : Nat)

namespace Event

/-- Whether the event makes store calls fail. -/
def injectsFailure : Event → Bool
  | failWrites _ | failReads _ => true
  | _ => false

/-- The world after an event, for a coordinator with settings `c`. -/
def apply (c : Config) : Event → Env → Env
  | op o, env => (Steps.run (o.program c).run env).2
  | script id rs, env => { env with participants := env.participants.script id rs }
  | advance span, env => { env with clock := env.clock.advance span }
  | failWrites n, env => { env with faults := { env.faults with sessionWrites := n } }
  | failReads n, env => { env with faults := { env.faults with sessionReads := n } }

end Event

/-- The world after the events of a run, in order. -/
def runEvents (c : Config) (events : List Event) (env : Env) : Env :=
  events.foldl (fun env e => e.apply c env) env

@[simp]
theorem runEvents_nil (c : Config) (env : Env) : runEvents c [] env = env := rfl

@[simp]
theorem runEvents_cons (c : Config) (e : Event) (events : List Event) (env : Env) :
    runEvents c (e :: events) env = runEvents c events (e.apply c env) := rfl

theorem runEvents_append (c : Config) (es fs : List Event) (env : Env) :
    runEvents c (es ++ fs) env = runEvents c fs (runEvents c es env) := List.foldl_append

/-- An outcome whose success is `a` is the success `a`; outcomes have no decidable equality, their
successes may. -/
theorem Except.eq_ok_of_toOption {ε α : Type} {r : Except ε α} {a : α}
    (h : r.toOption = some a) : r = .ok a := by
  cases r with
  | error e => cases h
  | ok b => cases h; rfl

namespace Env

/-- The session stored under `xid`, where sessions are kept in a table. -/
def stored (env : Env) (xid : String) : Option GlobalSession :=
  match env.sessions with
  | .table t => t.find? xid
  | .etcd _ => none

/-- The held rows with their holders, where row locks are kept in a table. -/
def lockRows (env : Env) : List (String × LockHolder) :=
  match env.locks with
  | .table t => t.rows
  | .etcd _ _ => []

/-- Where a run starts: no sessions and no row locks, both kept in memory, no store call set
to fail, and no participant asked anything yet. -/
structure Fresh (env : Env) : Prop where
  sessions : env.sessions = .table {}
  locks : env.locks = .table {}
  faults : env.faults = {}
  calls : env.participants.calls = []

end Env

end GlobalTxn
