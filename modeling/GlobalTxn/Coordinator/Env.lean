import GlobalTxn.Coordinator.Storage
import GlobalTxn.Coordinator.Error
import GlobalTxn.Ident.Xid
import GlobalTxn.Steps

/-! # What a coordinator works against

A coordinator node reads the manual clock, keeps sessions in a session service and row locks
in a lock service, draws ids from its generator, and sends phase-two requests to the branch
participants.  `Env` bundles these; every coordinator operation is a computation in `CoordM`,
which may fail with a `CoordError` and keeps the effects made before the failure.  Each call
on the environment is one atomic step (`Steps`), so that operations of several nodes on shared
stores can be interleaved call by call.

Participants answer from scripts: each branch has a queue of replies, and a branch whose
queue is empty answers with success.  A reply may also be that the participant cannot be
reached, or that it never answers.  Every request is logged as a `Call`.

The lease locks that keep two nodes from running the same scan at once live in the same
environment, as the nodes share them.  Within one node, a scan handler latches the xid of its
session for as long as it runs, waits included; `Env.latched` holds the latched xids of the
node at work, lent to the environment like its id generator.

Participants are asked with a time limit, the branch timeout: one that never answers leaves
the computation waiting that long in the time of the runtime (`CoordM.sleep`), a pause of
its program, during which the runtime may run other tasks.
-/

namespace GlobalTxn

/-- A computation on the environment as one atomic step; its failure is kept. -/
def EnvM.atomic {ε α : Type} (m : EnvM ε α) : ExceptT ε (Steps Env) α :=
  ExceptT.mk (Steps.atomic m.run)

/-- Coordinator computations: they may fail, and keep the effects made before a failure.  Each
call on the stores, the participants or the rest of the environment is one atomic step. -/
abbrev CoordM := ExceptT CoordError (Steps Env)

namespace CoordM

/-- The session store as the coordinator reaches it, each call one atomic step. -/
def sessionStore : SessionStore (ExceptT StoreError (Steps Env)) where
  add s := EnvM.atomic (Env.sessionStore.add s)
  update s := EnvM.atomic (Env.sessionStore.update s)
  remove xid := EnvM.atomic (Env.sessionStore.remove xid)
  addBranch b := EnvM.atomic (Env.sessionStore.addBranch b)
  updateBranch b := EnvM.atomic (Env.sessionStore.updateBranch b)
  removeBranch xid id := EnvM.atomic (Env.sessionStore.removeBranch xid id)
  find? xid := EnvM.atomic (Env.sessionStore.find? xid)
  findBy ss := EnvM.atomic (Env.sessionStore.findBy ss)

/-- The lock store as the coordinator reaches it, each call one atomic step. -/
def lockStore : LockStore (ExceptT LockError (Steps Env)) where
  acquire locks := EnvM.atomic (Env.lockStore.acquire locks)
  release locks := EnvM.atomic (Env.lockStore.release locks)
  owner? key := EnvM.atomic (Env.lockStore.owner? key)

/-- Runs session-store calls; their failure is a coordinator failure by `wrap`. -/
def storeWith {α : Type} (wrap : StoreError → CoordError) (m : ExceptT StoreError (Steps Env) α) :
    CoordM α :=
  ExceptT.adapt wrap m

/-- Runs session-store calls. -/
def store {α : Type} (m : ExceptT StoreError (Steps Env) α) : CoordM α := storeWith .store m

/-- Runs session-store calls and keeps their outcome, failed or not. -/
def storeResult {α : Type} (m : ExceptT StoreError (Steps Env) α) :
    CoordM (Except StoreError α) :=
  ExceptT.lift m.run

/-- Runs lock calls. -/
def locking {α : Type} (m : ExceptT LockError (Steps Env) α) : CoordM α :=
  ExceptT.adapt CoordError.ofLock m

/-- Runs lock calls and keeps their outcome, failed or not. -/
def lockingResult {α : Type} (m : ExceptT LockError (Steps Env) α) :
    CoordM (Except LockError α) :=
  ExceptT.lift m.run

/-- Runs a lease-lock call as one atomic step and keeps its outcome, failed or not. -/
def leasing {α : Type} (m : EnvM String α) : CoordM (Except String α) :=
  ExceptT.lift (EnvM.atomic m).run

/-- The clock reading. -/
def now : CoordM Nat := do pure (← get).clock.now

/-- Draws the next id. -/
def nextId : CoordM Nat :=
  modifyGet fun env =>
    let (id, ids) := env.ids.next
    (id, { env with ids })

/-- Takes the latch of `xid` if no handler of the node holds it; answers whether it did. -/
def tryLatch (xid : String) : CoordM Bool :=
  modifyGet fun env =>
    if env.latched.contains xid then (false, env)
    else (true, { env with latched := env.latched ++ [xid] })

/-- Lets go of the latch of `xid`. -/
def unlatch (xid : String) : CoordM Unit :=
  modify fun env => { env with latched := env.latched.erase xid }

/-- Runs `m` holding the latch of `xid`, taken before, and lets go of it when `m` ends or
fails. -/
def holding {α : Type} (xid : String) (m : CoordM α) : CoordM α := do
  let a ← tryCatch m fun e => do unlatch xid; throw e
  unlatch xid
  pure a

/-- Moves a session along an edge of the state machine, at the clock reading. -/
def transit (s : GlobalSession) (target : GlobalStatus) : CoordM GlobalSession := do
  match s.transit target (← now) with
  | .ok s => pure s
  | .error e => throw (CoordError.ofTransition e)

end CoordM

/-- The answer a participant gave to a request, if it gave one. -/
inductive Answer (α : Type) where
  | answered (a : α)
  | failed (e : RemotingError)
  | silent
  deriving Repr

namespace CoordM

/-- Sends a commit or rollback request about a branch; `done` is the status of success. -/
def requestPhaseTwo (action : Action) (b : Branch) (done : BranchStatus) :
    CoordM (Answer BranchStatus) := do
  let reply ← modifyGet fun env =>
    let (reply, participants) := env.participants.request action b
    (reply, { env with participants })
  pure <| match reply with
    | none | some (.deleted _) => .answered done
    | some (.status s) => .answered s
    | some .unreachable => .failed (.clientUnreachable b.clientId b.resourceId)
    | some .hang => .silent

/-- Sends a delete request about a branch. -/
def requestDelete (b : Branch) : CoordM (Answer Bool) := do
  let reply ← modifyGet fun env =>
    let (reply, participants) := env.participants.request .delete b
    (reply, { env with participants })
  pure <| match reply with
    | none | some (.status _) => .answered true
    | some (.deleted ok) => .answered ok
    | some .unreachable => .failed (.clientUnreachable b.clientId b.resourceId)
    | some .hang => .silent

/-- Asks participants to purge undo logs older than `days`. -/
def purge (days : Nat) : CoordM Unit := do
  let failed ← modifyGet fun env =>
    let p := env.participants
    if !p.purgeIsRequest then (false, env)
    else
      let p := { p with calls := p.calls ++ [.purge days] }
      if p.failPurges > 0 then
        (true, { env with participants := { p with failPurges := p.failPurges - 1 } })
      else (false, { env with participants := p })
  if failed then throw (.remoting (.internal "injected purge failure"))

/-- The time of the runtime. -/
def runtimeNow : CoordM Nat := do pure (← get).timers.now

/-- Sets a timer: its number, one more than that of the timer set before. -/
def newTimer : CoordM Nat :=
  modifyGet fun env =>
    (env.timers.count, { env with timers := { env.timers with count := env.timers.count + 1 } })

/-- Sets a timer that ends `ms` milliseconds from now: its time and its number. -/
def setTimer (ms : Nat) : CoordM (Nat × Nat) := do
  let wake := (← runtimeNow) + ms
  pure (wake, ← newTimer)

/-- Waits until time `wake` of the runtime, on timer number `timer`. -/
def pauseUntil (wake timer : Nat) : CoordM Unit := ExceptT.lift (Steps.pause wake timer (pure ()))

/-- Waits `ms` milliseconds of the runtime; a wait of no time ends at once, without a pause. -/
def sleep (ms : Nat) : CoordM Unit :=
  if ms = 0 then pure () else do
    let (wake, timer) ← setTimer ms
    pauseUntil wake timer

/-- Takes the steps of `m` as its own up to the next pause of `m`, and ends with where `m`
stopped: its outcome, or the time and timer it waits on with the rest of it. -/
def untilPause {α : Type} (m : CoordM α) : CoordM (Steps.Halt Env (Except CoordError α)) :=
  ExceptT.lift (Steps.untilPause m.run)

end CoordM

end GlobalTxn
