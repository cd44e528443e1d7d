import GlobalTxn.Coordinator.Scan

/-! # Handling the candidates of a scan side by side

A scan handles up to `parallelism` candidates at a time, in the time of the runtime: a handler
that meets a silent participant pauses until the branch timeout has passed, and the scan goes
on with the others meanwhile.

* Handlers start in candidate order, each as soon as fewer than `parallelism` are unfinished.
* A started handler runs until it finishes or pauses; a paused one sleeps until its timer
  ends.
* Handlers ready to run do so in the order they became ready: sleepers that wake at the same
  time in the order of their timers, and a handler started after a finish behind those
  already ready.
* When every unfinished handler sleeps, the scan itself pauses until the earliest of their
  timers, so that the runtime may run other tasks meanwhile.
* A handler that fails counts as not handled; the scan goes on.

A scan may run under a lease lock (`Keeper`), which it renews every third of the lease,
counted from the start of the scan, for as long as it runs.  Renewing is harmless while the
node holds the lock; a renewal that finds the lock held by another owner cuts the scan short
as `ScanEnd.lost`, and the handlers still asleep then are dropped and let go of their latches.
When a renewal and wakes of handlers fall on one time, the renewal comes first.
-/

namespace GlobalTxn

/-- Whether the timer `a` ends before `b`: earlier, or as early on an older timer. -/
def dueBefore (a b : Nat × Nat) : Bool := a.1 < b.1 || (a.1 == b.1 && a.2 < b.2)

/-- The lease lock a scan runs under, and when it is renewed next. -/
structure Keeper where
  name : String
  owner : String
  lease : Nat
  /-- When the scan started, in the time of the runtime. -/
  start : Nat
  /-- How many renewals have been made. -/
  made : Nat := 0
  /-- The time of the next renewal and the number of its timer. -/
  next : Nat × Nat
  deriving DecidableEq, Repr

namespace Keeper

/-- The renewal period in nanoseconds: a third of the lease, at least one millisecond. -/
def periodNanos (lease : Nat) : Nat := Nat.max (lease * 1000000 / 3) 1000000

/-- The time of renewal `k` of a scan that started at `start`: the millisecond that ends `k`
periods after the start. -/
def renewalAt (lease start k : Nat) : Nat := start + (k * periodNanos lease + 999999) / 1000000

example : renewalAt 1000 0 1 = 334 ∧ renewalAt 1000 0 2 = 667 ∧ renewalAt 1000 0 3 = 1000 := by
  decide

/-- Starts keeping lock `name` of `owner` for a scan that starts now, with the timer of the
first renewal. -/
def begin (name owner : String) (lease : Nat) : CoordM Keeper := do
  let start ← CoordM.runtimeNow
  let timer ← CoordM.newTimer
  pure { name, owner, lease, start, next := (renewalAt lease start 1, timer) }

/-- Renews the lease now, and sets the timer of the next renewal; `none` if another owner
holds the lock.  A renewal that fails to reach the locks does not lose them. -/
def renew (k : Keeper) : CoordM (Option Keeper) := do
  match ← CoordM.leasing (Env.tryAcquireLease k.name k.owner k.lease) with
  | .ok false => pure none
  | _ =>
    let made := k.made + 1
    let timer ← CoordM.newTimer
    pure (some { k with made, next := (renewalAt k.lease k.start (made + 1), timer) })

end Keeper

/-- A started handler asleep until its timer ends, holding the latch of its session. -/
structure Sleeper where
  wake : Nat
  timer : Nat
  xid : String
  resume : CoordM Bool

/-- How a scan ended: with the number of handled sessions, or cut short because its lock
was taken over. -/
inductive ScanEnd where
  | finished (handled : Nat)
  | lost
  deriving DecidableEq, Repr

/-- The handlers of a scan, each with the session it handles. -/
structure Pool where
  parallelism : Nat
  /-- Handlers not started yet, in candidate order. -/
  queued : List (String × CoordM Bool)
  /-- Handlers ready to run, in order. -/
  ready : List (String × CoordM Bool) := []
  /-- Started handlers that have not finished. -/
  running : Nat := 0
  /-- Sleeping handlers, in the order they fell asleep, which is the order of their timers. -/
  sleepers : List Sleeper := []
  handled : Nat := 0

namespace Pool

/-- Runs a handler; a failure counts as not handled. -/
def attempt (m : CoordM Bool) : CoordM Bool :=
  tryCatch m fun _ => pure false

/-- The earliest timer of a sleeper: its time and number. -/
def nextWake? (p : Pool) : Option (Nat × Nat) :=
  p.sleepers.foldl (fun m s => match m with
    | some due => if dueBefore (s.wake, s.timer) due then some (s.wake, s.timer) else some due
    | none => some (s.wake, s.timer)) none

/-- Wakes the sleepers whose timers end at `t`, in the order of their timers. -/
def wake (p : Pool) (t : Nat) : Pool :=
  { p with
    ready := p.ready ++ (p.sleepers.filter (·.wake == t)).map fun s => (s.xid, s.resume)
    sleepers := p.sleepers.filter (·.wake != t) }

/-- How many moves `advance` needs at most: each starts a handler or runs a ready one. -/
def moves (p : Pool) : Nat := 2 * p.queued.length + p.ready.length + 1

/-- Starts and runs handlers until every unfinished one sleeps, for at most `fuel` moves. -/
def advance : Nat → Pool → CoordM Pool
  | 0, p => pure p
  | fuel + 1, p =>
    match p.queued with
    | m :: ms =>
      if p.running < p.parallelism then
        advance fuel { p with queued := ms, ready := p.ready ++ [m], running := p.running + 1 }
      else runReady fuel p
    | [] => runReady fuel p
where
  /-- Runs the next ready handler up to its end or its next pause, if there is one. -/
  runReady (fuel : Nat) (p : Pool) : CoordM Pool :=
    match p.ready with
    | (xid, m) :: rest => do
      match ← CoordM.untilPause (attempt m) with
      | .ended r =>
        let handled := p.handled + (match r with | .ok true => 1 | _ => 0)
        advance fuel { p with ready := rest, running := p.running - 1, handled }
      | .paused wake timer k =>
        advance fuel { p with
          ready := rest
          sleepers := p.sleepers ++ [⟨wake, timer, xid, ExceptT.mk k⟩] }
    | [] => pure p

/-- Drops the sleeping handlers, which let go of their latches. -/
def drop (p : Pool) : CoordM Unit :=
  p.sleepers.forM fun s => CoordM.unlatch s.xid

/-- Runs the scan to its end under the lock `keeper` keeps, if any, for at most `fuel`
pauses. -/
def run (keeper : Option Keeper) : Nat → Pool → CoordM ScanEnd
  | 0, p => pure (.finished p.handled)
  | fuel + 1, p => do
    let p ← p.advance p.moves
    match p.nextWake? with
    | none => pure (.finished p.handled)
    | some due =>
      match keeper with
      | none =>
        CoordM.pauseUntil due.1 due.2
        run none fuel (p.wake due.1)
      | some k =>
        let first := if dueBefore k.next due then k.next else due
        CoordM.pauseUntil first.1 first.2
        if k.next.1 == first.1 then
          match ← k.renew with
          | none =>
            p.drop
            pure .lost
          | some k => run (some k) fuel (if due.1 == first.1 then p.wake first.1 else p)
        else run (some k) fuel (p.wake first.1)

end Pool

namespace CoordM

/-- The handlers of a session scan over its candidates, none started yet, each holding the
latch of its session. -/
def scanPool (c : Config) (kind : ScanKind) : CoordM Pool := do
  let xids ← candidates c kind
  pure { parallelism := c.scanParallelism,
         queued := xids.map fun xid => (xid, underLatch xid (handler c kind xid)) }

/-- Runs one pass of a scan, under the lease lock `name` of `owner` if one is given.  Each
handler sleeps at most once, for the branch timeout, and the lock is renewed at least every
millisecond, which bounds the pauses of the pass. -/
def scan (c : Config) (kind : ScanKind) (lock : Option (String × String)) : CoordM ScanEnd := do
  let keeper ← lock.mapM fun (name, owner) => Keeper.begin name owner c.schedulerLockLease
  match kind with
  | .undoLogDelete =>
    purge c.undoLogSaveDays
    pure (.finished 1)
  | kind =>
    let p ← scanPool c kind
    p.run keeper ((p.queued.length + 1) * (c.branchTimeout + 2))

/-- Runs one pass of a scan outside any lock; answers the number of handled sessions. -/
def scanNow (c : Config) (kind : ScanKind) : CoordM Nat := do
  match ← scan c kind none with
  | .finished n => pure n
  | .lost => pure 0

end CoordM

end GlobalTxn
