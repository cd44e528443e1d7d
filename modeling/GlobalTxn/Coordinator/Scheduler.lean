import GlobalTxn.Coordinator.ScanLock

/-! # A node's scheduler

The scheduler of a node runs each kind of scan in a loop of its own, and the loops run side by
side in the time of the runtime.

* A loop ticks once per period of its kind (at least a millisecond).  Its first tick comes a
  twentieth of a period after the start; a tick that comes more than 5 ms late moves the ticks
  after it to whole periods after it, and a tick that comes later than that is taken at once.
* At each tick the loop runs one pass of its scan under the scan's lease lock (`runOnce`), if
  it wins the lock, and lets the lock go when the pass ends.  It looks at its ticks again only
  then; a pass that fails is passed over.

A scheduler runs until it is stopped.  A loop between passes then stops at once; a loop in a
pass finishes the pass first, however long it waits, and stops after it.  Running the loops
in the order of their timers, and the passes left after a stop, is the work of the runtime
(`Cluster` and its timeline); this module says what one loop does.
-/

namespace GlobalTxn

namespace ScanKind

/-- The period of a kind of scan under settings `c`, at least a millisecond. -/
def period (c : Config) : ScanKind → Nat
  | .timeoutCheck => Nat.max c.timeoutRetryPeriod 1
  | .retryCommitting => Nat.max c.committingRetryPeriod 1
  | .asyncCommitting => Nat.max c.asyncCommittingRetryPeriod 1
  | .retryRollbacking => Nat.max c.rollbackingRetryPeriod 1
  | .undoLogDelete => Nat.max c.undoLogDeletePeriod 1

end ScanKind

/-- The loop of one kind of scan in a scheduler. -/
structure ScanLoop where
  kind : ScanKind
  period : Nat
  /-- When the next tick is due. -/
  deadline : Nat
  /-- The number of the scheduler the loop belongs to. -/
  scheduler : Nat
  deriving DecidableEq, Repr

namespace ScanLoop

/-- The loop of `kind` in scheduler `scheduler` under settings `c`, started at time `now`: its
first tick is due a twentieth of a period later. -/
def start (c : Config) (scheduler now : Nat) (kind : ScanKind) : ScanLoop :=
  { kind, period := kind.period c, deadline := now + kind.period c / 20, scheduler }

/-- Takes the tick due by time `t`: the next one is due a period later, or a period after `t`
if this one came more than 5 ms late. -/
def tick (l : ScanLoop) (t : Nat) : ScanLoop :=
  { l with deadline := if l.deadline + 5 < t then t + l.period else l.deadline + l.period }

/-- How many ticks a loop takes in a row at most without waiting: a tick more than 5 ms late
moves the next one a period past it, so at most six ticks are due at once. -/
def catchUp : Nat := 7

/-- The pass of the loop at a tick, under settings `c`: one run of its scan under the lease
lock; a failure is passed over. -/
def pass (c : Config) (l : ScanLoop) : CoordM Unit := do
  let _ ← tryCatch (some <$> CoordM.runOnce c l.kind) fun _ => pure none

end ScanLoop

end GlobalTxn
