import GlobalTxn.Coordinator.Cluster

/-! # The runtime's timeline

The nodes' work runs in one runtime with one clock.  The operation of a step is the main task;
the other tasks (`Task`) run only while the main one waits.

* The main task runs first.  When it pauses until a time, the tasks whose timers end before
  that time run in the order of their timers (earlier time first, then older timer), each
  until it pauses again or ends; then the clock reaches the main task's time and the main
  task goes on, before the tasks whose timers end at that same time.
* When the operation of a step ends, the step yields once before it answers: the tasks whose
  timers have ended by then, and that have not run because the main task went first, run
  then (`settle`).
* A scan loop whose tick is due takes it and runs a pass; a pass that ends lets the loop
  wait for its next tick if its scheduler still runs, and ends the task otherwise.
* An operation that latches an xid which a task of its node holds waits until the task lets
  go of it, and takes it at once then: tasks that run after that find it held.  The tasks
  due at that time run before the operation goes on.
* A scheduler runs for a span of time from a step: its loops start as tasks, the step waits
  out the span, and then stops the scheduler before it yields.  Loops between passes stop;
  passes in progress stay as tasks and go on in later steps.
-/

namespace GlobalTxn

namespace Cluster

/-- The time of the runtime. -/
def now (cl : Cluster) : Nat := cl.env.timers.now

/-- Moves the clock of the runtime to `t`, if that is later. -/
def reach (cl : Cluster) (t : Nat) : Cluster :=
  { cl with env := { cl.env with timers := { cl.env.timers with now := Nat.max cl.now t } } }

/-- Sets a timer: its number, and the cluster after. -/
def newTimer (cl : Cluster) : Nat × Cluster :=
  let t := cl.env.timers
  (t.count, { cl with env := { cl.env with timers := { t with count := t.count + 1 } } })

/-- Starts a task as `host`, due at `wake` on a timer set now. -/
def spawn (cl : Cluster) (host : Host) (wake : Nat) (job : Job) : Cluster :=
  let (timer, cl) := cl.newTimer
  { cl with tasks := cl.tasks ++ [⟨cl.started, host, wake, timer, job⟩], started := cl.started + 1 }

/-- Puts a task back, to run when its timer ends. -/
def requeue (cl : Cluster) (task : Task) : Cluster := { cl with tasks := cl.tasks ++ [task] }

/-- The task whose timer ends first among those `p` admits. -/
def firstTask? (cl : Cluster) (p : Task → Bool) : Option Task :=
  cl.tasks.foldl (fun best task =>
    if p task then
      match best with
      | some b => if dueBefore (task.wake, task.timer) (b.wake, b.timer) then some task else best
      | none => some task
    else best) none

/-- The task whose timer ends first among those ending before time `t`. -/
def nextBefore? (cl : Cluster) (t : Nat) : Option Task := cl.firstTask? (·.wake < t)

/-- The task whose timer ends first. -/
def next? (cl : Cluster) : Option Task := cl.firstTask? fun _ => true

/-- Takes a task out, to run it. -/
def take (cl : Cluster) (task : Task) : Cluster :=
  { cl with tasks := cl.tasks.filter (·.id != task.id) }

/-- Whether scheduler `n` still runs. -/
def runs (cl : Cluster) (n : Nat) : Bool := cl.live == some n

/-- A scan loop of `task` at time `now`, for at most `fuel` ticks in a row: if its tick is not
due yet, it waits for it on a new timer; otherwise it takes the tick and runs a pass, up to the
pass's first pause. -/
def runLoop : Nat → Cluster → Task → ScanLoop → Cluster
  | 0, cl, _, _ => cl
  | fuel + 1, cl, task, l =>
    if cl.now < l.deadline then
      let (timer, cl) := cl.newTimer
      cl.requeue { task with wake := l.deadline, timer, job := .loop l }
    else
      let l := l.tick cl.now
      match cl.hostNode? task.host with
      | none => cl
      | some n =>
        match cl.segment task.host (l.pass n.config) with
        | (.paused wake timer k, cl) =>
          cl.requeue { task with wake, timer, job := .resume (ExceptT.mk k) (some l) }
        | (.ended _, cl) => if cl.runs l.scheduler then runLoop fuel cl task l else cl

/-- Runs a task whose timer has ended, until it pauses again or ends. -/
def runTask (cl : Cluster) (task : Task) : Cluster :=
  match task.job with
  | .loop l => runLoop ScanLoop.catchUp cl task l
  | .resume rest pass =>
    match cl.segment task.host rest, pass with
    | (.paused wake timer k, cl), _ =>
      cl.requeue { task with wake, timer, job := .resume (ExceptT.mk k) pass }
    | (.ended _, cl), some l =>
      if cl.runs l.scheduler then runLoop ScanLoop.catchUp cl task l else cl
    | (.ended _, cl), none => cl

/-- Runs the tasks whose timers end before time `t`, in order, for at most `fuel` of them; the
clock follows them. -/
def runBefore (t : Nat) : Nat → Cluster → Cluster
  | 0, cl => cl
  | fuel + 1, cl =>
    match cl.nextBefore? t with
    | none => cl
    | some task => runBefore t fuel (((cl.take task).reach task.wake).runTask task)

/-- Enough task runs to reach time `t`: each task ticks, renews a lock or wakes a handler at
most once a millisecond or once a session. -/
def bound (cl : Cluster) (t : Nat) : Nat :=
  (cl.tasks.length + 1) * (t - cl.now + 2) * (cl.env.sessionCount + 2) * 2

/-- Lets the tasks whose timers end before `t` run, and moves the clock to `t`. -/
def waitUntil (cl : Cluster) (t : Nat) : Cluster := (cl.runBefore t (cl.bound t)).reach t

/-- Lets the tasks whose timers have ended run, without moving the clock. -/
def settle (cl : Cluster) : Cluster := cl.runBefore (cl.now + 1) (cl.bound (cl.now + 1))

/-- Runs the main task, a computation as host `h`, for at most `fuel` pauses; the tasks run
while it waits. -/
def main {α : Type} (h : Host) : Nat → CoordM α → Cluster → Except CoordError α × Cluster
  | 0, _, cl => (.error (.internal "the step did not end"), cl)
  | fuel + 1, m, cl =>
    match cl.segment h m with
    | (.ended r, cl) => (r, cl)
    | (.paused wake _ k, cl) => main h fuel (ExceptT.mk k) (cl.waitUntil wake)

/-- Whether node `i` holds `xid` latched. -/
def holds (cl : Cluster) (i : Nat) (xid : String) : Bool :=
  (cl.node? i).any (·.latched.contains xid)

/-- Node `i` latches `xid`. -/
def latch (cl : Cluster) (i : Nat) (xid : String) : Cluster :=
  match cl.node? i with
  | some n => { cl with nodes := cl.nodes.set i { n with latched := n.latched ++ [xid] } }
  | none => cl

/-- Latches `xid` on node `i` for the main task, once no task holds it, for at most `fuel`
task runs; if no task would ever let go of it, the main task takes it anyway. -/
def latchFor (i : Nat) (xid : String) : Nat → Cluster → Cluster
  | 0, cl => cl.latch i xid
  | fuel + 1, cl =>
    if cl.holds i xid then
      match cl.next? with
      | none => cl.latch i xid
      | some task =>
        let cl := ((cl.take task).reach task.wake).runTask task
        if cl.holds i xid then latchFor i xid fuel cl
        else
          (cl.latch i xid).settle
    else cl.latch i xid

/-- Pauses of the main task an operation may make: enough for every handler of a scan to
sleep and for its lock to be renewed every millisecond meanwhile. -/
def mainFuel : Nat := 4294967296

/-- Runs operation `op` of node `i` as the main task: holding the latch of `latch` if one is
given, with the task `beside` started beside it and stopped when it ends; the tasks due when it
ends run after it. -/
def operate {α : Type} (cl : Cluster) (i : Nat) (latch : Option String)
    (beside : Option (Config → CoordM Unit)) (op : Config → CoordM α) :
    Except CoordError α × Cluster :=
  match cl.node? i with
  | none => (.error (.internal s!"no node {i}"), cl)
  | some n =>
    let h := cl.hostOf i
    let (cl, m) := match latch with
      | some xid =>
        (latchFor i xid mainFuel cl, CoordM.holding xid (op n.config))
      | none => (cl, op n.config)
    let (cl, aside) := match beside with
      | some b => (cl.spawn h cl.now (.resume (b n.config) none), some cl.started)
      | none => (cl, none)
    let (r, cl) := main h mainFuel m cl
    (r, { cl with tasks := cl.tasks.filter fun t => some t.id != aside }.settle)

/-- Runs the scheduler of node `i` for `span` milliseconds: its loops start as tasks, the main
task sleeps the span and stops the scheduler, and the tasks due then run after it. -/
def schedule (cl : Cluster) (i : Nat) (span : Nat) : Cluster :=
  match cl.node? i with
  | none => cl
  | some n =>
    let h := cl.hostOf i
    let id := cl.schedulers
    let cl := { cl with schedulers := id + 1, live := some id }
    let start := cl.now
    let cl := ScanKind.all.foldl (fun cl kind =>
      cl.spawn h start (.loop (ScanLoop.start n.config id start kind))) cl
    let cl := cl.waitUntil (start + span)
    let cl := { cl with
      live := none
      tasks := cl.tasks.filter fun t => match t.job with
        | .loop l => l.scheduler != id
        | .resume _ _ => true }
    cl.settle

end Cluster

end GlobalTxn
