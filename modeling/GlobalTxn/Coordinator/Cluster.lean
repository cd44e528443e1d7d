import GlobalTxn.Coordinator.Scheduler

/-! # Coordinator nodes sharing one world

A cluster is a list of coordinator nodes over one environment: one clock, one set of
participants, one set of lease locks, and usually one session store and one lock store.  Each
node has its own settings and its own id generator; a node may also keep sessions and row
locks of its own, in tables that no other node sees and that no injected failure reaches.  An
operation runs on one node: the node's generator, its latches, and its own stores if it has
them, are lent to the environment for the operation and taken back after it.

What the nodes share is kept in memory or in etcd under a root directory (`Backend`).

Restarting the cluster gives every node a fresh generator seeded from the clock, fresh stores
of its own, and no latches.  Shared sessions survive a restart, with the failures pending on them;
shared row locks survive only if asked to: otherwise the nodes go on with an empty lock table,
or, in etcd, with the locks under a new directory `{root}/restart{n}`, and the failures pending
on the old lock store go with it.

Besides the operation of each step, the runtime runs tasks (`Task`): the scan loops of a
running scheduler, passes of stopped schedulers that still wait for their handlers, and a
takeover of a scan lock beside a scan.  A task runs as the node that started it (`Host`); a
task started before a restart goes on as the node from before it, with that node's latches,
own stores and lock store, which the cluster keeps for it.
-/

namespace GlobalTxn

/-- One coordinator node: its settings, its id generator, and its own sessions and row locks
if it keeps them apart. -/
structure Node where
  config : Config
  ids : IdGenerator
  own : Option (SessionBacking × LockBacking) := none
  /-- The xids its handlers and operations hold latched. -/
  latched : List String := []
  /-- The shared lock store it works with, counted in restarts that replaced that store. -/
  era : Nat := 0
  deriving DecidableEq, Repr

/-- Where the nodes keep what they share. -/
inductive Backend where
  | memory
  | etcd (root : String)
  deriving DecidableEq, Repr

/-- A node as its tasks know it: its place in the cluster and the number of restarts before
it was built. -/
structure Host where
  node : Nat
  generation : Nat
  deriving DecidableEq, Repr

/-- What a task does when it runs next. -/
inductive Job where
  /-- A scan loop of a running scheduler, between passes. -/
  | loop (l : ScanLoop)
  /-- The rest of a program, and the scan loop whose pass it is, if it is one. -/
  | resume (rest : CoordM Unit) (pass : Option ScanLoop)

/-- A task of the runtime besides the operation of a step: it runs as `host` when the timer
numbered `timer` ends at time `wake`. -/
structure Task where
  id : Nat
  host : Host
  wake : Nat
  timer : Nat
  job : Job

/-- Coordinator nodes over one environment, and the tasks of the runtime.  `env.ids` is the
generator of the node that ran last; `restarts` counts the fresh lock directories that restarts
made in etcd, `generation` all restarts, and `era` those that replaced the shared lock store. -/
structure Cluster where
  env : Env
  nodes : List Node
  backend : Backend := .memory
  restarts : Nat := 0
  generation : Nat := 0
  era : Nat := 0
  /-- Nodes from before a restart that tasks still run as. -/
  retired : List (Host × Node) := []
  /-- Lock stores replaced by restarts, by era, with the failures pending on them. -/
  oldLocks : List (Nat × LockBacking × Faults) := []
  tasks : List Task := []
  /-- How many tasks have been started: the id of the next one. -/
  started : Nat := 0
  /-- How many schedulers have been started: the number of the next one. -/
  schedulers : Nat := 0
  /-- The scheduler that runs now, if one does. -/
  live : Option Nat := none

namespace Faults

/-- The failures `f` holds for sessions with those `g` holds for row locks. -/
def withLocksOf (f g : Faults) : Faults :=
  { f with lockAcquires := g.lockAcquires, lockReleases := g.lockReleases,
           lockQueries := g.lockQueries }

end Faults

namespace Cluster

/-- Builds the nodes of the given settings with the clock at `start`, sharing what `backend`
keeps, or keeping sessions and row locks each to itself if `apart`; fails on the first node id
that is too large. -/
def create (start : Nat) (configs : List Config) (backend : Backend) (apart : Bool) :
    Except NodeIdTooLarge Cluster := do
  let nodes ← configs.mapM fun c => do
    let ids ← IdGenerator.create c.nodeId start
    pure ({ config := c, ids, own := if apart then some (.table {}, .table {}) else none } : Node)
  let ids := (nodes.head?.map (·.ids)).getD default
  let env : Env := match backend with
    | .memory => { clock := ⟨start⟩, ids }
    | .etcd root =>
      { clock := ⟨start⟩, ids, sessions := .etcd root, locks := .etcd root [],
        leases := .etcd root }
  pure { env, nodes, backend }

/-- The node at index `i`. -/
def node? (cl : Cluster) (i : Nat) : Option Node := cl.nodes[i]?

/-- Node `i` as its tasks know it. -/
def hostOf (cl : Cluster) (i : Nat) : Host := ⟨i, cl.generation⟩

/-- The node behind a host: a node of the cluster, or one from before a restart. -/
def hostNode? (cl : Cluster) (h : Host) : Option Node :=
  if h.generation = cl.generation then cl.nodes[h.node]? else cl.retired.lookup h

/-- Puts back the node behind a host. -/
def setHostNode (cl : Cluster) (h : Host) (n : Node) : Cluster :=
  if h.generation = cl.generation then { cl with nodes := cl.nodes.set h.node n }
  else { cl with retired := cl.retired.map fun (h', n') => (h', if h' = h then n else n') }

/-- Runs a computation on the environment as node `n` sees it: with the node's generator and
latches, with the node's own stores if it has them and without injected failures then.
Answers where the computation stopped, the environment, and the node afterwards. -/
def asNode {α : Type} (env : Env) (n : Node) (m : CoordM α) :
    Steps.Halt Env (Except CoordError α) × Env × Node :=
  match n.own with
  | none =>
    let (r, env) := Steps.runToPause m.run { env with ids := n.ids, latched := n.latched }
    (r, env, { n with ids := env.ids, latched := env.latched })
  | some (sessions, locks) =>
    let (r, env') := Steps.runToPause m.run
      { env with ids := n.ids, latched := n.latched, sessions, locks, faults := {} }
    (r, { env' with sessions := env.sessions, locks := env.locks, faults := env.faults },
      { n with ids := env'.ids, latched := env'.latched, own := some (env'.sessions, env'.locks) })

/-- Runs a computation as host `h` up to its next pause: on the node behind it, and, for a
node from before a restart that replaced the lock store, on the lock store of its time. -/
def segment {α : Type} (cl : Cluster) (h : Host) (m : CoordM α) :
    Steps.Halt Env (Except CoordError α) × Cluster :=
  match cl.hostNode? h with
  | none => (.ended (.error (.internal s!"no node {h.node}")), cl)
  | some n =>
    let plain :=
      let (r, env, n) := asNode cl.env n m
      (r, { cl.setHostNode h n with env })
    match n.own, cl.oldLocks.lookup n.era with
    | none, some (locks, faults) =>
      if n.era = cl.era then plain
      else
        let env := { cl.env with locks, faults := cl.env.faults.withLocksOf faults }
        let (r, env, n) := asNode env n m
        let kept := (env.locks, env.faults)
        let cl := { cl.setHostNode h n with
          env := { env with locks := cl.env.locks, faults := env.faults.withLocksOf cl.env.faults }
          oldLocks := cl.oldLocks.map fun (e, x) => (e, if e = n.era then kept else x) }
        (r, cl)
    | _, _ => plain

/-- Restarts every node with a generator seeded from the clock; shared row locks, and the
failures pending on them, are dropped unless `keepLocks`.  Nodes that tasks still run as are
kept aside for them, and so is a replaced lock store. -/
def restart (cl : Cluster) (keepLocks : Bool) : Cluster :=
  let now := cl.env.clock.now
  let inUse (h : Host) : Bool := cl.tasks.any (·.host == h)
  let retired := cl.retired.filter (inUse ·.1) ++
    ((cl.nodes.mapIdx fun i n => (cl.hostOf i, n)).filter (inUse ·.1))
  let era := if keepLocks then cl.era else cl.era + 1
  let nodes := cl.nodes.map fun n =>
    { n with
      ids := match IdGenerator.create n.config.nodeId now with
        | .ok g => g
        | .error _ => n.ids
      own := n.own.map fun _ => (.table {}, .table {})
      latched := []
      era }
  let oldLocks := if keepLocks then cl.oldLocks
    else cl.oldLocks ++ [(cl.era, cl.env.locks, cl.env.faults)]
  let oldLocks := oldLocks.filter fun (e, _) => retired.any (·.2.era == e)
  let cl := { cl with nodes, retired, oldLocks, era, generation := cl.generation + 1 }
  if keepLocks then cl
  else
    let faults := { cl.env.faults with lockAcquires := 0, lockReleases := 0, lockQueries := 0 }
    match cl.env.locks, cl.backend with
    | .etcd _ asked, .etcd root =>
      let n := cl.restarts + 1
      { cl with
        restarts := n
        env := { cl.env with locks := .etcd (root ++ "/restart" ++ toString n) asked, faults } }
    | _, _ => { cl with env := { cl.env with locks := .table {}, faults } }

end Cluster

end GlobalTxn
