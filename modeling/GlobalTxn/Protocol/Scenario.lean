import GlobalTxn.Protocol.Etcd
import GlobalTxn.Protocol.Compact
import GlobalTxn.Coordinator.Operations
import GlobalTxn.Coordinator.Admin
import GlobalTxn.Coordinator.Timeline

/-! # Coordinator scenarios

A scenario builds a cluster of coordinator nodes on a manual clock and runs a list of steps
against it.  Each step answers its result or its error, the participant calls it made, and
the state of the shared stores after it.  A step that cannot be read answers only its
complaint and changes nothing.  Operations that change a session hold its latch on their node
while they run, and a `run_once` may run beside someone taking its lock over; what runs in
the runtime meanwhile, and between steps, is the cluster's timeline.

Steps refer to transactions and branches made by earlier steps: `tx: i` is the `i`-th xid a
begin returned and `br: i` the `i`-th id a registration returned, both counted modulo the
number of such results; a literal `xid` or `branch_id` wins over them.

Node settings are read in a fixed order, the one `configInput` follows, and the first member
that cannot be read is the complaint.
-/

namespace GlobalTxn.Protocol

open Member

/-! ## Settings -/

/-- Reads node settings; absent members take the scenario's defaults.  The periods of the scans
may be given in seconds too, the other spans in milliseconds only. -/
def configInput (v : Value) : Decode Config := do
  let nodeId ← withDefault v "node_id" shortWord 1
  let address ← withDefault v "address" string "10.0.0.1:8091"
  let branchTimeout := (← spanField? v "branch_timeout").getD 100
  let maxCommitRetryTimeout ← millisField? v "max_commit_retry_timeout"
  let maxRollbackRetryTimeout ← millisField? v "max_rollback_retry_timeout"
  let rollbackRetryTimeoutUnlock ← withDefault v "rollback_retry_timeout_unlock" boolean false
  let asyncCommit ← withDefault v "async_commit" boolean false
  let timeoutRollbackGrace := (← spanField? v "timeout_rollback_grace").getD 0
  let deadSessionThreshold := (← spanField? v "dead_session_threshold").getD 10000
  let scanParallelism ← withDefault v "scan_parallelism" word 16
  let schedulerLockLease := (← spanField? v "scheduler_lock_lease").getD 60000
  let undoLogSaveDays ← withDefault v "undo_log_save_days" (fun k x => natBelow k 32 x) 7
  let schedulerLockOwner ← optional v "scheduler_lock_owner" (stringCalled "owner")
  let committingRetryPeriod ← spanField v "committing_retry_period" 1000
  let asyncCommittingRetryPeriod ← spanField v "async_committing_retry_period" 1000
  let rollbackingRetryPeriod ← spanField v "rollbacking_retry_period" 1000
  let timeoutRetryPeriod ← spanField v "timeout_retry_period" 1000
  let undoLogDeletePeriod ← spanField v "undo_log_delete_period" (24 * 3600 * 1000)
  let c : Config := ⟨nodeId, address, branchTimeout, maxCommitRetryTimeout,
    maxRollbackRetryTimeout, rollbackRetryTimeoutUnlock, asyncCommit, committingRetryPeriod,
    asyncCommittingRetryPeriod, rollbackingRetryPeriod, timeoutRetryPeriod, undoLogDeletePeriod,
    undoLogSaveDays, timeoutRollbackGrace, deadSessionThreshold, scanParallelism,
    schedulerLockLease, schedulerLockOwner⟩
  pure (c.withScanParallelism scanParallelism)

/-- Answers `config`: the node id, address and scan lock owner of the settings. -/
def answerConfig (req : Value) : Decode Value := do
  let c ← configInput req
  pure <| .obj [("node_id", .nat c.nodeId), ("address", .str c.address),
    ("scheduler_lock_owner", .str c.lockOwner)]

/-! ## Scripted collaborators -/

/-- Collaborator calls that can be made to fail. -/
inductive Fault where
  | sessionWrite
  | sessionRead
  | lockAcquire
  | lockRelease
  | lockQuery
  | purge
  deriving DecidableEq, Repr

/-- Reads the name of a fault. -/
def faultField (key : String) (x : Value) : Decode Fault := do
  match ← string key x with
  | "store_write" => pure .sessionWrite
  | "store_read" => pure .sessionRead
  | "lock_acquire" => pure .lockAcquire
  | "lock_release" => pure .lockRelease
  | "lock_query" => pure .lockQuery
  | "purge" => pure .purge
  | other => throw s!"unknown failure {other}"

/-- Makes the next `n` calls of a kind fail. -/
def Fault.set (f : Fault) (n : Nat) (env : Env) : Env :=
  match f with
  | .sessionWrite => { env with faults := { env.faults with sessionWrites := n } }
  | .sessionRead => { env with faults := { env.faults with sessionReads := n } }
  | .lockAcquire => { env with faults := { env.faults with lockAcquires := n } }
  | .lockRelease => { env with faults := { env.faults with lockReleases := n } }
  | .lockQuery => { env with faults := { env.faults with lockQueries := n } }
  | .purge => { env with participants := { env.participants with failPurges := n } }

/-- Reads a scripted reply of a participant: a status, else a deletion flag. -/
def replyInput (x : Value) : Decode Reply :=
  match x with
  | .str "unreachable" => pure .unreachable
  | .str "hang" => pure .hang
  | .obj _ => do
    match ← optional x "status" branchStatusField with
    | some s => pure (.status s)
    | none =>
      match ← optional x "deleted" boolean with
      | some b => pure (.deleted b)
      | none => throw "bad reply"
  | _ => throw "bad reply"

/-- Reads the scan kind named by member `key`. -/
def scanKindField (key : String) (x : Value) : Decode ScanKind := do
  let name ← string key x
  match ScanKind.ofName? name with
  | some k => pure k
  | none => throw s!"unknown scan kind {name}"

/-! ## Steps -/

/-- What a step answers when its operation ends: a result, which later steps may refer to, or
a failure outside the coordinator. -/
inductive Outcome where
  | begun (xid : String)
  | registered (branchId : Nat)
  | value (v : Value)
  | failed (error : Value)

/-- The value a step's success answers. -/
def Outcome.toValue : Outcome → Value
  | .begun xid => .str xid
  | .registered id => .nat id
  | .value v => v
  | .failed e => e

/-- A read step: an operation on one node, a node's scheduler running for a span, or a
restart of all nodes. -/
inductive Step where
  | onNode (node : Nat) (op : Config → CoordM Outcome)
  /-- An operation that holds the latch of `xid` on its node while it runs. -/
  | latching (node : Nat) (xid : String) (op : Config → CoordM Outcome)
  /-- An operation with a task started beside it, which stops when the operation ends. -/
  | beside (node : Nat) (task : Config → CoordM Unit) (op : Config → CoordM Outcome)
  | schedule (node : Nat) (span : Nat)
  | restart (keepLocks : Bool)

/-- A scenario in progress: the cluster, and the results later steps may refer to. -/
structure Scenario where
  cluster : Cluster
  xids : List String := []
  branchIds : List Nat := []

namespace Scenario

/-- The xid a step refers to. -/
def xidOf (sc : Scenario) (step : Value) : Decode String := do
  match ← optional step "xid" (stringCalled "xid") with
  | some xid => pure xid
  | none =>
    let i ← need step "tx" word
    match sc.xids with
    | [] => throw "no transaction begun"
    | xids => pure (xids.getD (i % xids.length) "")

/-- The branch id a step refers to. -/
def branchIdOf (sc : Scenario) (step : Value) : Decode Nat := do
  match ← optional step "branch_id" word with
  | some id => pure id
  | none =>
    let i ← need step "br" word
    match sc.branchIds with
    | [] => throw "no branch registered"
    | ids => pure (ids.getD (i % ids.length) 0)

/-- The node a step names, the first one if it names none; it must exist. -/
def nodeOf (sc : Scenario) (step : Value) : Decode Nat := do
  let node ← withDefault step "node" word 0
  if node < sc.cluster.nodes.length then pure node else throw s!"no node {node}"

/-- Remembers what a step's success returned. -/
def remember (sc : Scenario) : Outcome → Scenario
  | .begun xid => { sc with xids := sc.xids ++ [xid] }
  | .registered id => { sc with branchIds := sc.branchIds ++ [id] }
  | .value _ | .failed _ => sc

end Scenario

/-- An operation answering a value. -/
def answering {α : Type} (f : α → Value) (m : CoordM α) : CoordM Outcome :=
  (fun a => .value (f a)) <$> m

/-- An operation answering nothing. -/
def answeringNull (m : CoordM Unit) : CoordM Outcome := answering (fun _ => .null) m

/-- An operation on the environment alone. -/
def onEnv (f : Env → Env) : CoordM Outcome := answeringNull (modify f)

/-- Sets a session's status directly in the session store, past every check and injected
failure. -/
def forceStatus (xid : String) (status : GlobalStatus) : CoordM Unit :=
  CoordM.store <| EnvM.atomic do
    let some s ← Env.sessionsKept.find? xid | throw (.sessionNotFound xid)
    let _ ← Env.sessionsKept.update { s with status, gmtUpdated := (← get).clock.now }

/-- Sets a branch's status directly in the session store, past every check and injected
failure. -/
def forceBranchStatus (xid : String) (branchId : Nat) (status : BranchStatus) : CoordM Unit := do
  let some s ← CoordM.store (EnvM.atomic (Env.sessionsKept.find? xid))
    | throw (.store (.sessionNotFound xid))
  let some b := s.findBranch? branchId | throw (.branchNotFound xid branchId)
  CoordM.store (EnvM.atomic (Env.sessionsKept.updateBranch { b with status }))

/-- The stored sessions in full, none if they cannot be read, and `rows`, the number of rows
held in the shared lock store. -/
def dump (rows : Nat) : CoordM Outcome := do
  let sessions := (← CoordM.storeResult (EnvM.atomic Env.storedSessions)).toOption.getD []
  pure (.value (.obj [("sessions", .list sessionValue sessions), ("lock_rows", .nat rows)]))

/-- An operation on lease locks: its flag; its failure is an internal one of the node. -/
def leaseOutcome (m : EnvM String Bool) : CoordM Outcome := do
  match ← CoordM.leasing m with
  | .ok b => pure (.value (.bool b))
  | .error e => throw (.internal e)

/-- A step on the etcd server itself. -/
def serverOutcome (step : Value) : CoordM Outcome :=
  modifyGet fun env =>
    match serverStep env.server step with
    | .ok (v, server) => (.value v, { env with server })
    | .error r => (.failed r.answer, env)

/-- Reads one step of a scenario.  A step on one node names an existing node; most steps
check it after their other members, `begin` and `run_scheduler` before.  A step on what the
nodes share (the participants, failures, the clock, the stores read or set directly, the lease
locks and the etcd server) runs as the first node, whatever node it names. -/
def stepInput (sc : Scenario) (step : Value) : Decode Step := do
  let name ← need step "do" string
  let onNode (op : Config → CoordM Outcome) : Decode Step := do
    pure (.onNode (← sc.nodeOf step) op)
  let latching (xid : String) (op : Config → CoordM Outcome) : Decode Step := do
    pure (.latching (← sc.nodeOf step) xid op)
  let shared (op : Config → CoordM Outcome) : Decode Step := pure (.onNode 0 op)
  if isServerStep name && sc.cluster.backend != .memory then
    -- read the step now, so that a step that cannot be read changes nothing
    let _ ← serverStep {} step
    return .onNode 0 fun _ => serverOutcome step
  match name with
  | "begin" =>
    let node ← sc.nodeOf step
    let app ← withDefault step "app" string "order-service"
    let group ← withDefault step "group" string "default_tx_group"
    let name ← withDefault step "name" string "place-order"
    let timeout ← spanField step "timeout" 60000
    pure (.onNode node fun c => (.begun ·) <$>
      CoordM.begin c app group name (Duration.ofMillis timeout))
  | "register" =>
    let t ← withDefault step "type" branchTypeField .at
    let xid ← sc.xidOf step
    let resource ← withDefault step "resource" string "jdbc:mysql://db/orders"
    let client ← withDefault step "client" string "order-service:10.0.0.8:51234"
    let appData ← withDefault step "app_data" string ""
    let lockKey ← withDefault step "lock_key" string ""
    latching xid fun _ => (.registered ·) <$> CoordM.register t resource client xid appData lockKey
  | "report" =>
    let xid ← sc.xidOf step
    let id ← sc.branchIdOf step
    let status ← need step "status" branchStatusField
    let appData ← optional step "app_data" (stringCalled "app_data")
    latching xid fun _ => answeringNull (CoordM.report xid id status appData)
  | "commit" =>
    let xid ← sc.xidOf step
    latching xid fun c => answering globalStatusValue (CoordM.commit c xid)
  | "rollback" =>
    let xid ← sc.xidOf step
    latching xid fun c => answering globalStatusValue (CoordM.rollback c xid)
  | "get_status" =>
    let xid ← sc.xidOf step
    onNode fun _ => answering globalStatusValue (CoordM.status xid)
  | "global_report" =>
    let xid ← sc.xidOf step
    let status ← need step "status" globalStatusField
    latching xid fun _ => answering globalStatusValue (CoordM.globalReport xid status)
  | "lock_query" =>
    let t ← withDefault step "type" branchTypeField .at
    let resource ← withDefault step "resource" string "jdbc:mysql://db/orders"
    let xid ← sc.xidOf step
    let lockKey ← withDefault step "lock_key" string ""
    onNode fun _ => answering .bool (CoordM.lockQuery t resource xid lockKey)
  | "recover" =>
    onNode fun _ => answering (fun r => .obj [("sessions", .nat r.sessions),
      ("branches", .nat r.branches), ("lock_conflicts", .nat r.lockConflicts)]) CoordM.recover
  | "scan" =>
    let kind ← need step "kind" scanKindField
    onNode fun c => answering .nat (CoordM.scanNow c kind)
  | "run_once" =>
    let kind ← need step "kind" scanKindField
    let takeover ← match step.get? "steal" with
      | none => pure none
      | some s => do
        let owner ← withDefault s "owner" string "tc-2"
        let after ← need s "after_ms" word
        let lease ← spanField s "lease" 60000
        pure (some (⟨after, owner, lease⟩ : Takeover))
    let op := fun c => answering (.opt .nat) (CoordM.runOnce c kind)
    match takeover with
    | none => onNode op
    | some t => pure (.beside (← sc.nodeOf step) (fun c => CoordM.takeOver c kind t) op)
  | "delete_global" =>
    let xid ← sc.xidOf step
    latching xid fun c => answeringNull (CoordM.deleteGlobal c xid)
  | "force_delete_global" =>
    let xid ← sc.xidOf step
    latching xid fun _ => answeringNull (CoordM.forceDeleteGlobal xid)
  | "stop_retry" =>
    let xid ← sc.xidOf step
    latching xid fun _ => answering globalStatusValue (CoordM.stopRetry xid)
  | "start_retry" =>
    let xid ← sc.xidOf step
    latching xid fun _ => answering globalStatusValue (CoordM.startRetry xid)
  | "change_status" =>
    let xid ← sc.xidOf step
    latching xid fun _ => answering globalStatusValue (CoordM.changeStatus xid)
  | "send" =>
    let xid ← sc.xidOf step
    latching xid fun c => answering .bool (CoordM.send c xid)
  | "delete_branch" =>
    let xid ← sc.xidOf step
    let id ← sc.branchIdOf step
    latching xid fun c => answeringNull (CoordM.deleteBranch c xid id)
  | "force_delete_branch" =>
    let xid ← sc.xidOf step
    let id ← sc.branchIdOf step
    latching xid fun _ => answeringNull (CoordM.forceDeleteBranch xid id)
  | "script" =>
    let id ← sc.branchIdOf step
    let replies ← (items step "replies").mapM replyInput
    shared fun _ => onEnv fun env => { env with participants := env.participants.script id replies }
  | "fail" =>
    let n ← withDefault step "n" word 1
    let fault ← need step "what" faultField
    shared fun _ => onEnv (fault.set n)
  | "advance" =>
    let span ← spanField step "by" 0
    shared fun _ => do
      modify fun env => { env with clock := env.clock.advance span }
      pure (.value (.nat (← CoordM.now)))
  | "force_status" =>
    let xid ← sc.xidOf step
    let status ← need step "status" globalStatusField
    shared fun _ => answeringNull (forceStatus xid status)
  | "force_branch_status" =>
    let xid ← sc.xidOf step
    let id ← sc.branchIdOf step
    let status ← need step "status" branchStatusField
    shared fun _ => answeringNull (forceBranchStatus xid id status)
  | "locker_acquire" =>
    let name ← need step "name" string
    let owner ← need step "owner" string
    let lease ← spanField step "lease" 60000
    shared fun _ => leaseOutcome (Env.tryAcquireLease name owner lease)
  | "locker_release" =>
    let name ← need step "name" string
    let owner ← need step "owner" string
    shared fun _ => leaseOutcome (Env.releaseLease name owner)
  | "restart" => pure (.restart (← withDefault step "keep_locks" boolean false))
  | "run_scheduler" =>
    if sc.cluster.backend != .memory then throw "run_scheduler needs the memory backend"
    let node ← sc.nodeOf step
    pure (.schedule node (← spanField step "for" 1000))
  | "dump" =>
    let rows := Env.lockRowCount sc.cluster.env
    shared fun _ => dump rows
  | "info" =>
    onNode fun c => do
      let sessions ← CoordM.store (CoordM.sessionStore.findBy GlobalStatus.all)
      pure (.value (.obj [("node_id", .nat c.nodeId), ("address", .str c.address),
        ("scheduler_lock_owner", .str c.lockOwner), ("now", .nat (← CoordM.now)),
        ("sessions", .nat sessions.length)]))
  | other => throw s!"unknown step {other}"

/-- One participant call. -/
def callValue : Call → Value
  | .branch action xid id status =>
    .arr [.str action.name, .str xid, .nat id, branchStatusValue status]
  | .purge days => .arr [.str "purge", .nat days]

/-- The participant calls of a step, by xid; calls about one xid keep their order. -/
def callsValue (calls : List Call) : Value :=
  .list callValue (calls.mergeSort fun a b => decide (a.xid ≤ b.xid))

/-- The participant calls of a scheduler's run, sorted by their text. -/
def sortedCallsValue (calls : List Call) : Value :=
  .arr ((calls.map callValue).mergeSort fun a b => decide (a.compact ≤ b.compact))

/-- The stores in brief, as read through them: the sessions and the held rows; when nodes keep
their own stores, the sessions of the first node and no rows. -/
def stateValue (cl : Cluster) : Value × Cluster :=
  match cl.nodes.head? with
  | some { own := some (sessions, locks), .. } =>
    let (r, _) := (Env.storedSessions.run).run { cl.env with sessions, locks, faults := {} }
    (.obj [("sessions", .list briefSession (r.toOption.getD [])), ("locks", .null)], cl)
  | _ =>
    let (sessions, env) := (Env.storedSessions.run).run cl.env
    let (rows, env) := (Env.heldRows.run).run env
    (.obj [("sessions", .list briefSession (sessions.toOption.getD [])),
      ("locks", lockRowsValue (rows.toOption.getD []))], { cl with env })

/-- The answer of a coordinator failure. -/
def coordErrorValue (e : CoordError) : Value :=
  .obj [("error", .str e.kind), ("message", .str e.message), ("retryable", .bool e.isRetryable)]

/-- Runs an operation of node `node` as a step, holding the latch of `latch` and with the task
`beside` beside it if they are given: its answer and the scenario after it. -/
def Scenario.operate (sc : Scenario) (node : Nat) (latch : Option String)
    (beside : Option (Config → CoordM Unit)) (op : Config → CoordM Outcome) : Value × Scenario :=
  let cl := sc.cluster
  let env := cl.env
  let cl := { cl with env := { env with participants := { env.participants with calls := [] } } }
  let (r, cl) := cl.operate node latch beside op
  let calls := callsValue cl.env.participants.calls
  let (state, cl) := stateValue cl
  let tail := [("calls", calls), ("state", state)]
  let sc := { sc with cluster := cl }
  match r with
  | .ok (.failed e) => (withMembers e tail, sc)
  | .ok o => (.obj (("result", o.toValue) :: tail), sc.remember o)
  | .error e => (withMembers (coordErrorValue e) tail, sc)

/-- Runs one read step: its answer and the scenario after it. -/
def Scenario.perform (sc : Scenario) : Step → Value × Scenario
  | .restart keepLocks =>
    let (state, cluster) := stateValue (sc.cluster.restart keepLocks)
    (.obj [("result", .null), ("calls", .arr []), ("state", state)], { sc with cluster })
  | .schedule node span =>
    let cl := sc.cluster
    let env := cl.env
    let cl := { cl with env := { env with participants := { env.participants with calls := [] } } }
    let cl := cl.schedule node span
    let calls := sortedCallsValue cl.env.participants.calls
    let (state, cl) := stateValue cl
    (.obj [("result", .null), ("calls", calls), ("state", state)], { sc with cluster := cl })
  | .onNode node op => sc.operate node none none op
  | .latching node xid op => sc.operate node (some xid) none op
  | .beside node task op => sc.operate node none (some task) op

/-- Runs one step as written: a step that cannot be read answers its complaint. -/
def Scenario.step (sc : Scenario) (step : Value) : Value × Scenario :=
  match stepInput sc step with
  | .ok s => sc.perform s
  | .error r => (r.answer, sc)

/-- Answers `coordinator`. -/
def answerScenario (req : Value) : Decode Value := do
  let start ← withDefault req "start" word 1700000000000
  let config ← match req.get? "config" with
    | some v => configInput v
    | none => configInput (.obj [])
  let peers ← list req "peers"
  let peers ← peers.mapM configInput
  let purgeIsRequest ← match ← withDefault req "participants" string "scripted" with
    | "scripted" => pure true
    | "default_purge" => pure false
    | other => throw s!"unknown participants {other}"
  let apart := match req.get? "env" with
    | some (.str "memory") => true
    | _ => false
  let backend : Except Value Backend ← match ← withDefault req "backend" string "memory" with
    | "memory" => pure (.ok .memory)
    | "etcd" => (·.map .etcd) <$> etcdRootInput req
    | other => throw s!"unknown backend {other}"
  let steps ← list req "steps"
  match backend with
  | .error v => pure v
  | .ok backend =>
  match Cluster.create start (config :: peers) backend apart with
  | .error e => pure (coordErrorValue (.internal e.message))
  | .ok cluster =>
    let env := cluster.env
    let cluster := { cluster with
      env := { env with participants := { env.participants with purgeIsRequest } } }
    let (answers, _) := steps.foldl (fun (acc, sc) step =>
      let (a, sc) := sc.step step
      (acc ++ [a], sc)) ([], ({ cluster } : Scenario))
    pure (.obj [("steps", .arr answers)])

end GlobalTxn.Protocol
