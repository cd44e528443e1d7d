import GlobalTxn.Protocol.Render
import GlobalTxn.Protocol.Inputs
import GlobalTxn.Lease

/-! # Answers about lock keys, sessions, stores and lease locks

Each stateful request runs a list of steps against one value (a session, a session table, a
lock service, a lease table) and answers every step with its result and the state after it.
-/

universe u

namespace GlobalTxn.Protocol

open Member

/-- A step's answer when it failed: the error, then the state. -/
def stepFailure (err : Value) (state : List (String × Value)) : Value := withMembers err state

/-- Answers `parse_lock_key`. -/
def answerParseLockKey (req : Value) : Decode Value := do
  let xid ← withDefault req "xid" string "tc:1"
  let resourceId ← withDefault req "resource_id" string "db"
  let transactionId ← withDefault req "transaction_id" word 1
  let branchId ← withDefault req "branch_id" word 11
  let key ← need req "lock_key" string
  pure <| match RowLock.expand ⟨xid, transactionId, branchId, resourceId⟩ key with
    | .ok locks => .obj [("locks", .list rowLockValue locks)]
    | .error e => lockErrorValue e

/-- Answers `row_key`. -/
def answerRowKey (req : Value) : Decode Value := do
  let resourceId ← need req "resource_id" string
  let table ← need req "table" string
  let pk ← need req "pk" string
  pure <| .obj [("row_key", .str (rowKey resourceId table pk))]

/-! ## One global session -/

/-- Runs one step on a session: its result and the session after it. -/
def sessionStep (s : GlobalSession) (step : Value) : Decode (Value × GlobalSession) := do
  match ← need step "do" string with
  | "add_branch" =>
    let b ← branchInput (some (s.xid, s.transactionId)) step
    pure (.null, s.addBranch b)
  | "remove_branch" =>
    let id ← need step "branch_id" word
    pure (if (s.findBranch? id).isSome then .nat id else .null, s.removeBranch id)
  | "find_branch" =>
    let id ← need step "branch_id" word
    pure (.opt (fun b => .obj [("branch", branchValue b), ("display", .str b.display),
      ("holds_row_locks", .bool b.holdsRowLocks)]) (s.findBranch? id), s)
  | "set_branch_status" =>
    let status ← need step "status" branchStatusField
    let id ← need step "branch_id" word
    pure (.bool (s.findBranch? id).isSome, s.setBranchStatus id status)
  | "is_same_registration" =>
    let id ← need step "branch_id" word
    match s.findBranch? id with
    | none => pure (.null, s)
    | some b =>
      let t ← withDefault step "branch_type" branchTypeField .at
      let resourceId ← withDefault step "resource_id" string "res"
      let clientId ← withDefault step "client_id" string "cli"
      let lockKey ← withDefault step "lock_key" string ""
      pure (.bool (b.isSameRegistration t resourceId clientId lockKey), s)
  | "transit" =>
    let target ← need step "to" globalStatusField
    let now ← withDefault step "now" word 0
    pure <| match s.transit target now with
      | .ok s' => (.null, s')
      | .error e => (errorValue "IllegalTransition" e.message, s)
  | "set_status" =>
    let status ← need step "status" globalStatusField
    pure (.null, { s with status })
  | "deadline" => pure (.nat s.deadline, s)
  | "is_timed_out" =>
    let now ← need step "now" word
    pure (.bool (s.isTimedOut now), s)
  | "can_be_committed_async" => pure (.bool s.canBeCommittedAsync, s)
  | "reports_global_outcome" => pure (.bool s.reportsGlobalOutcome, s)
  | "has_branch" => pure (.bool s.hasBranch, s)
  | "branch_ids" => pure (.list .nat s.branchIds, s)
  | "display" => pure (.str s.display, s)
  | other => throw s!"unknown step {other}"

/-- Answers `global_session`. -/
def answerGlobalSession (req : Value) : Decode Value := do
  let s ← part req "session" sessionInput
  let steps ← list req "steps"
  let (answers, s) ← steps.foldlM (fun (acc, s) step => do
    let (result, s) ← sessionStep s step
    pure (acc ++ [.obj [("result", result), ("status", globalStatusValue s.status),
      ("gmt_updated", .nat s.gmtUpdated), ("branch_ids", .list .nat s.branchIds)]], s)) ([], s)
  pure <| .obj [("steps", .arr answers), ("session", sessionValue s)]

/-! ## Session stores -/

/-- A call to a session store that a step asks for. -/
inductive SessionCall where
  | add (s : GlobalSession)
  | update (s : GlobalSession)
  | remove (xid : String)
  | addBranch (b : Branch)
  | updateBranch (b : Branch)
  | removeBranch (xid : String) (branchId : Nat)
  | find (xid : String)
  | findBy (statuses : List GlobalStatus)
  /-- The size of a session table. -/
  | len

/-- Reads the call a session-store step asks for. -/
def sessionCallInput (step : Value) : Decode SessionCall := do
  match ← need step "do" string with
  | "add" => pure (.add (← part step "session" sessionInput))
  | "update" => pure (.update (← part step "session" sessionInput))
  | "remove" => pure (.remove (← need step "xid" string))
  | "add_branch" => pure (.addBranch (← part step "branch" (branchInput none)))
  | "update_branch" => pure (.updateBranch (← part step "branch" (branchInput none)))
  | "remove_branch" =>
    let xid ← need step "xid" string
    pure (.removeBranch xid (← need step "branch_id" word))
  | "find" => pure (.find (← need step "xid" string))
  | "find_by" =>
    let statuses ← (items step "statuses").mapM globalStatusItem
    let all ← withDefault step "all" boolean false
    pure (.findBy (if all then GlobalStatus.all else statuses))
  | "len" => pure .len
  | other => throw s!"unknown step {other}"

/-- Makes a call other than `len` on a session store; answers its result. -/
def SessionCall.perform {m : Type → Type u} [Monad m] (store : SessionStore m) :
    SessionCall → m Value
  | .add s => (fun _ => .null) <$> store.add s
  | .update s => sessionValue <$> store.update s
  | .remove xid => (fun _ => .null) <$> store.remove xid
  | .addBranch b => (fun _ => .null) <$> store.addBranch b
  | .updateBranch b => (fun _ => .null) <$> store.updateBranch b
  | .removeBranch xid id => (fun _ => .null) <$> store.removeBranch xid id
  | .find xid => .opt sessionValue <$> store.find? xid
  | .findBy statuses => .list (fun s => .str s.xid) <$> store.findBy statuses
  | .len => pure .null

/-- The sessions in brief, sorted by xid. -/
def sessionsState (sessions : List GlobalSession) : List (String × Value) :=
  [("state", .list briefSession sessions)]

/-- Runs one step on a session table. -/
def sessionTableStep (t : SessionTable) (step : Value) :
    Decode (Except StoreError Value × SessionTable) := do
  match ← sessionCallInput step with
  | .len => pure (.ok (.obj [("len", .nat t.size), ("is_empty", .bool (t.size == 0))]), t)
  | call => pure (((call.perform SessionTable.store).run).run t)

/-- Answers `session_store`. -/
def answerSessionStore (req : Value) : Decode Value := do
  let steps ← list req "steps"
  let (answers, _) ← steps.foldlM (fun (acc, t) step => do
    let (r, t) ← sessionTableStep t step
    let answer := match r with
      | .ok v => .obj (("result", v) :: sessionsState t.byXid)
      | .error e => stepFailure (storeErrorValue e) (sessionsState t.byXid)
    pure (acc ++ [answer], t)) ([], ({} : SessionTable))
  pure <| .obj [("steps", .arr answers)]

/-! ## Lock stores -/

/-- The lock owner described by a step. -/
def lockOwnerInput (step : Value) : Decode LockOwner := do
  let xid ← need step "xid" string
  let resourceId ← withDefault step "resource_id" string "db"
  let transactionId ← withDefault step "transaction_id" word 0
  let branchId ← withDefault step "branch_id" word 0
  pure ⟨xid, transactionId, branchId, resourceId⟩

/-- A call to a lock store or to the lock manager over it that a step asks for. -/
inductive LockCall where
  | acquire (owner : LockOwner) (key : String)
  | release (owner : LockOwner) (key : String)
  | query (rowKey : String)
  | collect (b : Branch)
  | acquireBranch (b : Branch)
  | releaseBranch (b : Branch)
  | releaseSession (s : GlobalSession)
  | isLockable (xid resourceId key : String)
  /-- The size of a lock table. -/
  | len

/-- Reads the call a lock-store step asks for. -/
def lockCallInput (step : Value) : Decode LockCall := do
  match ← need step "do" string with
  | "acquire" =>
    let o ← lockOwnerInput step
    pure (.acquire o (← need step "lock_key" string))
  | "release" =>
    let o ← lockOwnerInput step
    pure (.release o (← need step "lock_key" string))
  | "query" =>
    match ← optional step "row_key" (stringCalled "row_key") with
    | some k => pure (.query k)
    | none => do
      let resourceId ← withDefault step "resource_id" string "db"
      pure (.query (rowKey resourceId (← need step "table" string) (← need step "pk" string)))
  | "len" => pure .len
  | "collect" => pure (.collect (← part step "branch" (branchInput none)))
  | "acquire_branch" => pure (.acquireBranch (← part step "branch" (branchInput none)))
  | "release_branch" => pure (.releaseBranch (← part step "branch" (branchInput none)))
  | "release_session" => pure (.releaseSession (← part step "session" sessionInput))
  | "is_lockable" =>
    let xid ← need step "xid" string
    let resourceId ← withDefault step "resource_id" string "db"
    pure (.isLockable xid resourceId (← need step "lock_key" string))
  | other => throw s!"unknown step {other}"

/-- Makes a call other than `len` on a lock store; answers its result.  A lock key is read
first, and a key that cannot be read is the call's failure. -/
def LockCall.perform {m : Type → Type u} [Monad m] [MonadExceptOf LockError m]
    (store : LockStore m) : LockCall → m Value
  | .acquire o key => do .bool <$> store.acquire (← liftExcept (RowLock.expand o key))
  | .release o key => do (fun _ => .null) <$> store.release (← liftExcept (RowLock.expand o key))
  | .query key => .opt holderValue <$> store.owner? key
  | .collect b => .list rowLockValue <$> liftExcept (LockManager.collect b)
  | .acquireBranch b => .bool <$> LockManager.acquireBranch store b
  | .releaseBranch b => (fun _ => .null) <$> LockManager.releaseBranch store b
  | .releaseSession s => (fun _ => .null) <$> LockManager.releaseSession store s
  | .isLockable xid resourceId key => .bool <$> LockManager.isLockable store xid resourceId key
  | .len => pure .null

/-- Runs one step on a lock table. -/
def lockStep (t : LockTable) (step : Value) : Decode (Except LockError Value × LockTable) := do
  match ← lockCallInput step with
  | .len => pure (.ok (.obj [("len", .nat t.size), ("is_empty", .bool (t.size == 0))]), t)
  | call => pure (((call.perform LockTable.store).run).run t)

/-- Answers `lock_store`. -/
def answerLockStore (req : Value) : Decode Value := do
  let steps ← list req "steps"
  let (answers, _) ← steps.foldlM (fun (acc, t) step => do
    let (r, t) ← lockStep t step
    let rows := [("rows", lockRowsValue t.sorted)]
    let answer := match r with
      | .ok v => .obj (("result", v) :: rows)
      | .error e => stepFailure (lockErrorValue e) rows
    pure (acc ++ [answer], t)) ([], ({} : LockTable))
  pure <| .obj [("steps", .arr answers)]

/-! ## Lease locks on a manual clock -/

/-- Runs one step on a lease table and a clock. -/
def leaseStep (t : LeaseTable) (c : Clock) (step : Value) :
    Decode (Value × LeaseTable × Clock) := do
  match ← need step "do" string with
  | "acquire" =>
    let name ← need step "name" string
    let owner ← need step "owner" string
    let lease ← spanField step "lease" 10000
    let (ok, t) := t.tryAcquire name owner lease c.now
    pure (.bool ok, t, c)
  | "release" =>
    let name ← need step "name" string
    let owner ← need step "owner" string
    let (ok, t) := t.release name owner c.now
    pure (.bool ok, t, c)
  | "advance" =>
    let by_ ← spanField step "by" 0
    pure (.null, t, c.advance by_)
  | "elapsed_since" =>
    let m ← need step "millis" word
    pure (.nat (c.elapsedSince m), t, c)
  | "debug" => pure (.str s!"Clock::Manual({c.now})", t, c)
  | other => throw s!"unknown step {other}"

/-- Answers `locker`. -/
def answerLocker (req : Value) : Decode Value := do
  let start ← withDefault req "start" word 0
  let steps ← list req "steps"
  let (answers, _) ← steps.foldlM (fun (acc, t, c) step => do
      let (r, t, c) ← leaseStep t c step
      pure (acc ++ [.obj [("result", r), ("now", .nat c.now)]], t, c))
    ([], ({} : LeaseTable), Clock.mk start)
  pure <| .obj [("steps", .arr answers)]

end GlobalTxn.Protocol
