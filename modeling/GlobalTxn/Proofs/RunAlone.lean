import GlobalTxn.Proofs.HeldRowsCalls

/-! # Coordinator calls run alone

Run alone (`Steps.run`), an operation takes its calls one after the other, and a failed call
ends it (`Steps.run_exceptT_bind`).  On sessions and row locks kept in tables, each call has
an exact equation here: its result, and the environment it leaves.  A session call first
spends an injected failure if one is left; a lock call on a table does not fail.  Calls to
the id generator, the clock and the participants change only their own part.

With these equations the result and the state of a whole operation are computed call by call,
as the operation's code is read.
-/

namespace GlobalTxn

namespace Steps

variable {σ ε ε' α β : Type}

/-- Run alone, a program that may fail goes on after a success and stops at a failure. -/
theorem run_exceptT_bind (m : ExceptT ε (Steps σ) α) (f : α → ExceptT ε (Steps σ) β) (s : σ) :
    run (m >>= f).run s = match run m.run s with
      | (.ok a, s') => run (f a).run s'
      | (.error e, s') => (.error e, s') := by
  rw [ExceptT.run_bind, run_bind]
  rcases run m.run s with ⟨_ | a, s⟩ <;> rfl

/-- A call that succeeds hands its result on. -/
theorem run_bind_ok {m : ExceptT ε (Steps σ) α} {f : α → ExceptT ε (Steps σ) β} {s s' : σ} {a : α}
    (hm : run m.run s = (.ok a, s')) : run (m >>= f).run s = run (f a).run s' := by
  rw [run_exceptT_bind, hm]

/-- A call that fails ends the program. -/
theorem run_bind_error {m : ExceptT ε (Steps σ) α} {f : α → ExceptT ε (Steps σ) β} {s s' : σ}
    {e : ε} (hm : run m.run s = (.error e, s')) : run (m >>= f).run s = (.error e, s') := by
  rw [run_exceptT_bind, hm]

@[simp] theorem run_exceptT_pure (a : α) (s : σ) :
    run (pure a : ExceptT ε (Steps σ) α).run s = (.ok a, s) := rfl

@[simp] theorem run_exceptT_throw (e : ε) (s : σ) :
    run (throw e : ExceptT ε (Steps σ) α).run s = (.error e, s) := rfl

@[simp] theorem run_exceptT_lift (p : Steps σ α) (s : σ) :
    run (ExceptT.lift p : ExceptT ε (Steps σ) α).run s = (.ok (run p s).1, (run p s).2) :=
  run_bind p _ s

@[simp] theorem run_exceptT_tryCatch (m : ExceptT ε (Steps σ) α) (h : ε → ExceptT ε (Steps σ) α)
    (s : σ) :
    run (tryCatch m h).run s = match run m.run s with
      | (.ok a, s') => (.ok a, s')
      | (.error e, s') => run (h e).run s' := by
  rw [ExceptT.run_tryCatch, run_bind]
  rcases run m.run s with ⟨_ | a, s⟩ <;> rfl

@[simp] theorem run_exceptT_tryCatchThe (m : ExceptT ε (Steps σ) α)
    (h : ε → ExceptT ε (Steps σ) α) (s : σ) :
    run (tryCatchThe ε m h).run s = match run m.run s with
      | (.ok a, s') => (.ok a, s')
      | (.error e, s') => run (h e).run s' :=
  run_exceptT_tryCatch m h s

@[simp] theorem run_exceptT_adapt (f : ε → ε') (m : ExceptT ε (Steps σ) α) (s : σ) :
    run (ExceptT.adapt f m).run s = ((run m.run s).1.mapError f, (run m.run s).2) := by
  show run (m.run >>= fun r => pure (r.mapError f)) s = _
  rw [run_bind]
  rfl

end Steps

namespace Env

variable {env : Env} {t : SessionTable} {lt : LockTable}

/-- The environment after an injected session read failure. -/
def spendRead (env : Env) : Env :=
  { env with faults := { env.faults with sessionReads := env.faults.sessionReads - 1 } }

/-- The environment after an injected session write failure. -/
def spendWrite (env : Env) : Env :=
  { env with faults := { env.faults with sessionWrites := env.faults.sessionWrites - 1 } }

theorem At.spendRead (h : env.At t lt) : env.spendRead.At t lt :=
  ⟨h.sessions, h.locks, h.acquires, h.releases⟩

theorem At.spendWrite (h : env.At t lt) : env.spendWrite.At t lt :=
  ⟨h.sessions, h.locks, h.acquires, h.releases⟩

theorem At.withIds (h : env.At t lt) (ids : IdGenerator) : { env with ids }.At t lt :=
  ⟨h.sessions, h.locks, h.acquires, h.releases⟩

theorem At.withSessions (h : env.At t lt) (t' : SessionTable) :
    { env with sessions := .table t' }.At t' lt :=
  ⟨rfl, h.locks, h.acquires, h.releases⟩

theorem At.withLocks (h : env.At t lt) (lt' : LockTable) :
    { env with locks := .table lt' }.At t lt' :=
  ⟨h.sessions, rfl, h.acquires, h.releases⟩

/-- Keeping the table a session call on a table leaves changes nothing when it is the one
kept. -/
theorem with_sessions_self (h : env.sessions = .table t) : { env with sessions := .table t } = env := by
  cases env
  cases h
  rfl

theorem with_locks_self (h : env.locks = .table lt) : { env with locks := .table lt } = env := by
  cases env
  cases h
  rfl

end Env

namespace CoordM

variable {env : Env} {t : SessionTable} {lt : LockTable}

@[simp] theorem run_envAtomic {ε α : Type} (X : EnvM ε α) (env : Env) :
    Steps.run (EnvM.atomic X).run env = X.run env := rfl

@[simp] theorem run_nextId (env : Env) :
    Steps.run nextId.run env = (.ok env.ids.next.1, { env with ids := env.ids.next.2 }) := rfl

@[simp] theorem run_now (env : Env) : Steps.run now.run env = (.ok env.clock.now, env) := rfl

/-- Reading a stored session from a table: an injected failure, or the table's session. -/
theorem run_find? (h : env.sessions = .table t) (x : String) :
    Steps.run (store (sessionStore.find? x)).run env =
      if 0 < env.faults.sessionReads then
        (.error (.store (.internal "injected store read failure")), env.spendRead)
      else (.ok (t.find? x), env) := by
  simp only [store, storeWith, sessionStore, Steps.run_exceptT_adapt, run_envAtomic,
    Env.sessionStore]
  rw [Env.run_failSessionRead_bind]
  split
  · rfl
  · simp only [Env.sessionsKept]
    rw [Env.run_onSessions h]
    show ((Except.ok (t.find? x) : Except StoreError _).mapError CoordError.store,
      { env with sessions := .table t }) = _
    rw [Env.with_sessions_self h]
    rfl

/-- Loading a stored session from a table: an injected failure, the session, or none. -/
theorem run_load (h : env.sessions = .table t) (x : String) :
    Steps.run (load x).run env =
      if 0 < env.faults.sessionReads then
        (.error (.store (.internal "injected store read failure")), env.spendRead)
      else match t.find? x with
        | some g => (.ok g, env)
        | none => (.error (.globalNotFound x), env) := by
  unfold load
  rw [Steps.run_exceptT_bind, run_find? h]
  by_cases hr : 0 < env.faults.sessionReads
  · simp only [hr, if_true]
  · simp only [hr, if_false]
    cases t.find? x <;> rfl

/-- Appending a branch in a table, keeping the outcome: an injected failure, or the table's
answer. -/
theorem run_storeResult_addBranch (h : env.sessions = .table t) (b : Branch) :
    Steps.run (storeResult (sessionStore.addBranch b)).run env =
      if 0 < env.faults.sessionWrites then
        (.ok (.error (.internal "injected store write failure")), env.spendWrite)
      else match t.addBranch b with
        | .ok t' => (.ok (.ok ()), { env with sessions := .table t' })
        | .error e => (.ok (.error e), env) := by
  simp only [storeResult, sessionStore, Steps.run_exceptT_lift, run_envAtomic, Env.sessionStore]
  rw [Env.run_failSessionWrite_bind]
  split
  · rfl
  · simp only [Env.sessionsKept, SessionTable.store]
    rw [Env.run_onSessions h, SessionTable.run_change]
    cases t.addBranch b with
    | ok t' => rfl
    | error e =>
      show (Except.ok (Except.error e), { env with sessions := .table t }) = _
      rw [Env.with_sessions_self h]

/-- Acquiring rows in a table: the table acquires them, all or none. -/
theorem run_lockStore_acquire (h : env.At t lt) (ls : List RowLock) :
    Steps.run (lockStore.acquire ls).run env =
      (.ok (lt.acquire ls).1, { env with locks := .table (lt.acquire ls).2 }) :=
  Env.run_lockStore_acquire h ls

/-- Releasing rows in a table: the table releases them. -/
theorem run_lockStore_release (h : env.At t lt) (ls : List RowLock) :
    Steps.run (lockStore.release ls).run env = (.ok (), { env with locks := .table (lt.release ls) }) :=
  Env.run_lockStore_release h ls

/-- Acquiring the row locks of a branch in a table: a malformed lock key fails, and otherwise
the table acquires the rows, all or none. -/
theorem run_acquireBranch (h : env.At t lt) (b : Branch) :
    Steps.run (LockManager.acquireBranch lockStore b).run env =
      match LockManager.collect b with
      | .error e => (.error e, env)
      | .ok ls => (.ok (lt.acquire ls).1, { env with locks := .table (lt.acquire ls).2 }) := by
  unfold LockManager.acquireBranch
  cases LockManager.collect b with
  | error e => rfl
  | ok ls =>
    rw [Steps.run_exceptT_bind]
    show Steps.run (if ls.isEmpty = true then pure true else _ : ExceptT LockError (Steps Env) Bool).run env = _
    by_cases hnil : ls.isEmpty = true
    · rw [if_pos hnil, List.isEmpty_iff.1 hnil]
      simp [LockTable.acquire, Env.with_locks_self h.locks]
    · rw [if_neg hnil, Steps.run_exceptT_tryCatchThe, run_lockStore_acquire h]

/-- Releasing the row locks of a branch in a table: a malformed lock key fails and releases
nothing, and otherwise the table releases the rows. -/
theorem run_releaseBranch (h : env.At t lt) (b : Branch) :
    Steps.run (LockManager.releaseBranch lockStore b).run env =
      match LockManager.collect b with
      | .error e => (.error e, env)
      | .ok ls => (.ok (), { env with locks := .table (lt.release ls) }) := by
  unfold LockManager.releaseBranch
  cases LockManager.collect b with
  | error e => rfl
  | ok ls =>
    rw [Steps.run_exceptT_bind]
    show Steps.run (if ls.isEmpty = true then pure () else _ : ExceptT LockError (Steps Env) Unit).run env = _
    by_cases hnil : ls.isEmpty = true
    · rw [if_pos hnil, List.isEmpty_iff.1 hnil]
      simp [LockTable.release, Env.with_locks_self h.locks]
    · rw [if_neg hnil, run_lockStore_release h]

/-- Moving a session along the state machine: the moved session, or an illegal transition;
the environment stays. -/
theorem run_transit (s : GlobalSession) (target : GlobalStatus) (env : Env) :
    Steps.run (transit s target).run env =
      if s.status.canTransitTo target then
        (.ok { s with status := target, gmtUpdated := env.clock.now }, env)
      else (.error (CoordError.ofTransition ⟨s.status, target⟩), env) := by
  unfold transit
  rw [Steps.run_bind_ok (run_now env)]
  unfold GlobalSession.transit
  by_cases hc : s.status.canTransitTo target = true
  · rw [if_pos hc, if_pos hc]
    rfl
  · rw [if_neg hc, if_neg hc]
    rfl

/-- Waiting sets a timer unless the wait is for no time; the pause itself is no step. -/
theorem run_sleep (ms : Nat) (env : Env) :
    Steps.run (sleep ms).run env =
      if ms = 0 then (.ok (), env)
      else (.ok (), { env with timers := { env.timers with count := env.timers.count + 1 } }) := by
  unfold sleep
  split <;> rfl

end CoordM

end GlobalTxn
