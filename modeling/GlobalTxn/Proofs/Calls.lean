import GlobalTxn.Proofs.Keeps

/-! # What the calls of a coordinator change

Every call of a coordinator on its environment is one atomic step.  This module says, call by
call, what the step does to the sessions:

* a session-store call on sessions kept in a table does what the table operation does, after
  spending an injected failure if one is left (`run_failSessionWrite_bind`, `run_onSessions`,
  `run_change`); `keeps_sessionWrite` and `keeps_sessionRead` turn a fact about the table
  operation into one about the call;
* every other call, to the lock store, to the participants, to the id generator, the latches
  or the timers, leaves the sessions as they are, so it keeps every property of the sessions
  alone (`fun env => I env.sessions`), whatever `I` is.
-/

namespace GlobalTxn

open Steps

/-! ## Session-store calls on a table -/

namespace Env

variable {α : Type}

theorem run_failSessionWrite_bind (k : Unit → EnvM StoreError α) (env : Env) :
    (failSessionWrite >>= k).run env =
      if 0 < env.faults.sessionWrites then
        (.error (.internal "injected store write failure"),
          { env with faults := { env.faults with sessionWrites := env.faults.sessionWrites - 1 } })
      else (k ()).run env := by
  obtain ⟨_, _, _, _, _, ⟨w, _, _, _, _⟩, _, _, _, _⟩ := env
  cases w <;> rfl

theorem run_failSessionRead_bind (k : Unit → EnvM StoreError α) (env : Env) :
    (failSessionRead >>= k).run env =
      if 0 < env.faults.sessionReads then
        (.error (.internal "injected store read failure"),
          { env with faults := { env.faults with sessionReads := env.faults.sessionReads - 1 } })
      else (k ()).run env := by
  obtain ⟨_, _, _, _, _, ⟨_, r, _, _, _⟩, _, _, _, _⟩ := env
  cases r <;> rfl

/-- On sessions kept in a table, a session operation runs the table operation and keeps the
table it leaves. -/
theorem run_onSessions {table : SessionTableM α} {etcd : String → Etcd.SessionsM α} {env : Env}
    {t : SessionTable} (h : env.sessions = .table t) :
    (onSessions table etcd).run env =
      ((table.run.run t).1, { env with sessions := .table (table.run.run t).2 }) := by
  obtain ⟨_, _, sessions, _, _, _, _, _, _, _⟩ := env
  cases h
  show (liftExcept (table.run.run t).1 : EnvM StoreError α).run _ = _
  cases (table.run.run t).1 <;> rfl

end Env

/-- Sessions kept in a table that satisfies `J`. -/
def SessionBacking.InTable (J : SessionTable → Prop) (b : SessionBacking) : Prop :=
  ∃ t, b = .table t ∧ J t

namespace SessionTable

theorem run_change {α : Type} {f : SessionTable → Except StoreError (α × SessionTable)}
    (t : SessionTable) :
    (change f).run.run t = match f t with
      | .ok (a, t') => (.ok a, t')
      | .error e => (.error e, t) := by
  unfold change
  show (match f t with
      | .ok (a, t') => (set t' >>= fun _ => pure a : SessionTableM α)
      | .error e => throw e).run.run t = _
  rcases f t with e | ⟨a, t'⟩ <;> rfl

/-- A table change keeps `J` when every successful change of a table with `J` leaves one with
`J` and a result `P` admits. -/
theorem keeps_change {α : Type} {J : SessionTable → Prop} {P : α → Prop}
    {f : SessionTable → Except StoreError (α × SessionTable)}
    (h : ∀ t, J t → Outcome (fun _ => True) (fun r => J r.2 ∧ P r.1) (f t)) :
    (atomic (change f).run).Keeps J (Outcome (fun _ => True) P) := by
  intro t ht
  change J ((change f).run.run t).2 ∧ Outcome _ P ((change f).run.run t).1
  rw [run_change]
  have := h t ht
  revert this
  cases f t with
  | ok r => exact fun hr => hr
  | error e => exact fun _ => ⟨ht, trivial⟩

end SessionTable

section SessionCalls

variable {α : Type} {J : SessionTable → Prop} {P : α → Prop} {op : SessionTableM α}
  {etcd : String → Etcd.SessionsM α}

/-- A session write keeps the sessions in a table with `J` when the table operation keeps `J`;
an injected failure changes no session. -/
theorem keeps_sessionWrite (hop : (atomic op.run).Keeps J (Outcome (fun _ => True) P)) :
    (EnvM.atomic (Env.failSessionWrite >>= fun _ => Env.onSessions op etcd)).run.Keeps
      (fun env => SessionBacking.InTable J env.sessions) (Outcome (fun _ => True) P) := by
  intro env ⟨t, ht, hJ⟩
  change SessionBacking.InTable J
      ((Env.failSessionWrite >>= fun _ => Env.onSessions op etcd).run env).2.sessions ∧
    Outcome _ P ((Env.failSessionWrite >>= fun _ => Env.onSessions op etcd).run env).1
  rw [Env.run_failSessionWrite_bind]
  split
  · exact ⟨⟨t, ht, hJ⟩, trivial⟩
  · rw [Env.run_onSessions ht]
    obtain ⟨hJ', hP⟩ := hop t hJ
    exact ⟨⟨_, rfl, hJ'⟩, hP⟩

/-- A session read keeps the sessions in a table with `J` when the table operation does. -/
theorem keeps_sessionRead (hop : (atomic op.run).Keeps J (Outcome (fun _ => True) P)) :
    (EnvM.atomic (Env.failSessionRead >>= fun _ => Env.onSessions op etcd)).run.Keeps
      (fun env => SessionBacking.InTable J env.sessions) (Outcome (fun _ => True) P) := by
  intro env ⟨t, ht, hJ⟩
  change SessionBacking.InTable J
      ((Env.failSessionRead >>= fun _ => Env.onSessions op etcd).run env).2.sessions ∧
    Outcome _ P ((Env.failSessionRead >>= fun _ => Env.onSessions op etcd).run env).1
  rw [Env.run_failSessionRead_bind]
  split
  · exact ⟨⟨t, ht, hJ⟩, trivial⟩
  · rw [Env.run_onSessions ht]
    obtain ⟨hJ', hP⟩ := hop t hJ
    exact ⟨⟨_, rfl, hJ'⟩, hP⟩

end SessionCalls

/-! ## Calls that leave the sessions as they are -/

section Frame

variable (I : SessionBacking → Prop)

namespace Env

theorem keeps_onLocks {α : Type} {table : LockTableM α} {etcd : String → Etcd.LocksM α} :
    (atomic (onLocks table etcd).run).Keeps (fun env => I env.sessions)
      (Outcome (fun _ => True) fun _ => True) := by
  unfold onLocks
  refine keeps_atomic_bind (keeps_atomic_get (P := fun _ => True) fun _ _ => trivial)
    fun env _ => ?_
  split
  · refine keeps_atomic_bind (keeps_atomic_modify fun _ hs => hs) fun _ _ => ?_
    exact keeps_atomic_liftExcept (outcome_true _)
  · exact keeps_atomic_liftExcept (outcome_true _)

theorem keeps_lockStore_acquire (ls : List RowLock) :
    (atomic (lockStore.acquire ls).run).Keeps (fun env => I env.sessions)
      (Outcome (fun _ => True) fun _ => True) := by
  simp only [lockStore, noteAsked]
  refine keeps_atomic_bind (keeps_atomic_modify fun env h => by split <;> exact h) fun _ _ => ?_
  refine keeps_atomic_bind (keeps_atomic_get fun _ h => h) fun env henv => ?_
  split
  · refine keeps_atomic_bind (keeps_atomic_set _ henv) fun _ _ => ?_
    refine keeps_atomic_bind (keeps_atomic_tryCatch (keeps_onLocks I)
      fun _ _ => keeps_atomic_pure false trivial) fun _ _ => ?_
    exact keeps_atomic_bind (P := fun _ => True) (keeps_atomic_throw _ trivial) fun _ _ =>
      keeps_onLocks I
  · exact keeps_onLocks I

theorem keeps_lockStore_release (ls : List RowLock) :
    (atomic (lockStore.release ls).run).Keeps (fun env => I env.sessions)
      (Outcome (fun _ => True) fun _ => True) := by
  simp only [lockStore]
  refine keeps_atomic_bind (keeps_atomic_get fun _ h => h) fun env henv => ?_
  split
  · refine keeps_atomic_bind (keeps_atomic_set _ henv) fun _ _ => ?_
    exact keeps_atomic_bind (P := fun _ => True) (keeps_atomic_throw _ trivial) fun _ _ =>
      keeps_onLocks I
  · exact keeps_onLocks I

theorem keeps_lockStore_owner? (key : String) :
    (atomic (lockStore.owner? key).run).Keeps (fun env => I env.sessions)
      (Outcome (fun _ => True) fun _ => True) := by
  simp only [lockStore]
  refine keeps_atomic_bind (keeps_atomic_get fun _ h => h) fun env henv => ?_
  split
  · refine keeps_atomic_bind (keeps_atomic_set _ henv) fun _ _ => ?_
    exact keeps_atomic_bind (P := fun _ => True) (keeps_atomic_throw _ trivial) fun _ _ =>
      keeps_onLocks I
  · exact keeps_onLocks I

end Env

namespace LockManager

variable {err : LockError → Prop}

theorem keeps_acquireBranch (b : Branch) :
    (acquireBranch CoordM.lockStore b).run.Keeps (fun env => I env.sessions)
      (Outcome (fun _ => True) fun _ => True) := by
  unfold acquireBranch
  refine keeps_bind (keeps_liftExcept (outcome_true _)) fun locks _ => ?_
  split
  · exact keeps_pure true trivial
  · refine keeps_tryCatchThe (Env.keeps_lockStore_acquire I locks) fun e _ => ?_
    refine keeps_bind (keeps_tryCatchThe (Env.keeps_lockStore_release I locks)
      fun _ _ => keeps_pure () trivial) fun _ _ => ?_
    exact keeps_throw e trivial

theorem keeps_releaseBranch (b : Branch) :
    (releaseBranch CoordM.lockStore b).run.Keeps (fun env => I env.sessions)
      (Outcome (fun _ => True) fun _ => True) := by
  unfold releaseBranch
  refine keeps_bind (keeps_liftExcept (outcome_true _)) fun locks _ => ?_
  split
  · exact keeps_pure () trivial
  · exact Env.keeps_lockStore_release I locks

theorem keeps_releaseSession (s : GlobalSession) :
    (releaseSession CoordM.lockStore s).run.Keeps (fun env => I env.sessions)
      (Outcome (fun _ => True) fun _ => True) := by
  unfold releaseSession
  refine keeps_bind (keeps_liftExcept (outcome_true _)) fun locks _ => ?_
  split
  · exact keeps_pure () trivial
  · exact Env.keeps_lockStore_release I locks

theorem keeps_isLockable (xid resourceId key : String) :
    (isLockable CoordM.lockStore xid resourceId key).run.Keeps (fun env => I env.sessions)
      (Outcome (fun _ => True) fun _ => True) := by
  unfold isLockable
  refine keeps_bind (keeps_liftExcept (outcome_true _)) fun locks _ => ?_
  induction locks with
  | nil => exact keeps_pure true trivial
  | cons l ls ih =>
    unfold isLockable.go
    refine keeps_bind (Env.keeps_lockStore_owner? I l.rowKey) fun owner _ => ?_
    split
    · split
      · exact keeps_pure false trivial
      · exact ih
    · exact ih

end LockManager

namespace CoordM

variable {err : CoordError → Prop}

theorem keeps_locking {α : Type} {m : ExceptT LockError (Steps Env) α}
    (hm : m.run.Keeps (fun env => I env.sessions) (Outcome (fun _ => True) fun _ => True)) :
    (locking m).run.Keeps (fun env => I env.sessions)
      (Outcome (fun e => ∃ l, e = CoordError.ofLock l) fun _ => True) :=
  keeps_adapt (hm.mono fun r _ =>
    Outcome.mono (fun e _ => ⟨e, rfl⟩) (fun _ h => h) (outcome_true r))

theorem keeps_lockingResult {α : Type} {m : ExceptT LockError (Steps Env) α}
    (hm : m.run.Keeps (fun env => I env.sessions) (Outcome (fun _ => True) fun _ => True)) :
    (lockingResult m).run.Keeps (fun env => I env.sessions) (Outcome err fun _ => True) :=
  keeps_lift (hm.mono fun _ _ => trivial)

/-- A call that changes the environment only outside the sessions. -/
theorem keeps_modifyGet_sessions {α : Type} {f : Env → α × Env}
    (hf : ∀ env, (f env).2.sessions = env.sessions) :
    (modifyGet f : CoordM α).run.Keeps (fun env => I env.sessions) (Outcome err fun _ => True) :=
  keeps_modifyGet fun env h => ⟨(hf env).symm ▸ h, trivial⟩

theorem keeps_now :
    now.run.Keeps (fun env => I env.sessions) (Outcome err fun _ => True) :=
  keeps_bind (keeps_modifyGet_sessions I (f := fun env => (env, env)) fun _ => rfl)
    fun _ _ => keeps_pure _ trivial

theorem keeps_nextId :
    nextId.run.Keeps (fun env => I env.sessions) (Outcome err fun _ => True) :=
  keeps_modifyGet_sessions I fun _ => rfl

theorem keeps_tryLatch (xid : String) :
    (tryLatch xid).run.Keeps (fun env => I env.sessions) (Outcome err fun _ => True) :=
  keeps_modifyGet_sessions I fun env => by split <;> rfl

theorem keeps_unlatch (xid : String) :
    (unlatch xid).run.Keeps (fun env => I env.sessions) (Outcome err fun _ => True) :=
  keeps_modifyGet_sessions I fun _ => rfl

/-- Holding a latch around a computation keeps what the computation keeps. -/
theorem keeps_holding {α : Type} {P : α → Prop} {m : CoordM α} (xid : String)
    (hm : m.run.Keeps (fun env => I env.sessions) (Outcome err P)) :
    (holding xid m).run.Keeps (fun env => I env.sessions) (Outcome err P) := by
  unfold holding
  refine keeps_bind (keeps_tryCatch hm fun e he => ?_) fun a ha => ?_
  · exact keeps_bind (keeps_unlatch I xid) fun _ _ => keeps_throw e he
  · exact keeps_bind (keeps_unlatch I xid) fun _ _ => keeps_pure a ha

theorem keeps_requestPhaseTwo (action : Action) (b : Branch) (done : BranchStatus) :
    (requestPhaseTwo action b done).run.Keeps (fun env => I env.sessions)
      (Outcome err fun _ => True) :=
  keeps_bind (keeps_modifyGet_sessions I fun _ => rfl) fun _ _ => keeps_pure _ trivial

theorem keeps_requestDelete (b : Branch) :
    (requestDelete b).run.Keeps (fun env => I env.sessions) (Outcome err fun _ => True) :=
  keeps_bind (keeps_modifyGet_sessions I fun _ => rfl) fun _ _ => keeps_pure _ trivial

theorem keeps_setTimer (ms : Nat) :
    (setTimer ms).run.Keeps (fun env => I env.sessions) (Outcome err fun _ => True) := by
  unfold setTimer runtimeNow
  refine keeps_bind (keeps_bind (keeps_modifyGet_sessions I (f := fun env => (env, env))
    fun _ => rfl) fun env _ =>
      (keeps_pure env.timers.now trivial : Keeps _ (Outcome _ fun _ => True) _))
    fun _ _ => ?_
  exact keeps_bind (keeps_modifyGet_sessions I fun _ => rfl) fun _ _ => keeps_pure _ trivial

theorem keeps_sleep (ms : Nat) :
    (sleep ms).run.Keeps (fun env => I env.sessions) (Outcome err fun _ => True) := by
  unfold sleep
  split
  · exact keeps_pure () trivial
  · exact keeps_bind (keeps_setTimer I ms) fun _ _ => Pool.keeps_pauseUntil

end CoordM

end Frame

end GlobalTxn
