import GlobalTxn.Proofs.HeldRows
import GlobalTxn.Proofs.Wp
import GlobalTxn.Proofs.Calls

/-! # What each call does to the tables

A coordinator whose sessions and row locks are kept in tables, and whose lock calls are not set
to fail, changes the tables call by call.  `Env.At env t lt` says which tables `env` keeps; each
lemma here says which tables a call leaves, in the form `Steps.Wp` uses: a session call may meet
an injected failure, which leaves the tables as they were, and the lock calls do not fail.

`Env.Accounted` is the property the coordinator keeps (`SessionTable.Accounts` of its tables),
and `Env.OnlyFrees env env'` what every step of a scan handler guarantees: each row held in
`env'` was held in `env`.  Every call a handler makes frees rows or leaves them as they are
(`always_store`, `always_releaseBranch`, ...).
-/

namespace GlobalTxn

open Steps

namespace Env

/-- Sessions and row locks are kept in the tables `t` and `lt`, and no lock call is set to
fail. -/
structure At (env : Env) (t : SessionTable) (lt : LockTable) : Prop where
  sessions : env.sessions = .table t
  locks : env.locks = .table lt
  acquires : env.faults.lockAcquires = 0
  releases : env.faults.lockReleases = 0

/-- The rows held are accounted for by the stored sessions, both kept in tables. -/
def Accounted (env : Env) : Prop := ∃ t lt, env.At t lt ∧ t.Accounts lt

/-- Each row held in `env'` was held in `env`: in between, rows were only freed. -/
def OnlyFrees (env env' : Env) : Prop := ∀ p ∈ env'.lockRows, p ∈ env.lockRows

variable {env env' : Env} {t : SessionTable} {lt : LockTable}

theorem onlyFrees_refl (env : Env) : env.OnlyFrees env := fun _ hp => hp

theorem onlyFrees_trans (a b c : Env) (hab : a.OnlyFrees b) (hbc : b.OnlyFrees c) :
    a.OnlyFrees c :=
  fun p hp => hab p (hbc p hp)

theorem onlyFrees_of_locks (h : env'.locks = env.locks) : env.OnlyFrees env' := by
  intro p hp
  unfold lockRows at hp ⊢
  rw [h] at hp
  exact hp

theorem At.accounted (h : env.At t lt) (hacc : t.Accounts lt) : env.Accounted :=
  ⟨t, lt, h, hacc⟩

theorem At.lockRows (h : env.At t lt) : env.lockRows = lt.rows := by
  rw [Env.lockRows, h.locks]

theorem At.stored (h : env.At t lt) (x : String) : env.stored x = t.find? x := by
  rw [Env.stored, h.sessions]

/-! ## Session calls -/

variable {α : Type} {op : SessionTableM α} {etcd : String → Etcd.SessionsM α}

/-- A session write on tables: an injected failure that leaves them, or the table operation. -/
theorem run_sessionWrite (h : env.At t lt) :
    (∃ env', env'.At t lt ∧ (failSessionWrite >>= fun _ => onSessions op etcd).run env =
        (.error (.internal "injected store write failure"), env')) ∨
      ∃ env', env'.At (op.run.run t).2 lt ∧
        (failSessionWrite >>= fun _ => onSessions op etcd).run env = ((op.run.run t).1, env') := by
  rw [run_failSessionWrite_bind]
  split
  · refine .inl ⟨_, ?_, rfl⟩
    exact ⟨h.sessions, h.locks, h.acquires, h.releases⟩
  · rw [run_onSessions h.sessions]
    refine .inr ⟨_, ?_, rfl⟩
    exact ⟨rfl, h.locks, h.acquires, h.releases⟩

/-- A session read on tables: an injected failure, or the table operation. -/
theorem run_sessionRead (h : env.At t lt) :
    (∃ env', env'.At t lt ∧ (failSessionRead >>= fun _ => onSessions op etcd).run env =
        (.error (.internal "injected store read failure"), env')) ∨
      ∃ env', env'.At (op.run.run t).2 lt ∧
        (failSessionRead >>= fun _ => onSessions op etcd).run env = ((op.run.run t).1, env') := by
  rw [run_failSessionRead_bind]
  split
  · refine .inl ⟨_, ?_, rfl⟩
    exact ⟨h.sessions, h.locks, h.acquires, h.releases⟩
  · rw [run_onSessions h.sessions]
    refine .inr ⟨_, ?_, rfl⟩
    exact ⟨rfl, h.locks, h.acquires, h.releases⟩

/-- A session operation changes the sessions only. -/
theorem locks_onSessions (env : Env) : ((onSessions op etcd).run env).2.locks = env.locks := by
  obtain ⟨_, _, sessions, _, _, _, _, _, _, _⟩ := env
  cases sessions with
  | table t => rw [run_onSessions rfl]
  | etcd root =>
    show (talk (etcd root) : EnvM StoreError α).run _ |>.2.locks = _
    unfold talk
    rcases Etcd.Client.runUnreachable (etcd root).run with e | a <;> rfl

theorem locks_sessionWrite (env : Env) :
    ((failSessionWrite >>= fun _ => onSessions op etcd).run env).2.locks = env.locks := by
  rw [run_failSessionWrite_bind]
  split
  · rfl
  · exact locks_onSessions env

theorem locks_sessionRead (env : Env) :
    ((failSessionRead >>= fun _ => onSessions op etcd).run env).2.locks = env.locks := by
  rw [run_failSessionRead_bind]
  split
  · rfl
  · exact locks_onSessions env

/-! ## Lock calls, with none set to fail -/

theorem run_onLocks {α : Type} {table : LockTableM α} {etcd : String → Etcd.LocksM α}
    (h : env.locks = .table lt) :
    (onLocks table etcd).run env =
      ((table.run.run lt).1, { env with locks := .table (table.run.run lt).2 }) := by
  obtain ⟨_, _, _, locks, _, _, _, _, _, _⟩ := env
  cases h
  show (liftExcept (table.run.run lt).1 : EnvM LockError α).run _ = _
  cases (table.run.run lt).1 <;> rfl

theorem run_lockStore_release (h : env.At t lt) (ls : List RowLock) :
    (lockStore.release ls).run env = (.ok (), { env with locks := .table (lt.release ls) }) := by
  obtain ⟨_, _, _, locks, _, ⟨_, _, _, r, _⟩, _, _, _, _⟩ := env
  obtain ⟨hs, hl, ha, hr⟩ := h
  cases hl
  cases hr
  rfl

theorem run_lockStore_acquire (h : env.At t lt) (ls : List RowLock) :
    (lockStore.acquire ls).run env =
      (.ok (lt.acquire ls).1, { env with locks := .table (lt.acquire ls).2 }) := by
  obtain ⟨_, _, _, locks, _, ⟨_, _, a, _, _⟩, _, _, _, _⟩ := env
  obtain ⟨hs, hl, ha, hr⟩ := h
  cases hl
  cases ha
  rfl

/-- A query of a row's holder changes no table, failed or not. -/
theorem at_lockStore_owner? (h : env.At t lt) (key : String) :
    ((lockStore.owner? key).run env).2.At t lt := by
  obtain ⟨_, _, _, locks, _, ⟨_, _, _, _, q⟩, _, _, _, _⟩ := env
  obtain ⟨hs, hl, ha, hr⟩ := h
  cases hl
  cases q with
  | zero => exact ⟨hs, rfl, ha, hr⟩
  | succ q => exact ⟨hs, rfl, ha, hr⟩

/-- A release, from any state, frees rows or leaves them. -/
theorem onlyFrees_lockStore_release (ls : List RowLock) (env : Env) :
    env.OnlyFrees ((lockStore.release ls).run env).2 := by
  obtain ⟨_, _, _, locks, _, ⟨_, _, _, r, _⟩, _, _, _, _⟩ := env
  cases r with
  | succ r => exact onlyFrees_refl _
  | zero =>
    cases locks with
    | table lt =>
      intro p hp
      exact (LockTable.rows_release_sublist lt ls).subset hp
    | etcd root asked =>
      show OnlyFrees _ ((talk _ : EnvM LockError Unit).run _).2
      unfold talk
      rcases Etcd.Client.runUnreachable _ with e | a <;> exact onlyFrees_refl _

end Env

namespace CoordM

variable {inv : Env → Prop} {le : Env → Env → Prop} {env : Env} {t : SessionTable}
  {lt : LockTable} {err : CoordError → Env → Prop}

theorem wp_envAtomic {ε α : Type} {X : EnvM ε α} {post : Except ε α → Env → Prop} :
    (EnvM.atomic X).run.Wp inv le post env ↔ post (X.run env).1 (X.run env).2 :=
  Iff.rfl

section SessionCalls

variable {α : Type} {op : SessionTableM α} {etcd : String → Etcd.SessionsM α}
  {wrap : StoreError → CoordError} {ok : α → Env → Prop}

/-- A session write on tables meets `Wp` when its injected failure leaves a state `err` admits
and the table operation's outcome is admitted. -/
theorem wp_storeWrite (h : env.At t lt) (herr : ∀ e env', env'.At t lt → err e env')
    (hop : ∀ env', env'.At (op.run.run t).2 lt →
      Ends (fun e => err (wrap e)) ok (op.run.run t).1 env') :
    (storeWith wrap (EnvM.atomic (Env.failSessionWrite >>= fun _ => Env.onSessions op etcd))).run.Wp
      inv le (Ends err ok) env := by
  refine wp_adapt (wp_envAtomic.2 ?_)
  rcases Env.run_sessionWrite h with ⟨env', h', hrun⟩ | ⟨env', h', hrun⟩
  · rw [hrun]
    exact herr _ env' h'
  · rw [hrun]
    exact hop env' h'

/-- A session read on tables, likewise. -/
theorem wp_storeRead (h : env.At t lt) (herr : ∀ e env', env'.At t lt → err e env')
    (hop : ∀ env', env'.At (op.run.run t).2 lt →
      Ends (fun e => err (wrap e)) ok (op.run.run t).1 env') :
    (storeWith wrap (EnvM.atomic (Env.failSessionRead >>= fun _ => Env.onSessions op etcd))).run.Wp
      inv le (Ends err ok) env := by
  refine wp_adapt (wp_envAtomic.2 ?_)
  rcases Env.run_sessionRead h with ⟨env', h', hrun⟩ | ⟨env', h', hrun⟩
  · rw [hrun]
    exact herr _ env' h'
  · rw [hrun]
    exact hop env' h'

/-- A table change that fails leaves the table. -/
theorem wp_storeChange {f : SessionTable → Except StoreError (α × SessionTable)}
    (h : env.At t lt) (herr : ∀ e env', env'.At t lt → err e env') :
    (storeWith wrap (EnvM.atomic (Env.failSessionWrite >>= fun _ =>
        Env.onSessions (SessionTable.change f) etcd))).run.Wp inv le
      (Ends err fun a env' => ∃ t', f t = .ok (a, t') ∧ env'.At t' lt) env := by
  refine wp_storeWrite h herr fun env' h' => ?_
  revert h'
  rw [SessionTable.run_change]
  cases f t with
  | error e => exact herr _ env'
  | ok r =>
    obtain ⟨a, t'⟩ := r
    exact fun h' => ⟨t', rfl, h'⟩

end SessionCalls

theorem wp_find? (x : String) (h : env.At t lt) (herr : ∀ e env', env'.At t lt → err e env') :
    (store (sessionStore.find? x)).run.Wp inv le
      (Ends err fun r env' => r = t.find? x ∧ env'.At t lt) env :=
  wp_storeRead h herr fun _ h' => ⟨rfl, h'⟩

theorem wp_findBy (ss : List GlobalStatus) (h : env.At t lt)
    (herr : ∀ e env', env'.At t lt → err e env') :
    (store (sessionStore.findBy ss)).run.Wp inv le
      (Ends err fun r env' => r = t.findBy ss ∧ env'.At t lt) env :=
  wp_storeRead h herr fun _ h' => ⟨rfl, h'⟩

theorem wp_update (s : GlobalSession) (h : env.At t lt)
    (herr : ∀ e env', env'.At t lt → err e env') :
    (store (sessionStore.update s)).run.Wp inv le
      (Ends err fun s' env' => ∃ t', t.update s = .ok (s', t') ∧ env'.At t' lt) env :=
  wp_storeChange h herr

theorem wp_remove (x : String) (h : env.At t lt) (herr : ∀ e env', env'.At t lt → err e env') :
    (store (sessionStore.remove x)).run.Wp inv le
      (Ends err fun _ env' => env'.At (t.remove x) lt) env :=
  wp_storeWrite h herr fun _ h' => h'

theorem wp_removeBranch (x : String) (id : Nat) (h : env.At t lt)
    (herr : ∀ e env', env'.At t lt → err e env') :
    (store (sessionStore.removeBranch x id)).run.Wp inv le
      (Ends err fun _ env' => env'.At (t.removeBranch x id) lt) env :=
  wp_storeWrite h herr fun _ h' => h'

/-- A change that answers nothing but the new table succeeds exactly when the change does. -/
theorem map_unit_eq_ok {r : Except StoreError SessionTable} {t' : SessionTable}
    (h : r.map ((), ·) = .ok ((), t')) : r = .ok t' := by
  cases r with
  | error e => cases h
  | ok t'' => cases h; rfl

theorem wp_updateBranch (b : Branch) (h : env.At t lt)
    (herr : ∀ e env', env'.At t lt → err e env') :
    (store (sessionStore.updateBranch b)).run.Wp inv le
      (Ends err fun _ env' => ∃ t', t.updateBranch b = .ok t' ∧ env'.At t' lt) env :=
  (wp_storeChange h herr).mono fun r _ hr => match r, hr with
    | .ok (), ⟨t', hu, h'⟩ => ⟨t', map_unit_eq_ok hu, h'⟩
    | .error _, hr => hr

theorem wp_add (s : GlobalSession) (h : env.At t lt) (herr : ∀ e env', env'.At t lt → err e env') :
    (storeWith .beginFailed (sessionStore.add s)).run.Wp inv le
      (Ends err fun _ env' => ∃ t', t.add s = .ok t' ∧ env'.At t' lt) env :=
  (wp_storeChange h herr).mono fun r _ hr => match r, hr with
    | .ok (), ⟨t', hu, h'⟩ => ⟨t', map_unit_eq_ok hu, h'⟩
    | .error _, hr => hr

/-- A table change whose outcome is kept: the table after success, or the same table. -/
theorem wp_storeResultChange {α : Type} {f : SessionTable → Except StoreError (α × SessionTable)}
    {etcd : String → Etcd.SessionsM α} {ok : Except StoreError α → Env → Prop}
    (h : env.At t lt) (hfail : ∀ e env', env'.At t lt → ok (.error e) env')
    (hok : ∀ a t', f t = .ok (a, t') → ∀ env', env'.At t' lt → ok (.ok a) env') :
    (storeResult (EnvM.atomic (Env.failSessionWrite >>= fun _ =>
        Env.onSessions (SessionTable.change f) etcd))).run.Wp inv le (Ends err ok) env := by
  refine wp_lift (wp_envAtomic.2 ?_)
  rcases Env.run_sessionWrite h with ⟨env', h', hrun⟩ | ⟨env', h', hrun⟩
  · rw [hrun]
    exact hfail _ env' h'
  · rw [hrun]
    revert h'
    rw [SessionTable.run_change]
    cases hf : f t with
    | error e => exact hfail _ env'
    | ok r => exact hok r.1 r.2 hf env'

/-- Adding a branch, keeping the outcome: the table after success, or the same table. -/
theorem wp_storeResult_addBranch (b : Branch) (h : env.At t lt)
    {ok : Except StoreError Unit → Env → Prop}
    (hfail : ∀ e env', env'.At t lt → ok (.error e) env')
    (hok : ∀ t', t.addBranch b = .ok t' → ∀ env', env'.At t' lt → ok (.ok ()) env') :
    (storeResult (sessionStore.addBranch b)).run.Wp inv le (Ends err ok) env :=
  wp_storeResultChange h hfail fun _ t' hb => hok t' (map_unit_eq_ok hb)

/-! ## Lock calls -/

section LockCalls

variable {err' : LockError → Env → Prop}

theorem wp_release (ls : List RowLock) (h : env.At t lt) {ok : Unit → Env → Prop}
    (hok : ∀ env', env'.At t (lt.release ls) → ok () env') :
    (lockStore.release ls).run.Wp inv le (Ends err' ok) env := by
  refine wp_envAtomic.2 ?_
  rw [Env.run_lockStore_release h]
  exact hok _ ⟨h.sessions, rfl, h.acquires, h.releases⟩

/-- Releasing the row locks of a branch whose lock key is well formed. -/
theorem wp_releaseBranch {b : Branch} {ls : List RowLock} (hls : LockManager.collect b = .ok ls)
    (h : env.At t lt) {ok : Unit → Env → Prop}
    (hok : ∀ env', env'.At t (lt.release ls) → ok () env') :
    (LockManager.releaseBranch lockStore b).run.Wp inv le (Ends err' ok) env := by
  unfold LockManager.releaseBranch
  rw [hls]
  refine wp_bind (P := fun ls' env' => ls' = ls ∧ env' = env) (wp_liftExcept ⟨rfl, rfl⟩)
    fun ls' env' ⟨hl, he⟩ => ?_
  subst hl he
  split
  · rename_i hnil
    rw [List.isEmpty_iff.1 hnil] at hok
    exact hok _ h
  · exact wp_release ls' h hok

/-- Releasing the row locks of every branch of a session whose lock keys are well formed. -/
theorem wp_releaseSession {s : GlobalSession} {ls : List RowLock}
    (hls : s.branches.flatMapM LockManager.collect = .ok ls) (h : env.At t lt)
    {ok : Unit → Env → Prop} (hok : ∀ env', env'.At t (lt.release ls) → ok () env') :
    (LockManager.releaseSession lockStore s).run.Wp inv le (Ends err' ok) env := by
  unfold LockManager.releaseSession
  rw [hls]
  refine wp_bind (P := fun ls' env' => ls' = ls ∧ env' = env) (wp_liftExcept ⟨rfl, rfl⟩)
    fun ls' env' ⟨hl, he⟩ => ?_
  subst hl he
  split
  · rename_i hnil
    rw [List.isEmpty_iff.1 hnil] at hok
    exact hok _ h
  · exact wp_release ls' h hok

/-- Acquiring the row locks of a branch whose lock key is well formed: all or none. -/
theorem wp_acquireBranch {b : Branch} {ls : List RowLock} (hls : LockManager.collect b = .ok ls)
    (h : env.At t lt) {ok : Bool → Env → Prop}
    (hok : ∀ env', env'.At t (lt.acquire ls).2 → ok (lt.acquire ls).1 env') :
    (LockManager.acquireBranch lockStore b).run.Wp inv le (Ends err' ok) env := by
  unfold LockManager.acquireBranch
  rw [hls]
  refine wp_bind (P := fun ls' env' => ls' = ls ∧ env' = env) (wp_liftExcept ⟨rfl, rfl⟩)
    fun ls' env' ⟨hl, he⟩ => ?_
  subst hl he
  split
  · rename_i hnil
    rw [List.isEmpty_iff.1 hnil] at hok
    exact hok _ h
  · -- no acquisition is set to fail, so nothing is caught
    have hacq : (lockStore.acquire ls').run.Wp inv le (Ends (fun _ _ => False) ok) env' := by
      refine wp_envAtomic.2 ?_
      rw [Env.run_lockStore_acquire h]
      exact hok _ ⟨h.sessions, rfl, h.acquires, h.releases⟩
    exact wp_tryCatch hacq fun _ _ h => h.elim

/-- A branch whose lock key is malformed acquires nothing: the call fails at once. -/
theorem wp_acquireBranch_error {b : Branch} {e : LockError} (hls : LockManager.collect b = .error e)
    {ok : Bool → Env → Prop} (hfail : err' e env) :
    (LockManager.acquireBranch lockStore b).run.Wp inv le (Ends err' ok) env := by
  unfold LockManager.acquireBranch
  rw [hls]
  exact wp_throw_bind e hfail

/-- Keeping the outcome of lock calls that do not fail. -/
theorem wp_lockingResult {α : Type} {m : ExceptT LockError (Steps Env) α} {ok : Env → Prop}
    (hm : m.run.Wp inv le (Ends (fun _ _ => False) fun _ env' => ok env') env) :
    (lockingResult m).run.Wp inv le (Ends err fun _ env' => ok env') env :=
  wp_lift (hm.mono fun r _ hr => match r, hr with
    | .ok _, h => h
    | .error _, h => False.elim h)

/-- Asking whether rows are lockable changes no table. -/
theorem wp_isLockable_go (xid : String) :
    ∀ (ls : List RowLock) (env : Env), env.At t lt →
      (LockManager.isLockable.go lockStore xid ls).run.Wp inv le
        (Ends (fun _ env' => env'.At t lt) fun _ env' => env'.At t lt) env
  | [], _, h => wp_pure true h
  | l :: ls, env, h => by
    unfold LockManager.isLockable.go
    refine wp_bind (P := fun _ env' => env'.At t lt)
      (wp_envAtomic.2 ?_) fun owner env' h' => ?_
    · have h' := Env.at_lockStore_owner? h l.rowKey
      revert h'
      rcases (Env.lockStore.owner? l.rowKey).run env with ⟨_ | _, env'⟩ <;> exact id
    · split
      · split
        · exact wp_pure false h'
        · exact wp_isLockable_go xid ls env' h'
      · exact wp_isLockable_go xid ls env' h'

theorem wp_isLockable (xid resourceId key : String) (h : env.At t lt) :
    (LockManager.isLockable lockStore xid resourceId key).run.Wp inv le
      (Ends (fun _ env' => env'.At t lt) fun _ env' => env'.At t lt) env := by
  unfold LockManager.isLockable
  refine wp_bind (P := fun _ env' => env' = env) (wp_liftExcept ?_) fun ls env' he => ?_
  · cases RowLock.expand _ key with
    | error e => exact h
    | ok ls => rfl
  · subst he
    exact wp_isLockable_go xid ls env' h

end LockCalls

/-! ## Calls outside the stores -/

/-- A call that leaves the stores and their faults as they are. -/
theorem wp_modifyGet_frame {α : Type} {f : Env → α × Env} (h : env.At t lt)
    (hf : (f env).2.sessions = env.sessions ∧ (f env).2.locks = env.locks ∧
      (f env).2.faults = env.faults)
    {ok : α → Env → Prop} (hok : ∀ env', env'.At t lt → ok (f env).1 env') :
    (modifyGet f : CoordM α).run.Wp inv le (Ends err ok) env :=
  wp_modifyGet (hok _ ⟨hf.1 ▸ h.sessions, hf.2.1 ▸ h.locks, hf.2.2 ▸ h.acquires,
    hf.2.2 ▸ h.releases⟩)

theorem wp_now (h : env.At t lt) :
    now.run.Wp inv le (Ends err fun _ env' => env'.At t lt) env :=
  wp_bind (wp_modifyGet_frame (f := fun env => (env, env)) h ⟨rfl, rfl, rfl⟩
    fun _ h' => h') fun _ _ h' => wp_pure _ h'

theorem wp_nextId (h : env.At t lt) :
    nextId.run.Wp inv le (Ends err fun _ env' => env'.At t lt) env :=
  wp_modifyGet_frame h ⟨rfl, rfl, rfl⟩ fun _ h' => h'

theorem wp_tryLatch (xid : String) (h : env.At t lt) :
    (tryLatch xid).run.Wp inv le (Ends err fun _ env' => env'.At t lt) env :=
  wp_modifyGet_frame h (by split <;> exact ⟨rfl, rfl, rfl⟩) fun _ h' => h'

theorem wp_unlatch (xid : String) (h : env.At t lt) :
    (unlatch xid).run.Wp inv le (Ends err fun _ env' => env'.At t lt) env :=
  wp_modifyGet_frame h ⟨rfl, rfl, rfl⟩ fun _ h' => h'

theorem wp_requestPhaseTwo (action : Action) (b : Branch) (done : BranchStatus)
    (h : env.At t lt) :
    (requestPhaseTwo action b done).run.Wp inv le (Ends err fun _ env' => env'.At t lt) env :=
  wp_bind (wp_modifyGet_frame h ⟨rfl, rfl, rfl⟩ fun _ h' => h') fun _ _ h' => wp_pure _ h'

theorem wp_requestDelete (b : Branch) (h : env.At t lt) :
    (requestDelete b).run.Wp inv le (Ends err fun _ env' => env'.At t lt) env :=
  wp_bind (wp_modifyGet_frame h ⟨rfl, rfl, rfl⟩ fun _ h' => h') fun _ _ h' => wp_pure _ h'

/-- A transit changes the session copy's status only, and no table. -/
theorem wp_transit (s : GlobalSession) (target : GlobalStatus) (h : env.At t lt)
    (herr : ∀ e env', env'.At t lt → err e env') :
    (transit s target).run.Wp inv le (Ends err fun s' env' =>
      env'.At t lt ∧ s'.xid = s.xid ∧ s'.branches = s.branches ∧ s'.status = target) env := by
  unfold transit
  refine wp_bind (wp_now h) fun n env' h' => ?_
  split
  · rename_i s' hs
    unfold GlobalSession.transit at hs
    split at hs
    · cases hs
      exact wp_pure _ ⟨h', rfl, rfl, rfl⟩
    · cases hs
  · exact wp_throw _ (herr _ env' h')

/-- Setting a timer changes the timers only. -/
theorem wp_setTimer (ms : Nat) (h : env.At t lt) :
    (setTimer ms).run.Wp inv le
      (Ends err fun _ env' => env'.At t lt ∧ env'.lockRows = env.lockRows) env := by
  unfold setTimer runtimeNow
  refine wp_bind (P := fun _ env' => env' = env) (wp_bind (P := fun _ env' => env' = env)
    (wp_modifyGet (f := fun env => (env, env)) rfl) fun _ _ h' => wp_pure _ h')
    fun _ env₁ h₁ => ?_
  subst h₁
  exact wp_bind (P := fun _ env' => env'.At t lt)
    (wp_modifyGet_frame h ⟨rfl, rfl, rfl⟩ fun _ h' => h') fun _ env₂ h₂ =>
      wp_pure _ ⟨h₂, by rw [h₂.lockRows, h.lockRows]⟩

/-- Waiting for a silent participant: a pause in a state whose rows are accounted for, after
which the rows held were held before. -/
theorem wp_sleep (ms : Nat) (h : env.At t lt) (hacc : t.Accounts lt) :
    (sleep ms).run.Wp Env.Accounted Env.OnlyFrees
      (Ends err fun _ env' => env'.Accounted ∧ env.OnlyFrees env') env := by
  unfold sleep
  split
  · exact wp_pure () ⟨h.accounted hacc, Env.onlyFrees_refl env⟩
  · refine wp_bind (wp_setTimer ms h) fun _ env₁ ⟨h₁, hrows⟩ => ?_
    refine wp_lift ⟨h₁.accounted hacc, fun env₂ hacc₂ hle => ⟨hacc₂, fun p hp => ?_⟩⟩
    have := hle p hp
    rwa [hrows] at this

/-! ## Every call a handler makes frees rows or leaves them -/

section Always

theorem always_modifyGet_frame {α : Type} {f : Env → α × Env}
    (hf : ∀ env, (f env).2.locks = env.locks) :
    (modifyGet f : CoordM α).run.Always Env.OnlyFrees :=
  always_modifyGet fun env => Env.onlyFrees_of_locks (hf env)

variable {α : Type} {op : SessionTableM α} {etcd : String → Etcd.SessionsM α}
  {wrap : StoreError → CoordError}

theorem always_storeWrite :
    (storeWith wrap (EnvM.atomic (Env.failSessionWrite >>= fun _ =>
      Env.onSessions op etcd))).run.Always Env.OnlyFrees :=
  always_adapt (always_atomic fun env => Env.onlyFrees_of_locks (Env.locks_sessionWrite env))

theorem always_storeRead :
    (storeWith wrap (EnvM.atomic (Env.failSessionRead >>= fun _ =>
      Env.onSessions op etcd))).run.Always Env.OnlyFrees :=
  always_adapt (always_atomic fun env => Env.onlyFrees_of_locks (Env.locks_sessionRead env))

theorem always_release (ls : List RowLock) : (lockStore.release ls).run.Always Env.OnlyFrees :=
  always_atomic (Env.onlyFrees_lockStore_release ls)

theorem always_releaseBranch (b : Branch) :
    (LockManager.releaseBranch lockStore b).run.Always Env.OnlyFrees := by
  unfold LockManager.releaseBranch
  refine always_bind (always_liftExcept _) fun ls => ?_
  split
  · exact always_pure ()
  · exact always_release ls

theorem always_releaseSession (s : GlobalSession) :
    (LockManager.releaseSession lockStore s).run.Always Env.OnlyFrees := by
  unfold LockManager.releaseSession
  refine always_bind (always_liftExcept _) fun ls => ?_
  split
  · exact always_pure ()
  · exact always_release ls

theorem always_now : now.run.Always Env.OnlyFrees :=
  always_bind (always_modifyGet_frame (f := fun env => (env, env)) fun _ => rfl) fun _ =>
    always_pure _

theorem always_transit (s : GlobalSession) (target : GlobalStatus) :
    (transit s target).run.Always Env.OnlyFrees := by
  unfold transit
  refine always_bind always_now fun _ => ?_
  split
  · exact always_pure _
  · exact always_throw _

theorem always_tryLatch (xid : String) : (tryLatch xid).run.Always Env.OnlyFrees :=
  always_modifyGet_frame fun env => by split <;> rfl

theorem always_unlatch (xid : String) : (unlatch xid).run.Always Env.OnlyFrees :=
  always_modifyGet_frame fun _ => rfl

theorem always_requestPhaseTwo (action : Action) (b : Branch) (done : BranchStatus) :
    (requestPhaseTwo action b done).run.Always Env.OnlyFrees :=
  always_bind (always_modifyGet_frame fun _ => rfl) fun _ => always_pure _

theorem always_sleep (ms : Nat) : (sleep ms).run.Always Env.OnlyFrees := by
  unfold sleep
  split
  · exact always_pure ()
  · unfold setTimer runtimeNow
    refine always_bind (always_bind (always_bind (always_modifyGet_frame
      (f := fun env => (env, env)) fun _ => rfl) fun _ => always_pure _) fun _ =>
        always_bind (always_modifyGet_frame fun _ => rfl) fun _ => always_pure _) fun _ => ?_
    exact always_lift (by trivial)

end Always

end CoordM

end GlobalTxn
