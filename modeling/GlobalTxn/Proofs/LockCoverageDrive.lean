import GlobalTxn.Proofs.LockCoverage
import GlobalTxn.Proofs.HeldRowsScan
import GlobalTxn.Proofs.OwnSession

/-! # Driving phase two keeps the rows covered

On quiet stores, where no call is set to fail, each call of the coordinator is the table
operation it stands for; the lemmas of the first part say so in the form `Steps.Wp` uses, the
stores staying quiet.

A drive works on a copy of the stored session (`Env.CoveredWith`) and writes each change back
before it goes on.  Under `SessionTable.Covers` each of its steps keeps every session covered:

* a finished branch has its rows released before the store removes the first branch with its
  id, which is that branch; the rows of the branches left are apart from them
  (`wp_removeBranch_unlock`);
* a stop records the reported status on the branch, whose row locks stay, and persists a
  retrying or failed status, which keeps row locks as the status the drive started from did
  (`wp_suspend`);
* the end persists the outcome and at once releases the rows of every branch and removes the
  session (`wp_endSession_put`).

Waiting for a silent participant is a pause, after which the stores may differ; the stop that
follows keeps the session's branches, whatever they are then.
-/

namespace GlobalTxn

open Steps

namespace CoordM

variable {inv : Env → Prop} {le : Env → Env → Prop} {env : Env} {t : SessionTable}
  {lt : LockTable} {err : CoordError → Env → Prop}

/-! ## Calls on quiet stores -/

section SessionCalls

variable {α : Type} {op : SessionTableM α} {etcd : String → Etcd.SessionsM α}
  {wrap : StoreError → CoordError} {ok : α → Env → Prop}

/-- A session write on quiet stores is the table operation, and the stores stay quiet. -/
theorem wp_storeWrite_quiet (h : env.Quiet t lt)
    (hop : ∀ env', env'.Quiet (op.run.run t).2 lt →
      Ends (fun e => err (wrap e)) ok (op.run.run t).1 env') :
    (storeWith wrap (EnvM.atomic (Env.failSessionWrite >>= fun _ => Env.onSessions op etcd))).run.Wp
      inv le (Ends err ok) env := by
  refine wp_adapt (wp_envAtomic.2 ?_)
  rw [h.run_sessionWrite]
  exact hop _ ⟨rfl, h.locks, h.faults⟩

/-- A session read on quiet stores, likewise. -/
theorem wp_storeRead_quiet (h : env.Quiet t lt)
    (hop : ∀ env', env'.Quiet (op.run.run t).2 lt →
      Ends (fun e => err (wrap e)) ok (op.run.run t).1 env') :
    (storeWith wrap (EnvM.atomic (Env.failSessionRead >>= fun _ => Env.onSessions op etcd))).run.Wp
      inv le (Ends err ok) env := by
  refine wp_adapt (wp_envAtomic.2 ?_)
  rw [h.run_sessionRead]
  exact hop _ ⟨rfl, h.locks, h.faults⟩

/-- A table change on quiet stores: the table after its success, or the same table after its
refusal. -/
theorem wp_storeChange_quiet {f : SessionTable → Except StoreError (α × SessionTable)}
    (h : env.Quiet t lt) (herr : ∀ e env', env'.Quiet t lt → err e env') :
    (storeWith wrap (EnvM.atomic (Env.failSessionWrite >>= fun _ =>
        Env.onSessions (SessionTable.change f) etcd))).run.Wp inv le
      (Ends err fun a env' => ∃ t', f t = .ok (a, t') ∧ env'.Quiet t' lt) env := by
  refine wp_storeWrite_quiet h fun env' h' => ?_
  revert h'
  rw [SessionTable.run_change]
  cases f t with
  | error e => exact herr _ env'
  | ok r =>
    obtain ⟨a, t'⟩ := r
    exact fun h' => ⟨t', rfl, h'⟩

end SessionCalls

theorem wp_find?_quiet (x : String) (h : env.Quiet t lt) :
    (store (sessionStore.find? x)).run.Wp inv le
      (Ends err fun r env' => r = t.find? x ∧ env'.Quiet t lt) env :=
  wp_storeRead_quiet h fun _ h' => ⟨rfl, h'⟩

theorem wp_findBy_quiet (ss : List GlobalStatus) (h : env.Quiet t lt) :
    (store (sessionStore.findBy ss)).run.Wp inv le
      (Ends err fun r env' => r = t.findBy ss ∧ env'.Quiet t lt) env :=
  wp_storeRead_quiet h fun _ h' => ⟨rfl, h'⟩

theorem wp_update_quiet (s : GlobalSession) (h : env.Quiet t lt)
    (herr : ∀ e env', env'.Quiet t lt → err e env') :
    (store (sessionStore.update s)).run.Wp inv le
      (Ends err fun s' env' => ∃ t', t.update s = .ok (s', t') ∧ env'.Quiet t' lt) env :=
  wp_storeChange_quiet h herr

theorem wp_remove_quiet (x : String) (h : env.Quiet t lt) :
    (store (sessionStore.remove x)).run.Wp inv le
      (Ends err fun _ env' => env'.Quiet (t.remove x) lt) env :=
  wp_storeWrite_quiet h fun _ h' => h'

theorem wp_removeBranch_quiet (x : String) (id : Nat) (h : env.Quiet t lt) :
    (store (sessionStore.removeBranch x id)).run.Wp inv le
      (Ends err fun _ env' => env'.Quiet (t.removeBranch x id) lt) env :=
  wp_storeWrite_quiet h fun _ h' => h'

theorem wp_updateBranch_quiet (b : Branch) (h : env.Quiet t lt)
    (herr : ∀ e env', env'.Quiet t lt → err e env') :
    (store (sessionStore.updateBranch b)).run.Wp inv le
      (Ends err fun _ env' => ∃ t', t.updateBranch b = .ok t' ∧ env'.Quiet t' lt) env :=
  (wp_storeChange_quiet h herr).mono fun r _ hr => match r, hr with
    | .ok (), ⟨t', hu, h'⟩ => ⟨t', map_unit_eq_ok hu, h'⟩
    | .error _, hr => hr

theorem wp_add_quiet (s : GlobalSession) (h : env.Quiet t lt)
    (herr : ∀ e env', env'.Quiet t lt → err e env') :
    (storeWith .beginFailed (sessionStore.add s)).run.Wp inv le
      (Ends err fun _ env' => ∃ t', t.add s = .ok t' ∧ env'.Quiet t' lt) env :=
  (wp_storeChange_quiet h herr).mono fun r _ hr => match r, hr with
    | .ok (), ⟨t', hu, h'⟩ => ⟨t', map_unit_eq_ok hu, h'⟩
    | .error _, hr => hr

/-- A table change that succeeds, keeping the outcome: the table after the change. -/
theorem wp_storeResultChange_quiet {α : Type}
    {f : SessionTable → Except StoreError (α × SessionTable)} {etcd : String → Etcd.SessionsM α}
    (h : env.Quiet t lt) {a : α} {t' : SessionTable} (hf : f t = .ok (a, t'))
    {ok : Except StoreError α → Env → Prop} (hok : ∀ env', env'.Quiet t' lt → ok (.ok a) env') :
    (storeResult (EnvM.atomic (Env.failSessionWrite >>= fun _ =>
        Env.onSessions (SessionTable.change f) etcd))).run.Wp inv le (Ends err ok) env := by
  refine wp_lift (wp_envAtomic.2 ?_)
  rw [h.run_sessionWrite, SessionTable.run_change, hf]
  exact hok _ ⟨rfl, h.locks, h.faults⟩

/-- Adding a branch the table takes, keeping the outcome: the table after the change. -/
theorem wp_storeResult_addBranch_quiet (b : Branch) (h : env.Quiet t lt) {t' : SessionTable}
    (hadd : t.addBranch b = .ok t') {ok : Except StoreError Unit → Env → Prop}
    (hok : ∀ env', env'.Quiet t' lt → ok (.ok ()) env') :
    (storeResult (sessionStore.addBranch b)).run.Wp inv le (Ends err ok) env :=
  wp_storeResultChange_quiet h (show (t.addBranch b).map ((), ·) = .ok ((), t') by rw [hadd]; rfl)
    hok

section LockCalls

variable {err' : LockError → Env → Prop}

theorem wp_release_quiet (ls : List RowLock) (h : env.Quiet t lt) {ok : Unit → Env → Prop}
    (hok : ∀ env', env'.Quiet t (lt.release ls) → ok () env') :
    (lockStore.release ls).run.Wp inv le (Ends err' ok) env := by
  refine wp_envAtomic.2 ?_
  rw [Env.run_lockStore_release h.at]
  exact hok _ ⟨h.sessions, rfl, h.faults⟩

/-- Releasing the row locks of a branch whose lock key parses. -/
theorem wp_releaseBranch_quiet {b : Branch} {ls : List RowLock}
    (hls : LockManager.collect b = .ok ls) (h : env.Quiet t lt) {ok : Unit → Env → Prop}
    (hok : ∀ env', env'.Quiet t (lt.release ls) → ok () env') :
    (LockManager.releaseBranch lockStore b).run.Wp inv le (Ends err' ok) env := by
  unfold LockManager.releaseBranch
  rw [hls]
  refine wp_bind (P := fun ls' env' => ls' = ls ∧ env' = env) (wp_liftExcept ⟨rfl, rfl⟩)
    fun ls' env' ⟨hl, he⟩ => ?_
  subst hl he
  split
  · rename_i hnil
    rw [List.isEmpty_iff.1 hnil] at hok
    exact hok _ h
  · exact wp_release_quiet ls' h hok

/-- Releasing the row locks of every branch of a session whose lock keys parse. -/
theorem wp_releaseSession_quiet {s : GlobalSession} {ls : List RowLock}
    (hls : s.branches.flatMapM LockManager.collect = .ok ls) (h : env.Quiet t lt)
    {ok : Unit → Env → Prop} (hok : ∀ env', env'.Quiet t (lt.release ls) → ok () env') :
    (LockManager.releaseSession lockStore s).run.Wp inv le (Ends err' ok) env := by
  unfold LockManager.releaseSession
  rw [hls]
  refine wp_bind (P := fun ls' env' => ls' = ls ∧ env' = env) (wp_liftExcept ⟨rfl, rfl⟩)
    fun ls' env' ⟨hl, he⟩ => ?_
  subst hl he
  split
  · rename_i hnil
    rw [List.isEmpty_iff.1 hnil] at hok
    exact hok _ h
  · exact wp_release_quiet ls' h hok

/-- Acquiring the row locks of a branch whose lock key parses: all or none. -/
theorem wp_acquireBranch_quiet {b : Branch} {ls : List RowLock}
    (hls : LockManager.collect b = .ok ls) (h : env.Quiet t lt) {ok : Bool → Env → Prop}
    (hok : ∀ env', env'.Quiet t (lt.acquire ls).2 → ok (lt.acquire ls).1 env') :
    (LockManager.acquireBranch lockStore b).run.Wp inv le (Ends err' ok) env := by
  unfold LockManager.acquireBranch
  rw [hls]
  refine wp_bind (P := fun ls' env' => ls' = ls ∧ env' = env) (wp_liftExcept ⟨rfl, rfl⟩)
    fun ls' env' ⟨hl, he⟩ => ?_
  subst hl he
  split
  · rename_i hnil
    rw [List.isEmpty_iff.1 hnil] at hok
    exact hok _ h
  · -- no acquisition is set to fail, so nothing is caught
    have hacq : (lockStore.acquire ls').run.Wp inv le (Ends (fun _ _ => False) ok) env' := by
      refine wp_envAtomic.2 ?_
      rw [Env.run_lockStore_acquire h.at]
      exact hok _ ⟨h.sessions, rfl, h.faults⟩
    exact wp_tryCatch hacq fun _ _ h => h.elim

/-- Asking whether rows are lockable changes nothing. -/
theorem wp_isLockable_go_quiet (xid : String) :
    ∀ (ls : List RowLock) (env : Env), env.Quiet t lt →
      (LockManager.isLockable.go lockStore xid ls).run.Wp inv le
        (Ends (fun _ env' => env'.Quiet t lt) fun _ env' => env'.Quiet t lt) env
  | [], _, h => wp_pure true h
  | l :: ls, env, h => by
    unfold LockManager.isLockable.go
    refine wp_bind (P := fun _ env' => env'.Quiet t lt) (wp_envAtomic.2 ?_) fun owner env' h' => ?_
    · rw [h.run_lockStore_owner?_eq]
      exact h
    · split
      · split
        · exact wp_pure false h'
        · exact wp_isLockable_go_quiet xid ls env' h'
      · exact wp_isLockable_go_quiet xid ls env' h'

theorem wp_isLockable_quiet (xid resourceId key : String) (h : env.Quiet t lt) :
    (LockManager.isLockable lockStore xid resourceId key).run.Wp inv le
      (Ends (fun _ env' => env'.Quiet t lt) fun _ env' => env'.Quiet t lt) env := by
  unfold LockManager.isLockable
  refine wp_bind (P := fun _ env' => env' = env) (wp_liftExcept ?_) fun ls env' he => ?_
  · cases RowLock.expand _ key with
    | error e => exact h
    | ok ls => rfl
  · subst he
    exact wp_isLockable_go_quiet xid ls env' h

end LockCalls

/-- A call that leaves the stores and their faults as they are. -/
theorem wp_modifyGet_quiet {α : Type} {f : Env → α × Env} (h : env.Quiet t lt)
    (hf : (f env).2.sessions = env.sessions ∧ (f env).2.locks = env.locks ∧
      (f env).2.faults = env.faults)
    {ok : α → Env → Prop} (hok : ∀ env', env'.Quiet t lt → ok (f env).1 env') :
    (modifyGet f : CoordM α).run.Wp inv le (Ends err ok) env :=
  wp_modifyGet (hok _ (h.of_eq hf.1 hf.2.1 hf.2.2))

theorem wp_now_quiet (h : env.Quiet t lt) :
    now.run.Wp inv le (Ends err fun _ env' => env'.Quiet t lt) env :=
  wp_bind (wp_modifyGet_quiet (f := fun env => (env, env)) h ⟨rfl, rfl, rfl⟩
    fun _ h' => h') fun _ _ h' => wp_pure _ h'

theorem wp_nextId_quiet (h : env.Quiet t lt) :
    nextId.run.Wp inv le (Ends err fun _ env' => env'.Quiet t lt) env :=
  wp_modifyGet_quiet h ⟨rfl, rfl, rfl⟩ fun _ h' => h'

theorem wp_tryLatch_quiet (xid : String) (h : env.Quiet t lt) :
    (tryLatch xid).run.Wp inv le (Ends err fun _ env' => env'.Quiet t lt) env :=
  wp_modifyGet_quiet h (by split <;> exact ⟨rfl, rfl, rfl⟩) fun _ h' => h'

theorem wp_unlatch_quiet (xid : String) (h : env.Quiet t lt) :
    (unlatch xid).run.Wp inv le (Ends err fun _ env' => env'.Quiet t lt) env :=
  wp_modifyGet_quiet h ⟨rfl, rfl, rfl⟩ fun _ h' => h'

theorem wp_requestPhaseTwo_quiet (action : Action) (b : Branch) (done : BranchStatus)
    (h : env.Quiet t lt) :
    (requestPhaseTwo action b done).run.Wp inv le (Ends err fun _ env' => env'.Quiet t lt) env :=
  wp_bind (wp_modifyGet_quiet h ⟨rfl, rfl, rfl⟩ fun _ h' => h') fun _ _ h' => wp_pure _ h'

theorem wp_requestDelete_quiet (b : Branch) (h : env.Quiet t lt) :
    (requestDelete b).run.Wp inv le (Ends err fun _ env' => env'.Quiet t lt) env :=
  wp_bind (wp_modifyGet_quiet h ⟨rfl, rfl, rfl⟩ fun _ h' => h') fun _ _ h' => wp_pure _ h'

/-- A transit changes the session copy's status only, and no table. -/
theorem wp_transit_quiet (s : GlobalSession) (target : GlobalStatus) (h : env.Quiet t lt)
    (herr : ∀ e env', env'.Quiet t lt → err e env') :
    (transit s target).run.Wp inv le (Ends err fun s' env' =>
      env'.Quiet t lt ∧ s'.xid = s.xid ∧ s'.branches = s.branches ∧ s'.status = target) env := by
  unfold transit
  refine wp_bind (wp_now_quiet h) fun n env' h' => ?_
  split
  · rename_i s' hs
    unfold GlobalSession.transit at hs
    split at hs
    · cases hs
      exact wp_pure _ ⟨h', rfl, rfl, rfl⟩
    · cases hs
  · exact wp_throw _ (herr _ env' h')

/-- Setting a timer changes the timers only. -/
theorem wp_setTimer_quiet (ms : Nat) (h : env.Quiet t lt) :
    (setTimer ms).run.Wp inv le
      (Ends err fun _ env' => env'.Quiet t lt ∧ env'.lockRows = env.lockRows) env := by
  unfold setTimer runtimeNow
  refine wp_bind (P := fun _ env' => env' = env) (wp_bind (P := fun _ env' => env' = env)
    (wp_modifyGet (f := fun env => (env, env)) rfl) fun _ _ h' => wp_pure _ h')
    fun _ env₁ h₁ => ?_
  subst h₁
  exact wp_bind (P := fun _ env' => env'.Quiet t lt)
    (wp_modifyGet_quiet h ⟨rfl, rfl, rfl⟩ fun _ h' => h') fun _ env₂ h₂ =>
      wp_pure _ ⟨h₂, by rw [h₂.at.lockRows, h.at.lockRows]⟩

/-- Asking participants to purge undo logs changes no table. -/
theorem wp_purge_quiet (days : Nat) (h : env.Quiet t lt)
    (herr : ∀ e env', env'.Quiet t lt → err e env') :
    (purge days).run.Wp inv le (Ends err fun _ env' => env'.Quiet t lt) env := by
  unfold purge
  refine wp_bind (P := fun _ env₁ => env₁.Quiet t lt) (wp_modifyGet_quiet h ?_ fun _ h' => h')
    fun failed env₁ h₁ => ?_
  · dsimp only
    split
    · exact ⟨rfl, rfl, rfl⟩
    · split <;> exact ⟨rfl, rfl, rfl⟩
  · split
    · exact wp_throw _ (herr _ env₁ h₁)
    · exact wp_pure () h₁

/-! ## Steps of a drive -/

variable {A : List (String × String)}

/-- `m` run from `env`, alone up to each pause, ends in a covered state, failed or not, with a
success that `ok` admits; at each pause the state is covered, and `m` goes on from every covered
state whose rows were all held before. -/
abbrev Covered {α : Type} (A : List (String × String)) (m : CoordM α) (ok : α → Env → Prop)
    (env : Env) : Prop :=
  m.run.Wp (Env.Covered A) Env.OnlyFrees (Ends (fun _ env => env.Covered A) ok) env

namespace Covering

/-- Waiting for a silent participant: a pause in a covered state, after which the rows held
were held before. -/
theorem wp_sleep (ms : Nat) (h : env.Quiet t lt) (hcov : t.Covers A lt) :
    (sleep ms).run.Wp (Env.Covered A) Env.OnlyFrees
      (Ends err fun _ env' => env'.Covered A ∧ env.OnlyFrees env') env := by
  unfold sleep
  split
  · exact wp_pure () ⟨h.covered hcov, Env.onlyFrees_refl env⟩
  · refine wp_bind (wp_setTimer_quiet ms h) fun _ env₁ ⟨h₁, hrows⟩ => ?_
    refine wp_lift ⟨h₁.covered hcov, fun env₂ hcov₂ hle => ⟨hcov₂, fun p hp => ?_⟩⟩
    have := hle p hp
    rwa [hrows] at this

theorem wp_load (x : String) (h : env.Quiet t lt) (hcov : t.Covers A lt) :
    (load x).Covered A (fun s env' => env'.Quiet t lt ∧ t.find? x = some s) env := by
  unfold load
  refine wp_bind (wp_find?_quiet x h) fun r env' hr => ?_
  obtain ⟨rfl, h'⟩ := hr
  split
  · rename_i s hs
    exact wp_pure _ ⟨h', hs⟩
  · exact wp_throw _ (h'.covered hcov)

/-- Moving a session and persisting it keeps its stored branches; the tables are those before
with the session replaced. -/
theorem wp_transitAndPersist (s : GlobalSession) (target : GlobalStatus)
    (h : env.Quiet t lt) (hcov : t.Covers A lt) :
    (transitAndPersist s target).Covered A (fun s' env' => ∃ g, t.find? s'.xid = some g ∧
      s'.branches = g.branches ∧ s'.xid = s.xid ∧ s'.status = target ∧ env'.Quiet (t.put s') lt)
      env := by
  unfold transitAndPersist
  refine wp_bind (wp_transit_quiet s target h fun _ _ h' => h'.covered hcov)
    fun s₁ env₁ ⟨h₁, hx, _, hst⟩ => ?_
  refine (wp_update_quiet s₁ h₁ fun _ _ h' => h'.covered hcov).mono fun r env₂ hr => ?_
  rcases r with e | s₂
  · exact hr
  · obtain ⟨t', hu, h₂⟩ := hr
    obtain ⟨g, hg, rfl, rfl⟩ := SessionTable.update_eq_ok hu
    exact ⟨g, hg, rfl, hx, hst, h₂⟩

end Covering

end CoordM

namespace Env

/-- `env`'s stores are quiet and covered, and `s` is the stored session of its xid: the copy a
drive works on is the one stored. -/
def CoveredWith (A : List (String × String)) (env : Env) (s : GlobalSession) : Prop :=
  ∃ t lt, env.Quiet t lt ∧ t.Covers A lt ∧ t.find? s.xid = some s

variable {A : List (String × String)} {env : Env} {s : GlobalSession}

theorem CoveredWith.covered (h : env.CoveredWith A s) : env.Covered A :=
  let ⟨t, lt, hq, hcov, _⟩ := h
  ⟨t, lt, hq, hcov⟩

/-- The stored session a drive works on keeps row locks. -/
theorem CoveredWith.holding (h : env.CoveredWith A s) : s.status.holdsRowLocks = true :=
  let ⟨_, _, _, hcov, hg⟩ := h
  (hcov.covered_of_find? hg).holding

end Env

namespace CoordM

variable {env : Env} {t : SessionTable} {lt : LockTable} {A : List (String × String)}

namespace Covering

/-- Moving a session to a status that keeps row locks leaves it persisted as the stored copy. -/
theorem wp_transitAndPersist_synced {s : GlobalSession} {target : GlobalStatus}
    (h : env.Quiet t lt) (hcov : t.Covers A lt) (hs : target.holdsRowLocks = true) :
    (transitAndPersist s target).Covered A
      (fun s' env' => env'.CoveredWith A s' ∧ s'.xid = s.xid ∧ s'.status = target) env :=
  (wp_transitAndPersist s target h hcov).mono (Ends.imp (fun _ _ h' => h')
    fun _ _ ⟨_, hg, hb, hx, hst, h'⟩ =>
      ⟨⟨_, _, h', hcov.put_status hg hb (hst ▸ hs), SessionTable.find?_put_self hg⟩, hx, hst⟩)

/-- Removing a branch that a drive finished: its rows are released first, and the store removes
the first branch with its id, which is this one. -/
theorem wp_removeBranch_unlock {s : GlobalSession} {b : Branch} (hs : env.CoveredWith A s)
    (hb : s.findBranch? b.branchId = some b) :
    (removeBranch s b true).Covered A
      (fun s' env' => env'.CoveredWith A s' ∧ s' = s.removeBranch b.branchId) env := by
  obtain ⟨t, lt, h, hcov, hg⟩ := hs
  obtain ⟨-, ls, hls⟩ := (hcov.covered_of_find? hg).branches b (List.mem_of_find?_eq_some hb)
  unfold removeBranch
  rw [if_pos rfl]
  refine wp_bind (P := fun _ env₁ => env₁.Quiet t (lt.release ls))
    (wp_adapt (wp_releaseBranch_quiet hls h fun _ h' => h')) fun _ env₁ h₁ => ?_
  refine wp_bind (wp_removeBranch_quiet s.xid b.branchId h₁) fun _ env₂ h₂ => ?_
  rw [SessionTable.removeBranch_eq hg] at h₂
  exact wp_pure _ ⟨⟨_, _, h₂, SessionTable.removeBranch_eq hg ▸ hcov.removeBranch_release hg hb hls,
    SessionTable.find?_put_self hg⟩, rfl⟩

/-- Removing a branch whose rows were released just before. -/
theorem wp_removeBranch_released {s : GlobalSession} {b : Branch} {ls : List RowLock}
    (h : env.Quiet t (lt.release ls)) (hcov : t.Covers A lt) (hg : t.find? s.xid = some s)
    (hb : s.findBranch? b.branchId = some b) (hls : LockManager.collect b = .ok ls) :
    (removeBranch s b false).Covered A
      (fun s' env' => env'.CoveredWith A s' ∧ s' = s.removeBranch b.branchId) env := by
  unfold removeBranch
  rw [if_neg Bool.false_ne_true]
  refine wp_bind (wp_removeBranch_quiet s.xid b.branchId h) fun _ env₂ h₂ => ?_
  rw [SessionTable.removeBranch_eq hg] at h₂
  exact wp_pure _ ⟨⟨_, _, h₂, SessionTable.removeBranch_eq hg ▸ hcov.removeBranch_release hg hb hls,
    SessionTable.find?_put_self hg⟩, rfl⟩

/-- Ending a session just persisted with its stored branches and any status: the rows of all its
branches are released, then it is removed. -/
theorem wp_endSession_put {s g : GlobalSession} (h : env.Quiet (t.put s) lt)
    (hcov : t.Covers A lt) (hg : t.find? s.xid = some g) (hb : s.branches = g.branches) :
    (endSession s).Covered A (fun _ env' => env'.Covered A) env := by
  obtain ⟨hmem, hx⟩ := SessionTable.find?_eq_some hg
  have hcg := hcov.sessions g hmem
  -- the session's branches are of its transaction, and so are the rows released
  obtain ⟨ls, hls, hlx⟩ := LockManager.exists_flatMapM_collect_of_xid (y := s.xid) fun b hb' =>
    ⟨((hcg.branches b (hb ▸ hb')).1).trans hx, (hcg.branches b (hb ▸ hb')).2⟩
  have hcov' := hcov.remove_release hlx
  unfold endSession
  refine wp_bind (P := fun _ env₁ => env₁.Quiet (t.put s) (lt.release ls))
    (wp_adapt (wp_releaseSession_quiet hls h fun _ h' => h')) fun _ env₁ h₁ => ?_
  refine (wp_remove_quiet s.xid h₁).mono (Ends.imp (fun _ _ h' => h') fun _ env₂ h₂ => ?_)
  rw [SessionTable.remove_put rfl] at h₂
  exact h₂.covered hcov'

/-- Ending the stored session. -/
theorem wp_endSession {s : GlobalSession} (hs : env.CoveredWith A s) :
    (endSession s).Covered A (fun _ env' => env'.Covered A) env := by
  obtain ⟨t, lt, h, hcov, hg⟩ := hs
  rw [← SessionTable.put_of_find? hcov.xids hg] at h
  exact wp_endSession_put h hcov hg rfl

/-- Where a drive stops: the branch's reported status is recorded on the stored branch, which
keeps its row locks, and the session takes `status`, which keeps row locks, keeping its
branches. -/
theorem wp_suspend {s : GlobalSession} {b : Branch} {reported : Option BranchStatus}
    {status : GlobalStatus} (h : env.Quiet t lt) (hcov : t.Covers A lt)
    (hst : status.holdsRowLocks = true)
    (hrep : reported.isSome → t.find? s.xid = some s ∧ s.findBranch? b.branchId = some b) :
    (suspend s b reported status).Covered A (fun _ env' => env'.Covered A) env := by
  -- after the branch's status is recorded: the session's status changes, its branches stay
  have hrest : ∀ env₁ t₁, env₁.Quiet t₁ lt → t₁.Covers A lt →
      (do let s ← transit s status; let _ ← store (sessionStore.update s); pure status :
        CoordM GlobalStatus).Covered A (fun _ env' => env'.Covered A) env₁ := by
    intro env₁ t₁ h₁ hcov₁
    refine wp_bind (wp_transit_quiet s status h₁ fun _ _ h' => h'.covered hcov₁)
      fun s₁ env₂ ⟨h₂, hx, _, hst₁⟩ => ?_
    refine wp_bind (wp_update_quiet s₁ h₂ fun _ _ h' => h'.covered hcov₁)
      fun s₂ env₃ ⟨t₃, hu, h₃⟩ => ?_
    obtain ⟨g, hg, rfl, rfl⟩ := SessionTable.update_eq_ok hu
    exact wp_pure status (h₃.covered (hcov₁.put_status hg rfl (hst₁ ▸ hst)))
  unfold suspend
  dsimp only
  split
  · rename_i r
    obtain ⟨hg, hb⟩ := hrep rfl
    split
    · refine wp_bind (wp_updateBranch_quiet _ h fun _ _ h' => h'.covered hcov)
        fun _ env₁ ⟨t₁, hu, h₁⟩ => ?_
      obtain ⟨g, c, hg', hc, rfl⟩ := SessionTable.updateBranch_eq_ok hu
      -- the branch replaced is `b` itself, in the stored session `s`
      have hbx := ((hcov.covered_of_find? hg).branches b (List.mem_of_find?_eq_some hb)).1
      rw [show ({ b with status := r } : Branch).xid = s.xid from hbx, hg] at hg'
      cases hg'
      rw [show ({ b with status := r } : Branch).branchId = b.branchId from rfl, hb] at hc
      cases hc
      exact hrest env₁ _ h₁ (hcov.replaceBranch (hbx ▸ hg) hb rfl)
    · exact hrest env t h hcov
  · exact hrest env t h hcov

/-- Driving the branches with ids `ids` of the stored session `s`.  By induction on the ids: a
finished branch is removed and the drive goes on with the stored session left, and every stop
and the end keep the sessions covered. -/
theorem wp_go (c : Config) (dir : Direction) (ids : List Nat) :
    ∀ (s : GlobalSession) (env : Env), env.CoveredWith A s →
      (drive.go c dir s ids).Covered A (fun _ env' => env'.Covered A) env := by
  induction ids with
  | nil =>
    intro s env hs
    obtain ⟨t, lt, h, hcov, hg⟩ := hs
    unfold drive.go
    refine wp_bind (wp_transit_quiet s _ h fun _ _ h' => h'.covered hcov) fun s₁ env₁ h₁ => ?_
    obtain ⟨h₁, hx, hb₁, -⟩ := h₁
    refine wp_bind (wp_update_quiet s₁ h₁ fun _ _ h' => h'.covered hcov) fun s₂ env₂ h₂ => ?_
    obtain ⟨t₂, hu, h₂⟩ := h₂
    obtain ⟨g, hg', rfl, rfl⟩ := SessionTable.update_eq_ok hu
    rw [hx, hg] at hg'
    cases hg'
    -- the session persisted is the moved one, whose branches are the stored ones
    have hs₁ : ({ s₁ with branches := s.branches } : GlobalSession) = s₁ := by rw [← hb₁]
    have hg₁ : t.find? s₁.xid = some s := by rw [hx]; exact hg
    rw [hs₁] at h₂
    exact wp_bind (wp_endSession_put h₂ hcov hg₁ hb₁) fun _ _ h₃ => wp_pure _ h₃
  | cons id rest ih =>
    intro s env hs
    unfold drive.go
    split
    · exact ih s env hs
    · rename_i b hb
      have hb' := GlobalSession.findBranch?_self hb
      -- the session driven keeps row locks, and so do the statuses it may stop in
      have hhold := hs.holding
      have hretry : (dir.retrying s.status).holdsRowLocks = true :=
        (dir.retrying_holdsRowLocks s.status).resolve_right (by rw [hhold]; exact Bool.noConfusion)
      -- a branch done is removed, and the drive goes on from the session left
      have hnext : ∀ env, env.CoveredWith A s →
          (removeBranch s b true >>= fun s => drive.go c dir s rest).Covered A
            (fun _ env' => env'.Covered A) env := fun env hs =>
        wp_bind (wp_removeBranch_unlock hs hb') fun s' env' hs' => ih s' env' hs'.1
      split
      · exact hnext env hs
      · obtain ⟨t, lt, h, hcov, hg⟩ := hs
        refine wp_bind (wp_requestPhaseTwo_quiet _ b _ h) fun _ env₁ h₁ => ?_
        split
        · split
          · exact hnext env₁ ⟨t, lt, h₁, hcov, hg⟩
          · exact wp_suspend h₁ hcov hretry fun _ => ⟨hg, hb'⟩
          · exact wp_suspend h₁ hcov dir.failed_holdsRowLocks fun _ => ⟨hg, hb'⟩
        · exact wp_suspend h₁ hcov hretry (fun h => by cases h)
        · -- a silent participant: after the wait, the stores are covered again
          refine wp_bind (wp_sleep _ h₁ hcov) fun _ env₂ h₂ => ?_
          obtain ⟨t₂, lt₂, h₂, hcov₂⟩ := h₂.1
          exact wp_suspend h₂ hcov₂ hretry (fun h => by cases h)

theorem wp_drive (c : Config) (dir : Direction) {s : GlobalSession} (hs : env.CoveredWith A s) :
    (drive c dir s).Covered A (fun _ env' => env'.Covered A) env :=
  wp_go c dir _ s env hs

end Covering

end CoordM

end GlobalTxn
