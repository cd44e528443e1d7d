import GlobalTxn.Proofs.Agreement

/-! # What each call guarantees

With no store call set to fail (`Env.Quiet`), every call of the coordinator is a step, or a few,
whose effect is known: a session call runs the table operation, a lock call changes the row
locks only, a request is appended to the log.  Each lemma here says, in the form
`Steps.Guarded` uses, which state a call leaves and that each of its steps is allowed.

Most calls change nothing that a request or a store call reads back (`Env.Frame`).  Their
lemmas hold for every guarantee that allows such steps, so that they serve both
`Env.StepAgrees` and `Env.KeepsCalls`, the guarantee of steps that send no request; the second
is what shows that a branch whose participant answered with success is removed before any
further request (`removes_removeBranch`).

## Key results

- `CoordM.guarded_storeChange`, `CoordM.guarded_storeRead`: session calls on quiet stores.
- `CoordM.guarded_releaseBranch`, `CoordM.guarded_acquireBranch_frame`: lock calls.
- `CoordM.guarded_requestPhaseTwo_bind`: a phase-two request seen with the steps after it.
- `CoordM.removes_removeBranch`: removing a finished branch removes it before any request.
-/

namespace GlobalTxn

open Steps

/-- The answer to a phase-two request about `b` made of the participant's reply, where `done` is
the status of success. -/
def Answer.ofReply (b : Branch) (done : BranchStatus) : Option Reply → Answer BranchStatus
  | none | some (.deleted _) => .answered done
  | some (.status s) => .answered s
  | some .unreachable => .failed (.clientUnreachable b.clientId b.resourceId)
  | some .hang => .silent

/-- A participant whose next reply ends phase two answers the request with it. -/
theorem Answer.ofReply_request {p : Participants} {b : Branch} {done r : BranchStatus}
    (h : p.phaseTwoAnswer b.branchId done = some r) (a : Action) :
    Answer.ofReply b done (p.request a b).1 = .answered r := by
  rw [Participants.fst_request]
  unfold Participants.phaseTwoAnswer at h
  split at h <;> rename_i hq <;> rw [hq] at * <;> cases h <;> rfl

namespace Env

variable {env : Env} {t : SessionTable} {lt : LockTable}

/-- Quiet stores fail no session read. -/
theorem Quiet.no_failed_reads (h : env.Quiet t lt) : ¬ 0 < env.faults.sessionReads := by
  rw [h.faults]
  exact Nat.lt_irrefl 0

section SessionCalls

variable {α : Type} {op : SessionTableM α} {etcd : String → Etcd.SessionsM α}

/-- With no write set to fail, a session write is the table operation. -/
theorem Quiet.run_sessionWrite (h : env.Quiet t lt) :
    (failSessionWrite >>= fun _ => onSessions op etcd).run env =
      ((op.run.run t).1, { env with sessions := .table (op.run.run t).2 }) := by
  have hnone : ¬ 0 < env.faults.sessionWrites := by rw [h.faults]; exact Nat.lt_irrefl 0
  rw [run_failSessionWrite_bind, if_neg hnone]
  exact run_onSessions h.sessions

/-- With no read set to fail, a session read is the table operation. -/
theorem Quiet.run_sessionRead (h : env.Quiet t lt) :
    (failSessionRead >>= fun _ => onSessions op etcd).run env =
      ((op.run.run t).1, { env with sessions := .table (op.run.run t).2 }) := by
  rw [run_failSessionRead_bind, if_neg h.no_failed_reads]
  exact run_onSessions h.sessions

end SessionCalls

/-- With no query set to fail, asking who holds a row answers from the table. -/
theorem Quiet.run_lockStore_owner?_eq (h : env.Quiet t lt) (key : String) :
    (lockStore.owner? key).run env = (.ok (lt.owner? key), env) := by
  obtain ⟨_, _, _, locks, _, faults, _, _, _, _⟩ := env
  obtain ⟨-, hl, hf⟩ := h
  cases hl
  cases hf
  rfl

/-- With no query set to fail, asking who holds a row changes nothing. -/
theorem Quiet.run_lockStore_owner? (h : env.Quiet t lt) (key : String) :
    ((lockStore.owner? key).run env).2 = env := by
  rw [h.run_lockStore_owner?_eq key]

end Env

namespace CoordM

variable {inv : Env → Prop} {le : Env → Env → Prop} {env : Env} {t : SessionTable}
  {lt : LockTable} {err : CoordError → Env → Prop}

theorem guarded_envAtomic {ε α : Type} {g : Env → Env → List (Env × Env) → Prop}
    {X : EnvM ε α} {post : Except ε α → Env → Prop} :
    (EnvM.atomic X).run.Guarded inv le g post env ↔
      g env (X.run env).2 [] ∧ post (X.run env).1 (X.run env).2 :=
  Iff.rfl

/-! ## Session calls -/

section SessionCalls

variable {α : Type} {op : SessionTableM α} {etcd : String → Etcd.SessionsM α}
  {wrap : StoreError → CoordError} {ok : α → Env → Prop}

/-- A session write on quiet stores: its one step and its outcome. -/
theorem guarded_storeWrite {g : Env → Env → List (Env × Env) → Prop} (hg : Lasting g)
    (hq : env.Quiet t lt)
    (hop : g env { env with sessions := .table (op.run.run t).2 } [] ∧
      Ends (fun e => err (wrap e)) ok (op.run.run t).1
        { env with sessions := .table (op.run.run t).2 }) :
    (storeWith wrap (EnvM.atomic (Env.failSessionWrite >>= fun _ =>
      Env.onSessions op etcd))).run.Guarded inv le g (Ends err ok) env := by
  refine guarded_adapt hg (guarded_envAtomic.2 ?_)
  rw [hq.run_sessionWrite]
  exact hop

/-- A session read on quiet stores changes nothing. -/
theorem guarded_storeRead (hq : env.Quiet t lt) (hread : (op.run.run t).2 = t)
    (hok : Ends (fun e => err (wrap e)) ok (op.run.run t).1 env) :
    (storeWith wrap (EnvM.atomic (Env.failSessionRead >>= fun _ =>
      Env.onSessions op etcd))).run.Guarded inv le Env.StepAgrees (Ends err ok) env := by
  refine guarded_adapt Env.stepAgrees_lasting (guarded_envAtomic.2 ?_)
  rw [hq.run_sessionRead, hread, hq.with_sessions]
  exact ⟨Env.stepAgrees_frame hq.frame [], hok⟩

/-- A table change on quiet stores: the table after its success, or the same stores. -/
theorem guarded_storeChange {f : SessionTable → Except StoreError (α × SessionTable)}
    (hq : env.Quiet t lt)
    (hstep : ∀ a t', f t = .ok (a, t') → Env.StepAgrees env { env with sessions := .table t' } [])
    (herr : ∀ e, err (wrap e) env) :
    (storeWith wrap (EnvM.atomic (Env.failSessionWrite >>= fun _ =>
        Env.onSessions (SessionTable.change f) etcd))).run.Guarded inv le Env.StepAgrees
      (Ends err fun a env' => ∃ t', f t = .ok (a, t') ∧
        env' = { env with sessions := .table t' }) env := by
  refine guarded_storeWrite Env.stepAgrees_lasting hq ?_
  rw [SessionTable.run_change]
  cases hf : f t with
  | error e =>
    dsimp only
    rw [hq.with_sessions]
    exact ⟨Env.stepAgrees_frame hq.frame [], herr e⟩
  | ok r => exact ⟨hstep r.1 r.2 hf, r.2, rfl, rfl⟩

/-- A table change whose outcome is kept: the table after success, or the same stores. -/
theorem guarded_storeResultChange {f : SessionTable → Except StoreError (α × SessionTable)}
    {ok : Except StoreError α → Env → Prop} (hq : env.Quiet t lt)
    (hstep : ∀ a t', f t = .ok (a, t') → Env.StepAgrees env { env with sessions := .table t' } [])
    (hfail : ∀ e, ok (.error e) env)
    (hok : ∀ a t', f t = .ok (a, t') → ok (.ok a) { env with sessions := .table t' }) :
    (storeResult (EnvM.atomic (Env.failSessionWrite >>= fun _ =>
        Env.onSessions (SessionTable.change f) etcd))).run.Guarded inv le Env.StepAgrees
      (Ends err ok) env := by
  refine guarded_lift Env.stepAgrees_lasting (guarded_envAtomic.2 ?_)
  rw [hq.run_sessionWrite, SessionTable.run_change]
  cases hf : f t with
  | error e =>
    dsimp only
    rw [hq.with_sessions]
    exact ⟨Env.stepAgrees_frame hq.frame [], hfail e⟩
  | ok r => exact ⟨hstep r.1 r.2 hf, hok r.1 r.2 hf⟩

end SessionCalls

theorem guarded_find? (x : String) (hq : env.Quiet t lt) :
    (store (sessionStore.find? x)).run.Guarded inv le Env.StepAgrees
      (Ends err fun r env' => r = t.find? x ∧ env' = env) env :=
  guarded_storeRead hq rfl ⟨rfl, rfl⟩

theorem guarded_findBy (ss : List GlobalStatus) (hq : env.Quiet t lt) :
    (store (sessionStore.findBy ss)).run.Guarded inv le Env.StepAgrees
      (Ends err fun r env' => r = t.findBy ss ∧ env' = env) env :=
  guarded_storeRead hq rfl ⟨rfl, rfl⟩

/-- Writing a session back, in a status past `begin`. -/
theorem guarded_update (s : GlobalSession) (hq : env.Quiet t lt) (hs : s.status ≠ .begin)
    (herr : ∀ e, err (.store e) env) :
    (store (sessionStore.update s)).run.Guarded inv le Env.StepAgrees
      (Ends err fun s' env' => ∃ t', t.update s = .ok (s', t') ∧
        env' = { env with sessions := .table t' }) env :=
  guarded_storeChange hq (fun _ _ hu => Env.stepAgrees_update hq hu hs []) herr

theorem guarded_remove (x : String) (hq : env.Quiet t lt) :
    (store (sessionStore.remove x)).run.Guarded inv le Env.StepAgrees
      (Ends err fun _ env' => env' = { env with sessions := .table (t.remove x) }) env :=
  guarded_storeWrite Env.stepAgrees_lasting hq ⟨Env.stepAgrees_remove hq x [], rfl⟩

/-- Removing a branch from the store, under every guarantee that allows the step. -/
theorem guarded_removeBranch {g : Env → Env → List (Env × Env) → Prop} (hg : Lasting g)
    (x : String) (id : Nat) (hq : env.Quiet t lt)
    (hstep : g env { env with sessions := .table (t.removeBranch x id) } []) :
    (store (sessionStore.removeBranch x id)).run.Guarded inv le g
      (Ends err fun _ env' => env' = { env with sessions := .table (t.removeBranch x id) }) env :=
  guarded_storeWrite hg hq ⟨hstep, rfl⟩

theorem guarded_updateBranch (b : Branch) (hq : env.Quiet t lt)
    (herr : ∀ e, err (.store e) env) :
    (store (sessionStore.updateBranch b)).run.Guarded inv le Env.StepAgrees
      (Ends err fun _ env' => ∃ t', t.updateBranch b = .ok t' ∧
        env' = { env with sessions := .table t' }) env :=
  (guarded_storeChange hq (fun _ _ hu => Env.stepAgrees_updateBranch hq (map_unit_eq_ok hu) [])
    herr).mono fun r _ hr => match r, hr with
    | .ok (), ⟨t', hu, h'⟩ => ⟨t', map_unit_eq_ok hu, h'⟩
    | .error _, hr => hr

/-- Adding a session under an xid that no request was sent about. -/
theorem guarded_add (s : GlobalSession) (hq : env.Quiet t lt) (hlog : ¬ env.Logged s.xid)
    (herr : ∀ e, err (.beginFailed e) env) :
    (storeWith .beginFailed (sessionStore.add s)).run.Guarded inv le Env.StepAgrees
      (Ends err fun _ env' => ∃ t', t.add s = .ok t' ∧
        env' = { env with sessions := .table t' }) env :=
  (guarded_storeChange hq (fun _ _ hu => Env.stepAgrees_add hq (map_unit_eq_ok hu) hlog [])
    herr).mono fun r _ hr => match r, hr with
    | .ok (), ⟨t', hu, h'⟩ => ⟨t', map_unit_eq_ok hu, h'⟩
    | .error _, hr => hr

/-- Adding a branch, keeping the outcome. -/
theorem guarded_storeResult_addBranch (b : Branch) (hq : env.Quiet t lt)
    {ok : Except StoreError Unit → Env → Prop} (hfail : ∀ e, ok (.error e) env)
    (hok : ∀ t', t.addBranch b = .ok t' → ok (.ok ()) { env with sessions := .table t' }) :
    (storeResult (sessionStore.addBranch b)).run.Guarded inv le Env.StepAgrees
      (Ends err ok) env :=
  guarded_storeResultChange hq (fun _ _ hb => Env.stepAgrees_addBranch hq (map_unit_eq_ok hb) [])
    hfail fun _ t' hb => hok t' (map_unit_eq_ok hb)

/-! ## Calls that change nothing a store call or a request reads -/

section Frame

variable {g : Env → Env → List (Env × Env) → Prop} (hg : Lasting g)
  (hgf : ∀ e e', e.Frame e' → g e e' [])

include hgf in
theorem guarded_modifyGet_frame {α : Type} {f : Env → α × Env} (hf : env.Frame (f env).2)
    {ok : α → Env → Prop} (hok : ok (f env).1 (f env).2) :
    (modifyGet f : CoordM α).run.Guarded inv le g (Ends err ok) env :=
  guarded_modifyGet (hgf _ _ hf) hok

include hgf in
theorem guarded_release (ls : List RowLock) (hq : env.Quiet t lt)
    {err' : LockError → Env → Prop} {ok : Unit → Env → Prop}
    (hok : ∀ env', env.Frame env' → ok () env') :
    (lockStore.release ls).run.Guarded inv le g (Ends err' ok) env := by
  refine guarded_envAtomic.2 ?_
  rw [Env.run_lockStore_release hq.at ls]
  have hf : env.Frame { env with locks := .table (lt.release ls) } :=
    ⟨rfl, ⟨_, rfl⟩, rfl, rfl, rfl⟩
  exact ⟨hgf _ _ hf, hok _ hf⟩

include hg hgf in
/-- Releasing the row locks of a branch whose lock key is well formed. -/
theorem guarded_releaseBranch {b : Branch} {ls : List RowLock}
    (hls : LockManager.collect b = .ok ls) (hq : env.Quiet t lt) {err' : LockError → Env → Prop}
    {ok : Unit → Env → Prop} (hok : ∀ env', env.Frame env' → ok () env') :
    (LockManager.releaseBranch lockStore b).run.Guarded inv le g (Ends err' ok) env := by
  unfold LockManager.releaseBranch
  rw [hls]
  refine guarded_bind hg (P := fun ls' env' => ls' = ls ∧ env' = env)
    (guarded_liftExcept ⟨rfl, rfl⟩) fun ls' env' ⟨hl, he⟩ => ?_
  subst hl he
  split
  · exact guarded_pure () (hok _ hq.frame)
  · exact guarded_release hgf ls' hq hok

include hg hgf in
/-- Releasing the row locks of any branch: a malformed lock key fails at once. -/
theorem guarded_releaseBranch_frame (b : Branch) (hq : env.Quiet t lt) :
    (LockManager.releaseBranch lockStore b).run.Guarded inv le g
      (Ends (fun _ env' => env.Frame env') fun _ env' => env.Frame env') env := by
  cases hls : LockManager.collect b with
  | error e =>
    unfold LockManager.releaseBranch
    rw [hls]
    exact guarded_throw_bind e hq.frame
  | ok ls => exact guarded_releaseBranch hg hgf hls hq fun _ h => h

include hg hgf in
/-- Releasing the row locks of every branch of a session: malformed lock keys fail at once. -/
theorem guarded_releaseSession_frame (s : GlobalSession) (hq : env.Quiet t lt) :
    (LockManager.releaseSession lockStore s).run.Guarded inv le g
      (Ends (fun _ env' => env.Frame env') fun _ env' => env.Frame env') env := by
  unfold LockManager.releaseSession
  cases hls : s.branches.flatMapM LockManager.collect with
  | error e => exact guarded_throw_bind e hq.frame
  | ok ls =>
    refine guarded_bind hg (P := fun ls' env' => ls' = ls ∧ env' = env)
      (guarded_liftExcept ⟨rfl, rfl⟩) fun ls' env' ⟨hl, he⟩ => ?_
    subst hl
    subst env'
    split
    · exact guarded_pure () hq.frame
    · exact guarded_release hgf ls' hq fun _ h => h

include hg hgf in
/-- Acquiring the row locks of any branch: all or none, and nothing else changes; a malformed
lock key fails at once. -/
theorem guarded_acquireBranch_frame (b : Branch) (hq : env.Quiet t lt) :
    (LockManager.acquireBranch lockStore b).run.Guarded inv le g
      (Ends (fun _ env' => env.Frame env') fun _ env' => env.Frame env' ∧
        ∃ ls, LockManager.collect b = .ok ls) env := by
  unfold LockManager.acquireBranch
  cases hls : LockManager.collect b with
  | error e => exact guarded_throw_bind e hq.frame
  | ok ls =>
    refine guarded_bind hg (P := fun ls' env' => ls' = ls ∧ env' = env)
      (guarded_liftExcept ⟨rfl, rfl⟩) fun ls' env' ⟨hl, he⟩ => ?_
    subst hl
    subst env'
    split
    · exact guarded_pure true ⟨hq.frame, _, rfl⟩
    · -- no acquisition is set to fail, so nothing is caught
      have hf : env.Frame { env with locks := .table (lt.acquire ls').2 } :=
        ⟨rfl, ⟨_, rfl⟩, rfl, rfl, rfl⟩
      have hacq : (lockStore.acquire ls').run.Guarded inv le g
          (Ends (fun _ _ => False) fun _ env' => env.Frame env' ∧
            ∃ ls, (.ok ls' : Except LockError (List RowLock)) = .ok ls) env := by
        refine guarded_envAtomic.2 ?_
        rw [Env.run_lockStore_acquire hq.at]
        exact ⟨hgf _ _ hf, hf, _, rfl⟩
      exact guarded_tryCatch hg hacq fun _ _ h => h.elim

include hg in
/-- Keeping the outcome of lock calls, failed or not. -/
theorem guarded_lockingResult {α : Type} {m : ExceptT LockError (Steps Env) α}
    {ok : Env → Prop} (hm : m.run.Guarded inv le g (Ends (fun _ => ok) fun _ => ok) env) :
    (lockingResult m).run.Guarded inv le g (Ends err fun _ => ok) env :=
  guarded_lift hg (hm.mono fun r _ hr => match r, hr with
    | .ok _, h => h
    | .error _, h => h)

include hg hgf in
/-- Asking whether rows are lockable changes nothing. -/
theorem guarded_isLockable_go (xid : String) :
    ∀ (ls : List RowLock) (env : Env), env.Quiet t lt →
      (LockManager.isLockable.go lockStore xid ls).run.Guarded inv le g
        (Ends (fun _ env' => env' = env) fun _ env' => env' = env) env
  | [], _, _ => guarded_pure true rfl
  | l :: ls, env, hq => by
    unfold LockManager.isLockable.go
    refine guarded_bind hg (P := fun _ env' => env' = env)
      (guarded_envAtomic.2 ?_) fun owner env' h' => ?_
    · have hown := hq.run_lockStore_owner? l.rowKey
      revert hown
      rcases (Env.lockStore.owner? l.rowKey).run env with ⟨_ | _, env'⟩ <;>
      · intro hown
        dsimp only at hown ⊢
        subst env'
        exact ⟨hgf _ _ hq.frame, rfl⟩
    · subst h'
      split
      · split
        · exact guarded_pure false rfl
        · exact guarded_isLockable_go xid ls env' hq
      · exact guarded_isLockable_go xid ls env' hq

include hg hgf in
theorem guarded_isLockable (xid resourceId key : String) (hq : env.Quiet t lt) :
    (LockManager.isLockable lockStore xid resourceId key).run.Guarded inv le g
      (Ends (fun _ env' => env' = env) fun _ env' => env' = env) env := by
  unfold LockManager.isLockable
  refine guarded_bind hg (P := fun _ env' => env' = env) (guarded_liftExcept ?_)
    fun ls env' he => ?_
  · cases RowLock.expand _ key <;> rfl
  · subst he
    exact guarded_isLockable_go hg hgf xid ls env' hq

include hg hgf in
theorem guarded_now (hq : env.Quiet t lt) :
    now.run.Guarded inv le g (Ends err fun _ env' => env' = env) env :=
  guarded_bind hg (P := fun _ env' => env' = env)
    (guarded_modifyGet_frame hgf (f := fun env => (env, env)) hq.frame rfl)
    fun _ _ h' => guarded_pure _ h'

include hg hgf in
/-- Moving a session copy along an edge of the state machine changes no store. -/
theorem guarded_transit (s : GlobalSession) (target : GlobalStatus) (hq : env.Quiet t lt)
    (herr : ∀ e, err e env) :
    (transit s target).run.Guarded inv le g (Ends err fun s' env' => env' = env ∧
      s'.xid = s.xid ∧ s'.branches = s.branches ∧ s'.status = target ∧
      s.status.canTransitTo target = true) env := by
  unfold transit
  refine guarded_bind hg (guarded_now hg hgf hq) fun n env' h' => ?_
  subst h'
  split
  · rename_i s' hs
    unfold GlobalSession.transit at hs
    split at hs
    · cases hs
      exact guarded_pure _ ⟨rfl, rfl, rfl, rfl, ‹_›⟩
    · cases hs
  · exact guarded_throw _ (herr _)

include hgf in
theorem guarded_tryLatch (xid : String) (hq : env.Quiet t lt) :
    (tryLatch xid).run.Guarded inv le g (Ends err fun _ env' => env.Frame env') env := by
  unfold tryLatch
  -- taking the latch or not, only the latches change
  have hf : env.Frame (if env.latched.contains xid then (false, env)
      else (true, { env with latched := env.latched ++ [xid] })).2 := by
    split
    · exact hq.frame
    · exact ⟨rfl, ⟨lt, hq.locks⟩, rfl, rfl, rfl⟩
  exact guarded_modifyGet_frame hgf hf hf

include hgf in
theorem guarded_unlatch (xid : String) (hq : env.Quiet t lt) :
    (unlatch xid).run.Guarded inv le g (Ends err fun _ env' => env.Frame env') env :=
  guarded_modifyGet_frame hgf ⟨rfl, ⟨lt, hq.locks⟩, rfl, rfl, rfl⟩
    ⟨rfl, ⟨lt, hq.locks⟩, rfl, rfl, rfl⟩

include hg hgf in
/-- Setting a timer changes the timers only. -/
theorem guarded_setTimer (ms : Nat) (hq : env.Quiet t lt) :
    (setTimer ms).run.Guarded inv le g (Ends err fun _ env' => env.Frame env') env := by
  unfold setTimer runtimeNow
  refine guarded_bind hg (P := fun _ env' => env' = env) (guarded_bind hg
    (P := fun _ env' => env' = env)
    (guarded_modifyGet_frame hgf (f := fun env => (env, env)) hq.frame rfl)
    fun _ _ h' => guarded_pure _ h') fun _ env₁ h₁ => ?_
  subst env₁
  have hf : env.Frame { env with timers := { env.timers with count := env.timers.count + 1 } } :=
    ⟨rfl, ⟨lt, hq.locks⟩, rfl, rfl, rfl⟩
  exact guarded_bind hg (P := fun _ env' => env.Frame env')
    (guarded_modifyGet_frame hgf hf hf) fun _ _ h₂ => guarded_pure _ h₂

end Frame

/-! ## Requests -/

variable {c : Config} {m : Nat} {R : String → Prop}

/-- A phase-two request, seen with the steps after it up to the next pause: the participant's
answer is made of its next reply, and the request is logged. -/
theorem guarded_requestPhaseTwo_bind {g : Env → Env → List (Env × Env) → Prop} {β : Type}
    {k : Answer BranchStatus → CoordM β} {Q : β → Env → Prop} (a : Action) (b : Branch)
    (done : BranchStatus)
    (h : g env { env with participants := (env.participants.request a b).2 }
        (segment (k (Answer.ofReply b done (env.participants.request a b).1)).run
          { env with participants := (env.participants.request a b).2 }) ∧
      (k (Answer.ofReply b done (env.participants.request a b).1)).run.Guarded inv le g
        (Ends err Q) { env with participants := (env.participants.request a b).2 }) :
    (requestPhaseTwo a b done >>= k).run.Guarded inv le g (Ends err Q) env :=
  h

/-- A delete request is logged and changes nothing else. -/
theorem guarded_requestDelete (b : Branch) :
    (requestDelete b).run.Guarded inv le Env.StepAgrees (Ends err fun _ env' =>
      env' = { env with participants := (env.participants.request .delete b).2 }) env :=
  guarded_bind Env.stepAgrees_lasting
    (guarded_modifyGet (Env.stepAgrees_request (Participants.calls_request _ _ _)
      fun d hd => (d.action_ne_delete hd.symm).elim) rfl)
    fun _ _ h => guarded_pure _ h

/-- Asking participants to purge undo logs logs no request about a branch. -/
theorem guarded_purge (days : Nat) (h : env.Agrees c m R) :
    (purge days).run.Guarded inv le Env.StepAgrees
      (Ends (fun _ env' => env'.Agrees c m R) fun _ env' => env'.Agrees c m R) env := by
  -- the purge is logged as a call about no branch
  have hlog : ∀ p : Participants, p.calls = env.participants.calls ++ [.purge days] →
      Env.StepAgrees env { env with participants := p } [] ∧
        Env.Agrees c m R { env with participants := p } := by
    intro p hp
    have hsent : ∀ a x bid, Env.Sent { env with participants := p } a x bid ↔ env.Sent a x bid :=
      fun a x bid => by simp only [Env.Sent, hp, List.mem_append, List.mem_singleton,
        reduceCtorEq, or_false]
    obtain ⟨t, lt, hq⟩ := h.quiet
    refine ⟨⟨.inr ⟨_, hp⟩, fun d x bid hsend => ?_, fun x _ hpast => ⟨hpast, fun _ h => h⟩⟩,
      h.of_frame ⟨t, lt, hq.of_eq rfl rfl rfl⟩ (fun _ => rfl) rfl hsent⟩
    · obtain ⟨st, hs⟩ := hsend
      change p.calls = _ at hs
      rw [hp] at hs
      cases (List.cons.inj (List.append_cancel_left hs)).1
  obtain ⟨t, lt, hq⟩ := h.quiet
  unfold purge
  refine guarded_bind Env.stepAgrees_lasting (P := fun _ env' => env'.Agrees c m R)
    (guarded_modifyGet ?_ ?_) fun failed env' h' => ?_
  · dsimp only
    split
    · exact Env.stepAgrees_frame hq.frame []
    · split <;> exact (hlog _ (by rfl)).1
  · dsimp only
    split
    · exact h
    · split <;> exact (hlog _ (by rfl)).2
  · split
    · exact guarded_throw _ h'
    · exact guarded_pure () h'

end CoordM

end GlobalTxn
