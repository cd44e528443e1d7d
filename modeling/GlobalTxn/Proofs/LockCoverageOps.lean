import GlobalTxn.Proofs.HeldRowsOps
import GlobalTxn.Proofs.LockCoverageDrive

/-! # Operations and scans keep the rows covered

With asynchronous commit off and no rollback that gives up unlocked, every operation of the
coordinator and every scan, run from quiet stores that cover the stored sessions, ends in such
stores, whether it fails or not (`Covering.wp_program`, and
`Env.Covered.apply_op` for an operation run to its end).  A registration adds to the rows asked
for the rows its lock key names, which its transaction must not have asked for before:

* `register` acquires the rows of the new branch, all or none; the session in `begin` then
  takes the branch, whose rows are held for its transaction and apart from those of its other
  branches, as these were asked for before;
* `report` replaces a branch by one with the same row locks;
* `commit` persists `Committing` and drives the session, as it never commits asynchronously;
* `globalReport` releases the rows of a finished session before removing it, and records any
  other outcome, all of which keep row locks;
* `recover` only acquires rows, which gives no row held another holder;
* an operator's delete releases each branch's rows before the branch is removed, and the other
  operators' commands persist statuses that keep row locks or drive the session;
* a scan's handlers each reload their session and drive it, end it, or stop it in
  `CommitRetryTimeout`; no stored session is committing asynchronously, as none keeps no row
  locks, and a rollback out of retries keeps being driven with its rows locked.
-/

namespace GlobalTxn

open Steps

namespace CoordM

namespace Covering

variable {env : Env} {t : SessionTable} {lt : LockTable} {A : List (String × String)}

/-! ## Handlers of scans -/

/-- Reloading a candidate reads the stored session, if it is still a candidate. -/
theorem wp_reload (c : Config) (kind : ScanKind) (x : String) (h : env.Quiet t lt) :
    (reload c kind x).Covered A (fun r env' => env'.Quiet t lt ∧ ∀ s, r = some s →
      t.find? s.xid = some s ∧ ∃ now, kind.isCandidate c now s = true) env := by
  unfold reload
  refine wp_bind (wp_now_quiet h) fun now env₁ h₁ => ?_
  refine wp_bind (wp_find?_quiet x h₁) fun r env₂ ⟨hr, h₂⟩ => ?_
  refine wp_pure _ ⟨h₂, fun s hs => ?_⟩
  obtain ⟨hfound, hc⟩ := Option.filter_eq_some_iff.1 hs
  rw [hr] at hfound
  rw [(SessionTable.find?_eq_some hfound).2]
  exact ⟨hfound, now, hc⟩

theorem wp_driveHandled (c : Config) (dir : Direction) {s : GlobalSession}
    (hs : env.CoveredWith A s) :
    (driveHandled c dir s).Covered A (fun _ env' => env'.Covered A) env :=
  wp_bind (wp_drive c dir hs) fun _ _ h => wp_pure true h

theorem wp_rollbackTimedOut (c : Config) (x : String) (hcov : env.Covered A) :
    (rollbackTimedOut c x).Covered A (fun _ env' => env'.Covered A) env := by
  obtain ⟨t, lt, h, hcov⟩ := hcov
  unfold rollbackTimedOut
  refine wp_bind (wp_now_quiet h) fun now env₁ h₁ => ?_
  refine wp_bind (wp_reload c .timeoutCheck x h₁) fun r env₂ ⟨h₂, _⟩ => ?_
  cases r with
  | none => exact wp_pure false (h₂.covered hcov)
  | some s =>
    -- both rollback statuses keep row locks
    have hhold : (if c.timeoutRollbackGrace ≤ now - s.deadline then GlobalStatus.timeoutRollbacking
        else .rollbacking).holdsRowLocks = true := by split <;> rfl
    exact wp_bind (wp_transitAndPersist_synced h₂ hcov hhold) fun _ _ ⟨hs, _⟩ =>
      wp_driveHandled c .rollback hs

theorem wp_retryCommit (c : Config) (x : String) (hcov : env.Covered A) :
    (retryCommit c x).Covered A (fun _ env' => env'.Covered A) env := by
  obtain ⟨t, lt, h, hcov⟩ := hcov
  unfold retryCommit
  refine wp_bind (wp_reload c .retryCommitting x h) fun r env₁ ⟨h₁, hr⟩ => ?_
  cases r with
  | none => exact wp_pure false (h₁.covered hcov)
  | some s =>
    have hg := (hr s rfl).1
    dsimp only
    split
    · exact wp_bind (wp_endSession ⟨t, lt, h₁, hcov, hg⟩) fun _ _ h' => wp_pure true h'
    · refine wp_bind (wp_now_quiet h₁) fun _ env₂ h₂ => ?_
      split
      · -- the stop: `CommitRetryTimeout` keeps row locks, whatever copy is persisted
        have hstop : ∀ s₁ env₃, env₃.Quiet t lt →
            (do let _ ← transitAndPersist s₁ .commitRetryTimeout; pure true : CoordM Bool).Covered
              A (fun _ env' => env'.Covered A) env₃ := fun s₁ env₃ h₃ =>
          wp_bind (wp_transitAndPersist_synced h₃ hcov rfl) fun _ _ ⟨hs, _⟩ =>
            wp_pure true hs.covered
        split
        · exact wp_bind (wp_transit_quiet s _ h₂ fun _ _ h' => h'.covered hcov)
            fun s₁ env₃ ⟨h₃, _⟩ => hstop s₁ env₃ h₃
        · exact hstop s env₂ h₂
      · exact wp_driveHandled c .commit ⟨t, lt, h₂, hcov, hg⟩

/-- No stored session commits asynchronously: its status would keep no row locks. -/
theorem wp_commitAsync (c : Config) (x : String) (hcov : env.Covered A) :
    (commitAsync c x).Covered A (fun _ env' => env'.Covered A) env := by
  obtain ⟨t, lt, h, hcov⟩ := hcov
  unfold commitAsync
  refine wp_bind (wp_reload c .asyncCommitting x h) fun r env₁ ⟨h₁, hr⟩ => ?_
  cases r with
  | none => exact wp_pure false (h₁.covered hcov)
  | some s =>
    obtain ⟨hg, _, hc⟩ := hr s rfl
    have hasync : s.status = .asyncCommitting := by simpa [ScanKind.isCandidate] using hc
    have hhold := (hcov.covered_of_find? hg).holding
    rw [hasync] at hhold
    cases hhold

/-- A rollback out of retries is driven again, its rows still locked, when the settings do not
unlock it. -/
theorem wp_retryRollback (c : Config) (hunlock : c.rollbackRetryTimeoutUnlock = false) (x : String)
    (hcov : env.Covered A) :
    (retryRollback c x).Covered A (fun _ env' => env'.Covered A) env := by
  obtain ⟨t, lt, h, hcov⟩ := hcov
  unfold retryRollback
  refine wp_bind (wp_reload c .retryRollbacking x h) fun r env₁ ⟨h₁, hr⟩ => ?_
  cases r with
  | none => exact wp_pure false (h₁.covered hcov)
  | some s =>
    have hg := (hr s rfl).1
    dsimp only
    split
    · exact wp_bind (wp_endSession ⟨t, lt, h₁, hcov, hg⟩) fun _ _ h' => wp_pure true h'
    · refine wp_bind (wp_now_quiet h₁) fun _ env₂ h₂ => ?_
      rw [hunlock, Bool.and_false, if_neg Bool.false_ne_true]
      exact wp_driveHandled c .rollback ⟨t, lt, h₂, hcov, hg⟩

theorem wp_handler (c : Config) (hunlock : c.rollbackRetryTimeoutUnlock = false)
    (kind : ScanKind) (x : String) (hcov : env.Covered A) :
    (handler c kind x).Covered A (fun _ env' => env'.Covered A) env := by
  cases kind with
  | timeoutCheck => exact wp_rollbackTimedOut c x hcov
  | retryCommitting => exact wp_retryCommit c x hcov
  | asyncCommitting => exact wp_commitAsync c x hcov
  | retryRollbacking => exact wp_retryRollback c hunlock x hcov
  | undoLogDelete => exact wp_pure false hcov

/-- Holding a latch changes no table, whatever the program under it does. -/
theorem wp_holding {α : Type} (x : String) {m : CoordM α}
    (hm : m.Covered A (fun _ env' => env'.Covered A) env) :
    (holding x m).Covered A (fun _ env' => env'.Covered A) env := by
  unfold holding
  refine wp_bind (wp_tryCatch hm fun e env₁ ⟨t, lt, h₁, hcov⟩ => ?_)
    fun a env₁ ⟨t, lt, h₁, hcov⟩ => ?_
  · exact wp_bind (wp_unlatch_quiet x h₁) fun _ _ h' => wp_throw e (h'.covered hcov)
  · exact wp_bind (wp_unlatch_quiet x h₁) fun _ _ h' => wp_pure a (h'.covered hcov)

theorem wp_underLatch (x : String) {m : CoordM Bool}
    (hm : ∀ env, env.Covered A → m.Covered A (fun _ env' => env'.Covered A) env)
    (hcov : env.Covered A) :
    (underLatch x m).Covered A (fun _ env' => env'.Covered A) env := by
  obtain ⟨t, lt, h, hcov⟩ := hcov
  unfold underLatch
  refine wp_bind (wp_tryLatch_quiet x h) fun _ env₁ h₁ => ?_
  split
  · exact wp_holding x (hm env₁ (h₁.covered hcov))
  · exact wp_pure false (h₁.covered hcov)

/-! ## Scans -/

/-- Every handler of a session scan, latched on its session, runs: each of its steps frees
rows or leaves them, and from every covered state it ends in one. -/
theorem runs_underLatch_handler (c : Config) (hunlock : c.rollbackRetryTimeoutUnlock = false)
    (kind : ScanKind) (x : String) (s : Env) :
    Pool.Runs (Env.Covered A) Env.OnlyFrees (underLatch x (handler c kind x)) s := by
  refine ⟨always_underLatch x (always_handler c kind x), fun s' hcov _ => ?_⟩
  refine (wp_underLatch x (fun _ h => wp_handler c hunlock kind x h) hcov).mono fun r _ h => ?_
  cases r with
  | ok _ => exact h
  | error _ => exact h

theorem wp_candidates (c : Config) (kind : ScanKind) (h : env.Quiet t lt) :
    (candidates c kind).Covered A (fun _ env' => env'.Quiet t lt) env := by
  unfold candidates
  exact wp_bind (wp_now_quiet h) fun _ _ h₁ =>
    wp_bind (wp_findBy_quiet _ h₁) fun _ _ ⟨_, h₂⟩ => wp_pure _ h₂

theorem wp_scanPool (c : Config) (hunlock : c.rollbackRetryTimeoutUnlock = false)
    (kind : ScanKind) (h : env.Quiet t lt) :
    (scanPool c kind).Covered A
      (fun p env' => env'.Quiet t lt ∧ ∀ s, p.Settles (Env.Covered A) Env.OnlyFrees s) env := by
  unfold scanPool
  refine wp_bind (wp_candidates c kind h) fun xids env₁ h₁ =>
    wp_pure _ ⟨h₁, fun s => ⟨fun m hm s' => ?_, (fun _ hm => by cases hm),
      (fun _ hm => by cases hm)⟩⟩
  obtain ⟨x, -, rfl⟩ := List.mem_map.1 hm
  exact runs_underLatch_handler c hunlock kind x s'

theorem wp_scan (c : Config) (hunlock : c.rollbackRetryTimeoutUnlock = false) (kind : ScanKind)
    (hcov : env.Covered A) :
    (scan c kind none).Covered A (fun _ env' => env'.Covered A) env := by
  obtain ⟨t, lt, h, hcov⟩ := hcov
  unfold scan
  rw [Option.mapM_none]
  refine wp_bind (P := fun k env₁ => k = none ∧ env₁.Quiet t lt) (wp_pure none ⟨rfl, h⟩)
    fun _ env₁ ⟨hk, h₁⟩ => ?_
  subst hk
  split
  · exact wp_bind (wp_purge_quiet _ h₁ fun _ _ h' => h'.covered hcov) fun _ _ h₂ =>
      wp_pure _ (h₂.covered hcov)
  · refine wp_bind (wp_scanPool c hunlock _ h₁) fun p env₂ ⟨h₂, hp⟩ => ?_
    exact Pool.wp_run_none Env.onlyFrees_refl Env.onlyFrees_trans _ p env₂ (hp env₂)
      (h₂.covered hcov)

theorem wp_scanNow (c : Config) (hunlock : c.rollbackRetryTimeoutUnlock = false) (kind : ScanKind)
    (hcov : env.Covered A) :
    (scanNow c kind).Covered A (fun _ env' => env'.Covered A) env := by
  unfold scanNow
  refine wp_bind (wp_scan c hunlock kind hcov) fun r env₁ h₁ => ?_
  split
  · exact wp_pure _ h₁
  · exact wp_pure 0 h₁

/-! ## Operations of transaction managers and participants -/

theorem wp_begin (c : Config) (applicationId group name : String) (timeout : Duration)
    (h : env.Quiet t lt) (hcov : t.Covers A lt) :
    (begin c applicationId group name timeout).Covered A (fun _ env' => env'.Covered A) env := by
  unfold begin
  dsimp only
  split
  · exact wp_throw_bind _ (h.covered hcov)
  · refine wp_bind (wp_nextId_quiet h) fun _ env₁ h₁ => ?_
    refine wp_bind (wp_now_quiet h₁) fun _ env₂ h₂ => ?_
    refine wp_bind (wp_add_quiet _ h₂ fun _ _ h' => h'.covered hcov)
      fun _ env₃ ⟨t₃, hadd, h₃⟩ => ?_
    -- the new session has no branches, is in `begin`, and its xid is not stored yet
    obtain ⟨hnone, rfl⟩ := SessionTable.add_eq_ok hadd
    exact wp_pure _ (h₃.covered (hcov.add hnone rfl rfl))

/-- Enlisting a branch of the stored session, in `begin`, whose rows its transaction did not ask
for before: its rows are acquired, all or none, and the session takes the branch.  The store
cannot refuse it, as the session is still the one loaded. -/
theorem wp_register (bt : BranchType) (resourceId clientId x applicationData lockKey : String)
    (h : env.Quiet t lt) (hcov : t.Covers A lt)
    (hfresh : ∀ p ∈ (Op.register bt resourceId clientId x applicationData lockKey).asks, p ∉ A) :
    (register bt resourceId clientId x applicationData lockKey).Covered
      (A ++ (Op.register bt resourceId clientId x applicationData lockKey).asks)
      (fun _ env' => env'.Covered
        (A ++ (Op.register bt resourceId clientId x applicationData lockKey).asks)) env := by
  -- the rows asked for after the registration: those asked before, and its own
  have hA : ∀ p ∈ A, p ∈ A ++ (Op.register bt resourceId clientId x applicationData lockKey).asks :=
    fun _ hp => List.mem_append_left _ hp
  have hown : ∀ p ∈ (Op.register bt resourceId clientId x applicationData lockKey).asks,
      p ∈ A ++ (Op.register bt resourceId clientId x applicationData lockKey).asks :=
    fun _ hp => List.mem_append_right _ hp
  generalize A ++ (Op.register bt resourceId clientId x applicationData lockKey).asks = A'
    at hA hown ⊢
  have hcov' := hcov.mono hA
  unfold register
  refine wp_bind (wp_load x h hcov') fun s env₁ ⟨h₁, hg⟩ => ?_
  dsimp only
  split
  · rename_i hbegin
    obtain ⟨-, rfl⟩ := SessionTable.find?_eq_some hg
    refine wp_bind (wp_nextId_quiet h₁) fun bid env₂ h₂ => ?_
    refine wp_bind (wp_now_quiet h₂) fun now env₃ h₃ => ?_
    generalize hb : (⟨s.xid, s.transactionId, bid, s.transactionServiceGroup, resourceId,
      clientId, bt, .registered, lockKey, applicationData, now⟩ : Branch) = b
    have hg' : t.find? b.xid = some s := by
      rw [← hb]
      exact hg
    -- the rows the branch takes are those the registration asks for
    have hasks : ∀ {ls : List RowLock}, LockManager.collect b = .ok ls → ∀ k ∈ b.rowKeys,
        (b.xid, k) ∈ (Op.register bt resourceId clientId s.xid applicationData lockKey).asks := by
      rw [← hb]
      exact fun hls k hk => Op.mem_asks_register hls clientId applicationData hk
    cases hls : LockManager.collect b with
    | error e =>
      -- a malformed lock key: nothing is acquired
      have hfail : (LockManager.acquireBranch lockStore b).run.Wp (Env.Covered A') Env.OnlyFrees
          (Ends (fun _ env' => env'.Covered A') fun _ _ => False) env₃ :=
        wp_acquireBranch_error hls (h₃.covered hcov')
      exact wp_bind (wp_adapt hfail) fun _ _ h => False.elim h
    | ok ls =>
      refine wp_bind (P := fun r env₄ => r = (lt.acquire ls).1 ∧ env₄.Quiet t (lt.acquire ls).2)
        (wp_adapt (wp_acquireBranch_quiet hls h₃ fun _ h' => ⟨rfl, h'⟩)) fun r env₄ ⟨hr, h₄⟩ => ?_
      subst hr
      split
      · -- the rows are held: the session, in `begin`, takes the branch
        rename_i hacq
        refine wp_bind (P := fun r env₅ => r = .ok () ∧
            env₅.Quiet (t.put (s.addBranch b)) (lt.acquire ls).2)
          (wp_storeResult_addBranch_quiet b h₄ (SessionTable.addBranch_of_begin hg' hbegin)
            fun _ h' => ⟨rfl, h'⟩) fun r env₅ ⟨hr, h₅⟩ => ?_
        subst hr
        exact wp_pure _ (h₅.covered (hcov.addBranch_acquire hg' hls hacq
          (fun k hk hk' => hfresh _ (hasks hls k hk) hk') hA
          fun k hk => hown _ (hasks hls k hk)))
      · -- a conflict: nothing was acquired
        rename_i hconflict
        rw [LockTable.acquire_eq_of_fst_eq_false (Bool.eq_false_iff.2 hconflict)] at h₄
        exact wp_throw_bind _ (h₄.covered hcov')
  · split
    · exact wp_pure _ (h₁.covered hcov')
    · exact wp_throw_bind _ (h₁.covered hcov')
  · split
    · exact wp_pure _ (h₁.covered hcov')
    · exact wp_throw_bind _ (h₁.covered hcov')
  · exact wp_throw_bind _ (h₁.covered hcov')

/-- A report replaces a branch by one with new status and data, and the same row locks. -/
theorem wp_report (x : String) (branchId : Nat) (status : BranchStatus)
    (applicationData : Option String) (h : env.Quiet t lt) (hcov : t.Covers A lt) :
    (report x branchId status applicationData).Covered A (fun _ env' => env'.Covered A) env := by
  unfold report
  refine wp_bind (wp_load x h hcov) fun s env₁ ⟨h₁, hg⟩ => ?_
  dsimp only
  split
  · rename_i b hb
    have hg' := SessionTable.find?_self hg
    -- the branch found belongs to the stored session, under its own id
    have hbx := ((hcov.covered_of_find? hg).branches b (List.mem_of_find?_eq_some hb)).1
    have hb' := GlobalSession.findBranch?_self hb
    split
    · refine (wp_updateBranch_quiet _ h₁ fun _ _ h' => h'.covered hcov).mono
        (Ends.imp (fun _ _ h => h) fun _ env₂ ⟨t₂, hu, h₂⟩ => ?_)
      obtain ⟨g, c, hg₂, hc, rfl⟩ := SessionTable.updateBranch_eq_ok hu
      rw [show ({ b with status, applicationData := applicationData.getD b.applicationData } :
        Branch).xid = s.xid from hbx, hg'] at hg₂
      cases hg₂
      rw [show ({ b with status, applicationData := applicationData.getD b.applicationData } :
        Branch).branchId = b.branchId from rfl, hb'] at hc
      cases hc
      exact h₂.covered (hcov.replaceBranch (hbx ▸ hg') hb' rfl)
    · exact wp_throw_bind _ (h₁.covered hcov)
  · exact wp_throw _ (h₁.covered hcov)

/-- With asynchronous commit off, a commit persists `Committing`, which keeps row locks, and
drives the session. -/
theorem wp_commit (c : Config) (hasync : c.asyncCommit = false) (x : String) (h : env.Quiet t lt)
    (hcov : t.Covers A lt) :
    (commit c x).Covered A (fun _ env' => env'.Covered A) env := by
  unfold commit
  refine wp_bind (wp_find?_quiet x h) fun r env₁ ⟨_, h₁⟩ => ?_
  cases r with
  | none => exact wp_pure _ (h₁.covered hcov)
  | some s =>
    dsimp only
    split
    · split
      · rename_i hon
        simp [hasync] at hon
      · exact wp_bind (wp_transitAndPersist_synced h₁ hcov rfl) fun _ _ ⟨hs, _⟩ =>
          wp_drive c .commit hs
    · exact wp_pure _ (h₁.covered hcov)
    · split
      · exact wp_pure _ (h₁.covered hcov)
      · exact wp_throw _ (h₁.covered hcov)

theorem wp_rollback (c : Config) (x : String) (h : env.Quiet t lt) (hcov : t.Covers A lt) :
    (rollback c x).Covered A (fun _ env' => env'.Covered A) env := by
  unfold rollback
  refine wp_bind (wp_find?_quiet x h) fun r env₁ ⟨_, h₁⟩ => ?_
  cases r with
  | none => exact wp_pure _ (h₁.covered hcov)
  | some s =>
    dsimp only
    split
    · exact wp_bind (wp_transitAndPersist_synced h₁ hcov rfl) fun _ _ ⟨hs, _⟩ =>
        wp_drive c .rollback hs
    · split
      · exact wp_pure _ (h₁.covered hcov)
      · exact wp_throw _ (h₁.covered hcov)

theorem wp_status (x : String) (h : env.Quiet t lt) (hcov : t.Covers A lt) :
    (status x).Covered A (fun _ env' => env'.Covered A) env := by
  unfold status
  exact wp_bind (wp_find?_quiet x h) fun _ _ ⟨_, h₁⟩ => wp_pure _ (h₁.covered hcov)

/-- A session that reports its own outcome: a final one ends it, its rows released first; an
intermediate one, which keeps row locks, is recorded on the stored session. -/
theorem wp_globalReport (x : String) (status : GlobalStatus) (h : env.Quiet t lt)
    (hcov : t.Covers A lt) :
    (globalReport x status).Covered A (fun _ env' => env'.Covered A) env := by
  unfold globalReport
  refine wp_bind (wp_find?_quiet x h) fun r env₁ ⟨hr, h₁⟩ => ?_
  cases r with
  | none => exact wp_pure _ (h₁.covered hcov)
  | some s =>
    have hg : t.find? x = some s := hr.symm
    have hend : ∀ st : GlobalStatus, (do
        locking (LockManager.releaseSession lockStore s)
        let _ ← store (sessionStore.remove x)
        pure st : CoordM GlobalStatus).Covered A (fun _ env' => env'.Covered A) env₁ := by
      intro st
      -- the session's branches are of its transaction, and so are the rows released
      have hcs := hcov.covered_of_find? hg
      obtain ⟨hmem, hx⟩ := SessionTable.find?_eq_some hg
      obtain ⟨ls, hls, hlx⟩ := LockManager.exists_flatMapM_collect_of_xid (y := x) fun b hb =>
        ⟨(hcs.branches b hb).1.trans hx, (hcs.branches b hb).2⟩
      refine wp_bind (P := fun _ env₂ => env₂.Quiet t (lt.release ls))
        (wp_adapt (wp_releaseSession_quiet hls h₁ fun _ h' => h')) fun _ env₂ h₂ => ?_
      exact wp_bind (wp_remove_quiet x h₂) fun _ _ h₃ =>
        wp_pure st (h₃.covered (hcov.remove_release hlx))
    have hrecord : ∀ st : GlobalStatus, st.holdsRowLocks = true → (do
        let now ← now
        let _ ← store (sessionStore.update { s with status := st, gmtUpdated := now })
        pure st : CoordM GlobalStatus).Covered A (fun _ env' => env'.Covered A) env₁ := by
      intro st hst
      refine wp_bind (wp_now_quiet h₁) fun _ env₂ h₂ => ?_
      refine wp_bind (wp_update_quiet _ h₂ fun _ _ h' => h'.covered hcov)
        fun _ env₃ ⟨t₃, hu, h₃⟩ => ?_
      obtain ⟨g, hg₃, rfl, rfl⟩ := SessionTable.update_eq_ok hu
      exact wp_pure st (h₃.covered (hcov.put_status hg₃ rfl hst))
    dsimp only
    split
    · split
      · exact hend _
      · exact hend _
      · exact hend _
      · exact hrecord _ rfl
      · exact hrecord _ rfl
      · exact hrecord _ rfl
      · exact hrecord _ rfl
      · exact hrecord _ rfl
      · exact hrecord _ rfl
      · exact wp_throw_bind _ (h₁.covered hcov)
    · exact wp_throw_bind _ (h₁.covered hcov)

theorem wp_lockQuery (bt : BranchType) (resourceId x lockKey : String) (h : env.Quiet t lt)
    (hcov : t.Covers A lt) :
    (lockQuery bt resourceId x lockKey).Covered A (fun _ env' => env'.Covered A) env := by
  unfold lockQuery
  dsimp only
  split
  · exact wp_adapt ((wp_isLockable_quiet x resourceId lockKey h).mono
      (Ends.imp (fun _ _ h' => h'.covered hcov) fun _ _ h' => h'.covered hcov))
  · exact wp_throw_bind _ (h.covered hcov)

/-- Acquiring the rows of any branch gives no row held another holder, whether it succeeds or
not, and changes no session. -/
theorem wp_locking_acquireBranch (b : Branch) (hcov : env.Covered A) :
    (locking (LockManager.acquireBranch lockStore b)).Covered A (fun _ env' => env'.Covered A)
      env := by
  obtain ⟨t, lt, h, hcov⟩ := hcov
  cases hls : LockManager.collect b with
  | error e => exact wp_adapt (wp_acquireBranch_error hls (h.covered hcov))
  | ok ls =>
    exact wp_adapt (wp_acquireBranch_quiet hls h fun _ h' =>
      h'.covered (hcov.of_extends (lt.extends_acquire ls)))

/-- A fold whose every step keeps the stores covered keeps them covered.  By induction on the
list. -/
theorem wp_foldlM_covered {α β : Type} {f : β → α → CoordM β}
    (hf : ∀ a b env, env.Covered A → (f b a).Covered A (fun _ env' => env'.Covered A) env) :
    ∀ (l : List α) (init : β) (env : Env), env.Covered A →
      (l.foldlM f init).Covered A (fun _ env' => env'.Covered A) env :=
  wp_foldlM (R := fun _ _ env' => env'.Covered A) (Q := fun _ env' => env'.Covered A)
    (fun a _ b env h => hf a b env h) fun _ _ h => h

/-- Recovery only acquires rows, and changes no session. -/
theorem wp_recover (hcov : env.Covered A) :
    recover.Covered A (fun _ env' => env'.Covered A) env := by
  obtain ⟨t, lt, h, hcov⟩ := hcov
  unfold recover
  refine wp_bind (wp_findBy_quiet _ h) fun gs env₁ ⟨_, h₁⟩ => ?_
  -- over the sessions, and within one over its branches
  refine wp_foldlM_covered (fun g _ env₂ hcov₂ => ?_) gs _ env₁ (h₁.covered hcov)
  dsimp only
  split
  · exact wp_pure _ hcov₂
  · refine wp_foldlM_covered (fun b _ env₃ hcov₃ => ?_) g.branches _ env₂ hcov₂
    refine wp_bind (wp_locking_acquireBranch b hcov₃) fun _ env₄ hcov₄ => ?_
    split
    · exact wp_pure _ hcov₄
    · exact wp_pure _ hcov₄

/-! ## Operations for operators -/

/-- Releasing rows in quiet stores succeeds. -/
theorem wp_lockingResult_ok {m : ExceptT LockError (Steps Env) Unit} {ok : Env → Prop}
    {err : CoordError → Env → Prop}
    (hm : m.run.Wp (Env.Covered A) Env.OnlyFrees (Ends (fun _ _ => False) fun _ env' => ok env')
      env) :
    (lockingResult m).run.Wp (Env.Covered A) Env.OnlyFrees
      (Ends err fun r env' => r = .ok () ∧ ok env') env := by
  refine wp_lift (hm.mono fun r _ hr => ?_)
  cases r with
  | ok _ => exact ⟨rfl, hr⟩
  | error _ => exact hr.elim

/-- Deleting a branch at its participant, which releases the branch's rows once the
participant agrees; a refusal or a silence leave the stores covered. -/
theorem wp_deleteAtParticipant (c : Config) {b : Branch} {ls : List RowLock}
    (hls : LockManager.collect b = .ok ls) (h : env.Quiet t lt) (hcov : t.Covers A lt) :
    (deleteAtParticipant c b).Covered A (fun r env' =>
      (r = true → env'.Quiet t (lt.release ls)) ∧ (r = false → env'.Covered A)) env := by
  -- the unlock, once the participant has deleted the branch's data, succeeds
  have hrelease : ∀ env₁, env₁.Quiet t lt →
      (lockingResult (LockManager.releaseBranch lockStore b)).run.Wp (Env.Covered A)
        Env.OnlyFrees (Ends (fun _ env' => env'.Covered A)
          fun r env' => r = .ok () ∧ env'.Quiet t (lt.release ls)) env₁ :=
    fun _ h₁ => wp_lockingResult_ok (wp_releaseBranch_quiet hls h₁ fun _ h' => h')
  unfold deleteAtParticipant
  dsimp only
  split
  · refine wp_bind (wp_requestDelete_quiet b h) fun _ env₁ h₁ => ?_
    split
    · refine wp_bind (hrelease env₁ h₁) fun r env₂ ⟨hr, h₂⟩ => ?_
      subst hr
      exact wp_pure true ⟨fun _ => h₂, fun hf => by cases hf⟩
    · exact wp_bind (wp_sleep _ h₁ hcov) fun _ _ ⟨hcov', _⟩ =>
        wp_pure false ⟨(fun hf => by cases hf), fun _ => hcov'⟩
    · exact wp_pure false ⟨(fun hf => by cases hf), fun _ => h₁.covered hcov⟩
  · refine wp_bind (hrelease env h) fun r env₂ ⟨hr, h₂⟩ => ?_
    subst hr
    exact wp_pure true ⟨fun _ => h₂, fun hf => by cases hf⟩

/-- A step that needs a branch deleted at its participant first: it runs with the branch's rows
released, or the operation fails with `e`. -/
theorem wp_unlessDeleted {α : Type} (c : Config) {b : Branch} {ls : List RowLock}
    (hls : LockManager.collect b = .ok ls) (h : env.Quiet t lt) (hcov : t.Covers A lt)
    (e : CoordError) {k : CoordM α} {ok : α → Env → Prop}
    (hk : ∀ env', env'.Quiet t (lt.release ls) → k.Covered A ok env') :
    (do
      unless ← deleteAtParticipant c b do
        throw e
      k).Covered A ok env := by
  refine wp_bind (wp_deleteAtParticipant c hls h hcov) fun r env₁ ⟨htrue, hfalse⟩ => ?_
  dsimp only
  split
  · exact hk env₁ (htrue ‹_›)
  · exact wp_throw_bind e (hfalse (Bool.eq_false_iff.2 ‹_›))

/-- Deleting every branch of the stored session `s`, then the session.  By induction on the
branches left: each is deleted at its participant, with its rows released, and removed from
the stored session, which is the first branch of the session left. -/
theorem wp_deleteAll (c : Config) (x : String) {s : GlobalSession} (hs : env.CoveredWith A s) :
    (do
      let s ← s.branches.foldlM (fun s b => do
        unless ← deleteAtParticipant c b do
          throw (CoordError.branchDeleteFailed x b.branchId)
        removeBranch s b false) s
      endSession s).Covered A (fun _ env' => env'.Covered A) env := by
  refine wp_bind (wp_foldlM (R := fun l s env' => env'.CoveredWith A s ∧ s.branches = l) ?_
    (fun _ _ h' => h') s.branches s env ⟨hs, rfl⟩) fun s' env' ⟨hs', _⟩ => wp_endSession hs'
  rintro b l s₁ env₁ ⟨⟨t, lt, h₁, hcov, hg⟩, hb⟩
  obtain ⟨-, ls, hls⟩ := (hcov.covered_of_find? hg).branches b (hb ▸ List.mem_cons_self)
  refine wp_unlessDeleted c hls h₁ hcov _ fun env₂ h₂ => ?_
  refine (wp_removeBranch_released h₂ hcov hg (GlobalSession.findBranch?_head hb) hls).mono
    (Ends.imp (fun _ _ h' => h') fun s₂ _ ⟨hs₂, hrem⟩ => ⟨hs₂, ?_⟩)
  rw [hrem]
  exact GlobalSession.branches_removeBranch_head hb

/-- Deleting a session persists `Deleting`, which keeps row locks, before its branches go. -/
theorem wp_deleteGlobal (c : Config) (x : String) (h : env.Quiet t lt) (hcov : t.Covers A lt) :
    (deleteGlobal c x).Covered A (fun _ env' => env'.Covered A) env := by
  unfold deleteGlobal
  refine wp_bind (wp_load x h hcov) fun s env₁ ⟨h₁, hg⟩ => ?_
  dsimp only
  split
  · split
    · exact wp_deleteAll c x ⟨t, lt, h₁, hcov, SessionTable.find?_self hg⟩
    · exact wp_bind (wp_transitAndPersist_synced h₁ hcov rfl) fun _ _ ⟨hs, _⟩ =>
        wp_deleteAll c x hs
  · exact wp_throw_bind _ (h₁.covered hcov)

theorem wp_forceDeleteGlobal (x : String) (h : env.Quiet t lt) (hcov : t.Covers A lt) :
    (forceDeleteGlobal x).Covered A (fun _ env' => env'.Covered A) env := by
  unfold forceDeleteGlobal
  refine wp_bind (wp_load x h hcov) fun s env₁ ⟨h₁, hg⟩ => ?_
  dsimp only
  split
  · exact wp_endSession ⟨t, lt, h₁, hcov, SessionTable.find?_self hg⟩
  · exact wp_bind (wp_transitAndPersist_synced h₁ hcov rfl) fun _ _ ⟨hs, _⟩ =>
      wp_endSession hs

section Move

variable {s : GlobalSession} {env₁ : Env}

/-- Moving the stored session `s` to a status that keeps row locks, and answering it. -/
theorem wp_moveTo (h : env₁.Quiet t lt) (hcov : t.Covers A lt) (target : GlobalStatus)
    (htarget : target.holdsRowLocks = true) :
    (do let _ ← transitAndPersist s target; pure target : CoordM GlobalStatus).Covered A
      (fun _ env' => env'.Covered A) env₁ :=
  wp_bind (wp_transitAndPersist_synced h hcov htarget) fun _ _ ⟨hs, _⟩ =>
    wp_pure target hs.covered

end Move

theorem wp_stopRetry (x : String) (h : env.Quiet t lt) (hcov : t.Covers A lt) :
    (stopRetry x).Covered A (fun _ env' => env'.Covered A) env := by
  unfold stopRetry
  refine wp_bind (wp_load x h hcov) fun s env₁ ⟨h₁, _⟩ => ?_
  dsimp only
  split
  · exact wp_moveTo h₁ hcov _ rfl
  · exact wp_moveTo h₁ hcov _ rfl
  · split
    · exact wp_moveTo h₁ hcov _ rfl
    · exact wp_throw_bind _ (h₁.covered hcov)

theorem wp_startRetry (x : String) (h : env.Quiet t lt) (hcov : t.Covers A lt) :
    (startRetry x).Covered A (fun _ env' => env'.Covered A) env := by
  unfold startRetry
  refine wp_bind (wp_load x h hcov) fun s env₁ ⟨h₁, _⟩ => ?_
  dsimp only
  split
  · exact wp_moveTo h₁ hcov _ rfl
  · exact wp_moveTo h₁ hcov _ rfl
  · exact wp_throw_bind _ (h₁.covered hcov)

theorem wp_changeStatus (x : String) (h : env.Quiet t lt) (hcov : t.Covers A lt) :
    (changeStatus x).Covered A (fun _ env' => env'.Covered A) env := by
  unfold changeStatus
  refine wp_bind (wp_load x h hcov) fun s env₁ ⟨h₁, _⟩ => ?_
  dsimp only
  split
  · exact wp_moveTo h₁ hcov _ rfl
  · split
    · exact wp_moveTo h₁ hcov _ rfl
    · exact wp_throw_bind _ (h₁.covered hcov)

theorem wp_send (c : Config) (x : String) (h : env.Quiet t lt) (hcov : t.Covers A lt) :
    (send c x).Covered A (fun _ env' => env'.Covered A) env := by
  unfold send
  refine wp_bind (wp_load x h hcov) fun s env₁ ⟨h₁, hg⟩ => ?_
  have hs : env₁.CoveredWith A s := ⟨t, lt, h₁, hcov, SessionTable.find?_self hg⟩
  -- a drive of the stored session, or of the session resumed in a retrying status
  have hdrive : ∀ dir (f : GlobalStatus → Bool) {s'} {env'}, env'.CoveredWith A s' →
      (do let r ← drive c dir s'; pure (f r) : CoordM Bool).Covered A
        (fun _ env' => env'.Covered A) env' := fun dir f _ _ hs' =>
    wp_bind (wp_drive c dir hs') fun r _ h' => wp_pure (f r) h'
  dsimp only
  split
  · exact hdrive .commit _ hs
  · split
    · exact wp_bind (wp_transitAndPersist_synced h₁ hcov rfl) fun _ _ ⟨hs', _⟩ =>
        hdrive .commit _ hs'
    · split
      · exact hdrive .rollback _ hs
      · split
        · exact wp_bind (wp_transitAndPersist_synced h₁ hcov rfl) fun _ _ ⟨hs', _⟩ =>
            hdrive .rollback _ hs'
        · exact wp_throw _ (h₁.covered hcov)

theorem wp_deleteBranch (c : Config) (x : String) (branchId : Nat) (h : env.Quiet t lt)
    (hcov : t.Covers A lt) :
    (deleteBranch c x branchId).Covered A (fun _ env' => env'.Covered A) env := by
  unfold deleteBranch
  refine wp_bind (wp_load x h hcov) fun s env₁ ⟨h₁, hg⟩ => ?_
  dsimp only
  split
  · split
    · rename_i b hb
      have hg' := SessionTable.find?_self hg
      obtain ⟨-, ls, hls⟩ := (hcov.covered_of_find? hg).branches b (List.mem_of_find?_eq_some hb)
      refine wp_unlessDeleted c hls h₁ hcov _ fun env₂ h₂ => ?_
      exact wp_bind (wp_removeBranch_released h₂ hcov hg' (GlobalSession.findBranch?_self hb)
        hls) fun _ _ ⟨hs', _⟩ => wp_pure () hs'.covered
    · exact wp_throw _ (h₁.covered hcov)
  · exact wp_throw_bind _ (h₁.covered hcov)

theorem wp_forceDeleteBranch (x : String) (branchId : Nat) (h : env.Quiet t lt)
    (hcov : t.Covers A lt) :
    (forceDeleteBranch x branchId).Covered A (fun _ env' => env'.Covered A) env := by
  unfold forceDeleteBranch
  refine wp_bind (wp_load x h hcov) fun s env₁ ⟨h₁, hg⟩ => ?_
  split
  · rename_i b hb
    exact wp_bind (wp_removeBranch_unlock ⟨t, lt, h₁, hcov, SessionTable.find?_self hg⟩
      (GlobalSession.findBranch?_self hb)) fun _ _ ⟨hs', _⟩ => wp_pure () hs'.covered
  · exact wp_throw _ (h₁.covered hcov)

/-! ## Every operation -/

/-- Every operation of the coordinator that never commits asynchronously nor gives up a
rollback unlocked, run from covered stores, ends in stores covered for the rows asked for
before and by it, whether it fails or not, and at each of its pauses, provided that its
transaction did not ask for the rows it asks for before. -/
theorem wp_program (c : Config) (hasync : c.asyncCommit = false)
    (hunlock : c.rollbackRetryTimeoutUnlock = false) (o : Op) (hcov : env.Covered A)
    (hfresh : ∀ p ∈ o.asks, p ∉ A) :
    (o.program c).Covered (A ++ o.asks) (fun _ env' => env'.Covered (A ++ o.asks)) env := by
  obtain ⟨t, lt, h, hcov'⟩ := hcov
  -- only whether the operation succeeded is kept
  have hdiscard : ∀ {α : Type} {A' : List (String × String)} {m : CoordM α},
      m.Covered A' (fun _ env' => env'.Covered A') env →
      (discard m).Covered A' (fun _ env' => env'.Covered A') env := fun hm =>
    wp_discard hm fun _ _ h' => h'
  -- an operation that asks for no rows covers the rows asked for before
  have hkeep : o.asks = [] → (o.program c).Covered A (fun _ env' => env'.Covered A) env →
      (o.program c).Covered (A ++ o.asks) (fun _ env' => env'.Covered (A ++ o.asks)) env :=
    fun ho hm => by rw [ho, List.append_nil]; exact hm
  cases o with
  | register bt r cl x d k => exact hdiscard (wp_register bt r cl x d k h hcov' hfresh)
  | begin a g n timeout => exact hkeep rfl (hdiscard (wp_begin c a g n timeout h hcov'))
  | report x id st d => exact hkeep rfl (wp_report x id st d h hcov')
  | commit x => exact hkeep rfl (hdiscard (wp_commit c hasync x h hcov'))
  | rollback x => exact hkeep rfl (hdiscard (wp_rollback c x h hcov'))
  | status x => exact hkeep rfl (hdiscard (wp_status x h hcov'))
  | globalReport x st => exact hkeep rfl (hdiscard (wp_globalReport x st h hcov'))
  | lockQuery bt r x k => exact hkeep rfl (hdiscard (wp_lockQuery bt r x k h hcov'))
  | recover => exact hkeep rfl (hdiscard (wp_recover ⟨t, lt, h, hcov'⟩))
  | scan kind => exact hkeep rfl (hdiscard (wp_scanNow c hunlock kind ⟨t, lt, h, hcov'⟩))
  | deleteGlobal x => exact hkeep rfl (wp_deleteGlobal c x h hcov')
  | forceDeleteGlobal x => exact hkeep rfl (wp_forceDeleteGlobal x h hcov')
  | stopRetry x => exact hkeep rfl (hdiscard (wp_stopRetry x h hcov'))
  | startRetry x => exact hkeep rfl (hdiscard (wp_startRetry x h hcov'))
  | send x => exact hkeep rfl (hdiscard (wp_send c x h hcov'))
  | changeStatus x => exact hkeep rfl (hdiscard (wp_changeStatus x h hcov'))
  | deleteBranch x id => exact hkeep rfl (wp_deleteBranch c x id h hcov')
  | forceDeleteBranch x id => exact hkeep rfl (wp_forceDeleteBranch x id h hcov')

end Covering

end CoordM

namespace Env

/-- An operation, run alone to its end, keeps the stores covered, counting the rows it asks
for. -/
theorem Covered.apply_op {A : List (String × String)} {env : Env} (c : Config)
    (hasync : c.asyncCommit = false) (hunlock : c.rollbackRetryTimeoutUnlock = false) (o : Op)
    (hcov : env.Covered A) (hfresh : ∀ p ∈ o.asks, p ∉ A) :
    ((Event.op o).apply c env).Covered (A ++ o.asks) := by
  have hrun := (CoordM.Covering.wp_program c hasync hunlock o hcov hfresh).run
    Env.onlyFrees_refl
  revert hrun
  cases (Steps.run (o.program c).run env).1 with
  | ok _ => exact id
  | error _ => exact id

end Env

end GlobalTxn
