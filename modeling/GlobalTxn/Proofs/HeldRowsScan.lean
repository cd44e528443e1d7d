import GlobalTxn.Proofs.HeldRowsDrive

/-! # Scans keep every held row accounted for

A session scan lists its candidates and runs one handler per candidate, side by side
(`Pool`).  Each handler reloads its session, so the copy it drives is the stored one, and
either ends it, drives it, or stops it in a retry-timeout status:

* a rollback retry that gives up unlocked releases the session's rows before it persists a
  status that keeps none (`wp_retryRollback`);
* an asynchronous commit releases the session's rows, which are none already, before it drives
  the session (`wp_commitAsync`);
* every other stop persists a status that keeps row locks.

Every step of a handler frees rows or leaves them (`always_handler`), so a handler that sleeps
finds on waking a state whose rows are accounted for and none of whose rows are new; with
`Pool.wp_run_none` the whole scan keeps the rows accounted for (`wp_scanNow`).
-/

namespace GlobalTxn

open Steps

namespace CoordM

variable {env : Env} {t : SessionTable} {lt : LockTable}

/-! ## Handlers -/

/-- Reloading a candidate reads the stored session, if it is still a candidate. -/
theorem wp_reload (c : Config) (kind : ScanKind) (x : String) (h : env.At t lt)
    (hacc : t.Accounts lt) :
    (reload c kind x).Accounted
      (fun r env' => env'.At t lt ∧ ∀ s, r = some s → t.find? s.xid = some s) env := by
  unfold reload
  refine wp_bind (wp_now h) fun now env₁ h₁ => ?_
  refine wp_bind (wp_find? x h₁ fun _ _ h' => h'.accounted hacc) fun r env₂ ⟨hr, h₂⟩ => ?_
  refine wp_pure _ ⟨h₂, fun s hs => ?_⟩
  obtain ⟨hfound, -⟩ := Option.filter_eq_some_iff.1 hs
  rw [hr] at hfound
  rw [(SessionTable.find?_eq_some hfound).2]
  exact hfound

theorem wp_driveHandled (c : Config) (dir : Direction) {s : GlobalSession} (hs : env.Synced s) :
    (driveHandled c dir s).Accounted (fun _ env' => env'.Accounted) env :=
  wp_bind (wp_drive c dir hs) fun _ _ h => wp_pure true h

theorem wp_rollbackTimedOut (c : Config) (x : String) (hacc : env.Accounted) :
    (rollbackTimedOut c x).Accounted (fun _ env' => env'.Accounted) env := by
  obtain ⟨t, lt, h, hacc⟩ := hacc
  unfold rollbackTimedOut
  refine wp_bind (wp_now h) fun now env₁ h₁ => ?_
  refine wp_bind (wp_reload c .timeoutCheck x h₁ hacc) fun r env₂ ⟨h₂, _⟩ => ?_
  cases r with
  | none => exact wp_pure false (h₂.accounted hacc)
  | some s =>
    -- both rollback statuses keep row locks
    have hhold : (if c.timeoutRollbackGrace ≤ now - s.deadline then GlobalStatus.timeoutRollbacking
        else .rollbacking).holdsRowLocks = true := by split <;> rfl
    exact wp_bind (wp_transitAndPersist_synced h₂ hacc (.inl hhold)) fun _ _ ⟨hs, _⟩ =>
      wp_driveHandled c .rollback hs

theorem wp_retryCommit (c : Config) (x : String) (hacc : env.Accounted) :
    (retryCommit c x).Accounted (fun _ env' => env'.Accounted) env := by
  obtain ⟨t, lt, h, hacc⟩ := hacc
  unfold retryCommit
  refine wp_bind (wp_reload c .retryCommitting x h hacc) fun r env₁ ⟨h₁, hr⟩ => ?_
  cases r with
  | none => exact wp_pure false (h₁.accounted hacc)
  | some s =>
    have hg := hr s rfl
    dsimp only
    split
    · exact wp_bind (wp_endSession ⟨t, lt, h₁, hacc, hg⟩) fun _ _ h' => wp_pure true h'
    · refine wp_bind (wp_now h₁) fun _ env₂ h₂ => ?_
      split
      · -- the stop: `CommitRetryTimeout` keeps row locks, whatever copy is persisted
        have hstop : ∀ s₁ env₃, env₃.At t lt →
            (do let _ ← transitAndPersist s₁ .commitRetryTimeout; pure true : CoordM Bool).Accounted
              (fun _ env' => env'.Accounted) env₃ := fun s₁ env₃ h₃ =>
          wp_bind (wp_transitAndPersist_synced h₃ hacc (.inl rfl)) fun _ _ ⟨hs, _⟩ =>
            wp_pure true hs.accounted
        split
        · exact wp_bind (wp_transit s _ h₂ fun _ _ h' => h'.accounted hacc)
            fun s₁ env₃ ⟨h₃, _⟩ => hstop s₁ env₃ h₃
        · exact hstop s env₂ h₂
      · exact wp_driveHandled c .commit ⟨t, lt, h₂, hacc, hg⟩

theorem wp_commitAsync (c : Config) (x : String) (hacc : env.Accounted) :
    (commitAsync c x).Accounted (fun _ env' => env'.Accounted) env := by
  obtain ⟨t, lt, h, hacc⟩ := hacc
  unfold commitAsync
  refine wp_bind (wp_reload c .asyncCommitting x h hacc) fun r env₁ ⟨h₁, hr⟩ => ?_
  cases r with
  | none => exact wp_pure false (h₁.accounted hacc)
  | some s =>
    have hg := hr s rfl
    obtain ⟨ls, hls⟩ := hacc.collect_session (SessionTable.find?_eq_some hg).1
    refine wp_bind (P := fun _ env₂ => env₂.At t (lt.release ls))
      (wp_adapt (wp_releaseSession hls h₁ fun _ h' => h')) fun _ env₂ h₂ => ?_
    exact wp_driveHandled c .commit ⟨t, _, h₂, hacc.release ls, hg⟩

theorem wp_retryRollback (c : Config) (x : String) (hacc : env.Accounted) :
    (retryRollback c x).Accounted (fun _ env' => env'.Accounted) env := by
  obtain ⟨t, lt, h, hacc⟩ := hacc
  unfold retryRollback
  refine wp_bind (wp_reload c .retryRollbacking x h hacc) fun r env₁ ⟨h₁, hr⟩ => ?_
  cases r with
  | none => exact wp_pure false (h₁.accounted hacc)
  | some s =>
    have hg := hr s rfl
    dsimp only
    split
    · exact wp_bind (wp_endSession ⟨t, lt, h₁, hacc, hg⟩) fun _ _ h' => wp_pure true h'
    · refine wp_bind (wp_now h₁) fun _ env₂ h₂ => ?_
      split
      · -- the unlocked stop: the session's rows are released before a status that keeps
        -- none is persisted
        have hstop : ∀ (s₁ : GlobalSession) env₃, env₃.At t lt → s₁.xid = s.xid →
            s₁.branches = s.branches → ∀ status : GlobalStatus,
            (do
              locking (LockManager.releaseSession lockStore s₁)
              let _ ← transitAndPersist s₁ status
              pure true : CoordM Bool).Accounted (fun _ env' => env'.Accounted) env₃ := by
          intro s₁ env₃ h₃ hx hb status
          obtain ⟨ls, hls⟩ := hacc.collect_session (SessionTable.find?_eq_some hg).1
          rw [← hb] at hls
          refine wp_bind (P := fun _ env₄ => env₄.At t (lt.release ls))
            (wp_adapt (wp_releaseSession hls h₃ fun _ h' => h')) fun _ env₄ h₄ => ?_
          have hfree := hacc.release_session hg (hb ▸ hls)
          refine wp_bind (wp_transitAndPersist_synced h₄ (hacc.release ls)
            (.inr (hx ▸ hfree))) fun _ _ ⟨hs, _⟩ => wp_pure true hs.accounted
        split
        · exact wp_bind (wp_transit s _ h₂ fun _ _ h' => h'.accounted hacc)
            fun s₁ env₃ ⟨h₃, hx, hb, _⟩ => hstop s₁ env₃ h₃ hx hb _
        · exact hstop s env₂ h₂ rfl rfl _
      · exact wp_driveHandled c .rollback ⟨t, lt, h₂, hacc, hg⟩

theorem wp_handler (c : Config) (kind : ScanKind) (x : String) (hacc : env.Accounted) :
    (handler c kind x).Accounted (fun _ env' => env'.Accounted) env := by
  cases kind with
  | timeoutCheck => exact wp_rollbackTimedOut c x hacc
  | retryCommitting => exact wp_retryCommit c x hacc
  | asyncCommitting => exact wp_commitAsync c x hacc
  | retryRollbacking => exact wp_retryRollback c x hacc
  | undoLogDelete => exact wp_pure false hacc

/-- Holding a latch changes no table, whatever the program under it does. -/
theorem wp_holding {α : Type} (x : String) {m : CoordM α}
    (hm : m.Accounted (fun _ env' => env'.Accounted) env) :
    (holding x m).Accounted (fun _ env' => env'.Accounted) env := by
  unfold holding
  refine wp_bind (wp_tryCatch hm fun e env₁ ⟨t, lt, h₁, hacc⟩ => ?_)
    fun a env₁ ⟨t, lt, h₁, hacc⟩ => ?_
  · exact wp_bind (wp_unlatch x h₁) fun _ _ h' => wp_throw e (h'.accounted hacc)
  · exact wp_bind (wp_unlatch x h₁) fun _ _ h' => wp_pure a (h'.accounted hacc)

theorem wp_underLatch (x : String) {m : CoordM Bool}
    (hm : ∀ env, env.Accounted → m.Accounted (fun _ env' => env'.Accounted) env)
    (hacc : env.Accounted) :
    (underLatch x m).Accounted (fun _ env' => env'.Accounted) env := by
  obtain ⟨t, lt, h, hacc⟩ := hacc
  unfold underLatch
  refine wp_bind (wp_tryLatch x h) fun _ env₁ h₁ => ?_
  split
  · exact wp_holding x (hm env₁ (h₁.accounted hacc))
  · exact wp_pure false (h₁.accounted hacc)

/-! ## Every step of a handler frees rows or leaves them -/

theorem always_reload (c : Config) (kind : ScanKind) (x : String) :
    (reload c kind x).run.Always Env.OnlyFrees :=
  always_bind always_now fun _ => always_bind always_storeRead fun _ => always_pure _

theorem always_driveHandled (c : Config) (dir : Direction) (s : GlobalSession) :
    (driveHandled c dir s).run.Always Env.OnlyFrees :=
  always_bind (always_drive c dir s) fun _ => always_pure true

theorem always_handler (c : Config) (kind : ScanKind) (x : String) :
    (handler c kind x).run.Always Env.OnlyFrees := by
  cases kind with
  | timeoutCheck =>
    unfold handler rollbackTimedOut
    refine always_bind always_now fun _ => always_bind (always_reload c _ x) fun _ => ?_
    split
    · exact always_bind (always_transitAndPersist _ _) fun s => always_driveHandled c _ s
    · exact always_pure false
  | retryCommitting =>
    unfold handler retryCommit
    refine always_bind (always_reload c _ x) fun _ => ?_
    split
    · split
      · exact always_bind (always_endSession _) fun _ => always_pure true
      · refine always_bind always_now fun _ => ?_
        split
        · have hstop : ∀ s₁, (do let _ ← transitAndPersist s₁ .commitRetryTimeout; pure true :
              CoordM Bool).run.Always Env.OnlyFrees := fun s₁ =>
            always_bind (always_transitAndPersist s₁ _) fun _ => always_pure true
          dsimp only
          split
          · exact always_bind (always_transit _ _) hstop
          · exact always_bind (always_pure _) hstop
        · exact always_driveHandled c _ _
    · exact always_pure false
  | asyncCommitting =>
    unfold handler commitAsync
    refine always_bind (always_reload c _ x) fun _ => ?_
    split
    · exact always_bind (always_adapt (always_releaseSession _)) fun _ =>
        always_driveHandled c _ _
    · exact always_pure false
  | retryRollbacking =>
    unfold handler retryRollback
    refine always_bind (always_reload c _ x) fun _ => ?_
    split
    · split
      · exact always_bind (always_endSession _) fun _ => always_pure true
      · refine always_bind always_now fun _ => ?_
        split
        · have hstop : ∀ (s₁ : GlobalSession) (status : GlobalStatus), (do
              locking (LockManager.releaseSession lockStore s₁)
              let _ ← transitAndPersist s₁ status
              pure true : CoordM Bool).run.Always Env.OnlyFrees := fun s₁ status =>
            always_bind (always_adapt (always_releaseSession s₁)) fun _ =>
              always_bind (always_transitAndPersist s₁ status) fun _ => always_pure true
          dsimp only
          split
          · exact always_bind (always_transit _ _) fun s₁ => hstop s₁ _
          · exact always_bind (always_pure _) fun s₁ => hstop s₁ _
        · exact always_driveHandled c _ _
    · exact always_pure false
  | undoLogDelete => exact always_pure false

theorem always_underLatch (x : String) {m : CoordM Bool} (hm : m.run.Always Env.OnlyFrees) :
    (underLatch x m).run.Always Env.OnlyFrees := by
  unfold underLatch holding
  refine always_bind (always_tryLatch x) fun _ => ?_
  split
  · exact always_bind (always_tryCatch hm fun _ => always_bind (always_unlatch x) fun _ =>
      always_throw _) fun _ => always_bind (always_unlatch x) fun _ => always_pure _
  · exact always_pure false

/-! ## Scans -/

/-- Every handler of a session scan, latched on its session, runs: each of its steps frees
rows or leaves them, and from every state whose rows are accounted for it ends in one. -/
theorem runs_underLatch_handler (c : Config) (kind : ScanKind) (x : String) (s : Env) :
    Pool.Runs Env.Accounted Env.OnlyFrees (underLatch x (handler c kind x)) s := by
  refine ⟨always_underLatch x (always_handler c kind x), fun s' hacc _ => ?_⟩
  refine (wp_underLatch x (fun _ h => wp_handler c kind x h) hacc).mono fun r _ h => ?_
  cases r with
  | ok _ => exact h
  | error _ => exact h

theorem wp_candidates (c : Config) (kind : ScanKind) (h : env.At t lt) (hacc : t.Accounts lt) :
    (candidates c kind).Accounted (fun _ env' => env'.At t lt) env := by
  unfold candidates
  exact wp_bind (wp_now h) fun _ _ h₁ =>
    wp_bind (wp_findBy _ h₁ fun _ _ h' => h'.accounted hacc) fun _ _ ⟨_, h₂⟩ => wp_pure _ h₂

theorem wp_scanPool (c : Config) (kind : ScanKind) (h : env.At t lt) (hacc : t.Accounts lt) :
    (scanPool c kind).Accounted
      (fun p env' => env'.At t lt ∧ ∀ s, p.Settles Env.Accounted Env.OnlyFrees s) env := by
  unfold scanPool
  refine wp_bind (wp_candidates c kind h hacc) fun xids env₁ h₁ =>
    wp_pure _ ⟨h₁, fun s => ⟨fun m hm s' => ?_, nofun, nofun⟩⟩
  obtain ⟨x, -, rfl⟩ := List.mem_map.1 hm
  exact runs_underLatch_handler c kind x s'

/-- Asking participants to purge undo logs changes no table. -/
theorem wp_purge (days : Nat) (h : env.At t lt) (hacc : t.Accounts lt) :
    (purge days).Accounted (fun _ env' => env'.At t lt) env := by
  unfold purge
  refine wp_bind (P := fun _ env₁ => env₁.At t lt) (wp_modifyGet_frame h ?_ fun _ h' => h')
    fun failed env₁ h₁ => ?_
  · dsimp only
    split
    · exact ⟨rfl, rfl, rfl⟩
    · split <;> exact ⟨rfl, rfl, rfl⟩
  · split
    · exact wp_throw _ (h₁.accounted hacc)
    · exact wp_pure () h₁

theorem wp_scan (c : Config) (kind : ScanKind) (hacc : env.Accounted) :
    (scan c kind none).Accounted (fun _ env' => env'.Accounted) env := by
  obtain ⟨t, lt, h, hacc⟩ := hacc
  unfold scan
  rw [Option.mapM_none]
  refine wp_bind (P := fun k env₁ => k = none ∧ env₁.At t lt) (wp_pure none ⟨rfl, h⟩)
    fun _ env₁ ⟨hk, h₁⟩ => ?_
  subst hk
  split
  · exact wp_bind (wp_purge _ h₁ hacc) fun _ _ h₂ => wp_pure _ (h₂.accounted hacc)
  · refine wp_bind (wp_scanPool c _ h₁ hacc) fun p env₂ ⟨h₂, hp⟩ => ?_
    exact Pool.wp_run_none Env.onlyFrees_refl Env.onlyFrees_trans _ p env₂ (hp env₂)
      (h₂.accounted hacc)

theorem wp_scanNow (c : Config) (kind : ScanKind) (hacc : env.Accounted) :
    (scanNow c kind).Accounted (fun _ env' => env'.Accounted) env := by
  unfold scanNow
  refine wp_bind (wp_scan c kind hacc) fun r env₁ h₁ => ?_
  split
  · exact wp_pure _ h₁
  · exact wp_pure 0 h₁

end CoordM

end GlobalTxn
