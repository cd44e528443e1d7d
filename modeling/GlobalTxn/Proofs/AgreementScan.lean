import GlobalTxn.Proofs.AgreementOps

/-! # Scans keep phase two going one way

A session scan lists its candidates and runs one handler per candidate, side by side
(`Pool`).  Each handler reloads its session, so the copy it drives is the stored one, in a
status that makes it a candidate:

* the timeout check decides a rollback, persisting the session as rolling back before it
  drives it (`agreeing_rollbackTimedOut`);
* the retry scans drive sessions bound to their direction, or stop them in a retry-timeout
  status reached along edges of the state machine (`agreeing_retryCommit`,
  `agreeing_retryRollback`);
* asynchronous committing drives sessions committing asynchronously.

A handler that sleeps relies on nothing but the agreement and a log that grows, which every
step of the others keeps, so the whole scan keeps the agreement (`agreeing_scanNow`, from
`Pool.guarded_run_none`).
-/

namespace GlobalTxn

open Steps

namespace ScanKind

variable {c : Config} {now : Nat} {s : GlobalSession}

/-- A commit retry candidate that has not reached its outcome is bound to commit. -/
theorem commit_bound_of_retryCommitting (hc : retryCommitting.isCandidate c now s = true)
    (hne : (s.status == .committed) = false) : Direction.commit.bound s.status = true := by
  simp only [isCandidate, Config.isRetryCommitting] at hc
  revert hc hne
  cases s.status <;> simp [Direction.bound, GlobalStatus.isCommitBound]

/-- A rollback retry candidate that has not reached its outcome is bound to rollback. -/
theorem rollback_bound_of_retryRollbacking (hc : retryRollbacking.isCandidate c now s = true)
    (hne : (s.status == .rollbacked || s.status == .timeoutRollbacked) = false) :
    Direction.rollback.bound s.status = true := by
  simp only [isCandidate, Config.isRetryRollbacking] at hc
  revert hc hne
  cases s.status <;> simp [Direction.bound, GlobalStatus.isRollbackBound]

end ScanKind

namespace Env

variable {R : String → Prop} {env env' : Env} {x : String} {st : GlobalStatus}

/-- Changes of what no request reads keep every status on its side. -/
theorem OnSide.frame (h : env.OnSide R x st) (hf : env.Frame env') : env'.OnSide R x st :=
  fun hR d bid hsent => h hR d bid ((hf.sent _ _ _).1 hsent)

end Env

namespace CoordM

variable {c : Config} {m : Nat} {R : String → Prop} {env : Env}

/-! ## Handlers -/

/-- Reloading a candidate reads the stored session, if it is still a candidate. -/
theorem agreeing_reload (kind : ScanKind) (x : String) (h : env.Agrees c m R) :
    (reload c kind x).Agreeing c m R (fun r env' => env' = env ∧ ∀ s, r = some s →
      env.stored s.xid = some s ∧ ∃ now, kind.isCandidate c now s = true) env := by
  unfold reload
  refine guarded_bind Env.stepAgrees_lasting (agreeing_now h) fun now env₁ he => ?_
  subst env₁
  refine guarded_bind Env.stepAgrees_lasting (agreeing_find? x h) fun r env₂ ⟨he, hr⟩ => ?_
  subst env₂
  refine guarded_pure _ ⟨rfl, fun s hs => ?_⟩
  obtain ⟨hfound, hc⟩ := Option.filter_eq_some_iff.1 hs
  rw [← hr] at hfound
  exact ⟨h.stored_self hfound, now, hc⟩

theorem agreeing_driveHandled (dir : Direction) {s : GlobalSession}
    (hs : env.Drives c m R dir s) :
    (driveHandled c dir s).Agreeing c m R (fun _ env' => env'.Agrees c m R) env :=
  guarded_bind Env.stepAgrees_lasting (guarded_drive dir hs) fun _ _ h => guarded_pure true h

/-- The timeout check decides a rollback: the session is persisted as rolling back before it
is driven. -/
theorem agreeing_rollbackTimedOut (x : String) (h : env.Agrees c m R) :
    (rollbackTimedOut c x).Agreeing c m R (fun _ env' => env'.Agrees c m R) env := by
  unfold rollbackTimedOut
  refine guarded_bind Env.stepAgrees_lasting (agreeing_now h) fun now env₁ he => ?_
  subst env₁
  refine guarded_bind Env.stepAgrees_lasting (agreeing_reload .timeoutCheck x h)
    fun r env₂ ⟨he, hr⟩ => ?_
  subst env₂
  cases r with
  | none => exact guarded_pure false h
  | some s =>
    -- both rollback statuses are bound to rollback
    have hbound : Direction.rollback.bound (if c.timeoutRollbackGrace ≤ now - s.deadline then
        GlobalStatus.timeoutRollbacking else .rollbacking) = true := by
      split <;> rfl
    exact guarded_bind Env.stepAgrees_lasting
      (guarded_transitAndPersist s _ h (h.onSide_stored (hr s rfl).1))
      fun _ _ ⟨h₂, hs₂, _, hst₂⟩ => agreeing_driveHandled .rollback ⟨h₂, hs₂, hst₂ ▸ hbound⟩

/-- Stopping a session in a retry-timeout status, from its stored status or after one more
edge of the state machine. -/
theorem agreeing_stopExhausted {s : GlobalSession} (h : env.Agrees c m R)
    (hs : env.stored s.xid = some s) (cond : Bool) (first target : GlobalStatus) :
    (do
      let s ← if cond then transit s first else pure s
      let _ ← transitAndPersist s target
      pure true : CoordM Bool).Agreeing c m R (fun _ env' => env'.Agrees c m R) env := by
  have hstop : ∀ s₁ : GlobalSession, env.OnSide R s₁.xid s₁.status →
      (do let _ ← transitAndPersist s₁ target; pure true : CoordM Bool).Agreeing c m R
        (fun _ env' => env'.Agrees c m R) env := fun s₁ hside =>
    guarded_bind Env.stepAgrees_lasting (guarded_transitAndPersist s₁ target h hside)
      fun _ _ h₂ => guarded_pure true h₂.1
  cases cond
  · exact hstop s (h.onSide_stored hs)
  · exact guarded_bind Env.stepAgrees_lasting (agreeing_transit s first h (h.onSide_stored hs))
      fun s₁ env₁ ⟨he, hx, hst, _, hside⟩ => by
        subst env₁
        exact hstop s₁ (by rw [hx, hst]; exact hside)

/-- A commit retry ends a committed session, stops an exhausted one, or drives one bound to
commit. -/
theorem agreeing_retryCommit (x : String) (h : env.Agrees c m R) :
    (retryCommit c x).Agreeing c m R (fun _ env' => env'.Agrees c m R) env := by
  unfold retryCommit
  refine guarded_bind Env.stepAgrees_lasting (agreeing_reload .retryCommitting x h)
    fun r env₁ ⟨he, hr⟩ => ?_
  subst env₁
  cases r with
  | none => exact guarded_pure false h
  | some s =>
    obtain ⟨hs, now, hc⟩ := hr s rfl
    dsimp only
    split
    · exact guarded_bind Env.stepAgrees_lasting (agreeing_endSession s h)
        fun _ _ h' => guarded_pure true h'
    · rename_i hne
      refine guarded_bind Env.stepAgrees_lasting (agreeing_now h) fun _ env₂ he => ?_
      subst env₂
      split
      · exact agreeing_stopExhausted h hs _ _ _
      · exact agreeing_driveHandled .commit
          ⟨h, hs, ScanKind.commit_bound_of_retryCommitting hc (Bool.eq_false_iff.2 hne)⟩

/-- An asynchronous commit releases the session's rows and drives it. -/
theorem agreeing_commitAsync (x : String) (h : env.Agrees c m R) :
    (commitAsync c x).Agreeing c m R (fun _ env' => env'.Agrees c m R) env := by
  unfold commitAsync
  refine guarded_bind Env.stepAgrees_lasting (agreeing_reload .asyncCommitting x h)
    fun r env₁ ⟨he, hr⟩ => ?_
  subst env₁
  cases r with
  | none => exact guarded_pure false h
  | some s =>
    obtain ⟨hs, now, hc⟩ := hr s rfl
    have hbound : Direction.commit.bound s.status = true := by
      simp only [ScanKind.isCandidate, beq_iff_eq] at hc
      rw [hc]
      rfl
    refine guarded_bind Env.stepAgrees_lasting (agreeing_releaseSession s h) fun _ env₂ hf => ?_
    exact agreeing_driveHandled .commit ⟨h.frame hf, (hf.stored _).trans hs, hbound⟩

/-- A rollback retry ends a rolled-back session, stops an exhausted one unlocked, or drives one
bound to rollback. -/
theorem agreeing_retryRollback (x : String) (h : env.Agrees c m R) :
    (retryRollback c x).Agreeing c m R (fun _ env' => env'.Agrees c m R) env := by
  unfold retryRollback
  refine guarded_bind Env.stepAgrees_lasting (agreeing_reload .retryRollbacking x h)
    fun r env₁ ⟨he, hr⟩ => ?_
  subst env₁
  cases r with
  | none => exact guarded_pure false h
  | some s =>
    obtain ⟨hs, now, hc⟩ := hr s rfl
    dsimp only
    split
    · exact guarded_bind Env.stepAgrees_lasting (agreeing_endSession s h)
        fun _ _ h' => guarded_pure true h'
    · rename_i hne
      refine guarded_bind Env.stepAgrees_lasting (agreeing_now h) fun _ env₂ he => ?_
      subst env₂
      split
      · -- the unlocked stop: the rows go, then the session moves, all on its side
        have hstop : ∀ s₁ : GlobalSession, env.OnSide R s₁.xid s₁.status →
            ∀ status : GlobalStatus, (do
              locking (LockManager.releaseSession lockStore s₁)
              let _ ← transitAndPersist s₁ status
              pure true : CoordM Bool).Agreeing c m R (fun _ env' => env'.Agrees c m R) env := by
          intro s₁ hside status
          refine guarded_bind Env.stepAgrees_lasting (agreeing_releaseSession s₁ h)
            fun _ env₃ hf => ?_
          exact guarded_bind Env.stepAgrees_lasting
            (guarded_transitAndPersist s₁ status (h.frame hf) (hside.frame hf))
            fun _ _ h₄ => guarded_pure true h₄.1
        split
        · exact guarded_bind Env.stepAgrees_lasting
            (agreeing_transit s _ h (h.onSide_stored hs))
            fun s₁ env₃ ⟨he, hx, hst, _, hside⟩ => by
              subst env₃
              exact hstop s₁ (by rw [hx, hst]; exact hside) _
        · exact hstop s (h.onSide_stored hs) _
      · exact agreeing_driveHandled .rollback
          ⟨h, hs, ScanKind.rollback_bound_of_retryRollbacking hc (Bool.eq_false_iff.2 hne)⟩

theorem agreeing_handler (kind : ScanKind) (x : String) (h : env.Agrees c m R) :
    (handler c kind x).Agreeing c m R (fun _ env' => env'.Agrees c m R) env := by
  cases kind with
  | timeoutCheck => exact agreeing_rollbackTimedOut x h
  | retryCommitting => exact agreeing_retryCommit x h
  | asyncCommitting => exact agreeing_commitAsync x h
  | retryRollbacking => exact agreeing_retryRollback x h
  | undoLogDelete => exact guarded_pure false h

/-- Holding a latch changes nothing a request or a store call reads, whatever the program
under it does. -/
theorem agreeing_holding {α : Type} (x : String) {p : CoordM α}
    (hp : p.Agreeing c m R (fun _ env' => env'.Agrees c m R) env) :
    (holding x p).Agreeing c m R (fun _ env' => env'.Agrees c m R) env := by
  -- letting go of the latch
  have hunlatch : ∀ env₁ : Env, env₁.Agrees c m R →
      (unlatch x).Agreeing c m R (fun _ env' => env'.Agrees c m R) env₁ := by
    intro env₁ h₁
    obtain ⟨t, lt, hq⟩ := h₁.quiet
    exact (guarded_unlatch stepAgrees_frame_nil x hq).mono fun r _ hr => match r, hr with
      | .ok _, hf => h₁.frame hf
      | .error _, hr => hr
  unfold holding
  refine guarded_bind Env.stepAgrees_lasting
    (guarded_tryCatch Env.stepAgrees_lasting hp fun e env₁ h₁ =>
      guarded_bind Env.stepAgrees_lasting (hunlatch env₁ h₁) fun _ _ h₂ => guarded_throw e h₂)
    fun a env₁ h₁ => ?_
  exact guarded_bind Env.stepAgrees_lasting (hunlatch env₁ h₁) fun _ _ h₂ => guarded_pure a h₂

theorem agreeing_underLatch (x : String) {p : CoordM Bool}
    (hp : ∀ env, env.Agrees c m R → p.Agreeing c m R (fun _ env' => env'.Agrees c m R) env)
    (h : env.Agrees c m R) :
    (underLatch x p).Agreeing c m R (fun _ env' => env'.Agrees c m R) env := by
  obtain ⟨t, lt, hq⟩ := h.quiet
  unfold underLatch
  refine guarded_bind Env.stepAgrees_lasting
    (guarded_tryLatch stepAgrees_frame_nil x hq) fun _ env₁ hf => ?_
  split
  · exact agreeing_holding x (hp env₁ (h.frame hf))
  · exact guarded_pure false (h.frame hf)

/-! ## Scans -/

/-- Every handler of a session scan, latched on its session, is guarded from every state
where the agreement holds. -/
theorem guardedRuns_underLatch_handler (kind : ScanKind) (x : String) (s : Env) :
    Pool.GuardedRuns (Env.Agrees c m R) Env.Grows Env.StepAgrees
      (underLatch x (handler c kind x)) s := by
  intro s' h' _
  exact (agreeing_underLatch x (fun _ h => agreeing_handler kind x h) h').mono
    fun r _ hr => match r, hr with
      | .ok _, h => h
      | .error _, h => h

theorem agreeing_candidates (kind : ScanKind) (h : env.Agrees c m R) :
    (candidates c kind).Agreeing c m R (fun _ env' => env' = env) env := by
  unfold candidates
  exact guarded_bind Env.stepAgrees_lasting (agreeing_now h) fun _ _ he₁ =>
    guarded_bind Env.stepAgrees_lasting (agreeing_findBy _ (he₁ ▸ h)) fun _ _ he₂ =>
      guarded_pure _ (he₂.trans he₁)

theorem agreeing_scanPool (kind : ScanKind) (h : env.Agrees c m R) :
    (scanPool c kind).Agreeing c m R (fun p env' => env'.Agrees c m R ∧
      ∀ s, p.GuardedSettles (Env.Agrees c m R) Env.Grows Env.StepAgrees s) env := by
  unfold scanPool
  refine guarded_bind Env.stepAgrees_lasting (agreeing_candidates kind h) fun xids env₁ he =>
    guarded_pure _ ⟨he ▸ h, fun s => ⟨fun hd hmem s' => ?_, nofun, nofun⟩⟩
  obtain ⟨x, -, rfl⟩ := List.mem_map.1 hmem
  exact guardedRuns_underLatch_handler kind x s'

theorem agreeing_scan (kind : ScanKind) (h : env.Agrees c m R) :
    (scan c kind none).Agreeing c m R (fun _ env' => env'.Agrees c m R) env := by
  unfold scan
  rw [Option.mapM_none]
  refine guarded_bind Env.stepAgrees_lasting (P := fun k env₁ => k = none ∧ env₁ = env)
    (guarded_pure none ⟨rfl, rfl⟩) fun _ env₁ ⟨hk, he⟩ => ?_
  subst hk env₁
  split
  · exact guarded_bind Env.stepAgrees_lasting (guarded_purge _ h) fun _ _ h₂ => guarded_pure _ h₂
  · refine guarded_bind Env.stepAgrees_lasting (agreeing_scanPool _ h) fun p env₂ ⟨h₂, hp⟩ => ?_
    exact Pool.guarded_run_none Env.grows_refl Env.grows_trans Env.stepAgrees_lasting
      (fun _ _ _ hs => hs.le) _ p env₂ (hp env₂) h₂

theorem agreeing_scanNow (kind : ScanKind) (h : env.Agrees c m R) :
    (scanNow c kind).Agreeing c m R (fun _ env' => env'.Agrees c m R) env := by
  unfold scanNow
  refine guarded_bind Env.stepAgrees_lasting (agreeing_scan kind h) fun r env₁ h₁ => ?_
  split
  · exact guarded_pure _ h₁
  · exact guarded_pure 0 h₁

end CoordM

end GlobalTxn
