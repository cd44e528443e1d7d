import GlobalTxn.Proofs.DriveWalk
import GlobalTxn.Proofs.AgreementScan

/-! # Each handler of a scan keeps to its candidate

The handler of a session scan, latched on the xid `y` of a candidate `g`, reloads the session,
and then ends it, stops it in a retry-timeout status, or drives it.  Every step it takes keeps
every other xid untouched (`Env.Own y`), and it ends having handled `g`, leaving under `y` what
`ScanKind.Leaves` says, whatever the other handlers do meanwhile, as long as they leave `y`
untouched.  What it leaves is said from the start of the scan (`Env.Moved`): the requests about
`y` it adds, the rows it frees and what stays stored of `y`.  A drive ends as
`CoordM.DriveEnd` says, and, when the branch ids of the session are distinct, sends, frees and
stores what the walk of its branches does (`Env.Drove`, from `CoordM.own_walk`).  A handler
that frees the rows of its session (`ScanKind.frees`) leaves none held for `y`.

A handler pauses at most once, to wait for a silent participant (`pausesAtMost_underLatch`).
Together, these are what `Pool.Handles` asks of the handlers of a scan
(`handles_underLatch_handler`).
-/

namespace GlobalTxn

open Steps

namespace Config

/-- The status a timed-out session is rolled back in: a timeout rollback once it is overdue by
the grace span, a plain rollback before. -/
def timeoutStatus (c : Config) (now : Nat) (g : GlobalSession) : GlobalStatus :=
  if c.timeoutRollbackGrace ≤ now - g.deadline then .timeoutRollbacking else .rollbacking

/-- The status a rollback retry stops in once its span is used up. -/
def rollbackRetryTimeout (g : GlobalSession) : GlobalStatus :=
  if g.status.isTimeoutRollback then .timeoutRollbackRetryTimeout else .rollbackRetryTimeout

end Config

namespace Env

variable {dir : Direction} {now : Nat} {y : String} {s : GlobalSession} {freed₀ : List RowLock}
  {env₀ env₁ env env' : Env} {after : Option GlobalSession}

/-- A drive in direction `dir` of the session `s` of `y`, after the rows `freed₀` were freed,
took `y` from `env₀` to `env`: it ended as `DriveEnd` says, and, where the branch ids of `s` are
distinct, it sent the requests, freed the rows and left stored what a drive run alone does, for
some answers of the participants. -/
structure Drove (dir : Direction) (now : Nat) (y : String) (s : GlobalSession)
    (freed₀ : List RowLock) (env₀ env : Env) : Prop where
  ends : ∃ st, CoordM.DriveEnd dir s.status st (env.stored y)
  walks : s.branchIds.Nodup → ∃ p, env₀.Moved y (dir.sent p (dir.arrange s.branches))
    (freed₀ ++ dir.freed p (dir.arrange s.branches)) (dir.stored p now s (dir.arrange s.branches))
    env

theorem Drove.trans_nil (h : env₀.Drove dir now y s freed₀ env)
    (hm : env.Moved y [] [] (env.stored y) env') : env₀.Drove dir now y s freed₀ env' :=
  ⟨hm.stored ▸ h.ends, fun hids => (h.walks hids).imp fun _ hp => hp.trans_nil hm⟩

theorem Drove.nil_trans (hm : env₀.Moved y [] [] after env₁)
    (h : env₁.Drove dir now y s freed₀ env) : env₀.Drove dir now y s freed₀ env :=
  ⟨h.ends, fun hids => (h.walks hids).imp fun _ hp => hm.nil_trans hp⟩

end Env

namespace ScanKind

/-- What the handler of a scan of kind `kind` does to its candidate `g` of xid `y`, found when
the clock read `now`, from `env₀` to `env`.  The timeout check persists it in its timeout status
and drives its rollback.  A commit retry ends it, rows and all, once committed, stops it once its
retry span is used up, and drives its commit otherwise.  An asynchronous commit frees all its
rows and drives its commit.  A rollback retry ends it once rolled back, stops it with all its
rows freed once its retry span is used up if the settings say so, and drives its rollback
otherwise. -/
def Leaves (c : Config) (now : Nat) : ScanKind → String → GlobalSession → Env → Env → Prop
  | timeoutCheck, y, g, env₀, env =>
    env₀.Drove .rollback now y { g with status := c.timeoutStatus now g, gmtUpdated := now } [] env
  | retryCommitting, y, g, env₀, env =>
    if g.status = .committed then env₀.Moved y [] (g.branches.flatMap Branch.rowLocks) none env
    else if Config.isExhausted c.maxCommitRetryTimeout now g then
      env₀.Moved y [] [] (some { g with status := .commitRetryTimeout, gmtUpdated := now }) env
    else env₀.Drove .commit now y g [] env
  | asyncCommitting, y, g, env₀, env =>
    env₀.Drove .commit now y g (g.branches.flatMap Branch.rowLocks) env
  | retryRollbacking, y, g, env₀, env =>
    if g.status = .rollbacked ∨ g.status = .timeoutRollbacked then
      env₀.Moved y [] (g.branches.flatMap Branch.rowLocks) none env
    else if Config.isExhausted c.maxRollbackRetryTimeout now g && c.rollbackRetryTimeoutUnlock then
      env₀.Moved y [] (g.branches.flatMap Branch.rowLocks)
        (some { g with status := Config.rollbackRetryTimeout g, gmtUpdated := now }) env
    else env₀.Drove .rollback now y g [] env
  | undoLogDelete, _, _, _, _ => True

section Leaves

variable {c : Config} {now : Nat} {kind : ScanKind} {y : String} {g : GlobalSession}
  {env₀ env₁ env env' : Env} {after : Option GlobalSession}

-- Every arm but the undo-log one is a `Moved` or a `Drove`, and both go on through steps that
-- move nothing of `y`.
theorem Leaves.trans_nil (h : kind.Leaves c now y g env₀ env)
    (hm : env.Moved y [] [] (env.stored y) env') : kind.Leaves c now y g env₀ env' := by
  cases kind <;> simp only [Leaves] at h ⊢ <;> (try split_ifs at h ⊢) <;> exact h.trans_nil hm

theorem Leaves.nil_trans (hm : env₀.Moved y [] [] after env₁)
    (h : kind.Leaves c now y g env₁ env) : kind.Leaves c now y g env₀ env := by
  cases kind <;> simp only [Leaves] at h ⊢ <;> (try split_ifs at h ⊢) <;> first
    | exact Env.Moved.nil_trans hm h
    | exact Env.Drove.nil_trans hm h

end Leaves

/-- Whether the handler releases every row of its candidate before it is done: an asynchronous
commit always, a rollback retry when it stops unlocked. -/
def frees (c : Config) (now : Nat) : ScanKind → GlobalSession → Bool
  | asyncCommitting, _ => true
  | retryRollbacking, g =>
    !(g.status == .rollbacked || g.status == .timeoutRollbacked) &&
      (Config.isExhausted c.maxRollbackRetryTimeout now g && c.rollbackRetryTimeoutUnlock)
  | _, _ => false

end ScanKind

namespace ScanKind

variable {c : Config} {now : Nat} {g : GlobalSession}

theorem begin_of_timeoutCheck (hc : timeoutCheck.isCandidate c now g = true) :
    g.status = .begin := by
  simp only [isCandidate, Bool.and_eq_true, beq_iff_eq] at hc
  exact hc.1

/-- A commit retry candidate that is not committed yet is retrying or committing. -/
theorem retrying_of_retryCommitting (hc : retryCommitting.isCandidate c now g = true)
    (hne : g.status ≠ .committed) : g.status = .commitRetrying ∨ g.status = .committing := by
  have hs := mem_statuses_of_isCandidate hc
  simp only [statuses, List.mem_cons, List.not_mem_nil, or_false] at hs
  rcases hs with h | h | h
  · exact .inl h
  · exact .inr h
  · exact absurd h hne

/-- A rollback retry candidate that is not rolled back yet is bound to rollback. -/
theorem retrying_of_retryRollbacking (hc : retryRollbacking.isCandidate c now g = true)
    (hne : ¬(g.status = .rollbacked ∨ g.status = .timeoutRollbacked)) :
    g.status = .rollbackRetrying ∨ g.status = .timeoutRollbackRetrying ∨
      g.status = .timeoutRollbacking ∨ g.status = .rollbacking := by
  have hs := mem_statuses_of_isCandidate hc
  simp only [statuses, List.mem_cons, List.not_mem_nil, or_false] at hs
  rcases hs with h | h | h | h | h | h
  · exact .inl h
  · exact .inr (.inl h)
  · exact .inr (.inr (.inl h))
  · exact .inr (.inr (.inr h))
  · exact absurd (.inl h) hne
  · exact absurd (.inr h) hne

end ScanKind

namespace Env

variable {env env' : Env} {y : String} {g : GlobalSession}

/-- No row is held for `y`. -/
def Unlocked (y : String) (env : Env) : Prop := ∀ key h, env.holder? key = some h → h.xid ≠ y

/-- Every row held for `y` is named by a branch of `g`. -/
def Named (y : String) (g : GlobalSession) (env : Env) : Prop :=
  ∀ key h, env.holder? key = some h → h.xid = y → ∃ b ∈ g.branches, b.Names (key, h)

theorem Unlocked.of_freesOnly (hu : env.Unlocked y) (hf : env.FreesOnly y env') :
    env'.Unlocked y :=
  fun key h hh hy => hu key h (hf key h hh hy) hy

theorem Named.of_freesOnly (hn : env.Named y g) (hf : env.FreesOnly y env') : env'.Named y g :=
  fun key h hh hy => hn key h (hf key h hh hy) hy

/-- In a store whose rows are accounted for, every row held for `y` is named by a branch of the
session stored under `y`. -/
theorem named_of_accounts {t : SessionTable} {lt : LockTable} (hq : env.Quiet t lt)
    (hacc : t.Accounts lt) (hg : t.find? y = some g) : env.Named y g := by
  intro key h hh hy
  rw [holder?_of_locks hq.locks] at hh
  obtain ⟨g', hg', hb⟩ := hacc.named _ (LockTable.mem_of_owner?_eq_some hh)
  rw [hy, hg] at hg'
  cases hg'
  exact hb

/-- Releasing the rows of all branches of `g` leaves none held for `y`, when `g` names every
row held for `y`. -/
theorem unlocked_release {lt : LockTable} (hl : env.locks = .table lt) (hn : env.Named y g)
    {ls : List RowLock} (hls : g.branches.flatMapM LockManager.collect = .ok ls) :
    ({ env with locks := .table (lt.release ls) } : Env).Unlocked y := by
  intro key h hh hy
  rw [holder?_of_locks rfl, LockTable.owner?_release_eq_some] at hh
  obtain ⟨hown, hfree⟩ := hh
  rw [← holder?_of_locks hl] at hown
  obtain ⟨b, hb, hbx, hbid, lb, hlb, l, hl', hkey⟩ := hn key h hown hy
  have hlx := LockManager.ownedBy_collect hlb l hl'
  have hfree' := hfree l (LockManager.mem_flatMapM_collect hls b hb lb hlb l hl') hkey
  simp [RowLock.isHeldByBranch, hlx.1, hlx.2, hbx, hbid] at hfree'

/-- The handler of a scan of kind `kind` is done with its candidate `g` of xid `y`: from `env₀`
to `env` it did to `y` what `Leaves` says, and left no row held for `y` if it frees them. -/
structure Handled (c : Config) (now : Nat) (kind : ScanKind) (y : String) (g : GlobalSession)
    (env₀ env : Env) : Prop where
  leaves : kind.Leaves c now y g env₀ env
  unlocked : kind.frees c now g = true → env.Unlocked y

section Handled

variable {c : Config} {now : Nat} {kind : ScanKind} {env₀ env₁ : Env}
  {after : Option GlobalSession}

theorem Handled.trans_nil (h : env₀.Handled c now kind y g env)
    (hm : env.Moved y [] [] (env.stored y) env') : env₀.Handled c now kind y g env' :=
  ⟨h.leaves.trans_nil hm, fun hfree => (h.unlocked hfree).of_freesOnly hm.freesOnly⟩

theorem Handled.nil_trans (hm : env₀.Moved y [] [] after env₁)
    (h : env₁.Handled c now kind y g env) : env₀.Handled c now kind y g env :=
  ⟨ScanKind.Leaves.nil_trans hm h.leaves, h.unlocked⟩

end Handled

theorem Found.withLocks {now : Nat} (hf : env.Found now y g) (lt : LockTable) :
    ({ env with locks := .table lt } : Env).Found now y g :=
  ⟨hf.calm.withLocks lt, hf.stored, hf.branches⟩

/-- The session of `y`, put back in the store over the stored one, is the one found. -/
theorem Found.put {now : Nat} {t : SessionTable} {lt : LockTable} {s : GlobalSession}
    (hf : env.Found now y g) (hq : env.Quiet t lt) (hx : s.xid = y)
    (hb : ∀ b ∈ s.branches, b.xid = y ∧ ∃ ls, LockManager.collect b = .ok ls) :
    ({ env with sessions := .table (t.put s) } : Env).Found now y s :=
  ⟨hf.calm.withSessions _, stored_put_self hq hf.stored hx, hb⟩

end Env

namespace Steps

variable {σ α : Type}

theorem Brief.pausesAtMost {k : Nat} : ∀ {p : Steps σ α}, p.Brief → p.PausesAtMost k
  | done _, _ => trivial
  | step _ n, hp => fun s => by
    obtain ⟨a, ha⟩ := hp s
    rw [ha]
    trivial
  | pause _ _ _, hp => hp.elim

/-- What follows a program that never pauses has all the pauses. -/
theorem pausesAtMost_bind_zero {ε β : Type} {k : Nat} {m : ExceptT ε (Steps σ) α}
    {f : α → ExceptT ε (Steps σ) β} (hm : m.run.PausesAtMost 0)
    (hf : ∀ a, (f a).run.PausesAtMost k) : (m >>= f).run.PausesAtMost k := by
  have h := pausesAtMost_bind hm hf
  rwa [Nat.zero_add] at h

end Steps

namespace CoordM

/-! ## Pauses

Only a wait for a silent participant pauses; a drive waits at most once, as it stops at the
branch it waited for. -/

section Pauses

variable {k : Nat}

theorem pausesAtMost_now : now.run.PausesAtMost k := fun _ => trivial

theorem pausesAtMost_store {α : Type} (X : EnvM StoreError α) :
    (store (EnvM.atomic X)).run.PausesAtMost k :=
  Brief.pausesAtMost (brief_adapt_atomic _ _)

theorem pausesAtMost_locking_releaseSession (s : GlobalSession) :
    (locking (LockManager.releaseSession lockStore s)).run.PausesAtMost k := by
  refine pausesAtMost_adapt (pausesAtMost_bind_zero (pausesAtMost_liftExcept _) fun ls => ?_)
  split
  · exact pausesAtMost_pure _
  · exact Brief.pausesAtMost (brief_atomic _)

theorem pausesAtMost_transit (s : GlobalSession) (target : GlobalStatus) :
    (transit s target).run.PausesAtMost k := by
  unfold transit
  refine pausesAtMost_bind_zero pausesAtMost_now fun n => ?_
  split
  · exact pausesAtMost_pure _
  · exact pausesAtMost_throw _

theorem pausesAtMost_transitAndPersist (s : GlobalSession) (target : GlobalStatus) :
    (transitAndPersist s target).run.PausesAtMost k :=
  pausesAtMost_bind_zero (pausesAtMost_transit s target) fun _ => pausesAtMost_store _

theorem pausesAtMost_endSession (s : GlobalSession) : (endSession s).run.PausesAtMost k :=
  pausesAtMost_bind_zero (pausesAtMost_locking_releaseSession s) fun _ => pausesAtMost_store _

theorem pausesAtMost_removeBranch (s : GlobalSession) (b : Branch) (unlock : Bool) :
    (removeBranch s b unlock).run.PausesAtMost k := by
  have hrest : (do
      let _ ← store (sessionStore.removeBranch s.xid b.branchId)
      pure (s.removeBranch b.branchId) : CoordM GlobalSession).run.PausesAtMost k :=
    pausesAtMost_bind_zero (pausesAtMost_store _) fun _ => pausesAtMost_pure _
  unfold removeBranch
  dsimp only
  split
  · refine pausesAtMost_bind_zero (pausesAtMost_adapt ?_) fun _ => hrest
    refine pausesAtMost_bind_zero (pausesAtMost_liftExcept _) fun ls => ?_
    split
    · exact pausesAtMost_pure _
    · exact Brief.pausesAtMost (brief_atomic _)
  · exact hrest

theorem pausesAtMost_suspend (s : GlobalSession) (b : Branch) (rep : Option BranchStatus)
    (st : GlobalStatus) : (suspend s b rep st).run.PausesAtMost k := by
  have hrest : (do let s ← transit s st; let _ ← store (sessionStore.update s); pure st :
      CoordM GlobalStatus).run.PausesAtMost k :=
    pausesAtMost_bind_zero (pausesAtMost_transit s st) fun _ =>
      pausesAtMost_bind_zero (pausesAtMost_store _) fun _ => pausesAtMost_pure _
  unfold suspend
  dsimp only
  split
  · split
    · exact pausesAtMost_bind_zero (pausesAtMost_store _) fun _ => hrest
    · exact hrest
  · exact hrest

theorem pausesAtMost_requestPhaseTwo (a : Action) (b : Branch) (done : BranchStatus) :
    (requestPhaseTwo a b done).run.PausesAtMost k :=
  fun _ => trivial

theorem pausesAtMost_setTimer (ms : Nat) : (setTimer ms).run.PausesAtMost k :=
  fun _ _ => trivial

/-- A wait pauses once. -/
theorem pausesAtMost_sleep (ms : Nat) : (sleep ms).run.PausesAtMost 1 := by
  unfold sleep
  split
  · exact pausesAtMost_pure _
  · exact pausesAtMost_bind_zero (pausesAtMost_setTimer ms) fun _ => pausesAtMost_lift trivial

variable (c : Config) (dir : Direction)

/-- A drive pauses at most once: after a wait it stops at the branch it waited for. -/
theorem pausesAtMost_go : ∀ (ids : List Nat) (s : GlobalSession),
    (drive.go c dir s ids).run.PausesAtMost 1
  | [], s => by
    unfold drive.go
    exact pausesAtMost_bind_zero (pausesAtMost_transit _ _) fun _ =>
      pausesAtMost_bind_zero (pausesAtMost_store _) fun _ =>
        pausesAtMost_bind_zero (pausesAtMost_endSession _) fun _ => pausesAtMost_pure _
  | id :: rest, s => by
    unfold drive.go
    split
    · exact pausesAtMost_go rest s
    · rename_i b _
      split
      · exact pausesAtMost_bind_zero (pausesAtMost_removeBranch _ _ _) fun s' =>
          pausesAtMost_go rest s'
      · refine pausesAtMost_bind_zero (pausesAtMost_requestPhaseTwo _ _ _) fun a => ?_
        cases a with
        | answered r =>
          dsimp only
          cases dir.outcome b r with
          | done => exact pausesAtMost_bind_zero (pausesAtMost_removeBranch _ _ _) fun s' =>
              pausesAtMost_go rest s'
          | retryable => exact pausesAtMost_suspend _ _ _ _
          | unretryable => exact pausesAtMost_suspend _ _ _ _
        | failed e => exact pausesAtMost_suspend _ _ _ _
        | silent =>
          have h := pausesAtMost_bind (pausesAtMost_sleep c.branchTimeout) fun _ =>
            pausesAtMost_suspend (k := 0) s b none (dir.retrying s.status)
          exact h

theorem pausesAtMost_driveHandled (s : GlobalSession) :
    (driveHandled c dir s).run.PausesAtMost 1 := by
  unfold driveHandled drive
  exact pausesAtMost_bind (k := 0) (pausesAtMost_go c dir _ s) fun _ => pausesAtMost_pure true

theorem pausesAtMost_reload (kind : ScanKind) (x : String) :
    (reload c kind x).run.PausesAtMost k :=
  pausesAtMost_bind_zero pausesAtMost_now fun _ =>
    pausesAtMost_bind_zero (pausesAtMost_store _) fun _ => pausesAtMost_pure _

/-- A handler pauses at most once, in the drive of its session. -/
theorem pausesAtMost_handler : ∀ (kind : ScanKind) (x : String),
    (handler c kind x).run.PausesAtMost 1
  | .timeoutCheck, x => by
    unfold handler rollbackTimedOut
    refine pausesAtMost_bind_zero pausesAtMost_now fun _ =>
      pausesAtMost_bind_zero (pausesAtMost_reload c _ x) fun _ => ?_
    split
    · exact pausesAtMost_bind_zero (pausesAtMost_transitAndPersist _ _) fun s =>
        pausesAtMost_driveHandled c _ s
    · exact pausesAtMost_pure _
  | .retryCommitting, x => by
    unfold handler retryCommit
    refine pausesAtMost_bind_zero (pausesAtMost_reload c _ x) fun _ => ?_
    split
    · split
      · exact pausesAtMost_bind_zero (pausesAtMost_endSession _) fun _ => pausesAtMost_pure _
      · refine pausesAtMost_bind_zero pausesAtMost_now fun _ => ?_
        split
        · -- the stop, after one more edge or none
          have hstop : ∀ s, (do let _ ← transitAndPersist s .commitRetryTimeout; pure true :
              CoordM Bool).run.PausesAtMost 1 := fun _ =>
            pausesAtMost_bind_zero (pausesAtMost_transitAndPersist _ _) fun _ => pausesAtMost_pure _
          dsimp only
          split
          · exact pausesAtMost_bind_zero (pausesAtMost_transit _ _) hstop
          · exact pausesAtMost_bind_zero (pausesAtMost_pure _) hstop
        · exact pausesAtMost_driveHandled c _ _
    · exact pausesAtMost_pure _
  | .asyncCommitting, x => by
    unfold handler commitAsync
    refine pausesAtMost_bind_zero (pausesAtMost_reload c _ x) fun _ => ?_
    split
    · exact pausesAtMost_bind_zero (pausesAtMost_locking_releaseSession _) fun _ =>
        pausesAtMost_driveHandled c _ _
    · exact pausesAtMost_pure _
  | .retryRollbacking, x => by
    unfold handler retryRollback
    refine pausesAtMost_bind_zero (pausesAtMost_reload c _ x) fun _ => ?_
    split
    · split
      · exact pausesAtMost_bind_zero (pausesAtMost_endSession _) fun _ => pausesAtMost_pure _
      · refine pausesAtMost_bind_zero pausesAtMost_now fun _ => ?_
        split
        · have hstop : ∀ (s : GlobalSession) (status : GlobalStatus), (do
              locking (LockManager.releaseSession lockStore s)
              let _ ← transitAndPersist s status
              pure true : CoordM Bool).run.PausesAtMost 1 := fun _ _ =>
            pausesAtMost_bind_zero (pausesAtMost_locking_releaseSession _) fun _ =>
              pausesAtMost_bind_zero (pausesAtMost_transitAndPersist _ _) fun _ => pausesAtMost_pure _
          dsimp only
          split
          · exact pausesAtMost_bind_zero (pausesAtMost_transit _ _) fun s => hstop s _
          · exact pausesAtMost_bind_zero (pausesAtMost_pure _) fun s => hstop s _
        · exact pausesAtMost_driveHandled c _ _
    · exact pausesAtMost_pure _
  | .undoLogDelete, _ => pausesAtMost_pure _

/-- Taking and letting go of a latch never pauses. -/
theorem pausesAtMost_underLatch (x : String) {m : CoordM Bool} (hm : m.run.PausesAtMost 1) :
    (underLatch x m).run.PausesAtMost 1 := by
  have hunlatch : (unlatch x).run.PausesAtMost 0 := fun _ => trivial
  unfold underLatch holding
  refine pausesAtMost_bind_zero (fun _ => trivial) fun _ => ?_
  split
  · exact pausesAtMost_bind (k := 0) (pausesAtMost_tryCatch (k := 0) hm fun _ =>
      pausesAtMost_bind_zero hunlatch fun _ => pausesAtMost_throw _) fun _ =>
        pausesAtMost_bind_zero hunlatch fun _ => pausesAtMost_pure _
  · exact pausesAtMost_pure _

end Pauses

/-! ## Handlers -/

section Handlers

variable (c : Config) {inv : Env → Prop} {le : Env → Env → Prop} {err : CoordError → Env → Prop}
  {now : Nat} {y : String} {g s : GlobalSession} {env : Env}

/-- Reloading a candidate finds it, still a candidate. -/
theorem own_reload {kind : ScanKind} (hf : env.Found now y g)
    (hc : kind.isCandidate c now g = true) :
    (reload c kind y).run.Guarded inv le (Env.Own y) (Ends err fun r env' =>
      r = some g ∧ env' = env) env := by
  obtain ⟨⟨t, lt, hq⟩, hnow⟩ := hf.calm
  unfold reload
  refine guarded_bind (Env.own_lasting y) own_now fun n env₁ h₁ => ?_
  obtain ⟨rfl, rfl⟩ := h₁
  refine guarded_bind (Env.own_lasting y) (own_find? hq y) fun r env₂ h₂ => ?_
  obtain ⟨rfl, rfl⟩ := h₂
  rw [hf.find? hq, hnow]
  exact guarded_pure _ ⟨Option.filter_eq_some_iff.2 ⟨rfl, hc⟩, rfl⟩

/-- Persisting a copy of the session of `y` in status `st`: it goes on with the stored
branches, is the session found, and is all that moves of `y`. -/
theorem own_transitAndPersist {st : GlobalStatus} (hf : env.Found now y g) (hx : s.xid = y)
    (hst : s.status.canTransitTo st = true) :
    (transitAndPersist s st).run.Guarded inv le (Env.Own y) (Ends err fun s' env' =>
      s' = { s with status := st, gmtUpdated := now, branches := g.branches } ∧
        env'.Found now y s' ∧ env.Moved y [] [] (some s') env') env := by
  obtain ⟨⟨t, lt, hq⟩, hnow⟩ := hf.calm
  unfold transitAndPersist
  refine guarded_bind (Env.own_lasting y) (own_transit hst) fun s₁ env₁ h₁ => ?_
  obtain ⟨rfl, rfl⟩ := h₁
  have hfind : t.find? s.xid = some g := by rw [hx]; exact hf.find? hq
  refine (own_update (s := { s with status := st, gmtUpdated := _ }) hq hfind hx).mono
    (Ends.imp (fun _ _ h => h) fun s₂ env₂ h₂ => ?_)
  obtain ⟨rfl, rfl⟩ := h₂
  exact ⟨by rw [hnow], hf.put hq hx hf.branches, Env.moved_put hq hf.stored hx⟩

/-- The timeout check persists its candidate in the timeout status and drives its rollback. -/
theorem own_rollbackTimedOut (hf : env.Found now y g)
    (hc : ScanKind.timeoutCheck.isCandidate c now g = true) :
    (rollbackTimedOut c y).run.Guarded (Env.Calm now) (Env.Untouched y) (Env.Own y)
      (Ends (fun _ _ => False) fun handled env' =>
        handled = true ∧ env'.Calm now ∧ env.Handled c now .timeoutCheck y g env') env := by
  have hnow := hf.calm.2
  -- either status the check persists is reached from `begin`, and starts a rollback drive
  have hbound : Direction.rollback.bound (c.timeoutStatus now g) = true := by
    unfold Config.timeoutStatus
    split <;> rfl
  have hst : g.status.canTransitTo (c.timeoutStatus now g) = true := by
    rw [ScanKind.begin_of_timeoutCheck hc]
    unfold Config.timeoutStatus
    split <;> rfl
  unfold rollbackTimedOut
  refine guarded_bind (Env.own_lasting y) own_now fun n env₁ h₁ => ?_
  obtain ⟨rfl, rfl⟩ := h₁
  refine guarded_bind (Env.own_lasting y) (own_reload c hf hc) fun r env₂ h₂ => ?_
  obtain ⟨rfl, rfl⟩ := h₂
  dsimp only
  rw [hnow]
  refine guarded_bind (Env.own_lasting y) (own_transitAndPersist hf hf.xid hst)
    fun s₁ env₃ h₃ => ?_
  obtain ⟨rfl, hf₃, hm₃⟩ := h₃
  refine (own_driveHandled_walks c .rollback ⟨hf₃, hbound⟩).mono
    (Ends.imp (fun _ _ h => h) fun handled env₄ h₄ => ?_)
  obtain ⟨rfl, hc₄, hend, -, hwalk⟩ := h₄
  exact ⟨rfl, hc₄, Env.Drove.nil_trans hm₃ ⟨hend, hwalk⟩, fun h => by cases h⟩

/-- A commit retry ends its committed candidate, stops it in `commitRetryTimeout` once its retry
span is used up, or drives its commit. -/
theorem own_retryCommit (hf : env.Found now y g)
    (hc : ScanKind.retryCommitting.isCandidate c now g = true) :
    (retryCommit c y).run.Guarded (Env.Calm now) (Env.Untouched y) (Env.Own y)
      (Ends (fun _ _ => False) fun handled env' =>
        handled = true ∧ env'.Calm now ∧ env.Handled c now .retryCommitting y g env') env := by
  have hnow := hf.calm.2
  have hkeep : ScanKind.retryCommitting.frees c now g = true → False := fun h => by cases h
  unfold retryCommit
  refine guarded_bind (Env.own_lasting y) (own_reload c hf hc) fun r env₁ h₁ => ?_
  obtain ⟨rfl, h₁⟩ := h₁
  subst env₁
  dsimp only
  split
  · -- a committed candidate is ended, with what rows its branches hold
    rename_i hcomm
    refine guarded_bind (Env.own_lasting y) (own_endSession hf.calm hf.xid hf.branches)
      fun _ env₂ h₂ => ?_
    obtain ⟨hc₂, ls, hls, hm₂⟩ := h₂
    refine guarded_pure true ⟨rfl, hc₂, ?_, fun h => (hkeep h).elim⟩
    simp only [ScanKind.Leaves, if_pos (eq_of_beq hcomm)]
    rwa [LockManager.flatMap_rowLocks_of_flatMapM hls]
  · rename_i hne
    have hne' : g.status ≠ .committed := fun h => hne (by rw [h]; rfl)
    refine guarded_bind (Env.own_lasting y) own_now fun n env₂ h₂ => ?_
    obtain ⟨rfl, h₂⟩ := h₂
    subst env₂
    rw [hnow]
    split
    · rename_i hex
      -- the stop, in `commitRetryTimeout`, from a copy one edge further or from the stored one
      have hstop : ∀ s₁ : GlobalSession, s₁.xid = y →
          s₁.status.canTransitTo .commitRetryTimeout = true →
          { s₁ with status := .commitRetryTimeout, gmtUpdated := now, branches := g.branches } =
            { g with status := .commitRetryTimeout, gmtUpdated := now } →
          (do let _ ← transitAndPersist s₁ .commitRetryTimeout; pure true : CoordM Bool).run.Guarded
            (Env.Calm now) (Env.Untouched y) (Env.Own y) (Ends (fun _ _ => False)
              fun handled env' => handled = true ∧ env'.Calm now ∧
                env.Handled c now .retryCommitting y g env') env := by
        intro s₁ hx hst hs₁
        refine guarded_bind (Env.own_lasting y) (own_transitAndPersist hf hx hst)
          fun s₂ env₃ h₃ => ?_
        obtain ⟨rfl, hf₃, hm₃⟩ := h₃
        refine guarded_pure true ⟨rfl, hf₃.calm, ?_, fun h => (hkeep h).elim⟩
        simp only [ScanKind.Leaves, if_neg hne', if_pos hex]
        rwa [hs₁] at hm₃
      split
      · rename_i hcm
        refine guarded_bind (Env.own_lasting y) (own_transit (by rw [eq_of_beq hcm]; rfl))
          fun s₁ env₃ h₃ => ?_
        obtain ⟨rfl, rfl⟩ := h₃
        exact hstop _ (by exact hf.xid) (by rfl) (by rfl)
      · rename_i hcm
        have hretry : g.status = .commitRetrying :=
          (ScanKind.retrying_of_retryCommitting hc hne').resolve_right fun h => hcm (by rw [h]; rfl)
        refine guarded_bind (Env.own_lasting y) (P := fun s₁ e => s₁ = g ∧ e = env)
          (guarded_pure g ⟨rfl, rfl⟩) fun s₁ env₃ h₃ => ?_
        obtain ⟨rfl, rfl⟩ := h₃
        exact hstop _ (by exact hf.xid) (by rw [hretry]; rfl) (by rfl)
    · rename_i hex
      refine (own_driveHandled_walks c .commit ⟨hf, ScanKind.commit_bound_of_retryCommitting hc
        (Bool.eq_false_iff.2 hne)⟩).mono (Ends.imp (fun _ _ h => h) fun handled env₃ h₃ => ?_)
      obtain ⟨rfl, hc₃, hend, -, hwalk⟩ := h₃
      refine ⟨rfl, hc₃, ?_, fun h => (hkeep h).elim⟩
      simp only [ScanKind.Leaves, if_neg hne', if_neg hex]
      exact ⟨hend, hwalk⟩

/-- An asynchronous commit releases every row of its candidate and drives its commit. -/
theorem own_commitAsync (hf : env.Found now y g) (hn : env.Named y g)
    (hc : ScanKind.asyncCommitting.isCandidate c now g = true) :
    (commitAsync c y).run.Guarded (Env.Calm now) (Env.Untouched y) (Env.Own y)
      (Ends (fun _ _ => False) fun handled env' =>
        handled = true ∧ env'.Calm now ∧ env.Handled c now .asyncCommitting y g env') env := by
  obtain ⟨⟨t, lt, hq⟩, _⟩ := hf.calm
  have hbound : Direction.commit.bound g.status = true := by
    simp only [ScanKind.isCandidate, beq_iff_eq] at hc
    rw [hc]
    rfl
  obtain ⟨ls, hls, hy⟩ := LockManager.exists_flatMapM_collect_of_xid hf.branches
  unfold commitAsync
  refine guarded_bind (Env.own_lasting y) (own_reload c hf hc) fun r env₁ h₁ => ?_
  obtain ⟨rfl, rfl⟩ := h₁
  dsimp only
  refine guarded_bind (Env.own_lasting y)
    (guarded_adapt (Env.own_lasting y) (own_releaseSession hq hls hy)) fun _ env₂ h₂ => ?_
  subst h₂
  -- no row is left for `y`, and the drive only frees more
  have hun := Env.unlocked_release hq.locks hn hls
  refine (own_driveHandled_walks c .commit ⟨hf.withLocks _, hbound⟩).mono
    (Ends.imp (fun _ _ h => h) fun handled env₃ h₃ => ?_)
  obtain ⟨rfl, hc₃, hend, hfree, hwalk⟩ := h₃
  refine ⟨rfl, hc₃, ⟨hend, fun hids => ?_⟩, fun _ => hun.of_freesOnly hfree⟩
  obtain ⟨p, hp⟩ := hwalk hids
  refine ⟨p, ?_⟩
  have hm := (Env.moved_release (y := y) hq.locks ls).trans hp
  rwa [List.nil_append, ← LockManager.flatMap_rowLocks_of_flatMapM hls] at hm

/-- A rollback retry ends its rolled back candidate, stops it unlocked in a retry-timeout
status once its retry span is used up if the settings say so, or drives its rollback. -/
theorem own_retryRollback (hf : env.Found now y g) (hn : env.Named y g)
    (hc : ScanKind.retryRollbacking.isCandidate c now g = true) :
    (retryRollback c y).run.Guarded (Env.Calm now) (Env.Untouched y) (Env.Own y)
      (Ends (fun _ _ => False) fun handled env' =>
        handled = true ∧ env'.Calm now ∧ env.Handled c now .retryRollbacking y g env') env := by
  have hnow := hf.calm.2
  unfold retryRollback
  refine guarded_bind (Env.own_lasting y) (own_reload c hf hc) fun r env₁ h₁ => ?_
  obtain ⟨rfl, h₁⟩ := h₁
  subst env₁
  dsimp only
  split
  · -- a rolled back candidate is ended, with what rows its branches hold
    rename_i hdone
    have hdone' : g.status = .rollbacked ∨ g.status = .timeoutRollbacked := by simpa using hdone
    refine guarded_bind (Env.own_lasting y) (own_endSession hf.calm hf.xid hf.branches)
      fun _ env₂ h₂ => ?_
    obtain ⟨hc₂, ls, hls, hm₂⟩ := h₂
    refine guarded_pure true ⟨rfl, hc₂, ?_, fun h => ?_⟩
    · simp only [ScanKind.Leaves, if_pos hdone']
      rwa [LockManager.flatMap_rowLocks_of_flatMapM hls]
    · simp [ScanKind.frees, hdone] at h
  · rename_i hne
    have hne' : ¬(g.status = .rollbacked ∨ g.status = .timeoutRollbacked) := fun h => hne (by
      rcases h with h | h <;> simp [h])
    have hs := ScanKind.retrying_of_retryRollbacking hc hne'
    refine guarded_bind (Env.own_lasting y) own_now fun n env₂ h₂ => ?_
    obtain ⟨rfl, h₂⟩ := h₂
    subst env₂
    rw [hnow]
    split
    · rename_i hex
      -- the unlocked stop: the rows go first, then the session stops, from a copy one edge
      -- further or from the stored one
      have hstop : ∀ s₁ : GlobalSession, s₁.xid = y → s₁.branches = g.branches →
          s₁.status.canTransitTo (Config.rollbackRetryTimeout g) = true →
          { s₁ with status := Config.rollbackRetryTimeout g, gmtUpdated := now,
                    branches := g.branches } =
            { g with status := Config.rollbackRetryTimeout g, gmtUpdated := now } →
          (do
            locking (LockManager.releaseSession lockStore s₁)
            let _ ← transitAndPersist s₁ (Config.rollbackRetryTimeout g)
            pure true : CoordM Bool).run.Guarded (Env.Calm now) (Env.Untouched y) (Env.Own y)
              (Ends (fun _ _ => False) fun handled env' => handled = true ∧ env'.Calm now ∧
                env.Handled c now .retryRollbacking y g env') env := by
        intro s₁ hx hb hst hs₁
        obtain ⟨⟨t, lt, hq⟩, _⟩ := hf.calm
        obtain ⟨ls, hls, hy⟩ := LockManager.exists_flatMapM_collect_of_xid hf.branches
        refine guarded_bind (Env.own_lasting y) (guarded_adapt (Env.own_lasting y)
          (own_releaseSession hq (by rw [hb]; exact hls) hy)) fun _ env₃ h₃ => ?_
        subst h₃
        have hun := Env.unlocked_release hq.locks hn hls
        refine guarded_bind (Env.own_lasting y) (own_transitAndPersist (hf.withLocks _) hx hst)
          fun s₂ env₄ h₄ => ?_
        obtain ⟨rfl, hf₄, hm₄⟩ := h₄
        refine guarded_pure true
          ⟨rfl, hf₄.calm, ?_, fun _ => hun.of_freesOnly hm₄.freesOnly⟩
        simp only [ScanKind.Leaves, if_neg hne', if_pos hex]
        have hm := (Env.moved_release (y := y) hq.locks ls).trans hm₄
        rwa [List.append_nil, List.append_nil, hs₁, ← LockManager.flatMap_rowLocks_of_flatMapM hls]
          at hm
      split
      · rename_i hrb
        have hrb' : g.status = .rollbacking := eq_of_beq hrb
        refine guarded_bind (Env.own_lasting y) (own_transit (by rw [hrb']; rfl))
          fun s₁ env₃ h₃ => ?_
        obtain ⟨rfl, rfl⟩ := h₃
        refine hstop _ (by exact hf.xid) (by rfl) ?_ (by rfl)
        unfold Config.rollbackRetryTimeout
        rw [hrb']
        rfl
      · rename_i hrb
        have hrb' : g.status ≠ .rollbacking := fun h => hrb (by rw [h]; rfl)
        refine guarded_bind (Env.own_lasting y) (P := fun s₁ e => s₁ = g ∧ e = env)
          (guarded_pure g ⟨rfl, rfl⟩) fun s₁ env₃ h₃ => ?_
        obtain ⟨rfl, rfl⟩ := h₃
        refine hstop _ (by exact hf.xid) (by rfl) ?_ (by rfl)
        unfold Config.rollbackRetryTimeout
        rcases hs with h | h | h | h <;> rw [h]
        · rfl
        · rfl
        · rfl
        · exact absurd h hrb'
    · rename_i hex
      refine (own_driveHandled_walks c .rollback ⟨hf, ScanKind.rollback_bound_of_retryRollbacking hc
        (Bool.eq_false_iff.2 hne)⟩).mono (Ends.imp (fun _ _ h => h) fun handled env₃ h₃ => ?_)
      obtain ⟨rfl, hc₃, hend, -, hwalk⟩ := h₃
      refine ⟨rfl, hc₃, ?_, fun h => ?_⟩
      · simp only [ScanKind.Leaves, if_neg hne', if_neg hex]
        exact ⟨hend, hwalk⟩
      · simp [ScanKind.frees, Bool.eq_false_iff.2 hex] at h

/-- The handler of a candidate of a session scan. -/
theorem own_handler {kind : ScanKind} (hf : env.Found now y g) (hn : env.Named y g)
    (hc : kind.isCandidate c now g = true) :
    (handler c kind y).run.Guarded (Env.Calm now) (Env.Untouched y) (Env.Own y)
      (Ends (fun _ _ => False) fun handled env' =>
        handled = true ∧ env'.Calm now ∧ env.Handled c now kind y g env') env := by
  cases kind with
  | timeoutCheck => exact own_rollbackTimedOut c hf hc
  | retryCommitting => exact own_retryCommit c hf hc
  | asyncCommitting => exact own_commitAsync c hf hn hc
  | retryRollbacking => exact own_retryRollback c hf hn hc
  | undoLogDelete => cases hc

/-- Under a latch it takes, a handler keeps to `y` as it does alone; letting go of the latch
changes nothing else. -/
theorem own_underLatch {m : CoordM Bool} {Q : Env → Prop} (hy : y ∉ env.latched)
    (hQ : ∀ e, Q e → Q { e with latched := e.latched.erase y })
    (hm : m.run.Guarded (Env.Calm now) (Env.Untouched y) (Env.Own y)
      (Ends (fun _ _ => False) fun handled env' => handled = true ∧ env'.Calm now ∧ Q env')
      { env with latched := env.latched ++ [y] }) :
    (underLatch y m).run.Guarded (Env.Calm now) (Env.Untouched y) (Env.Own y)
      (Ends (fun _ _ => False) fun handled env' => handled = true ∧ env'.Calm now ∧ Q env')
      env := by
  unfold underLatch holding
  refine guarded_bind (Env.own_lasting y) (own_tryLatch hy) fun b env₁ h₁ => ?_
  obtain ⟨rfl, rfl⟩ := h₁
  split
  · refine guarded_bind (Env.own_lasting y)
      (guarded_tryCatch (Env.own_lasting y) hm fun _ _ h => h.elim) fun a env₂ h₂ => ?_
    obtain ⟨rfl, hc₂, hq₂⟩ := h₂
    refine guarded_bind (Env.own_lasting y) own_unlatch fun _ env₃ h₃ => ?_
    subst h₃
    exact guarded_pure true ⟨rfl, hc₂.of_eq rfl rfl rfl rfl, hQ _ hq₂⟩
  · -- the latch was free, and is taken
    rename_i h
    exact absurd rfl h

/-- The handler of a candidate `g` of xid `y`, latched on `y`, is what a scan needs of it: it
pauses at most once, and from wherever the others left `y` untouched, it keeps every other
xid untouched and ends having handled `g` since `env`. -/
theorem handles_underLatch_handler {kind : ScanKind} {t : SessionTable}
    (hg : t.find? y = some g) (hf : env.Found now y g) (hn : env.Named y g)
    (hl : y ∉ env.latched) (hc : kind.isCandidate c now g = true) :
    Pool.Handles Env.Untouched (Env.Calm now)
      (fun x e => ∃ g, t.find? x = some g ∧ env.Handled c now kind x g e) y 1
      (underLatch y (handler c kind y)) env := by
  refine ⟨pausesAtMost_underLatch y (pausesAtMost_handler c kind y), fun env₁ hc₁ hu₁ => ?_⟩
  -- what the others left of `y` keeps `g` found, naming the rows of `y`, and `y` unlatched
  have hf₁ := hf.of_untouched hc₁ hu₁
  have hn₁ := hn.of_freesOnly hu₁.freesOnly
  have hl₁ : y ∉ env₁.latched := fun h => hl (hu₁.latched.1 h)
  -- nothing of `y` moved from the start of the scan to the handler's start under its latch
  have hf₂ : ({ env₁ with latched := env₁.latched ++ [y] } : Env).Found now y g :=
    hf₁.of_eq rfl rfl rfl rfl
  have hn₂ : ({ env₁ with latched := env₁.latched ++ [y] } : Env).Named y g :=
    hn₁.of_freesOnly (Env.FreesOnly.of_locks rfl)
  have hm₁ : env.Moved y [] [] (env.stored y) { env₁ with latched := env₁.latched ++ [y] } :=
    hu₁.moved.trans_nil (Env.moved_of_eq rfl rfl rfl)
  refine (own_underLatch hl₁ (Q := fun e => env.Handled c now kind y g e)
    (fun _ h => h.trans_nil (Env.moved_of_eq rfl rfl rfl))
    ((own_handler c hf₂ hn₂ hc).mono
      (Ends.imp (fun _ _ h => h) fun _ _ h => ⟨h.1, h.2.1, h.2.2.nil_trans hm₁⟩))).mono
    (Ends.imp (fun _ _ h => h) fun _ _ h => ⟨h.1, h.2.1, g, hg, h.2.2⟩)

end Handlers

end CoordM

end GlobalTxn
