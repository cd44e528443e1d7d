import GlobalTxn.Proofs.DriveOrder

/-! # Commit and rollback asked again

A transaction manager may ask for the commit, or the rollback, of a transaction more than once.
Only a session in `begin` is driven; any other session is answered from its status and left as
it is (`CoordM.run_commit_of_not_begin`, `CoordM.run_rollback_of_not_begin`), and a session
bound to, or done with, the other direction is refused as `invalidStatus`.

A decision that succeeds leaves its session where a repeated request answers without driving
it: removed, committing asynchronously, or in a status bound to its direction or an outcome of
it.  That rests on what a drive that succeeds leaves (`CoordM.DriveEnd`): its session removed
with the outcome of the direction, or stored in the retrying or the failed status of the
direction, whatever the participants answered and whichever branches were left.

All of this is about operations run alone on stores kept in tables that do not fail
(`Env.Quiet`).  The lemmas `*_eq_ok` say what a call that succeeded did; a drive is one induction
over the branch ids it takes (`CoordM.driveEnd_go`).

Main statement: `CoordM.decisions_are_idempotent`.
-/

namespace GlobalTxn

namespace Steps

variable {σ ε α β : Type}

/-- A program that succeeded, run alone, had its first part succeed. -/
theorem run_bind_eq_ok {m : ExceptT ε (Steps σ) α} {f : α → ExceptT ε (Steps σ) β} {s s' : σ}
    {b : β} (h : run (m >>= f).run s = (.ok b, s')) :
    ∃ a s₁, run m.run s = (.ok a, s₁) ∧ run (f a).run s₁ = (.ok b, s') := by
  rw [run_exceptT_bind] at h
  rcases hm : run m.run s with ⟨_ | a, s₁⟩
  · rw [hm] at h
    cases h
  · rw [hm] at h
    exact ⟨a, s₁, rfl, h⟩

end Steps

namespace CoordM

open Steps

variable {env env' : Env} {t : SessionTable} {lt : LockTable} {s s' : GlobalSession}

/-! ## Calls that succeeded -/

theorem run_transit_eq_ok {target : GlobalStatus}
    (h : Steps.run (transit s target).run env = (.ok s', env')) :
    s.status.canTransitTo target = true ∧
      s' = { s with status := target, gmtUpdated := env.clock.now } ∧ env' = env := by
  rw [run_transit] at h
  split at h
  · rename_i hc
    cases h
    exact ⟨hc, rfl, rfl⟩
  · cases h

/-- An update that succeeded found the session, kept its stored branches and stored it. -/
theorem run_update_eq_ok (hq : env.Quiet t lt)
    (h : Steps.run (store (sessionStore.update s)).run env = (.ok s', env')) :
    ∃ g, t.find? s.xid = some g ∧ s' = { s with branches := g.branches } ∧
      env' = { env with sessions := .table (t.put s') } := by
  cases hg : t.find? s.xid with
  | none =>
    -- the table refuses to update a session it does not hold
    simp only [sessionStore, Env.sessionStore, Env.sessionsKept, SessionTable.store] at h
    rw [run_storeWrite hq, SessionTable.run_change] at h
    simp [SessionTable.update, hg, Except.mapError] at h
  | some g =>
    rw [run_update hq hg] at h
    simp only [Prod.mk.injEq, Except.ok.injEq] at h
    obtain ⟨rfl, rfl⟩ := h
    exact ⟨g, rfl, rfl, rfl⟩

/-- A branch update that succeeded stored the session of the branch's xid with the branch
replaced, and no other. -/
theorem run_updateBranch_eq_ok (hq : env.Quiet t lt) {b : Branch} {u : Unit}
    (h : Steps.run (store (sessionStore.updateBranch b)).run env = (.ok u, env')) :
    ∃ t', env'.Quiet t' lt ∧ ∀ x, x ≠ b.xid → t'.find? x = t.find? x := by
  simp only [sessionStore, Env.sessionStore, Env.sessionsKept, SessionTable.store] at h
  rw [run_storeWrite hq, SessionTable.run_change] at h
  cases hu : t.updateBranch b with
  | error e => simp [hu, Except.map, Except.mapError] at h
  | ok t' =>
    simp only [hu, Except.map] at h
    obtain ⟨-, rfl⟩ := Prod.mk.inj h
    obtain ⟨g, c, hg, -, rfl⟩ := SessionTable.updateBranch_eq_ok hu
    refine ⟨_, ⟨rfl, hq.locks, hq.faults⟩, fun x hx => SessionTable.find?_put_of_ne ?_⟩
    -- the session replaced is the one of the branch's xid
    show g.xid ≠ x
    rw [(SessionTable.find?_eq_some hg).2]
    exact Ne.symm hx

/-- Releasing the rows of a branch that succeeded changed only the row locks. -/
theorem run_releaseBranch_eq_ok (hq : env.Quiet t lt) {b : Branch} {u : Unit}
    (h : Steps.run (locking (LockManager.releaseBranch lockStore b)).run env = (.ok u, env')) :
    ∃ lt', env'.Quiet t lt' ∧ env'.participants = env.participants ∧ env'.clock = env.clock := by
  rw [locking, Steps.run_exceptT_adapt, run_releaseBranch hq.at] at h
  split at h
  · simp [Except.mapError] at h
  · obtain ⟨-, rfl⟩ := Prod.mk.inj h
    exact ⟨_, ⟨hq.sessions, rfl, hq.faults⟩, rfl, rfl⟩

/-- Releasing the row locks of a session in a table: a malformed lock key fails and releases
nothing, and otherwise the table releases the rows of all its branches. -/
theorem run_releaseSession (h : env.At t lt) (s : GlobalSession) :
    Steps.run (LockManager.releaseSession lockStore s).run env =
      match s.branches.flatMapM LockManager.collect with
      | .error e => (.error e, env)
      | .ok ls => (.ok (), { env with locks := .table (lt.release ls) }) := by
  unfold LockManager.releaseSession
  cases s.branches.flatMapM LockManager.collect with
  | error e => rfl
  | ok ls =>
    rw [Steps.run_exceptT_bind]
    show Steps.run (if ls.isEmpty = true then pure () else _ :
      ExceptT LockError (Steps Env) Unit).run env = _
    by_cases hnil : ls.isEmpty = true
    · rw [if_pos hnil, List.isEmpty_iff.1 hnil]
      simp [LockTable.release, Env.with_locks_self h.locks]
    · rw [if_neg hnil, run_lockStore_release h]

/-- Releasing the rows of a session that succeeded changed only the row locks. -/
theorem run_releaseSession_eq_ok (hq : env.Quiet t lt) {u : Unit}
    (h : Steps.run (locking (LockManager.releaseSession lockStore s)).run env = (.ok u, env')) :
    ∃ lt', env'.Quiet t lt' := by
  rw [locking, Steps.run_exceptT_adapt, run_releaseSession hq.at] at h
  split at h
  · simp [Except.mapError] at h
  · obtain ⟨-, rfl⟩ := Prod.mk.inj h
    exact ⟨_, ⟨hq.sessions, rfl, hq.faults⟩⟩

/-- Removing a branch that succeeded took it out of the stored session. -/
theorem run_removeBranch_eq_ok (hq : env.Quiet t lt) {b : Branch}
    (h : Steps.run (removeBranch s b true).run env = (.ok s', env')) :
    s' = s.removeBranch b.branchId ∧ ∃ lt', env'.Quiet (t.removeBranch s.xid b.branchId) lt' := by
  unfold removeBranch at h
  rw [if_pos rfl] at h
  obtain ⟨u, env₁, h₁, h⟩ := run_bind_eq_ok h
  obtain ⟨lt₁, hq₁, -⟩ := run_releaseBranch_eq_ok hq h₁
  rw [Steps.run_bind_ok (run_storeRemoveBranch hq₁ _ _)] at h
  cases h
  exact ⟨rfl, lt₁, rfl, hq₁.locks, hq₁.faults⟩

/-- Ending a session that succeeded removed it. -/
theorem run_endSession_eq_ok (hq : env.Quiet t lt) {u : Unit}
    (h : Steps.run (endSession s).run env = (.ok u, env')) : ∃ lt', env'.Quiet (t.remove s.xid) lt' := by
  unfold endSession at h
  obtain ⟨u, env₁, h₁, h⟩ := run_bind_eq_ok h
  obtain ⟨lt₁, hq₁⟩ := run_releaseSession_eq_ok hq h₁
  rw [run_storeRemove hq₁] at h
  obtain ⟨-, rfl⟩ := Prod.mk.inj h
  exact ⟨lt₁, rfl, hq₁.locks, hq₁.faults⟩

/-- Moving a session to a status and storing it, when that succeeded: it is stored in that
status. -/
theorem run_transit_update_eq_ok (hq : env.Quiet t lt) {target : GlobalStatus}
    {s₁ : GlobalSession}
    (h₁ : Steps.run (transit s target).run env = (.ok s₁, env'))
    {s₂ : GlobalSession} {env₂ : Env}
    (h₂ : Steps.run (store (sessionStore.update s₁)).run env' = (.ok s₂, env₂)) :
    s₂.xid = s.xid ∧ s₂.status = target ∧ env₂.Quiet (t.put s₂) lt ∧
      (t.put s₂).find? s.xid = some s₂ := by
  obtain ⟨-, rfl, rfl⟩ := run_transit_eq_ok h₁
  obtain ⟨g, hg, rfl, rfl⟩ := run_update_eq_ok hq h₂
  exact ⟨rfl, rfl, ⟨rfl, hq.locks, hq.faults⟩, SessionTable.find?_put_self hg⟩

/-! ## Where a drive that succeeded leaves its session -/

/-- Where a drive of direction `dir`, begun in status `st₀`, that answered `st` leaves its
session, found under its xid: removed with the outcome of the direction, or stored in the
status answered, the retrying or the failed status of the direction. -/
def DriveEnd (dir : Direction) (st₀ st : GlobalStatus) : Option GlobalSession → Prop
  | none => st = dir.completed st₀
  | some g => g.status = st ∧ (st = dir.retrying st₀ ∨ st = dir.failed)

/-- A stop that succeeded stored the session in the status it answered. -/
theorem run_suspend_eq_ok (hq : env.Quiet t lt) {b : Branch}
    {rep : Option BranchStatus} {st st' : GlobalStatus}
    (h : Steps.run (suspend s b rep st).run env = (.ok st', env')) :
    st' = st ∧ ∃ t' lt', env'.Quiet t' lt' ∧ ∃ g, t'.find? s.xid = some g ∧ g.status = st := by
  -- the status of the session is moved and stored over the table `t₁` the branch update left
  have hrest : ∀ {env₁ : Env} {t₁ : SessionTable}, env₁.Quiet t₁ lt →
      Steps.run (do let s ← transit s st; let _ ← store (sessionStore.update s); pure st :
        CoordM GlobalStatus).run env₁ = (.ok st', env') →
      st' = st ∧ ∃ t' lt', env'.Quiet t' lt' ∧ ∃ g, t'.find? s.xid = some g ∧ g.status = st := by
    intro env₁ t₁ hq₁ h
    obtain ⟨s₁, env₂, h₁, h⟩ := run_bind_eq_ok h
    obtain ⟨s₂, env₃, h₂, h⟩ := run_bind_eq_ok h
    obtain ⟨-, hst, hq₃, hfind⟩ := run_transit_update_eq_ok hq₁ h₁ h₂
    cases h
    exact ⟨rfl, _, lt, hq₃, s₂, hfind, hst⟩
  unfold suspend at h
  cases rep with
  | none => exact hrest hq h
  | some r =>
    dsimp only at h
    split at h
    · obtain ⟨u, env₁, h₁, h⟩ := run_bind_eq_ok h
      obtain ⟨t₁, hq₁, -⟩ := run_updateBranch_eq_ok hq h₁
      exact hrest hq₁ h
    · exact hrest hq (by simpa using h)

variable (c : Config) (dir : Direction)

/-- The walk of a drive that succeeded leaves its session as `DriveEnd` says, whatever the
participants answered.  By induction on the branch ids left; the session the walk holds keeps
its xid and its status. -/
theorem driveEnd_go :
    ∀ (ids : List Nat) {s : GlobalSession} {env env' : Env} {t : SessionTable} {lt : LockTable}
      {st : GlobalStatus}, env.Quiet t lt →
      Steps.run (drive.go c dir s ids).run env = (.ok st, env') →
      ∃ t' lt', env'.Quiet t' lt' ∧ DriveEnd dir s.status st (t'.find? s.xid)
  | [], s, env, env', t, lt, st, hq, h => by
    -- no branch is left: the session reaches the outcome of the direction and is removed
    unfold drive.go at h
    obtain ⟨s₁, env₁, h₁, h⟩ := run_bind_eq_ok h
    obtain ⟨s₂, env₂, h₂, h⟩ := run_bind_eq_ok h
    obtain ⟨hx, -, hq₂, -⟩ := run_transit_update_eq_ok hq h₁ h₂
    obtain ⟨u, env₃, h₃, h⟩ := run_bind_eq_ok h
    have hend : Steps.run (endSession s₁).run env₂ = (.ok u, env₃) := by
      obtain ⟨-, rfl, rfl⟩ := run_transit_eq_ok h₁
      exact h₃
    obtain ⟨lt₃, hq₃⟩ := run_endSession_eq_ok hq₂ hend
    cases h
    refine ⟨_, lt₃, hq₃, ?_⟩
    have hx₁ : s₁.xid = s.xid := (run_transit_eq_ok h₁).2.1 ▸ rfl
    rw [hx₁, SessionTable.find?_remove]
    rfl
  | id :: rest, s, env, env', t, lt, st, hq, h => by
    unfold drive.go at h
    cases hb : s.findBranch? id with
    | none =>
      rw [hb] at h
      exact driveEnd_go rest hq h
    | some b =>
      rw [hb] at h
      dsimp only at h
      -- a branch removed: the walk goes on with the session less that branch
      have hremoved : ∀ {s₁ : GlobalSession} {env₁ env₂ : Env}, env₁.Quiet t lt →
          Steps.run (removeBranch s b true).run env₁ = (.ok s₁, env₂) →
          Steps.run (drive.go c dir s₁ rest).run env₂ = (.ok st, env') →
          ∃ t' lt', env'.Quiet t' lt' ∧ DriveEnd dir s.status st (t'.find? s.xid) := by
        intro s₁ env₁ env₂ hq₁ h₁ h
        obtain ⟨rfl, lt₂, hq₂⟩ := run_removeBranch_eq_ok hq₁ h₁
        exact driveEnd_go rest (s := s.removeBranch b.branchId) hq₂ h
      -- the drive stops at the branch: the session is stored in the stop status
      have hstop : ∀ {env₁ : Env} {rep : Option BranchStatus} {st₁ : GlobalStatus},
          env₁.Quiet t lt → Steps.run (suspend s b rep st₁).run env₁ = (.ok st, env') →
          st₁ = dir.retrying s.status ∨ st₁ = dir.failed →
          ∃ t' lt', env'.Quiet t' lt' ∧ DriveEnd dir s.status st (t'.find? s.xid) := by
        intro env₁ rep st₁ hq₁ h hside
        obtain ⟨rfl, t', lt', hq', g, hg, hst⟩ := run_suspend_eq_ok hq₁ h
        refine ⟨t', lt', hq', ?_⟩
        rw [hg]
        exact ⟨hst, hside⟩
      by_cases hskip : b.branchType.skipsPhaseTwo b.status = true
      · rw [if_pos hskip] at h
        obtain ⟨s₁, env₁, h₁, h⟩ := run_bind_eq_ok h
        exact hremoved hq h₁ h
      · rw [if_neg hskip] at h
        obtain ⟨a, env₁, h₁, h⟩ := run_bind_eq_ok h
        rw [run_requestPhaseTwo] at h₁
        cases h₁
        -- a request changes only the participants
        have hq₁ : ({ env with participants := (env.participants.request dir.action b).2 } :
            Env).Quiet t lt :=
          ⟨hq.sessions, hq.locks, hq.faults⟩
        generalize Answer.ofReply b dir.doneStatus (env.participants.request dir.action b).1 = a at h
        cases a with
        | answered r =>
          dsimp only at h
          generalize dir.outcome b r = o at h
          cases o with
          | done =>
            obtain ⟨s₁, env₂, h₂, h⟩ := run_bind_eq_ok h
            exact hremoved hq₁ h₂ h
          | retryable => exact hstop hq₁ h (.inl rfl)
          | unretryable => exact hstop hq₁ h (.inr rfl)
        | failed e => exact hstop hq₁ h (.inl rfl)
        | silent =>
          -- a silent participant is waited for, which changes only the timers
          dsimp only at h
          obtain ⟨u, env₂, h₂, h⟩ := run_bind_eq_ok h
          rw [run_sleep] at h₂
          split at h₂
          · obtain ⟨-, rfl⟩ := Prod.mk.inj h₂
            exact hstop hq₁ h (.inl rfl)
          · obtain ⟨-, rfl⟩ := Prod.mk.inj h₂
            refine hstop ?_ h (.inl rfl)
            exact ⟨hq.sessions, hq.locks, hq.faults⟩

/-- A drive that succeeded leaves its session as `DriveEnd` says. -/
theorem driveEnd_drive {s : GlobalSession} {st : GlobalStatus} (hq : env.Quiet t lt)
    (h : Steps.run (drive c dir s).run env = (.ok st, env')) :
    ∃ t' lt', env'.Quiet t' lt' ∧ DriveEnd dir s.status st (t'.find? s.xid) :=
  driveEnd_go c dir _ hq h

/-! ## Commit and rollback -/

/-- What a commit answers of a session it does not drive: finished when none is stored,
committed while its branches commit asynchronously, and its status otherwise. -/
def commitAnswer : Option GlobalSession → GlobalStatus
  | none => .finished
  | some g => if g.status = .asyncCommitting then .committed else g.status

/-- What a rollback answers of a session it does not drive: finished when none is stored, and
its status otherwise. -/
def rollbackAnswer : Option GlobalSession → GlobalStatus
  | none => .finished
  | some g => g.status

/-- Moving a session to a status and storing it: the session stored in that status. -/
theorem run_transitAndPersist_eq_ok (hq : env.Quiet t lt) {target : GlobalStatus}
    (h : Steps.run (transitAndPersist s target).run env = (.ok s', env')) :
    s'.xid = s.xid ∧ s'.status = target ∧ env'.Quiet (t.put s') lt ∧
      (t.put s').find? s.xid = some s' := by
  obtain ⟨s₁, env₁, h₁, h₂⟩ := run_bind_eq_ok h
  exact run_transit_update_eq_ok hq h₁ h₂

/-- On quiet stores, a commit of an xid with no session answers finished. -/
theorem run_commit_of_none {x : String} (hq : env.Quiet t lt) (hn : t.find? x = none) :
    Steps.run (commit c x).run env = (.ok .finished, env) := by
  unfold commit
  rw [Steps.run_exceptT_bind, run_find? hq.sessions, if_neg (by rw [hq.faults]; decide), hn]
  rfl

/-- On quiet stores, a commit of a session not in `begin` changes nothing: it answers committed
while the branches commit asynchronously, the status when the session is bound to commit or
done with it, and refuses the session otherwise. -/
theorem run_commit_of_not_begin {x : String} {g : GlobalSession} (hq : env.Quiet t lt)
    (hg : t.find? x = some g) (hb : g.status ≠ .begin) :
    Steps.run (commit c x).run env =
      (if g.status = .asyncCommitting then .ok .committed
        else if g.status.isCommitBound || g.status.isCommitOutcome then .ok g.status
        else .error (.invalidStatus x g.status .commit), env) := by
  unfold commit
  rw [Steps.run_exceptT_bind, run_find? hq.sessions, if_neg (by rw [hq.faults]; decide), hg]
  dsimp only
  split
  · contradiction
  · rename_i ha
    rw [if_pos ha]
    rfl
  · rename_i hne hna
    rw [if_neg hna]
    split <;> rfl

/-- On quiet stores, a rollback of an xid with no session answers finished. -/
theorem run_rollback_of_none {x : String} (hq : env.Quiet t lt) (hn : t.find? x = none) :
    Steps.run (rollback c x).run env = (.ok .finished, env) := by
  unfold rollback
  rw [Steps.run_exceptT_bind, run_find? hq.sessions, if_neg (by rw [hq.faults]; decide), hn]
  rfl

/-- On quiet stores, a rollback of a session not in `begin` changes nothing: it answers the
status when the session is bound to roll back or done with it, and refuses the session
otherwise. -/
theorem run_rollback_of_not_begin {x : String} {g : GlobalSession} (hq : env.Quiet t lt)
    (hg : t.find? x = some g) (hb : g.status ≠ .begin) :
    Steps.run (rollback c x).run env =
      (if g.status.isRollbackBound || g.status.isRollbackOutcome then .ok g.status
        else .error (.invalidStatus x g.status .rollback), env) := by
  unfold rollback
  rw [Steps.run_exceptT_bind, run_find? hq.sessions, if_neg (by rw [hq.faults]; decide), hg]
  dsimp only
  split
  · contradiction
  · rename_i hne
    split <;> rfl

/-- Releasing the rows of a session keeps the stores quiet, whether it succeeds or not. -/
theorem quiet_releaseSession (hq : env.Quiet t lt) (s : GlobalSession) :
    ∃ lt', (Steps.run (LockManager.releaseSession lockStore s).run env).2.Quiet t lt' := by
  rw [run_releaseSession hq.at]
  split
  · exact ⟨lt, hq⟩
  · exact ⟨_, hq.sessions, rfl, hq.faults⟩

/-- A commit that succeeded leaves the session of its xid, if any is stored, bound to commit or
done with it. -/
theorem commit_settles {x : String} {st : GlobalStatus} (hq : env.Quiet t lt)
    (h : Steps.run (commit c x).run env = (.ok st, env')) :
    ∃ t' lt', env'.Quiet t' lt' ∧
      ∀ g, t'.find? x = some g → (g.status.isCommitBound || g.status.isCommitOutcome) = true := by
  unfold commit at h
  rw [Steps.run_exceptT_bind, run_find? hq.sessions, if_neg (by rw [hq.faults]; decide)] at h
  rcases hg : t.find? x with _ | g
  · -- no session: nothing changes, and none is found
    rw [hg] at h
    cases h
    exact ⟨t, lt, hq, fun g hg' => by rw [hg] at hg'; cases hg'⟩
  · rw [hg] at h
    dsimp only at h
    have hx : g.xid = x := (SessionTable.find?_eq_some hg).2
    split at h
    · split at h
      · -- committed asynchronously: the session is stored as such, its rows released
        obtain ⟨s₁, env₁, h₁, h⟩ := run_bind_eq_ok h
        obtain ⟨-, hst, hq₁, hfind⟩ := run_transitAndPersist_eq_ok hq h₁
        obtain ⟨r, env₂, h₂, h⟩ := run_bind_eq_ok h
        rw [lockingResult, Steps.run_exceptT_lift] at h₂
        cases h₂
        cases h
        obtain ⟨lt₂, hq₂⟩ := quiet_releaseSession hq₁ s₁
        refine ⟨_, lt₂, hq₂, fun g' hg' => ?_⟩
        rw [← hx, hfind] at hg'
        cases hg'
        rw [hst]
        rfl
      · -- committed by a drive: it ends retrying, failed, or with the session removed
        obtain ⟨s₁, env₁, h₁, h⟩ := run_bind_eq_ok h
        obtain ⟨hx₁, hst, hq₁, -⟩ := run_transitAndPersist_eq_ok hq h₁
        obtain ⟨t', lt', hq', hend⟩ := driveEnd_drive c .commit hq₁ h
        refine ⟨t', lt', hq', fun g' hg' => ?_⟩
        rw [hx₁, hx, hg', hst] at hend
        obtain ⟨hst', hside⟩ := hend
        rw [hst']
        rcases hside with rfl | rfl <;> rfl
    · -- committing asynchronously already: nothing changes
      cases h
      exact ⟨t, lt, hq, fun g' hg' => by rw [hg] at hg'; cases hg'; rw [‹g.status = _›]; rfl⟩
    · split at h
      · cases h
        exact ⟨t, lt, hq, fun g' hg' => by rw [hg] at hg'; cases hg'; assumption⟩
      · cases h

/-- A rollback that succeeded leaves the session of its xid, if any is stored, bound to roll
back or done with it. -/
theorem rollback_settles {x : String} {st : GlobalStatus} (hq : env.Quiet t lt)
    (h : Steps.run (rollback c x).run env = (.ok st, env')) :
    ∃ t' lt', env'.Quiet t' lt' ∧
      ∀ g, t'.find? x = some g → (g.status.isRollbackBound || g.status.isRollbackOutcome) = true := by
  unfold rollback at h
  rw [Steps.run_exceptT_bind, run_find? hq.sessions, if_neg (by rw [hq.faults]; decide)] at h
  rcases hg : t.find? x with _ | g
  · rw [hg] at h
    cases h
    exact ⟨t, lt, hq, fun g hg' => by rw [hg] at hg'; cases hg'⟩
  · rw [hg] at h
    dsimp only at h
    have hx : g.xid = x := (SessionTable.find?_eq_some hg).2
    split at h
    · -- rolled back by a drive: it ends retrying, failed, or with the session removed
      obtain ⟨s₁, env₁, h₁, h⟩ := run_bind_eq_ok h
      obtain ⟨hx₁, hst, hq₁, -⟩ := run_transitAndPersist_eq_ok hq h₁
      obtain ⟨t', lt', hq', hend⟩ := driveEnd_drive c .rollback hq₁ h
      refine ⟨t', lt', hq', fun g' hg' => ?_⟩
      rw [hx₁, hx, hg', hst] at hend
      obtain ⟨hst', hside⟩ := hend
      rw [hst']
      rcases hside with rfl | rfl <;> rfl
    · split at h
      · cases h
        exact ⟨t, lt, hq, fun g' hg' => by rw [hg] at hg'; cases hg'; assumption⟩
      · cases h

/-- A commit that succeeded, asked again, changes nothing and answers from the stored
session. -/
theorem commit_again {x : String} {st : GlobalStatus} (hq : env.Quiet t lt)
    (h : Steps.run (commit c x).run env = (.ok st, env')) :
    Steps.run (commit c x).run env' = (.ok (commitAnswer (env'.stored x)), env') := by
  obtain ⟨t', lt', hq', hset⟩ := commit_settles c hq h
  rw [hq'.stored]
  rcases hg : t'.find? x with _ | g
  · exact run_commit_of_none c hq' hg
  · have hb := hset g hg
    have hne : g.status ≠ .begin := fun he => by rw [he] at hb; cases hb
    rw [run_commit_of_not_begin c hq' hg hne, if_pos hb]
    by_cases ha : g.status = .asyncCommitting <;> simp [commitAnswer, ha]

/-- A rollback that succeeded, asked again, changes nothing and answers from the stored
session. -/
theorem rollback_again {x : String} {st : GlobalStatus} (hq : env.Quiet t lt)
    (h : Steps.run (rollback c x).run env = (.ok st, env')) :
    Steps.run (rollback c x).run env' = (.ok (rollbackAnswer (env'.stored x)), env') := by
  obtain ⟨t', lt', hq', hset⟩ := rollback_settles c hq h
  rw [hq'.stored]
  rcases hg : t'.find? x with _ | g
  · exact run_rollback_of_none c hq' hg
  · have hb := hset g hg
    have hne : g.status ≠ .begin := fun he => by rw [he] at hb; cases hb
    rw [run_rollback_of_not_begin c hq' hg hne, if_pos hb]
    rfl

/-- No status is bound to, or an outcome of, both directions. -/
theorem GlobalStatus.commit_false_of_rollback {st : GlobalStatus}
    (h : (st.isRollbackBound || st.isRollbackOutcome) = true) :
    (st.isCommitBound || st.isCommitOutcome) = false := by
  revert h
  cases st <;> decide

/-- Commit and rollback are idempotent.  Run alone on quiet stores, a commit that succeeded,
asked again, sends no request, changes nothing and answers finished for a session gone,
committed for one committing asynchronously and the status of any other; a rollback likewise.
A commit or a rollback of a session not in `begin` changes nothing, and one bound to, or done
with, the other direction is refused as `invalidStatus`. -/
theorem decisions_are_idempotent (x : String) (hq : env.Quiet t lt) :
    (∀ st env', Steps.run (commit c x).run env = (.ok st, env') →
      Steps.run (commit c x).run env' = (.ok (commitAnswer (env'.stored x)), env')) ∧
    (∀ st env', Steps.run (rollback c x).run env = (.ok st, env') →
      Steps.run (rollback c x).run env' = (.ok (rollbackAnswer (env'.stored x)), env')) ∧
    ∀ g, t.find? x = some g → g.status ≠ .begin →
      (Steps.run (commit c x).run env).2 = env ∧ (Steps.run (rollback c x).run env).2 = env ∧
      ((g.status.isRollbackBound || g.status.isRollbackOutcome) = true →
        (Steps.run (commit c x).run env).1 = .error (.invalidStatus x g.status .commit)) ∧
      ((g.status.isCommitBound || g.status.isCommitOutcome) = true →
        (Steps.run (rollback c x).run env).1 = .error (.invalidStatus x g.status .rollback)) := by
  refine ⟨fun _ _ h => commit_again c hq h, fun _ _ h => rollback_again c hq h,
    fun g hg hb => ?_⟩
  rw [run_commit_of_not_begin c hq hg hb, run_rollback_of_not_begin c hq hg hb]
  refine ⟨by split <;> rfl, by split <;> rfl, fun hr => ?_, fun hc => ?_⟩
  · -- bound to, or done with, rollback: neither committing asynchronously nor on the commit side
    have hc := GlobalStatus.commit_false_of_rollback hr
    have ha : g.status ≠ .asyncCommitting := fun he => by rw [he] at hc; cases hc
    rw [if_neg ha, if_neg (by rw [hc]; decide)]
  · have hr : (g.status.isRollbackBound || g.status.isRollbackOutcome) = false := by
      cases hr' : (g.status.isRollbackBound || g.status.isRollbackOutcome)
      · rfl
      · rw [GlobalStatus.commit_false_of_rollback hr'] at hc
        cases hc
    rw [if_neg (by rw [hr]; decide)]

/-- A session in `begin` with one branch whose participant never answers a commit. -/
theorem decisions_are_idempotent_after_silent_commit :
    let b : Branch := ⟨"x", 1, 2, "g", "db", "c", .at, .phaseOneDone, "t:1", "", 0⟩
    let s : GlobalSession := ⟨"x", 1, "app", "g", "tx", .begin, ⟨60000000000⟩, 0, 0, "", [b]⟩
    let env : Env :=
      { clock := ⟨0⟩, ids := ⟨0, 3⟩, sessions := .table ⟨[s]⟩,
        participants := { replies := [(2, [.hang])] } }
    env.Quiet ⟨[s]⟩ {} ∧
      (∀ st env', Steps.run (commit {} "x").run env = (.ok st, env') →
        Steps.run (commit {} "x").run env' = (.ok (commitAnswer (env'.stored "x")), env')) ∧
      (∀ st env', Steps.run (rollback {} "x").run env = (.ok st, env') →
        Steps.run (rollback {} "x").run env' = (.ok (rollbackAnswer (env'.stored "x")), env')) ∧
      ∀ g, (⟨[s]⟩ : SessionTable).find? "x" = some g → g.status ≠ .begin →
        (Steps.run (commit {} "x").run env).2 = env ∧ (Steps.run (rollback {} "x").run env).2 = env ∧
        ((g.status.isRollbackBound || g.status.isRollbackOutcome) = true →
          (Steps.run (commit {} "x").run env).1 = .error (.invalidStatus "x" g.status .commit)) ∧
        ((g.status.isCommitBound || g.status.isCommitOutcome) = true →
          (Steps.run (rollback {} "x").run env).1 = .error (.invalidStatus "x" g.status .rollback)) := by
  intro b s env
  have hq : env.Quiet ⟨[s]⟩ {} := ⟨rfl, rfl, rfl⟩
  exact ⟨hq, decisions_are_idempotent {} "x" hq⟩

/-- The commit of the session above stops at the silent participant in `commitRetrying`; asked
again, it answers the same and changes nothing. -/
example :
    let b : Branch := ⟨"x", 1, 2, "g", "db", "c", .at, .phaseOneDone, "t:1", "", 0⟩
    let s : GlobalSession := ⟨"x", 1, "app", "g", "tx", .begin, ⟨60000000000⟩, 0, 0, "", [b]⟩
    let env : Env :=
      { clock := ⟨0⟩, ids := ⟨0, 3⟩, sessions := .table ⟨[s]⟩,
        participants := { replies := [(2, [.hang])] } }
    (Steps.run (commit {} "x").run env).1.toOption = some .commitRetrying ∧
      (Steps.run (commit {} "x").run (Steps.run (commit {} "x").run env).2).1.toOption =
        some .commitRetrying ∧
      (Steps.run (commit {} "x").run (Steps.run (commit {} "x").run env).2).2 =
        (Steps.run (commit {} "x").run env).2 := by
  decide

end CoordM

end GlobalTxn
