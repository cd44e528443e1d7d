import GlobalTxn.Proofs.KnownStatuses

/-! # Every status change of the coordinator is an edge of the state machine

The coordinator moves a session only through `transit`, which fails with an illegal
transition unless the state machine has the edge.  Every transit it makes is on an edge:

* a drive starts from a status bound to its direction (`Direction.bound`), and from each such
  status the retrying, failed and completed statuses of the direction are edges
  (`canTransitTo_retrying`, `canTransitTo_failed`, `canTransitTo_completed`), so that no stop
  of a drive, and not its end, is illegal (`legal_drive`);
* each operation and each scan handler transits only from the statuses it has checked, and
  forced deletion relies on no stored status being `unknown`, which every step keeps.

So no operation and no scan handler fails with an illegal transition, in every interleaving
of their steps with other steps that keep the stored statuses known.
-/

namespace GlobalTxn

open Steps

namespace Direction

/-- The statuses a drive in direction `dir` may start from. -/
def bound : Direction → GlobalStatus → Bool
  | commit => GlobalStatus.isCommitBound
  | rollback => GlobalStatus.isRollbackBound

variable {dir : Direction} {s : GlobalStatus}

theorem canTransitTo_retrying (h : dir.bound s = true) :
    s.canTransitTo (dir.retrying s) = true := by
  revert h
  cases dir <;> cases s <;> decide

theorem canTransitTo_failed (h : dir.bound s = true) : s.canTransitTo dir.failed = true := by
  revert h
  cases dir <;> cases s <;> decide

theorem canTransitTo_completed (h : dir.bound s = true) :
    s.canTransitTo (dir.completed s) = true := by
  revert h
  cases dir <;> cases s <;> decide

end Direction

namespace GlobalStatus

/-! The edges the operators' commands take, from the statuses each command accepts. -/

variable {s : GlobalStatus}

theorem canTransitTo_stopRollback
    (h : (s == .rollbacking || decide (s ∈ retryRollback)) = true) :
    s.canTransitTo .stopRollbackOrRollbackRetry = true := by
  revert h
  cases s <;> decide

theorem canTransitTo_commitRetrying_of_failedCommit (h : s ∈ failedCommit) :
    s.canTransitTo .commitRetrying = true := by
  revert h
  cases s <;> decide

theorem canTransitTo_rollbackRetrying_of_failedRollback (h : s ∈ failedRollback) :
    s.canTransitTo .rollbackRetrying = true := by
  revert h
  cases s <;> decide

theorem commit_bound_of_committing (h : (s == .committing || decide (s ∈ retryCommit)) = true) :
    Direction.commit.bound s = true := by
  revert h
  cases s <;> decide

theorem rollback_bound_of_rollbacking
    (h : (s == .rollbacking || decide (s ∈ retryRollback)) = true) :
    Direction.rollback.bound s = true := by
  revert h
  cases s <;> decide

end GlobalStatus

namespace ScanKind

/-- A candidate of a scan is in one of the statuses the scan lists its candidates from. -/
theorem mem_statuses_of_isCandidate {c : Config} {now : Nat} {g : GlobalSession} :
    ∀ {kind : ScanKind}, kind.isCandidate c now g = true → g.status ∈ kind.statuses
  | timeoutCheck, h => by
    simp only [isCandidate, Bool.and_eq_true, beq_iff_eq] at h
    simp [statuses, h.1]
  | retryCommitting, h => by
    simp only [isCandidate, Config.isRetryCommitting] at h
    split at h <;> simp_all [statuses]
  | asyncCommitting, h => by simpa [isCandidate, statuses] using h
  | retryRollbacking, h => by
    simp only [isCandidate, Config.isRetryRollbacking] at h
    split at h <;> simp_all [statuses]
  | undoLogDelete, h => by simp [isCandidate] at h

end ScanKind

namespace CoordM

/-- Driving the branches with ids `ids` of a session whose status is bound to the direction:
each stop moves the session to the retrying or failed status of the direction, and the end
to its completed status, all edges from that status.  By induction on the ids; removing a
branch keeps the status of the session copy. -/
theorem legal_drive_go (c : Config) (dir : Direction) :
    ∀ (ids : List Nat) (s : GlobalSession), dir.bound s.status = true →
      Legal (fun _ => True) (drive.go c dir s ids)
  | [], s, h => by
    unfold drive.go
    dsimp only
    refine legal_bind (legal_transit (Direction.canTransitTo_completed h)) fun s' hs' => ?_
    refine legal_bind (legal_update (s := s') ?_) fun _ _ => ?_
    · exact hs' ▸ GlobalStatus.ne_unknown_of_canTransitTo (Direction.canTransitTo_completed h)
    · exact legal_bind (legal_endSession s') fun _ _ => legal_pure _ trivial
  | id :: rest, s, h => by
    unfold drive.go
    split
    · exact legal_drive_go c dir rest s h
    · rename_i b _
      -- a branch that is done is removed, and the drive goes on with the same status
      have hnext : Legal (fun _ => True)
          (removeBranch s b true >>= fun s => drive.go c dir s rest) :=
        legal_bind (legal_removeBranch s b true) fun s' hs' =>
          legal_drive_go c dir rest s' (hs' ▸ h)
      split
      · exact hnext
      · refine legal_bind (Legal.frame fun _ => keeps_requestPhaseTwo _ _ _ _) fun _ _ => ?_
        split
        · split
          · exact hnext
          · exact legal_suspend b _ (Direction.canTransitTo_retrying h)
          · exact legal_suspend b _ (Direction.canTransitTo_failed h)
        · exact legal_suspend b none (Direction.canTransitTo_retrying h)
        · exact legal_bind (Legal.frame fun _ => keeps_sleep _ _) fun _ _ =>
            legal_suspend b none (Direction.canTransitTo_retrying h)

theorem legal_drive (c : Config) (dir : Direction) {s : GlobalSession}
    (h : dir.bound s.status = true) : Legal (fun _ => True) (drive c dir s) :=
  legal_drive_go c dir _ s h

/-! ## Operations of transaction managers and participants -/

theorem legal_begin (c : Config) (applicationId group name : String) (timeout : Duration) :
    Legal (fun _ => True) (begin c applicationId group name timeout) := by
  unfold begin
  extract_lets jp
  have hjp : ∀ r, Legal (fun _ => True) (jp r) := fun _ =>
    legal_bind (Legal.frame fun _ => keeps_nextId _) fun _ _ =>
      legal_bind (Legal.frame fun _ => keeps_now _) fun _ _ =>
        legal_bind (legal_storeWith (fun _ _ => nofun)
          (keeps_sessionWrite (SessionTable.keeps_add nofun))) fun _ _ => legal_pure _ trivial
  split
  · exact legal_throw_bind _ (fun _ => by nofun) _
  · exact hjp ()

theorem legal_register (t : BranchType) (resourceId clientId xid applicationData lockKey : String) :
    Legal (fun _ => True) (register t resourceId clientId xid applicationData lockKey) := by
  unfold register
  refine legal_bind (legal_load xid) fun s _ => ?_
  extract_lets jp
  -- a registration in `begin`: the rows are locked first, then the branch is added
  have hjp : ∀ r, Legal (fun _ => True) (jp r) := by
    intro _
    refine legal_bind (Legal.frame fun _ => keeps_nextId _) fun _ _ => ?_
    refine legal_bind (Legal.frame fun _ => keeps_now _) fun _ _ => ?_
    refine legal_bind (legal_locking (LockManager.keeps_acquireBranch _ _)) fun _ _ => ?_
    extract_lets jp'
    have hjp' : ∀ r, Legal (fun _ => True) (jp' r) := by
      intro _
      refine legal_bind (legal_storeResult (keeps_sessionWrite (SessionTable.keeps_addBranch _)))
        fun _ _ => ?_
      split
      · exact legal_pure _ trivial
      · refine legal_bind (Legal.frame fun _ =>
          keeps_lockingResult _ (LockManager.keeps_releaseBranch _ _)) fun _ _ => ?_
        split <;> exact legal_throw _ fun _ => by nofun
    split
    · exact hjp' ()
    · exact legal_throw_bind _ (fun _ => by nofun) _
  split
  · exact hjp ()
  · split
    · exact legal_pure _ trivial
    · exact legal_throw_bind _ (fun _ => by nofun) _
  · split
    · exact legal_pure _ trivial
    · exact legal_throw_bind _ (fun _ => by nofun) _
  · exact legal_throw_bind _ (fun _ => by nofun) _

theorem legal_report (xid : String) (branchId : Nat) (status : BranchStatus)
    (applicationData : Option String) :
    Legal (fun _ => True) (report xid branchId status applicationData) := by
  unfold report
  refine legal_bind (legal_load xid) fun s _ => ?_
  split
  · extract_lets jp
    split
    · exact legal_updateBranch _
    · exact legal_throw_bind _ (fun _ => by nofun) _
  · exact legal_throw _ fun _ => by nofun

theorem legal_commit (c : Config) (xid : String) : Legal (fun _ => True) (commit c xid) := by
  unfold commit
  refine legal_bind (legal_find? xid) fun r hr => ?_
  split
  · rename_i s
    split
    · rename_i hbegin
      split
      · refine legal_bind (legal_transitAndPersist (by rw [hbegin]; rfl)) fun _ _ => ?_
        exact legal_bind (Legal.frame fun _ =>
          keeps_lockingResult _ (LockManager.keeps_releaseSession _ _)) fun _ _ =>
            legal_pure _ trivial
      · refine legal_bind (legal_transitAndPersist (by rw [hbegin]; rfl)) fun s' hs' => ?_
        exact legal_drive c .commit (by rw [hs']; rfl)
    · exact legal_pure _ trivial
    · split
      · exact legal_pure _ trivial
      · exact legal_throw _ fun _ => by nofun
  · exact legal_pure _ trivial

theorem legal_rollback (c : Config) (xid : String) : Legal (fun _ => True) (rollback c xid) := by
  unfold rollback
  refine legal_bind (legal_find? xid) fun r _ => ?_
  split
  · split
    · rename_i hbegin
      refine legal_bind (legal_transitAndPersist (by rw [hbegin]; rfl)) fun s' hs' => ?_
      exact legal_drive c .rollback (by rw [hs']; rfl)
    · split
      · exact legal_pure _ trivial
      · exact legal_throw _ fun _ => by nofun
  · exact legal_pure _ trivial


theorem legal_status (xid : String) : Legal (fun _ => True) (status xid) :=
  legal_bind (legal_find? xid) fun _ _ => legal_pure _ trivial

theorem legal_globalReport (xid : String) (status : GlobalStatus) :
    Legal (fun _ => True) (globalReport xid status) := by
  unfold globalReport
  refine legal_bind (legal_find? xid) fun r hr => ?_
  split
  · rename_i s
    extract_lets jp jp'
    -- an intermediate status is recorded as reported; it is never `unknown`
    have hupdate : status ≠ .unknown → Legal (fun _ => True)
        (now >>= fun n => store (sessionStore.update { s with status, gmtUpdated := n }) >>=
          fun _ => jp ()) := fun hs =>
      legal_bind (Legal.frame fun _ => keeps_now _) fun _ _ =>
        legal_bind (legal_update hs) fun _ _ => legal_pure _ trivial
    have hend : Legal (fun _ => True) (locking (LockManager.releaseSession lockStore s) >>=
        fun _ => store (sessionStore.remove xid) >>= fun r => jp r) :=
      legal_bind (legal_locking (LockManager.keeps_releaseSession _ s)) fun _ _ =>
        legal_bind (legal_remove xid) fun _ _ => legal_pure _ trivial
    have hjp' : ∀ r, Legal (fun _ => True) (jp' r) := by
      intro _
      unfold jp'
      split
      · exact hend
      · exact hend
      · exact hend
      · exact hupdate nofun
      · exact hupdate nofun
      · exact hupdate nofun
      · exact hupdate nofun
      · exact hupdate nofun
      · exact hupdate nofun
      · exact legal_throw_bind _ (fun _ => by nofun) _
    split
    · exact hjp' ()
    · exact legal_throw_bind _ (fun _ => by nofun) _
  · exact legal_pure _ trivial

theorem legal_lockQuery (t : BranchType) (resourceId xid lockKey : String) :
    Legal (fun _ => True) (lockQuery t resourceId xid lockKey) := by
  unfold lockQuery
  extract_lets jp
  have hjp : ∀ r, Legal (fun _ => True) (jp r) := fun _ =>
    legal_locking (LockManager.keeps_isLockable _ _ _ _)
  split
  · exact hjp ()
  · exact legal_throw_bind _ (fun _ => by nofun) _

theorem legal_recover : Legal (fun _ => True) recover := by
  unfold recover
  refine legal_bind (legal_store (keeps_sessionRead (SessionTable.keeps_findBy _))) fun _ _ => ?_
  refine keeps_foldlM (P := fun _ => True) (fun _ _ _ => ?_) _ _ trivial
  dsimp only
  split
  · exact legal_pure _ trivial
  · refine keeps_foldlM (P := fun _ => True) (fun _ _ _ => ?_) _ _ trivial
    refine legal_bind (legal_locking (LockManager.keeps_acquireBranch _ _)) fun _ _ => ?_
    split
    · exact legal_pure _ trivial
    · exact legal_pure _ trivial

/-! ## Operators' commands -/

theorem legal_deleteAtParticipant (c : Config) (b : Branch) :
    Legal (fun _ => True) (deleteAtParticipant c b) := by
  unfold deleteAtParticipant
  extract_lets jp
  have hjp : ∀ r, Legal (fun _ => True) (jp r) := by
    intro _
    refine legal_bind (Legal.frame fun _ =>
      keeps_lockingResult _ (LockManager.keeps_releaseBranch _ b)) fun _ _ => ?_
    split
    · exact legal_pure _ trivial
    · exact legal_pure _ trivial
  split
  · refine legal_bind (Legal.frame fun _ => keeps_requestDelete _ b) fun _ _ => ?_
    split
    · exact hjp ()
    · exact legal_bind (Legal.frame fun _ => keeps_sleep _ _) fun _ _ => legal_pure _ trivial
    · exact legal_pure _ trivial
  · exact hjp ()

/-- Deleting starts with the move to `deleting`, an edge from every status but `unknown`;
a stored session is never in `unknown`. -/
theorem legal_toDeleting {β : Type} {Q : β → Prop} {s : GlobalSession} (hs : s.status ≠ .unknown)
    {k : GlobalSession → CoordM β} (hk : ∀ s', Legal Q (k s')) :
    Legal Q
      (if s.status == .deleting then pure s >>= k else transitAndPersist s .deleting >>= k) := by
  split
  · exact hk s
  · refine legal_bind (legal_transitAndPersist ?_) fun s' _ => hk s'
    rw [GlobalStatus.canTransitTo_deleting]
    simpa using hs

theorem legal_deleteGlobal (c : Config) (xid : String) :
    Legal (fun _ => True) (deleteGlobal c xid) := by
  unfold deleteGlobal
  refine legal_bind (legal_load xid) fun s hs => ?_
  extract_lets jp jp'
  -- each branch is deleted at its participant and then removed, or the deletion stops
  have hjp : ∀ s', Legal (fun _ => True) (jp s') := by
    intro _
    refine legal_bind (keeps_foldlM (P := fun _ => True) (fun _ b _ => ?_) _ _ trivial)
      fun s'' _ => legal_endSession s''
    refine legal_bind (legal_deleteAtParticipant c b) fun _ _ => ?_
    extract_lets jp''
    have hjp'' : ∀ r, Legal (fun _ => True) (jp'' r) := fun _ =>
      (legal_removeBranch _ b false).mono fun _ _ => trivial
    split
    · exact hjp'' ()
    · exact legal_throw_bind _ (fun _ => by nofun) _
  have hjp' : ∀ r, Legal (fun _ => True) (jp' r) := fun _ => legal_toDeleting hs hjp
  split
  · exact hjp' ()
  · exact legal_throw_bind _ (fun _ => by nofun) _

theorem legal_forceDeleteGlobal (xid : String) :
    Legal (fun _ => True) (forceDeleteGlobal xid) := by
  unfold forceDeleteGlobal
  refine legal_bind (legal_load xid) fun s hs => ?_
  extract_lets jp
  exact legal_toDeleting hs fun s' => legal_endSession s'

/-- A command that moves the session to a target it chose from the session's status. -/
theorem legal_moveTo {s : GlobalSession} {target : GlobalStatus}
    (h : s.status.canTransitTo target = true) :
    Legal (fun _ => True) (pure target >>= fun target => do
      let _ ← transitAndPersist s target
      pure target) :=
  legal_bind (legal_pure target h) fun _ h' =>
    legal_bind (legal_transitAndPersist h') fun _ _ => legal_pure _ trivial

theorem legal_stopRetry (xid : String) : Legal (fun _ => True) (stopRetry xid) := by
  unfold stopRetry
  refine legal_bind (legal_load xid) fun s _ => ?_
  extract_lets jp
  split
  · rename_i h
    exact legal_moveTo (by rw [h]; rfl)
  · rename_i h
    exact legal_moveTo (by rw [h]; rfl)
  · split
    · rename_i h
      exact legal_moveTo (GlobalStatus.canTransitTo_stopRollback h)
    · exact legal_throw_bind _ (fun _ => by nofun) _

theorem legal_startRetry (xid : String) : Legal (fun _ => True) (startRetry xid) := by
  unfold startRetry
  refine legal_bind (legal_load xid) fun s _ => ?_
  extract_lets jp
  split
  · rename_i h
    exact legal_moveTo (by rw [h]; rfl)
  · rename_i h
    exact legal_moveTo (by rw [h]; rfl)
  · exact legal_throw_bind _ (fun _ => by nofun) _

theorem legal_changeStatus (xid : String) : Legal (fun _ => True) (changeStatus xid) := by
  unfold changeStatus
  refine legal_bind (legal_load xid) fun s _ => ?_
  extract_lets jp
  split
  · rename_i h
    exact legal_moveTo (GlobalStatus.canTransitTo_commitRetrying_of_failedCommit h)
  · split
    · rename_i h
      exact legal_moveTo (GlobalStatus.canTransitTo_rollbackRetrying_of_failedRollback h)
    · exact legal_throw_bind _ (fun _ => by nofun) _

theorem legal_send (c : Config) (xid : String) : Legal (fun _ => True) (send c xid) := by
  unfold send
  refine legal_bind (legal_load xid) fun s _ => ?_
  extract_lets status
  split
  · rename_i h
    exact legal_bind (legal_drive c .commit (GlobalStatus.commit_bound_of_committing h))
      fun _ _ => legal_pure _ trivial
  · split
    · rename_i h
      have h' : s.status = .stopCommitOrCommitRetry := eq_of_beq h
      refine legal_bind (legal_transitAndPersist (by rw [h']; rfl)) fun _ hs' => ?_
      exact legal_bind (legal_drive c .commit (by rw [hs']; rfl)) fun _ _ => legal_pure _ trivial
    · split
      · rename_i h
        exact legal_bind (legal_drive c .rollback (GlobalStatus.rollback_bound_of_rollbacking h))
          fun _ _ => legal_pure _ trivial
      · split
        · rename_i h
          have h' : s.status = .stopRollbackOrRollbackRetry := eq_of_beq h
          refine legal_bind (legal_transitAndPersist (by rw [h']; rfl)) fun _ hs' => ?_
          exact legal_bind (legal_drive c .rollback (by rw [hs']; rfl)) fun _ _ =>
            legal_pure _ trivial
        · exact legal_throw _ fun _ => by nofun

theorem legal_deleteBranch (c : Config) (xid : String) (branchId : Nat) :
    Legal (fun _ => True) (deleteBranch c xid branchId) := by
  unfold deleteBranch
  refine legal_bind (legal_load xid) fun s _ => ?_
  extract_lets jp
  have hjp : ∀ r, Legal (fun _ => True) (jp r) := by
    intro _
    unfold jp
    split
    · rename_i b _
      refine legal_bind (legal_deleteAtParticipant c b) fun _ _ => ?_
      extract_lets jp'
      have hjp' : ∀ r, Legal (fun _ => True) (jp' r) := fun _ =>
        legal_bind (legal_removeBranch s b false) fun _ _ => legal_pure _ trivial
      split
      · exact hjp' ()
      · exact legal_throw_bind _ (fun _ => by nofun) _
    · exact legal_throw _ fun _ => by nofun
  split
  · exact hjp ()
  · exact legal_throw_bind _ (fun _ => by nofun) _

theorem legal_forceDeleteBranch (xid : String) (branchId : Nat) :
    Legal (fun _ => True) (forceDeleteBranch xid branchId) := by
  unfold forceDeleteBranch
  refine legal_bind (legal_load xid) fun s _ => ?_
  split
  · rename_i b _
    exact legal_bind (legal_removeBranch s b true) fun _ _ => legal_pure _ trivial
  · exact legal_throw _ fun _ => by nofun


/-! ## Scan handlers -/

theorem legal_reload (c : Config) (kind : ScanKind) (xid : String) :
    Legal (fun r => ∀ g ∈ r, g.status ∈ kind.statuses) (reload c kind xid) := by
  unfold reload
  refine legal_bind (Legal.frame fun _ => keeps_now _) fun now _ => ?_
  refine legal_bind (legal_find? xid) fun r _ => legal_pure _ fun g hg => ?_
  obtain ⟨-, hc⟩ := Option.mem_filter_iff.1 hg
  exact ScanKind.mem_statuses_of_isCandidate hc

theorem legal_driveHandled (c : Config) (dir : Direction) {s : GlobalSession}
    (h : dir.bound s.status = true) : Legal (fun _ => True) (driveHandled c dir s) :=
  legal_bind (legal_drive c dir h) fun _ _ => legal_pure _ trivial

theorem legal_rollbackTimedOut (c : Config) (xid : String) :
    Legal (fun _ => True) (rollbackTimedOut c xid) := by
  unfold rollbackTimedOut
  refine legal_bind (Legal.frame fun _ => keeps_now _) fun now _ => ?_
  refine legal_bind (legal_reload c .timeoutCheck xid) fun r hr => ?_
  split
  · rename_i s
    have hs : s.status = .begin := by simpa [ScanKind.statuses] using hr s rfl
    extract_lets status
    have hstatus : s.status.canTransitTo status = true := by
      rw [hs]; unfold status; split <;> rfl
    refine legal_bind (legal_transitAndPersist hstatus) fun s' hs' => legal_driveHandled c _ ?_
    rw [hs']; unfold status; split <;> rfl
  · exact legal_pure _ trivial

theorem legal_retryCommit (c : Config) (xid : String) :
    Legal (fun _ => True) (retryCommit c xid) := by
  unfold retryCommit
  refine legal_bind (legal_reload c .retryCommitting xid) fun r hr => ?_
  split
  · rename_i s
    have hs : s.status ∈ ScanKind.retryCommitting.statuses := hr s rfl
    split
    · exact legal_bind (legal_endSession s) fun _ _ => legal_pure _ trivial
    · rename_i hnc
      -- what is left of the candidate statuses once a committed session is removed
      have hs' : s.status = .commitRetrying ∨ s.status = .committing := by
        simp only [ScanKind.statuses, List.mem_cons, List.not_mem_nil, or_false] at hs
        simp only [beq_iff_eq] at hnc
        rcases hs with h | h | h
        · exact .inl h
        · exact .inr h
        · exact absurd h hnc
      refine legal_bind (Legal.frame fun _ => keeps_now _) fun now _ => ?_
      split
      · extract_lets jp
        have hjp : ∀ s', s'.status = .commitRetrying → Legal (fun _ => True) (jp s') :=
          fun s' h' => legal_bind (legal_transitAndPersist (by rw [h']; rfl)) fun _ _ =>
            legal_pure _ trivial
        split
        · rename_i hc
          exact legal_bind (legal_transit (by rw [eq_of_beq hc]; rfl)) hjp
        · rename_i hc
          exact legal_bind (legal_pure s (hs'.resolve_right (by simpa using hc))) hjp
      · exact legal_driveHandled c .commit (by rcases hs' with h | h <;> rw [h] <;> rfl)
  · exact legal_pure _ trivial

theorem legal_commitAsync (c : Config) (xid : String) :
    Legal (fun _ => True) (commitAsync c xid) := by
  unfold commitAsync
  refine legal_bind (legal_reload c .asyncCommitting xid) fun r hr => ?_
  split
  · rename_i s
    have hs : s.status = .asyncCommitting := by simpa [ScanKind.statuses] using hr s rfl
    refine legal_bind (legal_locking (LockManager.keeps_releaseSession _ s)) fun _ _ => ?_
    exact legal_driveHandled c .commit (by rw [hs]; rfl)
  · exact legal_pure _ trivial

theorem legal_retryRollback (c : Config) (xid : String) :
    Legal (fun _ => True) (retryRollback c xid) := by
  unfold retryRollback
  refine legal_bind (legal_reload c .retryRollbacking xid) fun r hr => ?_
  split
  · rename_i s
    have hs : s.status ∈ ScanKind.retryRollbacking.statuses := hr s rfl
    split
    · exact legal_bind (legal_endSession s) fun _ _ => legal_pure _ trivial
    · rename_i hne
      -- what is left of the candidate statuses once a rolled back session is removed
      have hs' : s.status = .rollbackRetrying ∨ s.status = .timeoutRollbackRetrying ∨
          s.status = .timeoutRollbacking ∨ s.status = .rollbacking := by
        simp only [ScanKind.statuses, List.mem_cons, List.not_mem_nil, or_false] at hs
        simp only [Bool.or_eq_true, beq_iff_eq, not_or] at hne
        rcases hs with h | h | h | h | h | h
        · exact .inl h
        · exact .inr (.inl h)
        · exact .inr (.inr (.inl h))
        · exact .inr (.inr (.inr h))
        · exact absurd h hne.1
        · exact absurd h hne.2
      refine legal_bind (Legal.frame fun _ => keeps_now _) fun now _ => ?_
      split
      · extract_lets status jp
        have hjp : ∀ s', s'.status.canTransitTo status = true → Legal (fun _ => True) (jp s') :=
          fun s' h' => legal_bind (legal_locking (LockManager.keeps_releaseSession _ s')) fun _ _ =>
            legal_bind (legal_transitAndPersist h') fun _ _ => legal_pure _ trivial
        split
        · rename_i hc
          refine legal_bind (legal_transit (by rw [eq_of_beq hc]; rfl)) fun s' h' => hjp s' ?_
          rw [h']; unfold status; rw [eq_of_beq hc]; rfl
        · rename_i hc
          refine legal_bind (legal_pure s rfl) fun s' h' => hjp s' ?_
          subst h'
          revert hc
          unfold status
          rcases hs' with h | h | h | h <;> rw [h] <;> decide
      · exact legal_driveHandled c .rollback
          (by rcases hs' with h | h | h | h <;> rw [h] <;> rfl)
  · exact legal_pure _ trivial

theorem legal_handler (c : Config) : ∀ (kind : ScanKind) (xid : String),
    Legal (fun _ => True) (handler c kind xid)
  | .timeoutCheck, xid => legal_rollbackTimedOut c xid
  | .retryCommitting, xid => legal_retryCommit c xid
  | .asyncCommitting, xid => legal_commitAsync c xid
  | .retryRollbacking, xid => legal_retryRollback c xid
  | .undoLogDelete, _ => legal_pure false trivial

theorem legal_underLatch {m : CoordM Bool} (xid : String) (hm : Legal (fun _ => True) m) :
    Legal (fun _ => True) (underLatch xid m) := by
  unfold underLatch
  refine legal_bind (Legal.frame fun _ => keeps_tryLatch _ xid) fun _ _ => ?_
  split
  · exact keeps_holding _ xid hm
  · exact legal_pure _ trivial

theorem legal_candidates (c : Config) (kind : ScanKind) :
    Legal (fun _ => True) (candidates c kind) := by
  unfold candidates
  refine legal_bind (Legal.frame fun _ => keeps_now _) fun _ _ => ?_
  exact legal_bind (legal_store (keeps_sessionRead (SessionTable.keeps_findBy _))) fun _ _ =>
    legal_pure _ trivial

/-- The pool of a scan holds only latched handlers, each of which keeps the statuses known. -/
theorem legal_scanPool (c : Config) (kind : ScanKind) :
    Legal (fun p => p.Keeps Env.KnownStatuses) (scanPool c kind) := by
  unfold scanPool
  refine legal_bind (legal_candidates c kind) fun xids _ => legal_pure _ ⟨?_, nofun, nofun⟩
  simp only [List.mem_map]
  rintro _ ⟨xid, -, rfl⟩
  exact Keeps.mono (fun _ _ => trivial) (legal_underLatch xid (legal_handler c kind xid))

theorem legal_purge (days : Nat) : Legal (fun _ => True) (purge days) := by
  unfold purge
  refine legal_bind (Legal.frame fun _ => keeps_modifyGet_sessions _ fun env => ?_)
    fun failed _ => ?_
  · dsimp only
    split
    · rfl
    · split <;> rfl
  · split
    · exact legal_throw _ fun _ => by nofun
    · exact legal_pure _ trivial

theorem legal_scanNow (c : Config) (kind : ScanKind) : Legal (fun _ => True) (scanNow c kind) := by
  unfold scanNow scan
  refine legal_bind (P := fun _ => True) ?_ fun r _ => ?_
  · rw [Option.mapM_none]
    refine legal_bind (legal_pure none rfl) fun keeper hk => ?_
    subst hk
    split
    · exact legal_bind (legal_purge _) fun _ _ => legal_pure _ trivial
    · exact legal_bind (legal_scanPool c _) fun p hp => Pool.keeps_run_none _ p hp
  · split
    · exact legal_pure _ trivial
    · exact legal_pure _ trivial

end CoordM

/-! ## Runs -/

namespace Op

theorem legal_program (c : Config) : ∀ o : Op, CoordM.Legal (fun _ => True) (o.program c)
  | begin a g n t => keeps_discard (CoordM.legal_begin c a g n t)
  | register t r cl x d k => keeps_discard (CoordM.legal_register t r cl x d k)
  | report x id s d => CoordM.legal_report x id s d
  | commit x => keeps_discard (CoordM.legal_commit c x)
  | rollback x => keeps_discard (CoordM.legal_rollback c x)
  | status x => keeps_discard (CoordM.legal_status x)
  | globalReport x s => keeps_discard (CoordM.legal_globalReport x s)
  | lockQuery t r x k => keeps_discard (CoordM.legal_lockQuery t r x k)
  | recover => keeps_discard CoordM.legal_recover
  | scan kind => keeps_discard (CoordM.legal_scanNow c kind)
  | deleteGlobal x => CoordM.legal_deleteGlobal c x
  | forceDeleteGlobal x => CoordM.legal_forceDeleteGlobal x
  | stopRetry x => keeps_discard (CoordM.legal_stopRetry x)
  | startRetry x => keeps_discard (CoordM.legal_startRetry x)
  | send x => keeps_discard (CoordM.legal_send c x)
  | changeStatus x => keeps_discard (CoordM.legal_changeStatus x)
  | deleteBranch x id => CoordM.legal_deleteBranch c x id
  | forceDeleteBranch x id => CoordM.legal_forceDeleteBranch x id

end Op

theorem Env.Fresh.knownStatuses {env : Env} (h : env.Fresh) : env.KnownStatuses :=
  ⟨{}, h.sessions, nofun⟩

/-- Only operations touch the sessions, and they keep the stored statuses known. -/
theorem Event.knownStatuses_apply (c : Config) :
    ∀ (e : Event) {env : Env}, env.KnownStatuses → (e.apply c env).KnownStatuses
  | .op o, _, h => (Keeps.run (Op.legal_program c o) h).1
  | .script _ _, _, h => h
  | .advance _, _, h => h
  | .failWrites _, _, h => h
  | .failReads _, _, h => h

theorem knownStatuses_runEvents (c : Config) :
    ∀ (events : List Event) {env : Env}, env.KnownStatuses → (runEvents c events env).KnownStatuses
  | [], _, h => h
  | e :: events, _, h => knownStatuses_runEvents c events (e.knownStatuses_apply c h)

/-- Every state a run from empty stores reaches keeps the stored statuses known; from such a
state no operation and no handler of a scan ends in an illegal transition, whatever steps of
others come between its own; so in particular no operation run alone there fails with one.

A transit off the state machine fails with an illegal transition, and only a scan's pool
catches failures, those of its handlers: so no transit either makes is off the state
machine. -/
theorem transitions_follow_state_machine (c : Config) (events : List Event) {start : Env}
    (hstart : start.Fresh) :
    (runEvents c events start).KnownStatuses ∧
      (∀ o : Op, CoordM.Legal (fun _ => True) (o.program c)) ∧
      (∀ kind xid, CoordM.Legal (fun _ => True) (CoordM.handler c kind xid)) ∧
      ∀ (o : Op) (t : IllegalTransition),
        (Steps.run (o.program c).run (runEvents c events start)).1 ≠ .error (.ofTransition t) := by
  have hreach := knownStatuses_runEvents c events hstart.knownStatuses
  refine ⟨hreach, Op.legal_program c, CoordM.legal_handler c, fun o t hfail => ?_⟩
  have hend := (Keeps.run (Op.legal_program c o) hreach).2
  rw [hfail] at hend
  exact hend ⟨t, rfl⟩

/-- A run that begins a transaction and scans for timed-out ones. -/
theorem transitions_follow_state_machine_after_timeout_scan :
    ({ clock := ⟨0⟩, ids := ⟨1, 0⟩ } : Env).Fresh ∧
      (runEvents {} [.op (.begin "app" "group" "tx" 0), .op (.scan .timeoutCheck)]
        { clock := ⟨0⟩, ids := ⟨1, 0⟩ }).KnownStatuses ∧
      (∀ o : Op, CoordM.Legal (fun _ => True) (o.program {})) ∧
      (∀ kind xid, CoordM.Legal (fun _ => True) (CoordM.handler {} kind xid)) ∧
      ∀ (o : Op) (t : IllegalTransition),
        (Steps.run (o.program {}).run
          (runEvents {} [.op (.begin "app" "group" "tx" 0), .op (.scan .timeoutCheck)]
            { clock := ⟨0⟩, ids := ⟨1, 0⟩ })).1 ≠ .error (.ofTransition t) :=
  ⟨⟨rfl, rfl, rfl, rfl⟩, transitions_follow_state_machine {} _ ⟨rfl, rfl, rfl, rfl⟩⟩

end GlobalTxn
