import GlobalTxn.Proofs.HeldRowsCalls

/-! # Driving phase two keeps every held row accounted for

A drive works on a copy of the stored session and writes every change back before it goes on,
so the copy is the stored session as long as no write fails (`Env.Synced`); a failed write ends
the drive.  On this copy each step keeps the rows accounted for:

* a finished branch has its rows released before it is removed (`wp_removeBranch_unlock`),
  and the first branch with its id is the one the store removes;
* a stop changes the session's status but keeps its branches (`wp_suspend`): the retrying
  status of a drive keeps row locks unless the session held none to begin with, an
  asynchronous commit, and the failed statuses keep them;
* the end moves the session to its outcome, which keeps no row locks, and at once releases the
  rows of all its branches and removes it (`wp_endSession_put`).

Waiting for a silent participant is a pause: others may run, and may free rows, so the stop
that follows finds the rows of its session no more numerous than before.  Every step of a drive
frees rows or leaves them (`always_drive`).
-/

namespace GlobalTxn

open Steps

namespace Env

/-- `env` keeps tables whose rows are accounted for, and `s` is the stored session of its xid:
the copy a drive works on is the one stored. -/
def Synced (env : Env) (s : GlobalSession) : Prop :=
  ∃ t lt, env.At t lt ∧ t.Accounts lt ∧ t.find? s.xid = some s

theorem Synced.accounted {env : Env} {s : GlobalSession} (h : env.Synced s) : env.Accounted :=
  let ⟨t, lt, h, hacc, _⟩ := h
  ⟨t, lt, h, hacc⟩

end Env

namespace Direction

/-- A drive stops in a retrying status that keeps row locks, unless it started from a status
that keeps none. -/
theorem retrying_holdsRowLocks (dir : Direction) (st : GlobalStatus) :
    (dir.retrying st).holdsRowLocks = true ∨ st.holdsRowLocks = false := by
  cases dir <;> cases st <;> decide

theorem failed_holdsRowLocks (dir : Direction) : dir.failed.holdsRowLocks = true := by
  cases dir <;> rfl

end Direction

namespace GlobalSession

/-- The branch found under an id is found under its own id. -/
theorem findBranch?_self {s : GlobalSession} {id : Nat} {b : Branch}
    (h : s.findBranch? id = some b) : s.findBranch? b.branchId = some b := by
  have hid : b.branchId = id := by simpa using List.find?_some h
  rw [hid]
  exact h

end GlobalSession

namespace CoordM

/-- `m` run from `env`, alone up to each pause, ends in a state whose rows are accounted for,
failed or not, with a success that `ok` admits; at each pause the rows are accounted for, and
`m` goes on from every such state whose rows were all held before. -/
abbrev Accounted {α : Type} (m : CoordM α) (ok : α → Env → Prop) (env : Env) : Prop :=
  m.run.Wp Env.Accounted Env.OnlyFrees (Ends (fun _ env => env.Accounted) ok) env

variable {env : Env} {t : SessionTable} {lt : LockTable}

theorem wp_load (x : String) (h : env.At t lt) (hacc : t.Accounts lt) :
    (load x).Accounted (fun s env' => env'.At t lt ∧ t.find? x = some s) env := by
  unfold load
  refine wp_bind (wp_find? x h fun _ _ h' => h'.accounted hacc) fun r env' hr => ?_
  obtain ⟨rfl, h'⟩ := hr
  split
  · rename_i s hs
    exact wp_pure _ ⟨h', hs⟩
  · exact wp_throw _ (h'.accounted hacc)

/-- Moving a session and persisting it keeps its stored branches; the tables are those before
with the session replaced. -/
theorem wp_transitAndPersist (s : GlobalSession) (target : GlobalStatus) (h : env.At t lt)
    (hacc : t.Accounts lt) :
    (transitAndPersist s target).Accounted (fun s' env' => ∃ g, t.find? s'.xid = some g ∧
      s'.branches = g.branches ∧ s'.xid = s.xid ∧ s'.status = target ∧ env'.At (t.put s') lt)
      env := by
  unfold transitAndPersist
  refine wp_bind (wp_transit s target h fun _ _ h' => h'.accounted hacc)
    fun s₁ env₁ ⟨h₁, hx, _, hst⟩ => ?_
  refine (wp_update s₁ h₁ fun _ _ h' => h'.accounted hacc).mono fun r env₂ hr => ?_
  rcases r with e | s₂
  · exact hr
  · obtain ⟨t', hu, h₂⟩ := hr
    obtain ⟨g, hg, rfl, rfl⟩ := SessionTable.update_eq_ok hu
    exact ⟨g, hg, rfl, hx, hst, h₂⟩

/-- Moving a session to a status that keeps row locks, or any once its transaction holds no
rows, leaves the session persisted as the stored copy. -/
theorem wp_transitAndPersist_synced {s : GlobalSession} {target : GlobalStatus}
    (h : env.At t lt) (hacc : t.Accounts lt)
    (hs : target.holdsRowLocks = true ∨ ∀ p ∈ lt.rows, p.2.xid ≠ s.xid) :
    (transitAndPersist s target).Accounted
      (fun s' env' => env'.Synced s' ∧ s'.xid = s.xid ∧ s'.status = target) env :=
  (wp_transitAndPersist s target h hacc).mono fun r env' hr => match r, hr with
    | .error _, hr => hr
    | .ok s', ⟨_, hg, hb, hx, hst, h'⟩ =>
      ⟨⟨_, _, h', hacc.put_status hg hb (by rw [hst, hx]; exact hs),
        SessionTable.find?_put_self hg⟩, hx, hst⟩

/-- Removing a branch that a drive finished: its rows are released first, and the store removes
the first branch with its id, which is this one. -/
theorem wp_removeBranch_unlock {s : GlobalSession} {b : Branch} (hs : env.Synced s)
    (hb : s.findBranch? b.branchId = some b) :
    (removeBranch s b true).Accounted
      (fun s' env' => env'.Synced s' ∧ s' = s.removeBranch b.branchId) env := by
  obtain ⟨t, lt, h, hacc, hg⟩ := hs
  obtain ⟨-, ls, hls⟩ :=
    hacc.branches s (SessionTable.find?_eq_some hg).1 b (List.mem_of_find?_eq_some hb)
  unfold removeBranch
  rw [if_pos rfl]
  refine wp_bind (P := fun _ env₁ => env₁.At t (lt.release ls))
    (wp_adapt (wp_releaseBranch hls h fun _ h' => h')) fun _ env₁ h₁ => ?_
  refine wp_bind (wp_removeBranch s.xid b.branchId h₁ fun _ _ h' => h'.accounted
    (hacc.release ls)) fun _ env₂ h₂ => ?_
  rw [SessionTable.removeBranch_eq hg] at h₂
  exact wp_pure _ ⟨⟨_, _, h₂, SessionTable.removeBranch_eq hg ▸ hacc.removeBranch_release hg hb hls,
    SessionTable.find?_put_self hg⟩, rfl⟩

/-- Removing a branch whose rows were released just before. -/
theorem wp_removeBranch_released {s : GlobalSession} {b : Branch} {ls : List RowLock}
    (h : env.At t (lt.release ls)) (hacc : t.Accounts lt) (hg : t.find? s.xid = some s)
    (hb : s.findBranch? b.branchId = some b) (hls : LockManager.collect b = .ok ls) :
    (removeBranch s b false).Accounted
      (fun s' env' => env'.Synced s' ∧ s' = s.removeBranch b.branchId) env := by
  unfold removeBranch
  rw [if_neg Bool.false_ne_true]
  refine wp_bind (wp_removeBranch s.xid b.branchId h fun _ _ h' => h'.accounted
    (hacc.release ls)) fun _ env₂ h₂ => ?_
  rw [SessionTable.removeBranch_eq hg] at h₂
  exact wp_pure _ ⟨⟨_, _, h₂, SessionTable.removeBranch_eq hg ▸ hacc.removeBranch_release hg hb hls,
    SessionTable.find?_put_self hg⟩, rfl⟩

/-- Ending a session just persisted with its stored branches and any status: the rows of all its
branches are released, then it is removed. -/
theorem wp_endSession_put {s g : GlobalSession} (h : env.At (t.put s) lt) (hacc : t.Accounts lt)
    (hg : t.find? s.xid = some g) (hb : s.branches = g.branches) :
    (endSession s).Accounted (fun _ env' => env'.Accounted) env := by
  obtain ⟨ls, hls⟩ := hacc.collect_session (SessionTable.find?_eq_some hg).1
  rw [← hb] at hls
  have hacc' := hacc.put_release hg hb hls
  -- the release frees every row of the session's transaction
  have hfree : ∀ p ∈ (lt.release ls).rows, p.2.xid ≠ s.xid :=
    hacc.release_session hg (by rw [← hb]; exact hls)
  unfold endSession
  refine wp_bind (P := fun _ env₁ => env₁.At (t.put s) (lt.release ls))
    (wp_adapt (wp_releaseSession hls h fun _ h' => h')) fun _ env₁ h₁ => ?_
  exact (wp_remove s.xid h₁ fun _ _ h' => h'.accounted hacc').mono fun r env₂ hr =>
    match r, hr with
    | .ok (), h₂ => h₂.accounted (hacc'.remove hfree)
    | .error _, hr => hr

/-- Ending the stored session. -/
theorem wp_endSession {s : GlobalSession} (hs : env.Synced s) :
    (endSession s).Accounted (fun _ env' => env'.Accounted) env := by
  obtain ⟨t, lt, h, hacc, hg⟩ := hs
  rw [← SessionTable.put_of_find? hacc.xids hg] at h
  exact wp_endSession_put h hacc hg rfl

/-- Where a drive stops: the branch's reported status is recorded on the stored branch, which
keeps its row locks, and the session takes `status`, keeping its branches. -/
theorem wp_suspend {s : GlobalSession} {b : Branch} {reported : Option BranchStatus}
    {status : GlobalStatus} (h : env.At t lt) (hacc : t.Accounts lt)
    (hrows : status.holdsRowLocks = true ∨ ∀ p ∈ lt.rows, p.2.xid ≠ s.xid)
    (hrep : reported.isSome → t.find? s.xid = some s ∧ s.findBranch? b.branchId = some b) :
    (suspend s b reported status).Accounted (fun _ env' => env'.Accounted) env := by
  -- after the branch's status is recorded: the session's status changes, its branches stay
  have hrest : ∀ env₁ t₁, env₁.At t₁ lt → t₁.Accounts lt →
      (do let s ← transit s status; let _ ← store (sessionStore.update s); pure status :
        CoordM GlobalStatus).Accounted (fun _ env' => env'.Accounted) env₁ := by
    intro env₁ t₁ h₁ hacc₁
    refine wp_bind (wp_transit s status h₁ fun _ _ h' => h'.accounted hacc₁)
      fun s₁ env₂ ⟨h₂, hx, _, hst⟩ => ?_
    refine wp_bind (wp_update s₁ h₂ fun _ _ h' => h'.accounted hacc₁)
      fun s₂ env₃ ⟨t₃, hu, h₃⟩ => ?_
    obtain ⟨g, hg, rfl, rfl⟩ := SessionTable.update_eq_ok hu
    exact wp_pure status (h₃.accounted (hacc₁.put_status hg rfl (by rw [hst, hx]; exact hrows)))
  unfold suspend
  dsimp only
  split
  · rename_i r
    obtain ⟨hg, hb⟩ := hrep rfl
    split
    · refine wp_bind (wp_updateBranch _ h fun _ _ h' => h'.accounted hacc)
        fun _ env₁ ⟨t₁, hu, h₁⟩ => ?_
      obtain ⟨g, c, hg', hc, rfl⟩ := SessionTable.updateBranch_eq_ok hu
      -- the branch replaced is `b` itself, in the stored session `s`
      have hbx := (hacc.branches s (SessionTable.find?_eq_some hg).1 b
        (List.mem_of_find?_eq_some hb)).1
      rw [show ({ b with status := r } : Branch).xid = s.xid from hbx, hg] at hg'
      cases hg'
      rw [show ({ b with status := r } : Branch).branchId = b.branchId from rfl, hb] at hc
      cases hc
      exact hrest env₁ _ h₁ (hacc.replaceBranch (hbx ▸ hg) hb rfl)
    · exact hrest env t h hacc
  · exact hrest env t h hacc

/-- Driving the branches with ids `ids` of the stored session `s`.  By induction on the ids: a
finished branch is removed and the drive goes on with the stored session left, and every stop
and the end keep the rows accounted for. -/
theorem wp_go (c : Config) (dir : Direction) :
    ∀ (ids : List Nat) (s : GlobalSession) (env : Env), env.Synced s →
      (drive.go c dir s ids).Accounted (fun _ env' => env'.Accounted) env
  | [], s, env, hs => by
    obtain ⟨t, lt, h, hacc, hg⟩ := hs
    unfold drive.go
    refine wp_bind (wp_transit s _ h fun _ _ h' => h'.accounted hacc)
      fun s₁ env₁ ⟨h₁, hx, hb₁, _⟩ => ?_
    refine wp_bind (wp_update s₁ h₁ fun _ _ h' => h'.accounted hacc)
      fun s₂ env₂ ⟨t₂, hu, h₂⟩ => ?_
    obtain ⟨g, hg', rfl, rfl⟩ := SessionTable.update_eq_ok hu
    rw [hx, hg] at hg'
    cases hg'
    -- the session persisted is the moved one, whose branches are the stored ones
    have hs₁ : ({ s₁ with branches := s.branches } : GlobalSession) = s₁ := by rw [← hb₁]
    have hg₁ : t.find? s₁.xid = some s := by rw [hx]; exact hg
    rw [hs₁] at h₂
    exact wp_bind (wp_endSession_put h₂ hacc hg₁ hb₁) fun _ _ h₃ => wp_pure _ h₃
  | id :: rest, s, env, hs => by
    unfold drive.go
    split
    · exact wp_go c dir rest s env hs
    · rename_i b hb
      have hb' := GlobalSession.findBranch?_self hb
      -- a branch done is removed, and the drive goes on from the session left
      have hnext : ∀ env, env.Synced s →
          (removeBranch s b true >>= fun s => drive.go c dir s rest).Accounted
            (fun _ env' => env'.Accounted) env := fun env hs =>
        wp_bind (wp_removeBranch_unlock hs hb') fun s' env' ⟨hs', _⟩ =>
          wp_go c dir rest s' env' hs'
      split
      · exact hnext env hs
      · obtain ⟨t, lt, h, hacc, hg⟩ := hs
        -- the rows of the session's transaction are none when its status keeps none
        have hrows : ∀ st : GlobalStatus, st.holdsRowLocks = true ∨
            s.status.holdsRowLocks = false →
              st.holdsRowLocks = true ∨ ∀ p ∈ lt.rows, p.2.xid ≠ s.xid :=
          fun _ hst => hst.imp_right fun hs => hacc.no_rows hg hs
        refine wp_bind (wp_requestPhaseTwo _ b _ h) fun _ env₁ h₁ => ?_
        split
        · split
          · exact hnext env₁ ⟨t, lt, h₁, hacc, hg⟩
          · exact wp_suspend h₁ hacc (hrows _ (dir.retrying_holdsRowLocks s.status))
              fun _ => ⟨hg, hb'⟩
          · exact wp_suspend h₁ hacc (.inl dir.failed_holdsRowLocks) fun _ => ⟨hg, hb'⟩
        · exact wp_suspend h₁ hacc (hrows _ (dir.retrying_holdsRowLocks s.status)) nofun
        · -- a silent participant: after the wait, others may have freed rows, taken none
          refine wp_bind (wp_sleep _ h₁ hacc) fun _ env₂ ⟨⟨t₂, lt₂, h₂, hacc₂⟩, hle⟩ => ?_
          refine wp_suspend h₂ hacc₂ ?_ nofun
          refine (hrows _ (dir.retrying_holdsRowLocks s.status)).imp_right fun hno p hp => ?_
          have := hle p (h₂.lockRows ▸ hp)
          rw [h₁.lockRows] at this
          exact hno p this

theorem wp_drive (c : Config) (dir : Direction) {s : GlobalSession} (hs : env.Synced s) :
    (drive c dir s).Accounted (fun _ env' => env'.Accounted) env :=
  wp_go c dir _ s env hs

/-! ## Every step of a drive frees rows or leaves them -/

theorem always_load (x : String) : (load x).run.Always Env.OnlyFrees := by
  unfold load
  refine always_bind always_storeRead fun r => ?_
  split
  · exact always_pure _
  · exact always_throw _

theorem always_transitAndPersist (s : GlobalSession) (target : GlobalStatus) :
    (transitAndPersist s target).run.Always Env.OnlyFrees :=
  always_bind (always_transit s target) fun _ => always_storeWrite

theorem always_removeBranch (s : GlobalSession) (b : Branch) (unlock : Bool) :
    (removeBranch s b unlock).run.Always Env.OnlyFrees := by
  have hrest :
      (do store (sessionStore.removeBranch s.xid b.branchId); pure (s.removeBranch b.branchId) :
        CoordM GlobalSession).run.Always Env.OnlyFrees :=
    always_bind always_storeWrite fun _ => always_pure _
  unfold removeBranch
  dsimp only
  split
  · exact always_bind (always_adapt (always_releaseBranch b)) fun _ => hrest
  · exact hrest

theorem always_endSession (s : GlobalSession) : (endSession s).run.Always Env.OnlyFrees :=
  always_bind (always_adapt (always_releaseSession s)) fun _ => always_storeWrite

theorem always_suspend (s : GlobalSession) (b : Branch) (reported : Option BranchStatus)
    (status : GlobalStatus) : (suspend s b reported status).run.Always Env.OnlyFrees := by
  have hrest : (do let s ← transit s status; let _ ← store (sessionStore.update s); pure status :
      CoordM GlobalStatus).run.Always Env.OnlyFrees :=
    always_bind (always_transit s status) fun _ => always_bind always_storeWrite fun _ =>
      always_pure _
  unfold suspend
  dsimp only
  split
  · split
    · exact always_bind always_storeWrite fun _ => hrest
    · exact hrest
  · exact hrest

theorem always_go (c : Config) (dir : Direction) :
    ∀ (ids : List Nat) (s : GlobalSession), (drive.go c dir s ids).run.Always Env.OnlyFrees
  | [], s => by
    unfold drive.go
    exact always_bind (always_transit s _) fun s' => always_bind always_storeWrite fun _ =>
      always_bind (always_endSession s') fun _ => always_pure _
  | id :: rest, s => by
    unfold drive.go
    split
    · exact always_go c dir rest s
    · rename_i b _
      have hnext : (removeBranch s b true >>= fun s => drive.go c dir s rest).run.Always
          Env.OnlyFrees :=
        always_bind (always_removeBranch s b true) fun s' => always_go c dir rest s'
      split
      · exact hnext
      · refine always_bind (always_requestPhaseTwo _ b _) fun _ => ?_
        split
        · split
          · exact hnext
          · exact always_suspend s b _ _
          · exact always_suspend s b _ _
        · exact always_suspend s b _ _
        · exact always_bind (always_sleep _) fun _ => always_suspend s b _ _

theorem always_drive (c : Config) (dir : Direction) (s : GlobalSession) :
    (drive c dir s).run.Always Env.OnlyFrees :=
  always_go c dir _ s

end CoordM

end GlobalTxn
