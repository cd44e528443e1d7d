import GlobalTxn.Proofs.HeldRowsScan

/-! # Every operation keeps the held rows accounted for

Each operation of the coordinator, run from tables whose rows are accounted for, ends in such
tables, failed or not (`wp_program`).  Most operations change a session through the steps of
`HeldRowsDrive`; the others change the tables in ways `HeldRows` accounts for:

* `begin` stores a session without branches;
* `register` acquires the rows of the new branch, all or none, before the session store takes
  the branch, and releases them again if the store refuses it;
* `report` replaces a branch by one with the same row locks;
* an asynchronous `commit` persists a status that keeps no row locks and releases the
  session's rows right after, with no pause in between;
* `globalReport` releases the rows of a finished session before removing it;
* `recover` acquires the rows of stored branches of sessions that keep row locks;
* deleting a session deletes its branches one by one, each at its participant first and with
  its rows released (`wp_deleteAll`).

A store write that fails leaves the tables as they were, so a failure at any point leaves them
accounted for.
-/

namespace GlobalTxn

open Steps

namespace GlobalSession

variable {s : GlobalSession} {b : Branch} {l : List Branch}

/-- The first branch is the first one with its id. -/
theorem findBranch?_head (hb : s.branches = b :: l) : s.findBranch? b.branchId = some b := by
  simp [findBranch?, hb]

theorem branches_removeBranch_head (hb : s.branches = b :: l) :
    (s.removeBranch b.branchId).branches = l := by
  simp [removeBranch, hb]

end GlobalSession

namespace CoordM

variable {env : Env} {t : SessionTable} {lt : LockTable}

/-! ## Operations of transaction managers and participants -/

theorem wp_begin (c : Config) (applicationId group name : String) (timeout : Duration)
    (h : env.At t lt) (hacc : t.Accounts lt) :
    (begin c applicationId group name timeout).Accounted (fun _ env' => env'.Accounted) env := by
  unfold begin
  dsimp only
  split
  · exact wp_throw_bind _ (h.accounted hacc)
  · refine wp_bind (wp_nextId h) fun _ env₁ h₁ => ?_
    refine wp_bind (wp_now h₁) fun _ env₂ h₂ => ?_
    refine wp_bind (wp_add _ h₂ fun _ _ h' => h'.accounted hacc) fun _ env₃ ⟨t₃, hadd, h₃⟩ => ?_
    -- the new session has no branches, and its xid is not stored yet
    obtain ⟨hnone, rfl⟩ := SessionTable.add_eq_ok hadd
    exact wp_pure _ (h₃.accounted (hacc.add hnone rfl))

/-- Enlisting branch `b` of the stored session `g`, in `Begin`: its rows are acquired, all or
none, and the session store takes the branch; if it refuses, the rows just acquired are
released again. -/
theorem wp_register (bt : BranchType) (resourceId clientId x applicationData lockKey : String)
    (h : env.At t lt) (hacc : t.Accounts lt) :
    (register bt resourceId clientId x applicationData lockKey).Accounted
      (fun _ env' => env'.Accounted) env := by
  unfold register
  refine wp_bind (wp_load x h hacc) fun s env₁ ⟨h₁, hg⟩ => ?_
  dsimp only
  split
  · rename_i hbegin
    refine wp_bind (wp_nextId h₁) fun bid env₂ h₂ => ?_
    refine wp_bind (wp_now h₂) fun now env₃ h₃ => ?_
    generalize hb : (⟨s.xid, s.transactionId, bid, s.transactionServiceGroup, resourceId,
      clientId, bt, .registered, lockKey, applicationData, now⟩ : Branch) = b
    have hg' : t.find? b.xid = some s := by
      rw [← hb]
      exact SessionTable.find?_self hg
    cases hls : LockManager.collect b with
    | error e =>
      -- a malformed lock key: nothing is acquired
      have hfail : (LockManager.acquireBranch lockStore b).run.Wp Env.Accounted Env.OnlyFrees
          (Ends (fun _ env' => env'.Accounted) fun _ _ => False) env₃ :=
        wp_acquireBranch_error hls (h₃.accounted hacc)
      exact wp_bind (wp_adapt hfail) fun _ _ h => False.elim h
    | ok ls =>
      refine wp_bind (P := fun r env₄ => r = (lt.acquire ls).1 ∧ env₄.At t (lt.acquire ls).2)
        (wp_adapt (wp_acquireBranch hls h₃ fun _ h' => ⟨rfl, h'⟩)) fun r env₄ ⟨hr, h₄⟩ => ?_
      subst hr
      split
      · -- the rows are held: the store takes the branch, or they are released again
        refine wp_bind (P := fun r env' => (r.isOk = true → ∃ t', t.addBranch b = .ok t' ∧
            env'.At t' (lt.acquire ls).2) ∧ (r.isOk = false → env'.At t (lt.acquire ls).2))
          (wp_storeResult_addBranch b h₄ (fun _ _ h' => ⟨nofun, fun _ => h'⟩)
            fun t' ht' _ h' => ⟨fun _ => ⟨t', ht', h'⟩, nofun⟩) fun r env₅ ⟨hok, hfail⟩ => ?_
        split
        · obtain ⟨t', ht', h₅⟩ := hok rfl
          obtain ⟨g, hg₅, hs, rfl⟩ := SessionTable.addBranch_eq_ok ht'
          exact wp_pure _ (h₅.accounted (hacc.addBranch_acquire hg₅ hs hls))
        · have hkeys := (hacc.keys.acquire ls).release ls
          have hacc' : t.Accounts (((lt.acquire ls).2).release ls) :=
            hacc.of_subset hkeys fun _ hp => LockTable.mem_release_acquire hacc.keys hp
          refine wp_bind (wp_lockingResult (wp_releaseBranch hls (hfail rfl) fun _ h' => h'))
            fun _ env₆ h₆ => ?_
          split
          · exact wp_throw _ (h₆.accounted hacc')
          · exact wp_throw _ (h₆.accounted hacc')
      · -- a conflict: nothing was acquired
        rename_i hconflict
        rw [LockTable.acquire_eq_of_fst_eq_false (Bool.eq_false_iff.2 hconflict)] at h₄
        exact wp_throw_bind _ (h₄.accounted hacc)
  · split
    · exact wp_pure _ (h₁.accounted hacc)
    · exact wp_throw_bind _ (h₁.accounted hacc)
  · split
    · exact wp_pure _ (h₁.accounted hacc)
    · exact wp_throw_bind _ (h₁.accounted hacc)
  · exact wp_throw_bind _ (h₁.accounted hacc)

/-- A report replaces a branch by one with new status and data, and the same row locks. -/
theorem wp_report (x : String) (branchId : Nat) (status : BranchStatus)
    (applicationData : Option String) (h : env.At t lt) (hacc : t.Accounts lt) :
    (report x branchId status applicationData).Accounted (fun _ env' => env'.Accounted) env := by
  unfold report
  refine wp_bind (wp_load x h hacc) fun s env₁ ⟨h₁, hg⟩ => ?_
  dsimp only
  split
  · rename_i b hb
    have hg' := SessionTable.find?_self hg
    -- the branch found belongs to the stored session, under its own id
    have hbx := (hacc.branches s (SessionTable.find?_eq_some hg).1 b
      (List.mem_of_find?_eq_some hb)).1
    have hb' := GlobalSession.findBranch?_self hb
    split
    · refine (wp_updateBranch _ h₁ fun _ _ h' => h'.accounted hacc).mono
        (Ends.imp (fun _ _ h => h) fun _ env₂ ⟨t₂, hu, h₂⟩ => ?_)
      obtain ⟨g, c, hg₂, hc, rfl⟩ := SessionTable.updateBranch_eq_ok hu
      rw [show ({ b with status, applicationData := applicationData.getD b.applicationData } :
        Branch).xid = s.xid from hbx, hg'] at hg₂
      cases hg₂
      rw [show ({ b with status, applicationData := applicationData.getD b.applicationData } :
        Branch).branchId = b.branchId from rfl, hb'] at hc
      cases hc
      exact h₂.accounted (hacc.replaceBranch (hbx ▸ hg') hb' rfl)
    · exact wp_throw_bind _ (h₁.accounted hacc)
  · exact wp_throw _ (h₁.accounted hacc)

theorem wp_commit (c : Config) (x : String) (h : env.At t lt) (hacc : t.Accounts lt) :
    (commit c x).Accounted (fun _ env' => env'.Accounted) env := by
  unfold commit
  refine wp_bind (wp_find? x h fun _ _ h' => h'.accounted hacc) fun r env₁ ⟨hr, h₁⟩ => ?_
  cases r with
  | none => exact wp_pure _ (h₁.accounted hacc)
  | some s =>
    have hg := SessionTable.find?_self hr.symm
    dsimp only
    split
    · split
      · -- asynchronous: the status persisted keeps no row locks, and the session's rows are
        -- released right after
        refine wp_bind (wp_transitAndPersist s _ h₁ hacc) fun s₁ env₂ ⟨g, hg₁, hb, _, _, h₂⟩ => ?_
        obtain ⟨ls, hls⟩ := hacc.collect_session (SessionTable.find?_eq_some hg₁).1
        rw [← hb] at hls
        exact wp_bind (wp_lockingResult (wp_releaseSession hls h₂ fun _ h' => h'))
          fun _ _ h₃ => wp_pure _ (h₃.accounted (hacc.put_release hg₁ hb hls))
      · exact wp_bind (wp_transitAndPersist_synced h₁ hacc (.inl rfl)) fun _ _ ⟨hs, _⟩ =>
          wp_drive c .commit hs
    · exact wp_pure _ (h₁.accounted hacc)
    · split
      · exact wp_pure _ (h₁.accounted hacc)
      · exact wp_throw _ (h₁.accounted hacc)

theorem wp_rollback (c : Config) (x : String) (h : env.At t lt) (hacc : t.Accounts lt) :
    (rollback c x).Accounted (fun _ env' => env'.Accounted) env := by
  unfold rollback
  refine wp_bind (wp_find? x h fun _ _ h' => h'.accounted hacc) fun r env₁ ⟨_, h₁⟩ => ?_
  cases r with
  | none => exact wp_pure _ (h₁.accounted hacc)
  | some s =>
    dsimp only
    split
    · exact wp_bind (wp_transitAndPersist_synced h₁ hacc (.inl rfl)) fun _ _ ⟨hs, _⟩ =>
        wp_drive c .rollback hs
    · split
      · exact wp_pure _ (h₁.accounted hacc)
      · exact wp_throw _ (h₁.accounted hacc)

theorem wp_status (x : String) (h : env.At t lt) (hacc : t.Accounts lt) :
    (status x).Accounted (fun _ env' => env'.Accounted) env := by
  unfold status
  exact wp_bind (wp_find? x h fun _ _ h' => h'.accounted hacc) fun _ _ ⟨_, h₁⟩ =>
    wp_pure _ (h₁.accounted hacc)

/-- A session that reports its own outcome: a final one ends it, its rows released first; an
intermediate one, which keeps row locks, is recorded on the stored session. -/
theorem wp_globalReport (x : String) (status : GlobalStatus) (h : env.At t lt)
    (hacc : t.Accounts lt) :
    (globalReport x status).Accounted (fun _ env' => env'.Accounted) env := by
  unfold globalReport
  refine wp_bind (wp_find? x h fun _ _ h' => h'.accounted hacc) fun r env₁ ⟨hr, h₁⟩ => ?_
  cases r with
  | none => exact wp_pure _ (h₁.accounted hacc)
  | some s =>
    have hg : t.find? x = some s := hr.symm
    have hend : ∀ st : GlobalStatus, (do
        locking (LockManager.releaseSession lockStore s)
        let _ ← store (sessionStore.remove x)
        pure st : CoordM GlobalStatus).Accounted (fun _ env' => env'.Accounted) env₁ := by
      intro st
      obtain ⟨ls, hls⟩ := hacc.collect_session (SessionTable.find?_eq_some hg).1
      refine wp_bind (P := fun _ env₂ => env₂.At t (lt.release ls))
        (wp_adapt (wp_releaseSession hls h₁ fun _ h' => h')) fun _ env₂ h₂ => ?_
      have hacc' := (hacc.release ls).remove (hacc.release_session hg hls)
      exact wp_bind (wp_remove x h₂ fun _ _ h' => h'.accounted (hacc.release ls))
        fun _ _ h₃ => wp_pure st (h₃.accounted hacc')
    have hrecord : ∀ st : GlobalStatus, st.holdsRowLocks = true → (do
        let now ← now
        let _ ← store (sessionStore.update { s with status := st, gmtUpdated := now })
        pure st : CoordM GlobalStatus).Accounted (fun _ env' => env'.Accounted) env₁ := by
      intro st hst
      refine wp_bind (wp_now h₁) fun _ env₂ h₂ => ?_
      refine wp_bind (wp_update _ h₂ fun _ _ h' => h'.accounted hacc)
        fun _ env₃ ⟨t₃, hu, h₃⟩ => ?_
      obtain ⟨g, hg₃, rfl, rfl⟩ := SessionTable.update_eq_ok hu
      exact wp_pure st (h₃.accounted (hacc.put_status hg₃ rfl (.inl hst)))
    dsimp only
    split
    · split
      · exact hend _
      · exact hend _
      · exact hend _
      · exact hrecord _ rfl
      · exact hrecord _ rfl
      · exact hrecord _ rfl
      · exact hrecord _ rfl
      · exact hrecord _ rfl
      · exact hrecord _ rfl
      · exact wp_throw_bind _ (h₁.accounted hacc)
    · exact wp_throw_bind _ (h₁.accounted hacc)

theorem wp_lockQuery (bt : BranchType) (resourceId x lockKey : String) (h : env.At t lt)
    (hacc : t.Accounts lt) :
    (lockQuery bt resourceId x lockKey).Accounted (fun _ env' => env'.Accounted) env := by
  unfold lockQuery
  dsimp only
  split
  · exact wp_adapt ((wp_isLockable x resourceId lockKey h).mono
      (Ends.imp (fun _ _ h' => h'.accounted hacc) fun _ _ h' => h'.accounted hacc))
  · exact wp_throw_bind _ (h.accounted hacc)

/-- Recovery acquires the rows of stored branches of sessions that keep row locks, and changes
no session. -/
theorem wp_recover (h : env.At t lt) (hacc : t.Accounts lt) :
    recover.Accounted (fun _ env' => env'.Accounted) env := by
  unfold recover
  refine wp_bind (wp_findBy _ h fun _ _ h' => h'.accounted hacc) fun gs env₁ ⟨hgs, h₁⟩ => ?_
  -- by induction on the sessions left, each of them stored, with the session table unchanged
  refine wp_foldlM (R := fun l _ env' => (∀ g ∈ l, g ∈ t.sessions) ∧
      ∃ lt', env'.At t lt' ∧ t.Accounts lt') ?_ (fun _ _ ⟨_, lt', h', hacc'⟩ => ⟨t, lt', h', hacc'⟩)
    gs _ env₁ ⟨fun g hg => SessionTable.mem_findBy (hgs ▸ hg), lt, h₁, hacc⟩
  rintro g l _ env₂ ⟨hmem, lt₂, h₂, hacc₂⟩
  have hg := hmem g List.mem_cons_self
  have hrest : ∀ g' ∈ l, g' ∈ t.sessions := fun g' hg' => hmem g' (List.mem_cons_of_mem g hg')
  dsimp only
  split
  · exact wp_pure _ ⟨hrest, lt₂, h₂, hacc₂⟩
  · rename_i hhold
    have hs : g.status.holdsRowLocks = true := by simpa using hhold
    -- by induction on the branches left of `g`, each of them stored
    refine wp_foldlM (R := fun l' _ env' => (∀ b ∈ l', b ∈ g.branches) ∧
        ∃ lt', env'.At t lt' ∧ t.Accounts lt') ?_ (fun _ _ ⟨_, hlt⟩ => ⟨hrest, hlt⟩)
      g.branches _ env₂ ⟨fun _ hb => hb, lt₂, h₂, hacc₂⟩
    rintro b l' _ env₃ ⟨hbs, lt₃, h₃, hacc₃⟩
    have hb := hbs b List.mem_cons_self
    obtain ⟨-, ls, hls⟩ := hacc₃.branches g hg b hb
    refine wp_bind (P := fun _ env₄ => env₄.At t (lt₃.acquire ls).2)
      (wp_adapt (wp_acquireBranch hls h₃ fun _ h' => h')) fun _ env₄ h₄ => ?_
    have hacc₄ := hacc₃.acquire_stored hg hs hb hls
    have hbs' : ∀ b' ∈ l', b' ∈ g.branches := fun b' hb' => hbs b' (List.mem_cons_of_mem b hb')
    split
    · exact wp_pure _ ⟨hbs', _, h₄, hacc₄⟩
    · exact wp_pure _ ⟨hbs', _, h₄, hacc₄⟩

/-! ## Operations for operators -/

/-- Deleting a branch at its participant, which releases the branch's rows once the
participant agrees; a refusal, a failure or a silence leave the rows accounted for. -/
theorem wp_deleteAtParticipant (c : Config) {b : Branch} {ls : List RowLock}
    (hls : LockManager.collect b = .ok ls) (h : env.At t lt) (hacc : t.Accounts lt) :
    (deleteAtParticipant c b).Accounted
      (fun r env' => env'.Accounted ∧ (r = true → env'.At t (lt.release ls))) env := by
  -- the unlock, once the participant has deleted the branch's data, answers whether it worked
  have hrelease : ∀ env₁, env₁.At t lt →
      (lockingResult (LockManager.releaseBranch lockStore b)).run.Wp Env.Accounted Env.OnlyFrees
        (Ends (fun _ env' => env'.Accounted) fun _ env' => env'.At t (lt.release ls)) env₁ :=
    fun _ h₁ => wp_lockingResult (wp_releaseBranch hls h₁ fun _ h' => h')
  have hanswer : ∀ (r : Bool) env₂, env₂.At t (lt.release ls) → (pure r : CoordM Bool).Accounted
      (fun r env' => env'.Accounted ∧ (r = true → env'.At t (lt.release ls))) env₂ :=
    fun r _ h₂ => wp_pure r ⟨h₂.accounted (hacc.release ls), fun _ => h₂⟩
  unfold deleteAtParticipant
  dsimp only
  split
  · refine wp_bind (wp_requestDelete b h) fun _ env₁ h₁ => ?_
    split
    · exact wp_bind (hrelease env₁ h₁) fun _ env₂ h₂ => by split <;> exact hanswer _ env₂ h₂
    · exact wp_bind (wp_sleep _ h₁ hacc) fun _ _ ⟨hacc', _⟩ => wp_pure false ⟨hacc', nofun⟩
    · exact wp_pure false ⟨h₁.accounted hacc, nofun⟩
  · exact wp_bind (hrelease env h) fun _ env₂ h₂ => by split <;> exact hanswer _ env₂ h₂

/-- A step that needs a branch deleted at its participant first: it runs with the branch's rows
released, or the operation fails with `e`. -/
theorem wp_unlessDeleted {α : Type} (c : Config) {b : Branch} {ls : List RowLock}
    (hls : LockManager.collect b = .ok ls) (h : env.At t lt) (hacc : t.Accounts lt)
    (e : CoordError) {k : CoordM α} {ok : α → Env → Prop}
    (hk : ∀ env', env'.At t (lt.release ls) → k.Accounted ok env') :
    (do
      unless ← deleteAtParticipant c b do
        throw e
      k).Accounted ok env := by
  refine wp_bind (wp_deleteAtParticipant c hls h hacc) fun r env₁ ⟨hacc₁, hr⟩ => ?_
  dsimp only
  split
  · exact hk env₁ (hr ‹_›)
  · exact wp_throw_bind e hacc₁

/-- Deleting every branch of the stored session `s`, then the session.  By induction on the
branches left: each is deleted at its participant, with its rows released, and removed from
the stored session, which is the first branch of the session left. -/
theorem wp_deleteAll (c : Config) (x : String) {s : GlobalSession} (hs : env.Synced s) :
    (do
      let s ← s.branches.foldlM (fun s b => do
        unless ← deleteAtParticipant c b do
          throw (CoordError.branchDeleteFailed x b.branchId)
        removeBranch s b false) s
      endSession s).Accounted (fun _ env' => env'.Accounted) env := by
  refine wp_bind (wp_foldlM (R := fun l s env' => env'.Synced s ∧ s.branches = l) ?_
    (fun _ _ h' => h') s.branches s env ⟨hs, rfl⟩) fun s' env' ⟨hs', _⟩ => wp_endSession hs'
  rintro b l s₁ env₁ ⟨⟨t, lt, h₁, hacc, hg⟩, hb⟩
  obtain ⟨-, ls, hls⟩ :=
    hacc.branches s₁ (SessionTable.find?_eq_some hg).1 b (hb ▸ List.mem_cons_self)
  refine wp_unlessDeleted c hls h₁ hacc _ fun env₂ h₂ => ?_
  refine (wp_removeBranch_released h₂ hacc hg (GlobalSession.findBranch?_head hb) hls).mono
    (Ends.imp (fun _ _ h' => h') fun s₂ _ ⟨hs₂, hrem⟩ => ⟨hs₂, ?_⟩)
  rw [hrem]
  exact GlobalSession.branches_removeBranch_head hb

theorem wp_deleteGlobal (c : Config) (x : String) (h : env.At t lt) (hacc : t.Accounts lt) :
    (deleteGlobal c x).Accounted (fun _ env' => env'.Accounted) env := by
  unfold deleteGlobal
  refine wp_bind (wp_load x h hacc) fun s env₁ ⟨h₁, hg⟩ => ?_
  dsimp only
  split
  · split
    · exact wp_deleteAll c x ⟨t, lt, h₁, hacc, SessionTable.find?_self hg⟩
    · exact wp_bind (wp_transitAndPersist_synced h₁ hacc (.inl rfl)) fun _ _ ⟨hs, _⟩ =>
        wp_deleteAll c x hs
  · exact wp_throw_bind _ (h₁.accounted hacc)

theorem wp_forceDeleteGlobal (x : String) (h : env.At t lt) (hacc : t.Accounts lt) :
    (forceDeleteGlobal x).Accounted (fun _ env' => env'.Accounted) env := by
  unfold forceDeleteGlobal
  refine wp_bind (wp_load x h hacc) fun s env₁ ⟨h₁, hg⟩ => ?_
  dsimp only
  split
  · exact wp_endSession ⟨t, lt, h₁, hacc, SessionTable.find?_self hg⟩
  · exact wp_bind (wp_transitAndPersist_synced h₁ hacc (.inl rfl)) fun _ _ ⟨hs, _⟩ =>
      wp_endSession hs

section Move

variable {s : GlobalSession} {env₁ : Env}

/-- Moving the stored session `s` to a status that keeps row locks, and answering it. -/
theorem wp_moveTo (h : env₁.At t lt) (hacc : t.Accounts lt) (target : GlobalStatus)
    (htarget : target.holdsRowLocks = true) :
    (do let _ ← transitAndPersist s target; pure target : CoordM GlobalStatus).Accounted
      (fun _ env' => env'.Accounted) env₁ :=
  wp_bind (wp_transitAndPersist_synced h hacc (.inl htarget)) fun _ _ ⟨hs, _⟩ =>
    wp_pure target hs.accounted

end Move

theorem wp_stopRetry (x : String) (h : env.At t lt) (hacc : t.Accounts lt) :
    (stopRetry x).Accounted (fun _ env' => env'.Accounted) env := by
  unfold stopRetry
  refine wp_bind (wp_load x h hacc) fun s env₁ ⟨h₁, _⟩ => ?_
  dsimp only
  split
  · exact wp_moveTo h₁ hacc _ rfl
  · exact wp_moveTo h₁ hacc _ rfl
  · split
    · exact wp_moveTo h₁ hacc _ rfl
    · exact wp_throw_bind _ (h₁.accounted hacc)

theorem wp_startRetry (x : String) (h : env.At t lt) (hacc : t.Accounts lt) :
    (startRetry x).Accounted (fun _ env' => env'.Accounted) env := by
  unfold startRetry
  refine wp_bind (wp_load x h hacc) fun s env₁ ⟨h₁, _⟩ => ?_
  dsimp only
  split
  · exact wp_moveTo h₁ hacc _ rfl
  · exact wp_moveTo h₁ hacc _ rfl
  · exact wp_throw_bind _ (h₁.accounted hacc)

theorem wp_changeStatus (x : String) (h : env.At t lt) (hacc : t.Accounts lt) :
    (changeStatus x).Accounted (fun _ env' => env'.Accounted) env := by
  unfold changeStatus
  refine wp_bind (wp_load x h hacc) fun s env₁ ⟨h₁, _⟩ => ?_
  dsimp only
  split
  · exact wp_moveTo h₁ hacc _ rfl
  · split
    · exact wp_moveTo h₁ hacc _ rfl
    · exact wp_throw_bind _ (h₁.accounted hacc)

theorem wp_send (c : Config) (x : String) (h : env.At t lt) (hacc : t.Accounts lt) :
    (send c x).Accounted (fun _ env' => env'.Accounted) env := by
  unfold send
  refine wp_bind (wp_load x h hacc) fun s env₁ ⟨h₁, hg⟩ => ?_
  have hs : env₁.Synced s := ⟨t, lt, h₁, hacc, SessionTable.find?_self hg⟩
  -- a drive of the stored session, or of the session resumed in a retrying status
  have hdrive : ∀ dir (f : GlobalStatus → Bool) {s'} {env'}, env'.Synced s' →
      (do let r ← drive c dir s'; pure (f r) : CoordM Bool).Accounted
        (fun _ env' => env'.Accounted) env' := fun dir f _ _ hs' =>
    wp_bind (wp_drive c dir hs') fun r _ h' => wp_pure (f r) h'
  dsimp only
  split
  · exact hdrive .commit _ hs
  · split
    · exact wp_bind (wp_transitAndPersist_synced h₁ hacc (.inl rfl)) fun _ _ ⟨hs', _⟩ =>
        hdrive .commit _ hs'
    · split
      · exact hdrive .rollback _ hs
      · split
        · exact wp_bind (wp_transitAndPersist_synced h₁ hacc (.inl rfl)) fun _ _ ⟨hs', _⟩ =>
            hdrive .rollback _ hs'
        · exact wp_throw _ (h₁.accounted hacc)

theorem wp_deleteBranch (c : Config) (x : String) (branchId : Nat) (h : env.At t lt)
    (hacc : t.Accounts lt) :
    (deleteBranch c x branchId).Accounted (fun _ env' => env'.Accounted) env := by
  unfold deleteBranch
  refine wp_bind (wp_load x h hacc) fun s env₁ ⟨h₁, hg⟩ => ?_
  dsimp only
  split
  · split
    · rename_i b hb
      have hg' := SessionTable.find?_self hg
      obtain ⟨-, ls, hls⟩ :=
        hacc.branches s (SessionTable.find?_eq_some hg).1 b (List.mem_of_find?_eq_some hb)
      refine wp_unlessDeleted c hls h₁ hacc _ fun env₂ h₂ => ?_
      exact wp_bind (wp_removeBranch_released h₂ hacc hg' (GlobalSession.findBranch?_self hb)
        hls) fun _ _ ⟨hs', _⟩ => wp_pure () hs'.accounted
    · exact wp_throw _ (h₁.accounted hacc)
  · exact wp_throw_bind _ (h₁.accounted hacc)

theorem wp_forceDeleteBranch (x : String) (branchId : Nat) (h : env.At t lt)
    (hacc : t.Accounts lt) :
    (forceDeleteBranch x branchId).Accounted (fun _ env' => env'.Accounted) env := by
  unfold forceDeleteBranch
  refine wp_bind (wp_load x h hacc) fun s env₁ ⟨h₁, hg⟩ => ?_
  split
  · rename_i b hb
    exact wp_bind (wp_removeBranch_unlock ⟨t, lt, h₁, hacc, SessionTable.find?_self hg⟩
      (GlobalSession.findBranch?_self hb)) fun _ _ ⟨hs', _⟩ => wp_pure () hs'.accounted
  · exact wp_throw _ (h₁.accounted hacc)

/-! ## Every operation -/

/-- Every operation of the coordinator, run from tables whose rows are accounted for, leaves
such tables, whether it fails or not, and at each of its pauses. -/
theorem wp_program (c : Config) (o : Op) (hacc : env.Accounted) :
    (o.program c).Accounted (fun _ env' => env'.Accounted) env := by
  obtain ⟨t, lt, h, hacc'⟩ := hacc
  -- only whether the operation succeeded is kept
  have hdiscard : ∀ {α : Type} {m : CoordM α}, m.Accounted (fun _ env' => env'.Accounted) env →
      (discard m).Accounted (fun _ env' => env'.Accounted) env := fun hm =>
    wp_discard hm fun _ _ h' => h'
  cases o with
  | begin a g n timeout => exact hdiscard (wp_begin c a g n timeout h hacc')
  | register bt r cl x d k => exact hdiscard (wp_register bt r cl x d k h hacc')
  | report x id st d => exact wp_report x id st d h hacc'
  | commit x => exact hdiscard (wp_commit c x h hacc')
  | rollback x => exact hdiscard (wp_rollback c x h hacc')
  | status x => exact hdiscard (wp_status x h hacc')
  | globalReport x st => exact hdiscard (wp_globalReport x st h hacc')
  | lockQuery bt r x k => exact hdiscard (wp_lockQuery bt r x k h hacc')
  | recover => exact hdiscard (wp_recover h hacc')
  | scan kind => exact hdiscard (wp_scanNow c kind ⟨t, lt, h, hacc'⟩)
  | deleteGlobal x => exact wp_deleteGlobal c x h hacc'
  | forceDeleteGlobal x => exact wp_forceDeleteGlobal x h hacc'
  | stopRetry x => exact hdiscard (wp_stopRetry x h hacc')
  | startRetry x => exact hdiscard (wp_startRetry x h hacc')
  | send x => exact hdiscard (wp_send c x h hacc')
  | changeStatus x => exact hdiscard (wp_changeStatus x h hacc')
  | deleteBranch x id => exact wp_deleteBranch c x id h hacc'
  | forceDeleteBranch x id => exact wp_forceDeleteBranch x id h hacc'

end CoordM

end GlobalTxn
