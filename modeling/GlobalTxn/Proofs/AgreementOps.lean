import GlobalTxn.Proofs.AgreementDrive

/-! # Every operation keeps phase two going one way

Each operation of the coordinator, run from a state where the agreement holds, takes only steps
that `Env.StepAgrees` allows and ends where the agreement holds, failed or not.  Most of them
change a session through the steps of `AgreementDrive`; the others:

* `begin` and `register` draw an id of no use, and store a session under its xid or a branch
  under it (`agreeing_begin`, `agreeing_register`): the agreement holds with one id less to
  draw;
* `commit` and `rollback` persist the session in a status bound to their direction, the
  decision, before they drive it;
* `globalReport` sets a status outside the state machine; its transaction is set apart from
  then on (`guarded_globalReport`);
* deleting a session or a branch asks the participant to delete its data first, a request of
  no direction.
-/

namespace GlobalTxn

open Steps

namespace Env

variable {c : Config} {m : Nat} {R : String → Prop} {env : Env} {x : String}
  {g : GlobalSession}

/-- The agreement with one id less to draw. -/
theorem Agrees.pred (h : env.Agrees c m R) : env.Agrees c (m - 1) R :=
  h.mono (Nat.sub_le m 1) fun _ hx => hx

/-- The agreement with more transactions set apart. -/
theorem Agrees.setApart (h : env.Agrees c m R) (R' : String → Prop) :
    env.Agrees c m fun y => R y ∨ R' y :=
  h.mono (Nat.le_refl m) fun _ hx => .inl hx

/-- A session stored under `x` has xid `x`. -/
theorem Agrees.stored_self (h : env.Agrees c m R) (hg : env.stored x = some g) :
    env.stored g.xid = some g := by
  obtain ⟨t, lt, hq⟩ := h.quiet
  rw [hq.stored] at hg ⊢
  exact SessionTable.find?_self hg

end Env

namespace GlobalStatus

variable {s : GlobalStatus}

/-- The statuses an operator drives a commit from are bound to commit. -/
theorem commit_bound_of_send (h : (s == .committing || decide (s ∈ retryCommit)) = true) :
    Direction.commit.bound s = true := by
  revert h
  cases s <;> decide

/-- The statuses an operator drives a rollback from are bound to rollback. -/
theorem rollback_bound_of_send (h : (s == .rollbacking || decide (s ∈ retryRollback)) = true) :
    Direction.rollback.bound s = true := by
  revert h
  cases s <;> decide

end GlobalStatus

namespace CoordM

variable {c : Config} {m : Nat} {R : String → Prop} {env : Env}

/-! ## Calls -/

theorem agreeing_find? (x : String) (h : env.Agrees c m R) :
    (store (sessionStore.find? x)).Agreeing c m R
      (fun r env' => env' = env ∧ env.stored x = r) env := by
  obtain ⟨t, lt, hq⟩ := h.quiet
  have hfind : (store (sessionStore.find? x)).Agreeing c m R
      (fun r env' => r = t.find? x ∧ env' = env) env :=
    guarded_find? x hq
  exact hfind.mono fun r env' hr => match r, hr with
    | .error _, hr => hr
    | .ok _, ⟨hr, he⟩ => ⟨he, by rw [hq.stored, hr]⟩

/-- An operation on the session stored under `x` goes on from the state it was loaded in. -/
theorem agreeing_load_bind {β : Type} (x : String) {k : GlobalSession → CoordM β}
    {ok : β → Env → Prop} (h : env.Agrees c m R)
    (hk : ∀ s, env.stored x = some s → env.stored s.xid = some s →
      (k s).Agreeing c m R ok env) :
    (load x >>= k).Agreeing c m R ok env :=
  guarded_bind Env.stepAgrees_lasting (guarded_load x h) fun s env₁ hl => by
    obtain ⟨rfl, hs⟩ := hl
    exact hk s hs (h.stored_self hs)

theorem agreeing_findBy (ss : List GlobalStatus) (h : env.Agrees c m R) :
    (store (sessionStore.findBy ss)).Agreeing c m R (fun _ env' => env' = env) env := by
  obtain ⟨t, lt, hq⟩ := h.quiet
  have hfind : (store (sessionStore.findBy ss)).Agreeing c m R
      (fun r env' => r = t.findBy ss ∧ env' = env) env :=
    guarded_findBy ss hq
  exact hfind.mono fun r env' hr => match r, hr with
    | .error _, hr => hr
    | .ok _, ⟨_, he⟩ => he

/-- Replacing a branch by one with a well-formed lock key. -/
theorem agreeing_updateBranch (b : Branch) (h : env.Agrees c m R)
    (hls : ∃ ls, LockManager.collect b = .ok ls) :
    (store (sessionStore.updateBranch b)).Agreeing c m R (fun _ env' => env'.Agrees c m R) env := by
  obtain ⟨t, lt, hq⟩ := h.quiet
  have hup : (store (sessionStore.updateBranch b)).Agreeing c m R (fun _ env' =>
      ∃ t', t.updateBranch b = .ok t' ∧ env' = { env with sessions := .table t' }) env :=
    guarded_updateBranch b hq fun _ => h
  exact hup.mono fun r env' hr => match r, hr with
    | .error _, hr => hr
    | .ok (), ⟨t', hu, he⟩ => he ▸ h.updateBranch hq hu hls

theorem agreeing_now (h : env.Agrees c m R) :
    now.Agreeing c m R (fun _ env' => env' = env) env :=
  let ⟨_, _, hq⟩ := h.quiet
  guarded_now Env.stepAgrees_lasting stepAgrees_frame_nil hq

/-- Drawing an id changes the generator only. -/
theorem agreeing_nextId :
    nextId.Agreeing c m R (fun id env' =>
      env' = { env with ids := env.ids.next.2 } ∧ id = env.ids.next.1) env :=
  guarded_modifyGet (Env.stepAgrees_of_frame [] rfl fun _ => rfl) ⟨rfl, rfl⟩

/-- Releasing the row locks of a session changes the row locks only. -/
theorem agreeing_releaseSession (s : GlobalSession) (h : env.Agrees c m R) :
    (locking (LockManager.releaseSession lockStore s)).Agreeing c m R
      (fun _ env' => env.Frame env') env := by
  obtain ⟨t, lt, hq⟩ := h.quiet
  exact guarded_adapt Env.stepAgrees_lasting
    ((guarded_releaseSession_frame Env.stepAgrees_lasting stepAgrees_frame_nil s hq).mono
      fun r _ hr => match r, hr with
        | .ok _, hf => hf
        | .error _, hf => h.frame hf)

/-- Releasing the row locks of a session, keeping the outcome. -/
theorem agreeing_releaseSession_result (s : GlobalSession) (h : env.Agrees c m R) :
    (lockingResult (LockManager.releaseSession lockStore s)).Agreeing c m R
      (fun _ env' => env'.Agrees c m R) env := by
  obtain ⟨t, lt, hq⟩ := h.quiet
  exact guarded_lockingResult Env.stepAgrees_lasting
    ((guarded_releaseSession_frame Env.stepAgrees_lasting stepAgrees_frame_nil s hq).mono
      fun r _ hr => match r, hr with
        | .ok _, hf => h.frame hf
        | .error _, hf => h.frame hf)

/-- Releasing the row locks of a branch, keeping the outcome, changes the row locks only. -/
theorem agreeing_releaseBranch_result (b : Branch) (h : env.Agrees c m R) :
    (lockingResult (LockManager.releaseBranch lockStore b)).Agreeing c m R
      (fun _ env' => env.Frame env') env := by
  obtain ⟨t, lt, hq⟩ := h.quiet
  exact guarded_lockingResult Env.stepAgrees_lasting
    (guarded_releaseBranch_frame Env.stepAgrees_lasting stepAgrees_frame_nil b hq)

/-- Acquiring the row locks of a branch changes the row locks only, and succeeds only for a
well-formed lock key. -/
theorem agreeing_acquireBranch (b : Branch) (h : env.Agrees c m R) :
    (locking (LockManager.acquireBranch lockStore b)).Agreeing c m R
      (fun _ env' => env.Frame env' ∧ ∃ ls, LockManager.collect b = .ok ls) env := by
  obtain ⟨t, lt, hq⟩ := h.quiet
  exact guarded_adapt Env.stepAgrees_lasting
    ((guarded_acquireBranch_frame Env.stepAgrees_lasting stepAgrees_frame_nil b hq).mono
      fun r _ hr => match r, hr with
        | .ok _, hok => hok
        | .error _, hf => h.frame hf)

/-! ## Operations of transaction managers and participants -/

/-- Beginning a transaction stores a session without branches under the xid of the id drawn,
an xid of no use. -/
theorem agreeing_begin (applicationId group name : String) (timeout : Duration)
    (h : env.Agrees c m R) (hm : 0 < m) :
    (begin c applicationId group name timeout).Agreeing c (m - 1) R
      (fun _ env' => env'.Agrees c (m - 1) R) env := by
  obtain ⟨h₁, -, hnlog, -, hahead⟩ := h.draw hm
  obtain ⟨t, lt, hq⟩ := h.quiet
  have hq₁ : Env.Quiet { env with ids := env.ids.next.2 } t lt := hq.of_eq rfl rfl rfl
  unfold begin
  dsimp only
  split
  · exact guarded_throw_bind _ h.pred
  · refine guarded_bind Env.stepAgrees_lasting agreeing_nextId
      fun id env₁ ⟨he, hid⟩ => ?_
    subst env₁ id
    refine guarded_bind Env.stepAgrees_lasting (agreeing_now h₁) fun now env₂ he => ?_
    subst env₂
    have hadd : (storeWith .beginFailed (sessionStore.add (GlobalSession.new
        (formatXid c.address env.ids.next.1) env.ids.next.1 applicationId group name timeout
        now))).Agreeing c (m - 1) R (fun _ env' => ∃ t', t.add (GlobalSession.new
          (formatXid c.address env.ids.next.1) env.ids.next.1 applicationId group name timeout
          now) = .ok t' ∧ env' = { env with ids := env.ids.next.2, sessions := .table t' })
        { env with ids := env.ids.next.2 } :=
      guarded_add _ hq₁ hnlog fun _ => h₁
    refine guarded_bind Env.stepAgrees_lasting hadd fun _ env₃ ⟨t', hu, he⟩ => ?_
    subst env₃
    exact guarded_pure _ (h₁.add hq₁ hu rfl hnlog fun j hj heq => hahead j hj
      (formatXid_injective heq))

/-- Registering a branch with a session in `begin` stores it under the id drawn, an id of no
use, once its rows are held; a session committing or rolling back answers a registration it
has seen. -/
theorem agreeing_register (bt : BranchType) (resourceId clientId x applicationData lockKey : String)
    (h : env.Agrees c m R) (hm : 0 < m) :
    (register bt resourceId clientId x applicationData lockKey).Agreeing c (m - 1) R
      (fun _ env' => env'.Agrees c (m - 1) R) env := by
  obtain ⟨h₁, -, -, hfresh, hahead⟩ := h.draw hm
  obtain ⟨t, lt, hq⟩ := h.quiet
  have hq₁ : Env.Quiet { env with ids := env.ids.next.2 } t lt := hq.of_eq rfl rfl rfl
  unfold register
  refine agreeing_load_bind x h.pred fun s _ _ => ?_
  dsimp only
  split
  · -- in `begin`: the branch gets the id drawn
    refine guarded_bind Env.stepAgrees_lasting agreeing_nextId
      fun id env₁ ⟨he, hid⟩ => ?_
    subst env₁ id
    refine guarded_bind Env.stepAgrees_lasting (agreeing_now h₁) fun now env₂ he => ?_
    subst env₂
    generalize hb : (⟨s.xid, s.transactionId, env.ids.next.1, s.transactionServiceGroup,
      resourceId, clientId, bt, .registered, lockKey, applicationData, now⟩ : Branch) = b
    refine guarded_bind Env.stepAgrees_lasting (agreeing_acquireBranch b h₁)
      fun acquired env₃ ⟨hf₃, hls⟩ => ?_
    obtain ⟨lt₃, hq₃⟩ := hf₃.quiet hq₁
    have h₃ := h₁.frame hf₃
    split
    · -- the rows are held: the store takes the branch under its fresh id, or refuses it and
      -- the rows are released again
      have hfresh₃ : ∀ y g, env₃.stored y = some g → b.branchId ∉ g.branchIds := by
        intro y g hg
        rw [hf₃.stored] at hg
        rw [← hb]
        exact hfresh y g hg
      have hahead₃ : ∀ j < m - 1, b.branchId ≠ (env₃.ids.skip j).next.1 := by
        rw [hf₃.ids, ← hb]
        exact hahead
      refine guarded_bind Env.stepAgrees_lasting
        (P := fun r env' => (r.isOk = true → env'.Agrees c (m - 1) R) ∧
          (r.isOk = false → env' = env₃))
        (guarded_storeResult_addBranch b hq₃ (fun _ => ⟨nofun, fun _ => rfl⟩)
          fun t' hu => ⟨fun _ => h₃.addBranch hq₃ hu hfresh₃ hahead₃ hls, nofun⟩)
        fun r env₄ ⟨hok, hfail⟩ => ?_
      split
      · exact guarded_pure _ (hok rfl)
      · obtain rfl : env₄ = env₃ := hfail rfl
        refine guarded_bind Env.stepAgrees_lasting (agreeing_releaseBranch_result b h₃)
          fun _ env₅ hf₅ => ?_
        split
        · exact guarded_throw _ (h₃.frame hf₅)
        · exact guarded_throw _ (h₃.frame hf₅)
    · exact guarded_throw_bind _ h₃
  -- committing or rolling back: a registration already stored is answered, nothing changes
  · split
    · exact guarded_pure _ h.pred
    · exact guarded_throw_bind _ h.pred
  · split
    · exact guarded_pure _ h.pred
    · exact guarded_throw_bind _ h.pred
  · exact guarded_throw_bind _ h.pred

/-- A report replaces a branch by one with the same lock key. -/
theorem agreeing_report (x : String) (branchId : Nat) (status : BranchStatus)
    (applicationData : Option String) (h : env.Agrees c m R) :
    (report x branchId status applicationData).Agreeing c m R
      (fun _ env' => env'.Agrees c m R) env := by
  unfold report
  refine agreeing_load_bind x h fun s hs _ => ?_
  dsimp only
  split
  · rename_i b hb
    have hls := ((h.sound x s hs).2 b (List.mem_of_find?_eq_some hb)).2
    split
    · exact agreeing_updateBranch _ h hls
    · exact guarded_throw_bind _ h
  · exact guarded_throw _ h

/-- A commit decides the direction of a session in `begin`: it persists the session as
committing, or committing asynchronously, before any request is sent. -/
theorem agreeing_commit (x : String) (h : env.Agrees c m R) :
    (commit c x).Agreeing c m R (fun _ env' => env'.Agrees c m R) env := by
  unfold commit
  refine guarded_bind Env.stepAgrees_lasting (agreeing_find? x h) fun r env₁ ⟨he, hr⟩ => ?_
  subst env₁
  cases r with
  | none => exact guarded_pure _ h
  | some s =>
    have hside := h.onSide_stored (h.stored_self hr)
    dsimp only
    split
    · split
      · refine guarded_bind Env.stepAgrees_lasting (guarded_transitAndPersist s _ h hside)
          fun s₁ env₂ ⟨h₂, _⟩ => ?_
        exact guarded_bind Env.stepAgrees_lasting (agreeing_releaseSession_result s₁ h₂)
          fun _ _ h₃ => guarded_pure _ h₃
      · refine guarded_bind Env.stepAgrees_lasting (guarded_transitAndPersist s _ h hside)
          fun s₁ env₂ ⟨h₂, hs₁, _, hst⟩ => ?_
        exact guarded_drive .commit ⟨h₂, hs₁, by rw [hst]; rfl⟩
    · exact guarded_pure _ h
    · split
      · exact guarded_pure _ h
      · exact guarded_throw _ h

/-- A rollback decides the direction of a session in `begin`: it persists the session as
rolling back before any request is sent. -/
theorem agreeing_rollback (x : String) (h : env.Agrees c m R) :
    (rollback c x).Agreeing c m R (fun _ env' => env'.Agrees c m R) env := by
  unfold rollback
  refine guarded_bind Env.stepAgrees_lasting (agreeing_find? x h) fun r env₁ ⟨he, hr⟩ => ?_
  subst env₁
  cases r with
  | none => exact guarded_pure _ h
  | some s =>
    have hside := h.onSide_stored (h.stored_self hr)
    dsimp only
    split
    · refine guarded_bind Env.stepAgrees_lasting (guarded_transitAndPersist s _ h hside)
        fun s₁ env₂ ⟨h₂, hs₁, _, hst⟩ => ?_
      exact guarded_drive .rollback ⟨h₂, hs₁, by rw [hst]; rfl⟩
    · split
      · exact guarded_pure _ h
      · exact guarded_throw _ h

theorem agreeing_status (x : String) (h : env.Agrees c m R) :
    (status x).Agreeing c m R (fun _ env' => env'.Agrees c m R) env := by
  unfold status
  exact guarded_bind Env.stepAgrees_lasting (agreeing_find? x h) fun _ _ ⟨he, _⟩ =>
    guarded_pure _ (he ▸ h)

/-- A session that reports its own outcome: a final one ends it, and an intermediate one is
recorded as it is, outside the state machine.  Once the report succeeds, its transaction is
set apart. -/
theorem guarded_globalReport (x : String) (status : GlobalStatus) (h : env.Agrees c m R) :
    (globalReport x status).run.Guarded (Env.Agrees c m R) Env.Grows Env.StepAgrees
      (Ends (fun _ env' => env'.Agrees c m R) fun _ env' =>
        env'.Agrees c m fun y => R y ∨ y = x) env := by
  obtain ⟨t, lt, hq⟩ := h.quiet
  have happart := h.setApart (· = x)
  unfold globalReport
  refine guarded_bind Env.stepAgrees_lasting (agreeing_find? x h) fun r env₁ ⟨he, hr⟩ => ?_
  subst env₁
  cases r with
  | none => exact guarded_pure _ happart
  | some s =>
    have hsx : s.xid = x := by
      rw [hq.stored] at hr
      exact (SessionTable.find?_eq_some hr).2
    -- a final outcome: the rows go, then the session
    have hend : ∀ st : GlobalStatus, (do
        locking (LockManager.releaseSession lockStore s)
        let _ ← store (sessionStore.remove x)
        pure st : CoordM GlobalStatus).run.Guarded (Env.Agrees c m R) Env.Grows Env.StepAgrees
          (Ends (fun _ env' => env'.Agrees c m R) fun _ env' =>
            env'.Agrees c m fun y => R y ∨ y = x) env := by
      intro st
      refine guarded_bind Env.stepAgrees_lasting (agreeing_releaseSession s h)
        fun _ env₂ hf => ?_
      obtain ⟨lt₂, hq₂⟩ := hf.quiet hq
      have hremove : (store (sessionStore.remove x)).Agreeing c m R
          (fun _ env₃ => env₃ = { env₂ with sessions := .table (t.remove x) }) env₂ :=
        guarded_remove x hq₂
      refine guarded_bind Env.stepAgrees_lasting hremove fun _ env₃ he => ?_
      subst env₃
      exact guarded_pure st (((h.frame hf).remove hq₂ x).setApart _)
    -- an intermediate outcome, recorded on the stored session whatever its direction
    have hrecord : ∀ st : GlobalStatus, st ≠ .begin → (do
        let now ← now
        let _ ← store (sessionStore.update { s with status := st, gmtUpdated := now })
        pure st : CoordM GlobalStatus).run.Guarded (Env.Agrees c m R) Env.Grows Env.StepAgrees
          (Ends (fun _ env' => env'.Agrees c m R) fun _ env' =>
            env'.Agrees c m fun y => R y ∨ y = x) env := by
      intro st hst
      refine guarded_bind Env.stepAgrees_lasting (agreeing_now h) fun now env₂ he => ?_
      subst env₂
      have hup : (store (sessionStore.update { s with status := st, gmtUpdated := now })).Agreeing
          c m R (fun s' env' => ∃ t', t.update { s with status := st, gmtUpdated := now } =
            .ok (s', t') ∧ env' = { env with sessions := .table t' }) env :=
        guarded_update _ hq hst fun _ => h
      refine guarded_bind Env.stepAgrees_lasting hup fun _ env₃ ⟨t', hu, he⟩ => ?_
      subst env₃
      exact guarded_pure st (happart.update hq hu fun hR => (hR (.inr hsx)).elim)
    dsimp only
    split
    · split
      · exact hend _
      · exact hend _
      · exact hend _
      · exact hrecord _ nofun
      · exact hrecord _ nofun
      · exact hrecord _ nofun
      · exact hrecord _ nofun
      · exact hrecord _ nofun
      · exact hrecord _ nofun
      · exact guarded_throw_bind _ h
    · exact guarded_throw_bind _ h

theorem agreeing_lockQuery (bt : BranchType) (resourceId x lockKey : String)
    (h : env.Agrees c m R) :
    (lockQuery bt resourceId x lockKey).Agreeing c m R (fun _ env' => env'.Agrees c m R) env := by
  obtain ⟨t, lt, hq⟩ := h.quiet
  unfold lockQuery
  dsimp only
  split
  · exact guarded_adapt Env.stepAgrees_lasting
      ((guarded_isLockable Env.stepAgrees_lasting stepAgrees_frame_nil x resourceId lockKey
        hq).mono fun r _ hr => match r, hr with
          | .ok _, he => he ▸ h
          | .error _, he => he ▸ h)
  · exact guarded_throw_bind _ h

/-- Recovery acquires row locks only. -/
theorem agreeing_recover (h : env.Agrees c m R) :
    recover.Agreeing c m R (fun _ env' => env'.Agrees c m R) env := by
  unfold recover
  refine guarded_bind Env.stepAgrees_lasting (agreeing_findBy _ h) fun gs env₁ he => ?_
  subst env₁
  -- by induction on the sessions left, and on the branches of each, with the agreement
  refine guarded_foldlM Env.stepAgrees_lasting (R := fun _ _ env' => env'.Agrees c m R)
    (fun g _ _ env₂ h₂ => ?_) (fun _ _ h' => h') gs _ env h
  dsimp only
  split
  · exact guarded_pure _ h₂
  · refine guarded_foldlM Env.stepAgrees_lasting (R := fun _ _ env' => env'.Agrees c m R)
      (fun b _ _ env₃ h₃ => ?_) (fun _ _ h' => h') g.branches _ env₂ h₂
    refine guarded_bind Env.stepAgrees_lasting (agreeing_acquireBranch b h₃)
      fun _ env₄ ⟨hf₄, _⟩ => ?_
    split
    · exact guarded_pure _ (h₃.frame hf₄)
    · exact guarded_pure _ (h₃.frame hf₄)

/-! ## Operations for operators -/

/-- Deleting a branch's data at its participant: a request of no direction about a branch of a
stored session.  An answer that the branch may go comes without a pause, with the stored
sessions unchanged. -/
theorem agreeing_deleteAtParticipant {b : Branch} {g : GlobalSession} (h : env.Agrees c m R)
    (hg : env.stored b.xid = some g) :
    (deleteAtParticipant c b).Agreeing c m R (fun r env' => env'.Agrees c m R ∧
      (r = true → ∀ y, env'.stored y = env.stored y)) env := by
  -- the unlock, once the participant has deleted the branch's data
  have hunlock : ∀ env₁ : Env, env₁.Agrees c m R → (∀ y, env₁.stored y = env.stored y) →
      (lockingResult (LockManager.releaseBranch lockStore b)).Agreeing c m R
        (fun _ env' => env'.Agrees c m R ∧ ∀ y, env'.stored y = env.stored y) env₁ :=
    fun env₁ h₁ hs₁ => (agreeing_releaseBranch_result b h₁).mono fun r _ hr => match r, hr with
      | .ok _, hf => ⟨h₁.frame hf, fun y => (hf.stored y).trans (hs₁ y)⟩
      | .error _, hr => hr
  unfold deleteAtParticipant
  dsimp only
  split
  · have hreq : (requestDelete b).Agreeing c m R (fun _ env' =>
        env' = { env with participants := (env.participants.request .delete b).2 }) env :=
      guarded_requestDelete b
    refine guarded_bind Env.stepAgrees_lasting hreq fun _ env₁ he => ?_
    subst env₁
    have h₁ := h.request (Participants.calls_request _ _ _) hg
      fun d hd => (d.action_ne_delete hd.symm).elim
    split
    · exact guarded_bind Env.stepAgrees_lasting (hunlock _ h₁ fun _ => rfl)
        fun _ _ h₂ => by split <;> exact guarded_pure _ ⟨h₂.1, fun _ => h₂.2⟩
    · exact guarded_bind Env.stepAgrees_lasting (agreeing_sleep _ h₁)
        fun _ _ h₂ => guarded_pure false ⟨h₂.1, nofun⟩
    · exact guarded_pure false ⟨h₁, nofun⟩
  · exact guarded_bind Env.stepAgrees_lasting (hunlock env h fun _ => rfl)
      fun _ _ h₂ => by split <;> exact guarded_pure _ ⟨h₂.1, fun _ => h₂.2⟩

/-- A step that needs a branch deleted at its participant first: it runs with the stored
sessions unchanged, or the operation fails with `e`. -/
theorem agreeing_unlessDeleted {α : Type} {b : Branch} {g : GlobalSession}
    (h : env.Agrees c m R) (hg : env.stored b.xid = some g) (e : CoordError) {k : CoordM α}
    {ok : α → Env → Prop}
    (hk : ∀ env', env'.Agrees c m R → (∀ y, env'.stored y = env.stored y) →
      k.Agreeing c m R ok env') :
    (do
      unless ← deleteAtParticipant c b do
        throw e
      k).Agreeing c m R ok env := by
  refine guarded_bind Env.stepAgrees_lasting (agreeing_deleteAtParticipant h hg)
    fun r env₁ ⟨h₁, hr⟩ => ?_
  dsimp only
  split
  · exact hk env₁ h₁ (hr ‹_›)
  · exact guarded_throw_bind e h₁

/-- Deleting every branch of the stored session `s`, then the session.  By induction on the
branches left: each is deleted at its participant and removed from the session stored under
the xid, which stays stored. -/
theorem agreeing_deleteAll (x : String) {s : GlobalSession} (h : env.Agrees c m R)
    (hs : env.stored s.xid = some s) :
    (do
      let s ← s.branches.foldlM (fun s b => do
        unless ← deleteAtParticipant c b do
          throw (CoordError.branchDeleteFailed x b.branchId)
        removeBranch s b false) s
      endSession s).Agreeing c m R (fun _ env' => env'.Agrees c m R) env := by
  refine guarded_bind Env.stepAgrees_lasting (guarded_foldlM Env.stepAgrees_lasting
    (R := fun l s' env' => s'.xid = s.xid ∧ env'.Agrees c m R ∧
      (∃ g, env'.stored s.xid = some g) ∧
        ∀ b ∈ l, b.xid = s.xid ∧ ∃ ls, LockManager.collect b = .ok ls) ?_ (fun _ _ h' => h')
    s.branches s env ⟨rfl, h, ⟨s, hs⟩, (h.sound _ _ hs).2⟩)
    fun s' _ hr => agreeing_endSession s' hr.2.1
  rintro b l s₁ env₁ ⟨hx₁, h₁, ⟨g, hg⟩, hbs⟩
  obtain ⟨hbx, hls⟩ := hbs b List.mem_cons_self
  refine agreeing_unlessDeleted h₁ (hbx ▸ hg) _ fun env₂ h₂ hst₂ => ?_
  refine (agreeing_removeBranch false h₂ hls).mono fun r env₃ hr => ?_
  rcases r with e | s₂
  · exact hr
  · obtain ⟨h₃, rfl, hstored⟩ := hr
    refine ⟨hx₁, h₃, ⟨_, hx₁ ▸ hstored g (by rw [hst₂, hx₁]; exact hg)⟩,
      fun b' hb' => hbs b' (List.mem_cons_of_mem _ hb')⟩

theorem agreeing_deleteGlobal (x : String) (h : env.Agrees c m R) :
    (deleteGlobal c x).Agreeing c m R (fun _ env' => env'.Agrees c m R) env := by
  unfold deleteGlobal
  refine agreeing_load_bind x h fun s _ hs' => ?_
  dsimp only
  split
  · split
    · exact agreeing_deleteAll x h hs'
    · exact guarded_bind Env.stepAgrees_lasting
        (guarded_transitAndPersist s _ h (h.onSide_stored hs'))
        fun _ _ ⟨h₂, hs₂, _⟩ => agreeing_deleteAll x h₂ hs₂
  · exact guarded_throw_bind _ h

theorem agreeing_forceDeleteGlobal (x : String) (h : env.Agrees c m R) :
    (forceDeleteGlobal x).Agreeing c m R (fun _ env' => env'.Agrees c m R) env := by
  unfold forceDeleteGlobal
  refine agreeing_load_bind x h fun s _ hs' => ?_
  dsimp only
  split
  · exact agreeing_endSession s h
  · exact guarded_bind Env.stepAgrees_lasting
      (guarded_transitAndPersist s _ h (h.onSide_stored hs'))
      fun s₁ _ ⟨h₂, _⟩ => agreeing_endSession s₁ h₂

/-- Moving the stored session `s` to `target`, and answering it. -/
theorem agreeing_moveTo {s : GlobalSession} (h : env.Agrees c m R)
    (hs : env.stored s.xid = some s) (target : GlobalStatus) :
    (do let _ ← transitAndPersist s target; pure target : CoordM GlobalStatus).Agreeing c m R
      (fun _ env' => env'.Agrees c m R) env :=
  guarded_bind Env.stepAgrees_lasting (guarded_transitAndPersist s target h (h.onSide_stored hs))
    fun _ _ h' => guarded_pure target h'.1

theorem agreeing_stopRetry (x : String) (h : env.Agrees c m R) :
    (stopRetry x).Agreeing c m R (fun _ env' => env'.Agrees c m R) env := by
  unfold stopRetry
  refine agreeing_load_bind x h fun s _ hs' => ?_
  dsimp only
  split
  · exact agreeing_moveTo h hs' _
  · exact agreeing_moveTo h hs' _
  · split
    · exact agreeing_moveTo h hs' _
    · exact guarded_throw_bind _ h

theorem agreeing_startRetry (x : String) (h : env.Agrees c m R) :
    (startRetry x).Agreeing c m R (fun _ env' => env'.Agrees c m R) env := by
  unfold startRetry
  refine agreeing_load_bind x h fun s _ hs' => ?_
  dsimp only
  split
  · exact agreeing_moveTo h hs' _
  · exact agreeing_moveTo h hs' _
  · exact guarded_throw_bind _ h

theorem agreeing_changeStatus (x : String) (h : env.Agrees c m R) :
    (changeStatus x).Agreeing c m R (fun _ env' => env'.Agrees c m R) env := by
  unfold changeStatus
  refine agreeing_load_bind x h fun s _ hs' => ?_
  dsimp only
  split
  · exact agreeing_moveTo h hs' _
  · split
    · exact agreeing_moveTo h hs' _
    · exact guarded_throw_bind _ h

/-- An operator's drive goes in the direction of the stored status, resumed first from a
stop. -/
theorem agreeing_send (x : String) (h : env.Agrees c m R) :
    (send c x).Agreeing c m R (fun _ env' => env'.Agrees c m R) env := by
  unfold send
  refine agreeing_load_bind x h fun s _ hs' => ?_
  -- a drive of a stored session bound to its direction, answering what `f` makes of its end
  have hdrive : ∀ (dir : Direction) (f : GlobalStatus → Bool) {s' : GlobalSession} {env' : Env},
      env'.Drives c m R dir s' →
      (do let r ← drive c dir s'; pure (f r) : CoordM Bool).Agreeing c m R
        (fun _ env' => env'.Agrees c m R) env' := fun dir f _ _ hs' =>
    guarded_bind Env.stepAgrees_lasting (guarded_drive dir hs') fun r _ h' => guarded_pure (f r) h'
  dsimp only
  split
  · rename_i hst
    exact hdrive .commit _ ⟨h, hs', GlobalStatus.commit_bound_of_send hst⟩
  · split
    · exact guarded_bind Env.stepAgrees_lasting
        (guarded_transitAndPersist s _ h (h.onSide_stored hs'))
        fun _ _ ⟨h₂, hs₂, _, hst₂⟩ => hdrive .commit _ ⟨h₂, hs₂, by rw [hst₂]; rfl⟩
    · split
      · rename_i hst
        exact hdrive .rollback _ ⟨h, hs', GlobalStatus.rollback_bound_of_send hst⟩
      · split
        · exact guarded_bind Env.stepAgrees_lasting
            (guarded_transitAndPersist s _ h (h.onSide_stored hs'))
            fun _ _ ⟨h₂, hs₂, _, hst₂⟩ => hdrive .rollback _ ⟨h₂, hs₂, by rw [hst₂]; rfl⟩
        · exact guarded_throw _ h

theorem agreeing_deleteBranch (x : String) (branchId : Nat) (h : env.Agrees c m R) :
    (deleteBranch c x branchId).Agreeing c m R (fun _ env' => env'.Agrees c m R) env := by
  unfold deleteBranch
  refine agreeing_load_bind x h fun s _ hs' => ?_
  dsimp only
  split
  · split
    · rename_i b hb
      obtain ⟨hbx, hls⟩ := (h.sound _ _ hs').2 b (List.mem_of_find?_eq_some hb)
      refine agreeing_unlessDeleted h (hbx ▸ hs') _ fun env₂ h₂ _ => ?_
      exact guarded_bind Env.stepAgrees_lasting (agreeing_removeBranch false h₂ hls)
        fun _ _ h₃ => guarded_pure () h₃.1
    · exact guarded_throw _ h
  · exact guarded_throw_bind _ h

theorem agreeing_forceDeleteBranch (x : String) (branchId : Nat) (h : env.Agrees c m R) :
    (forceDeleteBranch x branchId).Agreeing c m R (fun _ env' => env'.Agrees c m R) env := by
  unfold forceDeleteBranch
  refine agreeing_load_bind x h fun s _ hs' => ?_
  split
  · rename_i b hb
    have hls := ((h.sound _ _ hs').2 b (List.mem_of_find?_eq_some hb)).2
    exact guarded_bind Env.stepAgrees_lasting (agreeing_removeBranch true h hls)
      fun _ _ h₂ => guarded_pure () h₂.1
  · exact guarded_throw _ h

end CoordM

end GlobalTxn
