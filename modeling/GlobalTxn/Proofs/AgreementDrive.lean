import GlobalTxn.Proofs.AgreementCalls
import GlobalTxn.Proofs.HeldRowsDrive

/-! # Driving phase two keeps it going one way

A drive works on a copy of the stored session, persisted in a status bound to its direction,
and writes every change back before it goes on (`Env.Drives`).  Each of its steps is one that
`Env.StepAgrees` allows, and the agreement holds wherever it stops:

* a phase-two request is sent while the session is stored in a status bound to the drive's
  direction and holds the branch; a branch whose participant answers with success is removed
  right after, before any other request (`removes_removeBranch`);
* a stop and the end move the session along an edge of the state machine from a status on the
  side of its transaction's requests (`Env.OnSide`), which the state machine never leaves, so
  phase two of its transaction keeps going one way.

Waiting for a silent participant is a pause: others may run, and the stop that follows relies
on the request just sent, which fixes the direction of its transaction's requests.
-/

namespace GlobalTxn

open Steps

namespace GlobalStatus

theorem ne_begin_of_canTransitTo {s t : GlobalStatus} (h : s.canTransitTo t = true) :
    t ≠ .begin := by
  rintro rfl
  rw [canTransitTo_begin] at h
  cases h

end GlobalStatus

namespace Env

variable {c : Config} {m : Nat} {R : String → Prop} {env : Env} {x : String}
  {s t : GlobalStatus}

/-- Status `st` lies on the side of every phase-two request sent about transaction `x`, unless
its outcome was reported: the status a session of `x` may be stored in. -/
def OnSide (R : String → Prop) (env : Env) (x : String) (st : GlobalStatus) : Prop :=
  ¬ R x → ∀ (d : Direction) bid, env.Sent d.action x bid → d.side st = true

/-- The state machine never leaves a side. -/
theorem OnSide.canTransitTo (h : env.OnSide R x s) (htr : s.canTransitTo t = true) :
    env.OnSide R x t :=
  fun hR d bid hsent => Direction.side_canTransitTo (h hR d bid hsent) htr

theorem Agrees.onSide_stored (h : env.Agrees c m R) {g : GlobalSession}
    (hg : env.stored x = some g) : env.OnSide R x g.status :=
  fun hR d bid hsent => (h.directed x hR d bid hsent).1 g hg

/-- Once a request of direction `dir` about a branch of `x` is logged, every status on the side
of `dir` may be stored for `x`. -/
theorem Agrees.onSide_of_sent (h : env.Agrees c m R) {dir : Direction} {bid : Nat}
    (hsent : env.Sent dir.action x bid) (hst : dir.side s = true) : env.OnSide R x s := by
  intro hR d bid' hd
  rw [(h.directed x hR dir bid hsent).2 d bid' hd]
  exact hst

theorem Grows.sent {env' : Env} (h : env.Grows env') {a : Action} {bid : Nat} :
    env.Sent a x bid → env'.Sent a x bid :=
  fun ⟨st, hs⟩ => ⟨st, h.subset hs⟩

/-- A drive in direction `dir` works on `s`: the session stored under its xid, in a status
bound to `dir`. -/
structure Drives (c : Config) (m : Nat) (R : String → Prop) (dir : Direction) (s : GlobalSession)
    (env : Env) : Prop where
  agrees : env.Agrees c m R
  stored : env.stored s.xid = some s
  bound : dir.bound s.status = true

end Env

namespace CoordM

variable {c : Config} {m : Nat} {R : String → Prop} {env : Env} {t : SessionTable}
  {lt : LockTable}

/-- `p` run from `env`, alone up to each pause, takes only steps that `Env.StepAgrees` allows
and ends, failed or not, where the agreement holds, with a success that `ok` admits; at each
pause the agreement holds, and `p` goes on from every state with it whose log extends the one
before. -/
abbrev Agreeing {α : Type} (c : Config) (m : Nat) (R : String → Prop) (p : CoordM α)
    (ok : α → Env → Prop) (env : Env) : Prop :=
  p.run.Guarded (Env.Agrees c m R) Env.Grows Env.StepAgrees
    (Ends (fun _ env => env.Agrees c m R) ok) env

/-- Steps that change nothing a store call or a request reads are allowed. -/
theorem stepAgrees_frame_nil (e e' : Env) (hf : e.Frame e') : Env.StepAgrees e e' [] :=
  Env.stepAgrees_frame hf []

theorem guarded_load (x : String) (h : env.Agrees c m R) :
    (load x).Agreeing c m R (fun s env' => env' = env ∧ env.stored x = some s) env := by
  obtain ⟨t, lt, hq⟩ := h.quiet
  unfold load
  refine guarded_bind Env.stepAgrees_lasting (guarded_find? x hq) fun r env' hr => ?_
  obtain ⟨hr, rfl⟩ := hr
  rcases r with _ | s
  · exact guarded_throw _ h
  · exact guarded_pure _ ⟨rfl, by rw [hq.stored, hr]⟩

/-- Writing a session back, in a status past `begin` on the side of its transaction's requests:
the session is stored with its stored branches. -/
theorem agreeing_update (s : GlobalSession) (h : env.Agrees c m R) (hs : s.status ≠ .begin)
    (hside : env.OnSide R s.xid s.status) :
    (store (sessionStore.update s)).Agreeing c m R (fun s' env' => env'.Agrees c m R ∧
      env'.stored s.xid = some s' ∧ s'.xid = s.xid ∧ s'.status = s.status) env := by
  obtain ⟨t, lt, hq⟩ := h.quiet
  have hup : (store (sessionStore.update s)).Agreeing c m R (fun s' env' =>
      ∃ t', t.update s = .ok (s', t') ∧ env' = { env with sessions := .table t' }) env :=
    guarded_update s hq hs fun _ => h
  refine hup.mono fun r env' hr => ?_
  rcases r with e | s'
  · exact hr
  · obtain ⟨t', hu, rfl⟩ := hr
    have hagrees := h.update hq hu hside
    obtain ⟨g, hg, rfl, rfl⟩ := SessionTable.update_eq_ok hu
    refine ⟨hagrees, ?_, rfl, rfl⟩
    show (t.put { s with branches := g.branches }).find? s.xid = _
    exact SessionTable.find?_put_self (s := { s with branches := g.branches }) hg

/-- Moving a copy of a session along an edge of the state machine, on the side of its
transaction's requests: only the copy changes. -/
theorem agreeing_transit (s : GlobalSession) (target : GlobalStatus) (h : env.Agrees c m R)
    (hside : env.OnSide R s.xid s.status) :
    (transit s target).Agreeing c m R (fun s' env' => env' = env ∧ s'.xid = s.xid ∧
      s'.status = target ∧ target ≠ .begin ∧ env.OnSide R s.xid target) env := by
  obtain ⟨t, lt, hq⟩ := h.quiet
  have htransit : (transit s target).Agreeing c m R (fun s' env' => env' = env ∧ s'.xid = s.xid ∧
      s'.branches = s.branches ∧ s'.status = target ∧ s.status.canTransitTo target = true) env :=
    guarded_transit Env.stepAgrees_lasting stepAgrees_frame_nil s target hq fun _ => h
  refine htransit.mono fun r env' hr => ?_
  rcases r with e | s'
  · exact hr
  · obtain ⟨he, hx, -, hst, htr⟩ := hr
    exact ⟨he, hx, hst, GlobalStatus.ne_begin_of_canTransitTo htr, hside.canTransitTo htr⟩

/-- Moving a copy of a session along an edge of the state machine and writing it back, then
going on with the moved copy. -/
theorem guarded_transit_update {β : Type} (s : GlobalSession) (target : GlobalStatus)
    (h : env.Agrees c m R) (hside : env.OnSide R s.xid s.status)
    {k : GlobalSession → CoordM β} {ok : β → Env → Prop}
    (hk : ∀ s₁ env', env'.Agrees c m R → s₁.xid = s.xid → s₁.status = target →
      (k s₁).Agreeing c m R ok env') :
    (transit s target >>= fun s₁ => store (sessionStore.update s₁) >>= fun _ => k s₁).Agreeing
      c m R ok env := by
  refine guarded_bind Env.stepAgrees_lasting (agreeing_transit s target h hside)
    fun s₁ env₁ ⟨he, hx, hst, hne, hside₁⟩ => ?_
  subst env₁
  refine guarded_bind Env.stepAgrees_lasting
    (agreeing_update s₁ h (hst ▸ hne) (by rw [hx, hst]; exact hside₁))
    fun _ env₂ h₂ => hk s₁ env₂ h₂.1 hx hst

/-- Moving a copy of a session along an edge of the state machine and persisting it: the
session is stored as moved. -/
theorem guarded_transitAndPersist (s : GlobalSession) (target : GlobalStatus)
    (h : env.Agrees c m R) (hside : env.OnSide R s.xid s.status) :
    (transitAndPersist s target).Agreeing c m R (fun s' env' => env'.Agrees c m R ∧
      env'.stored s'.xid = some s' ∧ s'.xid = s.xid ∧ s'.status = target) env := by
  unfold transitAndPersist
  refine guarded_bind Env.stepAgrees_lasting (agreeing_transit s target h hside)
    fun s₁ env₁ ⟨he, hx, hst, hne, hside₁⟩ => ?_
  subst env₁
  refine (agreeing_update s₁ h (hst ▸ hne) (by rw [hx, hst]; exact hside₁)).mono
    fun r env₂ hr => ?_
  rcases r with e | s₂
  · exact hr
  · obtain ⟨h₂, hstored, hx₂, hst₂⟩ := hr
    exact ⟨h₂, hx₂ ▸ hstored, hx₂.trans hx, hst₂.trans hst⟩

/-! ## Removing branches and sessions -/

section Removal

variable {inv : Env → Prop} {le : Env → Env → Prop} {err : CoordError → Env → Prop}
  {g : Env → Env → List (Env × Env) → Prop} (hg : Lasting g)
  (hgf : ∀ e e', e.Frame e' → g e e' [])
  (hrm : ∀ e t lt x id, e.Quiet t lt → g e { e with sessions := .table (t.removeBranch x id) } [])
include hg hgf hrm

/-- Removing a branch whose lock key is well formed, after releasing its row locks if asked:
only the row locks change, then the branch goes from the store. -/
theorem guarded_removeBranch_frame {s : GlobalSession} {b : Branch} (unlock : Bool)
    (hls : ∃ ls, LockManager.collect b = .ok ls) (hq : env.Quiet t lt) :
    (removeBranch s b unlock).run.Guarded inv le g (Ends err fun s' env' =>
      s' = s.removeBranch b.branchId ∧ ∃ env₁, env.Frame env₁ ∧
        env' = { env₁ with sessions := .table (t.removeBranch s.xid b.branchId) }) env := by
  obtain ⟨ls, hls⟩ := hls
  -- once the rows are released, or left, the branch goes from the store
  have hrest : ∀ env₁, env.Frame env₁ →
      (do store (sessionStore.removeBranch s.xid b.branchId); pure (s.removeBranch b.branchId) :
        CoordM GlobalSession).run.Guarded inv le g (Ends err fun s' env' =>
          s' = s.removeBranch b.branchId ∧ ∃ env₁, env.Frame env₁ ∧
            env' = { env₁ with sessions := .table (t.removeBranch s.xid b.branchId) }) env₁ := by
    intro env₁ hf
    obtain ⟨lt₁, hq₁⟩ := hf.quiet hq
    exact guarded_bind hg (guarded_removeBranch hg s.xid b.branchId hq₁ (hrm _ _ _ _ _ hq₁))
      fun _ env₂ h₂ => guarded_pure _ ⟨rfl, env₁, hf, h₂⟩
  unfold removeBranch
  cases unlock
  · rw [if_neg Bool.false_ne_true]
    exact hrest env hq.frame
  · rw [if_pos rfl]
    exact guarded_bind hg (P := fun _ env₁ => env.Frame env₁)
      (guarded_adapt hg (guarded_releaseBranch hg hgf hls hq fun _ hf => hf))
      fun _ env₁ hf => hrest env₁ hf

end Removal

/-- Removing a branch of the stored session, with its row locks, sends no request and never
pauses, so the branch is removed before any further request. -/
theorem removes_removeBranch {β : Type} {s : GlobalSession} {b : Branch}
    (k : GlobalSession → CoordM β) (hq : env.Quiet t lt) (hs : env.stored s.xid = some s)
    (hsound : s.Sound) (hb : b.branchId ∈ s.branchIds)
    (hls : ∃ ls, LockManager.collect b = .ok ls) :
    Env.Removes s.xid b.branchId (segment (removeBranch s b true >>= k).run env) := by
  have hguard : (removeBranch s b true).run.Guarded (fun _ => False) Env.Grows Env.KeepsCalls
      (Ends (fun _ _ => False) fun s' env' => s' = s.removeBranch b.branchId ∧ ∃ env₁,
        env.Frame env₁ ∧
          env' = { env₁ with sessions := .table (t.removeBranch s.xid b.branchId) }) env :=
    guarded_removeBranch_frame Env.keepsCalls_lasting (fun _ _ hf => hf.calls)
      (fun _ _ _ _ _ _ => rfl) true hls hq
  -- where the removal ends, the session is stored without the branch
  have hgone : ∀ (r : Except CoordError GlobalSession) env', Ends (fun _ _ => False)
      (fun s' env' => s' = s.removeBranch b.branchId ∧ ∃ env₁, env.Frame env₁ ∧
        env' = { env₁ with sessions := .table (t.removeBranch s.xid b.branchId) }) r env' →
      ¬ env'.Holds s.xid b.branchId := by
    rintro (e | s') env' hr ⟨g', hg', hid⟩
    · exact hr
    · obtain ⟨-, env₁, -, rfl⟩ := hr
      change (t.removeBranch s.xid b.branchId).find? s.xid = some g' at hg'
      rw [SessionTable.find?_removeBranch (hq.stored s.xid ▸ hs), if_pos rfl] at hg'
      cases hg'
      exact hsound.not_mem_removeBranch _ hid
  exact Env.Removes.mono (segment_prefix_segment_bind _ _ _)
    (Env.removes_of_guarded hgone ⟨s, hs, hb⟩ hguard)

/-- Removing a branch with a well-formed lock key keeps the agreement; the session stored under
its xid loses the branch. -/
theorem agreeing_removeBranch {s : GlobalSession} {b : Branch} (unlock : Bool)
    (h : env.Agrees c m R) (hls : ∃ ls, LockManager.collect b = .ok ls) :
    (removeBranch s b unlock).Agreeing c m R (fun s' env' => env'.Agrees c m R ∧
      s' = s.removeBranch b.branchId ∧ ∀ g, env.stored s.xid = some g →
        env'.stored s.xid = some (g.removeBranch b.branchId)) env := by
  obtain ⟨t, lt, hq⟩ := h.quiet
  have hframe : (removeBranch s b unlock).Agreeing c m R (fun s' env' =>
      s' = s.removeBranch b.branchId ∧ ∃ env₁, env.Frame env₁ ∧
        env' = { env₁ with sessions := .table (t.removeBranch s.xid b.branchId) }) env :=
    guarded_removeBranch_frame Env.stepAgrees_lasting stepAgrees_frame_nil
      (fun _ _ _ _ _ hq => Env.stepAgrees_removeBranch hq _ _ []) unlock hls hq
  refine hframe.mono fun r env' hr => ?_
  rcases r with e | s'
  · exact hr
  · obtain ⟨rfl, env₁, hf, rfl⟩ := hr
    obtain ⟨lt₁, hq₁⟩ := hf.quiet hq
    refine ⟨(h.frame hf).removeBranch hq₁ s.xid b.branchId, rfl, fun g' hg' => ?_⟩
    change (t.removeBranch s.xid b.branchId).find? s.xid = _
    rw [SessionTable.find?_removeBranch (hq.stored s.xid ▸ hg'), if_pos rfl]

/-- Ending a session keeps the agreement: its row locks go, then the session. -/
theorem agreeing_endSession (s : GlobalSession) (h : env.Agrees c m R) :
    (endSession s).Agreeing c m R (fun _ env' => env'.Agrees c m R) env := by
  obtain ⟨t, lt, hq⟩ := h.quiet
  unfold endSession
  refine guarded_bind Env.stepAgrees_lasting (P := fun _ env₁ => env.Frame env₁)
    (guarded_adapt Env.stepAgrees_lasting
      ((guarded_releaseSession_frame Env.stepAgrees_lasting stepAgrees_frame_nil s hq).mono
        fun r _ hr => match r, hr with
          | .ok _, hf => hf
          | .error _, hf => h.frame hf)) fun _ env₁ hf => ?_
  obtain ⟨lt₁, hq₁⟩ := hf.quiet hq
  have hremove : (store (sessionStore.remove s.xid)).Agreeing c m R
      (fun _ env₂ => env₂ = { env₁ with sessions := .table (t.remove s.xid) }) env₁ :=
    guarded_remove s.xid hq₁
  refine hremove.mono fun r env₂ hr => ?_
  rcases r with e | _
  · exact hr
  · rw [hr]
    exact (h.frame hf).remove hq₁ s.xid

/-- Waiting keeps the agreement: a wait of no time changes nothing, and a pause ends where the
agreement holds and the log extends the one before. -/
theorem agreeing_sleep (ms : Nat) (h : env.Agrees c m R) :
    (sleep ms).Agreeing c m R (fun _ env' => env'.Agrees c m R ∧ env.Grows env') env := by
  obtain ⟨t, lt, hq⟩ := h.quiet
  unfold sleep
  split
  · exact guarded_pure () ⟨h, Env.grows_refl env⟩
  · refine guarded_bind Env.stepAgrees_lasting
      (guarded_setTimer Env.stepAgrees_lasting stepAgrees_frame_nil ms hq) fun wt env₁ hf => ?_
    obtain ⟨wake, timer⟩ := wt
    have hpause : (pauseUntil wake timer).Agreeing c m R
        (fun _ env' => env'.Agrees c m R ∧ env₁.Grows env') env₁ :=
      Pool.guarded_pauseUntil (h.frame hf)
    refine hpause.mono fun r env₂ hr => ?_
    rcases r with e | _
    · exact hr
    · exact ⟨hr.1, Env.grows_trans _ _ _ hf.grows hr.2⟩

/-! ## Driving phase two -/

/-- Where a drive stops: the branch's reported status is recorded, and the session takes
`status`, on the side of its transaction's requests. -/
theorem guarded_suspend {s : GlobalSession} {b : Branch} {reported : Option BranchStatus}
    {status : GlobalStatus} (h : env.Agrees c m R) (hside : env.OnSide R s.xid s.status)
    (hls : ∃ ls, LockManager.collect b = .ok ls) :
    (suspend s b reported status).Agreeing c m R (fun _ env' => env'.Agrees c m R) env := by
  -- after the branch's status is recorded, which sends no request: the session moves
  have hrest : ∀ env₁ : Env, env₁.Agrees c m R → env₁.participants = env.participants →
      (do let s ← transit s status; let _ ← store (sessionStore.update s); pure status :
        CoordM GlobalStatus).Agreeing c m R (fun _ env' => env'.Agrees c m R) env₁ := by
    intro env₁ h₁ hp
    refine guarded_transit_update s status h₁ (fun hR d bid hs => ?_)
      fun _ env' h' _ _ => guarded_pure status h'
    rw [Env.Sent, hp] at hs
    exact hside hR d bid hs
  unfold suspend
  dsimp only
  split
  · rename_i r
    split
    · obtain ⟨t, lt, hq⟩ := h.quiet
      have hup : (store (sessionStore.updateBranch { b with status := r })).Agreeing c m R
          (fun _ env' => ∃ t', t.updateBranch { b with status := r } = .ok t' ∧
            env' = { env with sessions := .table t' }) env :=
        guarded_updateBranch _ hq fun _ => h
      refine guarded_bind Env.stepAgrees_lasting hup fun _ env₁ hupd => ?_
      obtain ⟨t', hu, he⟩ := hupd
      subst he
      exact hrest _ (h.updateBranch hq hu hls) rfl
    · exact hrest env h rfl
  · exact hrest env h rfl

/-- The stored session left when a finished branch of a driven session is removed is driven
on. -/
theorem agreeing_removeBranch_drives {dir : Direction} {s : GlobalSession} {b : Branch}
    (hs : env.Drives c m R dir s) (hls : ∃ ls, LockManager.collect b = .ok ls) :
    (removeBranch s b true).Agreeing c m R (fun s' env' => env'.Drives c m R dir s') env :=
  (agreeing_removeBranch true hs.agrees hls).mono fun r _ hr => match r, hr with
    | .error _, hr => hr
    | .ok _, ⟨h', rfl, hstored⟩ => ⟨h', hstored s hs.stored, hs.bound⟩

/-- Driving the branches with ids `ids` of the stored session `s`, in a status bound to `dir`.
By induction on the ids: a finished branch is removed and the drive goes on with the stored
session left.  A request is sent while the session is stored bound to `dir` and holds the
branch, and is followed by the removal of the branch when its participant answers with
success; once sent, it fixes the direction of its transaction's requests, the side every stop
stays on. -/
theorem guarded_go (dir : Direction) :
    ∀ (ids : List Nat) (s : GlobalSession) (env : Env), env.Drives c m R dir s →
      (drive.go c dir s ids).Agreeing c m R (fun _ env' => env'.Agrees c m R) env
  | [], s, env, hs => by
    unfold drive.go
    exact guarded_transit_update s _ hs.agrees (hs.agrees.onSide_stored hs.stored)
      fun s₁ env₁ h₁ _ _ => guarded_bind Env.stepAgrees_lasting (agreeing_endSession s₁ h₁)
        fun _ _ h₂ => guarded_pure _ h₂
  | id :: rest, s, env, hs => by
    unfold drive.go
    split
    · exact guarded_go dir rest s env hs
    · rename_i b hb
      have hb' := GlobalSession.findBranch?_self hb
      have hsound := hs.agrees.sound _ _ hs.stored
      have hmem : b ∈ s.branches := List.mem_of_find?_eq_some hb
      have hbx : b.xid = s.xid := (hsound.2 b hmem).1
      have hls := (hsound.2 b hmem).2
      have hbid : b.branchId ∈ s.branchIds := List.mem_map_of_mem hmem
      have hnext : ∀ env, env.Drives c m R dir s →
          (removeBranch s b true >>= fun s => drive.go c dir s rest).Agreeing c m R
            (fun _ env' => env'.Agrees c m R) env := fun env hs =>
        guarded_bind Env.stepAgrees_lasting (agreeing_removeBranch_drives hs hls)
          fun s' env' hs' => guarded_go dir rest s' env' hs'
      split
      · exact hnext env hs
      · obtain ⟨t, lt, hq⟩ := hs.agrees.quiet
        have hstored : env.stored b.xid = some s := hbx ▸ hs.stored
        have hcalls := Participants.calls_request env.participants dir.action b
        -- after the request, which fixes the direction of the transaction's requests
        have h₁ := hs.agrees.request hcalls hstored fun d hd _ => Direction.action_injective hd ▸ hs.bound
        have hsends : env.Sends { env with participants := (env.participants.request dir.action b).2 }
            dir.action s.xid b.branchId := ⟨b.status, hbx ▸ hcalls⟩
        have hsent₁ := hsends.sent
        have hside₁ := h₁.onSide_of_sent hsent₁ (Direction.side_of_bound hs.bound)
        refine guarded_requestPhaseTwo_bind _ b _ ⟨?_, ?_⟩
        · refine Env.stepAgrees_request hcalls fun d hd => ?_
          obtain rfl := Direction.action_injective hd
          refine ⟨s, hstored, hs.bound, hbid, fun hdone => ?_⟩
          obtain ⟨g, b', r, hg, hb'', hans, hout⟩ := hdone
          rw [hstored] at hg
          cases hg
          rw [hb'] at hb''
          cases hb''
          rw [Answer.ofReply_request hans]
          dsimp only
          rw [hout]
          dsimp only
          exact hbx ▸ removes_removeBranch _ (hq.of_eq rfl rfl rfl) hs.stored hsound hbid hls
        · cases Answer.ofReply b dir.doneStatus (env.participants.request dir.action b).1 with
          | answered r =>
            dsimp only
            split
            · exact hnext _ ⟨h₁, hs.stored, hs.bound⟩
            · exact guarded_suspend h₁ hside₁ hls
            · exact guarded_suspend h₁ hside₁ hls
          | failed e => exact guarded_suspend h₁ hside₁ hls
          | silent =>
            -- others may run while the participant is waited for; the request stays logged
            refine guarded_bind Env.stepAgrees_lasting (agreeing_sleep _ h₁)
              fun _ env₂ hslept => ?_
            obtain ⟨h₂, hgrow⟩ := hslept
            exact guarded_suspend h₂
              (h₂.onSide_of_sent (hgrow.sent hsent₁) (Direction.side_of_bound hs.bound)) hls

/-- Driving a stored session in a status bound to `dir` keeps the agreement. -/
theorem guarded_drive (dir : Direction) {s : GlobalSession} (hs : env.Drives c m R dir s) :
    (drive c dir s).Agreeing c m R (fun _ env' => env'.Agrees c m R) env :=
  guarded_go dir _ s env hs

end CoordM

end GlobalTxn
