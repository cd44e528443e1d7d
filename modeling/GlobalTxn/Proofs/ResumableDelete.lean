import GlobalTxn.Proofs.Recovery
import GlobalTxn.Proofs.HeldRowsOps

/-! # Deleting a session resumes where it stopped

An operator deletes a session (`CoordM.deleteGlobal`) in a status that allows it
(`GlobalStatus.isDeletable`).  The delete persists the session in status `deleting`, then takes
its branches in registration order: it asks each branch's participant to delete the branch's
data (a branch that failed phase one has none there and is not asked), releases the branch's
rows, and removes the branch from the stored session.  The first branch whose participant
refuses, cannot be reached or stays silent, or whose rows cannot be released, stops the delete
with `branchDeleteFailed`; once every branch is gone, the session is removed.

Run alone on quiet stores, a delete does exactly this (`CoordM.run_deleteGlobal`, through the
relation `Deleted`).  One that stopped leaves the session stored in status `deleting` with the
branches from the one it stopped at on, and `deleting` allows a delete: a second delete starts
at that branch, and never asks again about a branch deleted before
(`CoordM.delete_resumes_at_first_refusal`).

What a participant answers is read off the replies queued for its branch id, each request
taking the next one (`Participants.deletedRun`): branches that share an id, as a restart that
keeps the rows may leave them, share one queue, and the delete still takes each branch in turn.
Where branch ids are distinct, the run deleted is the longest run of branches whose first replies
let their data go (`Participants.deletedRun_eq_takeWhile`).  The delete is one induction over
the branches left (`CoordM.run_deleteAll`), whose step is `Deleted.cons`.
-/

namespace GlobalTxn

open Steps

/-- What a participant's next reply answers a delete request about `b`. -/
def Answer.ofDeleteReply (b : Branch) : Option Reply → Answer Bool
  | none | some (.status _) => .answered true
  | some (.deleted ok) => .answered ok
  | some .unreachable => .failed (.clientUnreachable b.clientId b.resourceId)
  | some .hang => .silent

/-- The request a delete logs about `b`. -/
def Branch.deleteCall (b : Branch) : Call := .branch .delete b.xid b.branchId b.status

namespace Participants

/-- Whether the participant of `b` lets the branch's data go, by the replies queued in `p`: a
branch that failed phase one is not asked; otherwise its participant must answer yes, and one
that refuses, cannot be reached or stays silent does not. -/
def letsDelete (p : Participants) (b : Branch) : Bool :=
  b.status == .phaseOneFailed ||
    match Answer.ofDeleteReply b (p.queue b.branchId).head? with
    | .answered ok => ok
    | _ => false

/-- Whether a delete goes on past `b`: its participant lets the branch's data go, and the
branch's lock key can be read, so that its rows are released. -/
def deletes (p : Participants) (b : Branch) : Bool :=
  p.letsDelete b && (LockManager.collect b).isOk

theorem deletes_congr {p p' : Participants} {b : Branch}
    (h : p'.queue b.branchId = p.queue b.branchId) : p'.deletes b = p.deletes b := by
  simp only [deletes, letsDelete, h]

/-- The replies left once a delete has dealt with `b`: a branch that failed phase one is not
asked; any other is, and its request takes the next reply queued for its id. -/
def afterDelete (p : Participants) (b : Branch) : Participants :=
  if b.status = .phaseOneFailed then p else (p.request .delete b).2

/-- The branches of `bs` a delete goes on past, with the replies queued in `p`: the longest run
of them from the front whose participants, asked in turn, let their data go. -/
def deletedRun : Participants → List Branch → List Branch
  | _, [] => []
  | p, b :: bs => if p.deletes b then b :: (p.afterDelete b).deletedRun bs else []

/-- The branches a delete leaves stored: those after the run it goes on past. -/
def deleteLeft : Participants → List Branch → List Branch
  | _, [] => []
  | p, b :: bs => if p.deletes b then (p.afterDelete b).deleteLeft bs else b :: bs

theorem calls_afterDelete (p : Participants) (b : Branch) :
    (p.afterDelete b).calls =
      p.calls ++ ([b].filter (·.status != .phaseOneFailed)).map Branch.deleteCall := by
  unfold afterDelete
  split
  · rename_i hpf
    simp [hpf]
  · rename_i hpf
    simp [calls_request, hpf, Branch.deleteCall]

theorem queue_afterDelete_of_ne (p : Participants) (b : Branch) {id : Nat}
    (h : id ≠ b.branchId) : (p.afterDelete b).queue id = p.queue id := by
  unfold afterDelete
  split
  · rfl
  · exact queue_request_of_ne _ _ _ h

/-- The run deleted and the branches left make up the branches. -/
theorem deletedRun_append_deleteLeft : ∀ (p : Participants) (bs : List Branch),
    p.deletedRun bs ++ p.deleteLeft bs = bs
  | _, [] => rfl
  | p, b :: bs => by
    unfold deletedRun deleteLeft
    split
    · rw [List.cons_append, deletedRun_append_deleteLeft]
    · rfl

/-- Where branch ids are distinct, each request takes a reply from its own branch's queue only,
so the run deleted is the longest run of branches whose first replies let their data go. -/
theorem deletedRun_eq_takeWhile : ∀ (p : Participants) (bs : List Branch),
    (bs.map (·.branchId)).Nodup →
      p.deletedRun bs = bs.takeWhile p.deletes ∧ p.deleteLeft bs = bs.dropWhile p.deletes
  | _, [], _ => ⟨rfl, rfl⟩
  | p, b :: bs, hids => by
    rw [List.map_cons, List.nodup_cons] at hids
    -- the branches after `b` answer after its request as they would have before
    have hsame : ∀ c ∈ bs, (p.afterDelete b).deletes c = p.deletes c := fun c hc =>
      deletes_congr (queue_afterDelete_of_ne p b fun he => hids.1 (he ▸ List.mem_map_of_mem hc))
    obtain ⟨hrun, hleft⟩ := deletedRun_eq_takeWhile (p.afterDelete b) bs hids.2
    unfold deletedRun deleteLeft
    by_cases hd : p.deletes b = true
    · rw [if_pos hd, if_pos hd, List.takeWhile_cons_of_pos hd, List.dropWhile_cons_of_pos hd,
        hrun, hleft, List.takeWhile_congr_mem hsame, List.dropWhile_congr_mem hsame]
      exact ⟨rfl, rfl⟩
    · rw [if_neg hd, if_neg hd, List.takeWhile_cons_of_neg hd, List.dropWhile_cons_of_neg hd]
      exact ⟨rfl, rfl⟩

end Participants

/-- The session `s` as a delete persists it before it takes the branches: in status `deleting`,
since `now` unless it was there already. -/
def GlobalSession.markedDeleting (s : GlobalSession) (now : Nat) : GlobalSession :=
  if s.status = .deleting then s else { s with status := .deleting, gmtUpdated := now }

@[simp] theorem GlobalSession.branches_markedDeleting (s : GlobalSession) (now : Nat) :
    (s.markedDeleting now).branches = s.branches := by
  unfold markedDeleting
  split <;> rfl

@[simp] theorem GlobalSession.xid_markedDeleting (s : GlobalSession) (now : Nat) :
    (s.markedDeleting now).xid = s.xid := by
  unfold markedDeleting
  split <;> rfl

theorem GlobalSession.markedDeleting_of_deleting {s : GlobalSession} (h : s.status = .deleting)
    (now : Nat) : s.markedDeleting now = s :=
  if_pos h

@[simp] theorem GlobalSession.status_markedDeleting (s : GlobalSession) (now : Nat) :
    (s.markedDeleting now).status = .deleting := by
  unfold markedDeleting
  split
  · assumption
  · rfl

/-- Every status that allows a delete may move to `deleting`. -/
theorem GlobalStatus.canTransitTo_deleting_of_isDeletable {st : GlobalStatus}
    (h : st.isDeletable = true) : st.canTransitTo .deleting = true := by
  rw [GlobalStatus.canTransitTo_deleting]
  revert h
  cases st <;> decide

/-- The session table a delete of the session `s` leaves when the branches `left` remain: the
session is gone once none remains, and otherwise holds them. -/
def SessionTable.afterDelete (t : SessionTable) (s : GlobalSession) : List Branch → SessionTable
  | [] => t.remove s.xid
  | b :: bs => t.put { s with branches := b :: bs }

namespace SessionTable

variable (t : SessionTable) {s g : GlobalSession}

/-- A delete leaves the same table whatever branches the session held when it began. -/
theorem afterDelete_withBranches (bs left : List Branch) :
    t.afterDelete { s with branches := bs } left = t.afterDelete s left := by
  cases left <;> rfl

/-- A delete begun over a table where the session was stored anew leaves what it would have
left over the table before. -/
theorem afterDelete_put (hx : g.xid = s.xid) (left : List Branch) :
    (t.put g).afterDelete s left = t.afterDelete s left := by
  cases left with
  | nil => exact remove_put hx
  | cons b bs => exact put_put hx

end SessionTable

@[simp] theorem LockTable.release_nil (lt : LockTable) : lt.release [] = lt := rfl

/-- How a delete of the session `x` ends when the branches `left` remain: it succeeds once none
remains, and otherwise fails at the first of them. -/
def deleteOutcome (x : String) : List Branch → Except CoordError Unit
  | [] => .ok ()
  | b :: _ => .error (.branchDeleteFailed x b.branchId)

/-- What a delete leaves when it takes the branches of `s`, stored in status `deleting` as it
is, from `env` on quiet stores with session table `t` and lock table `lt`: result `r` and
environment `env'`.  The branches deleted are the run of them the delete goes on past
(`Participants.deletedRun`); it stops at the branch after them, if there is one. -/
structure Deleted (env : Env) (t : SessionTable) (lt : LockTable) (s : GlobalSession)
    (r : Except CoordError Unit) (env' : Env) : Prop where
  /-- Requests go, in order, to the branches deleted and to the branch stopped at, but for those
  that failed phase one. -/
  calls : env'.participants.calls = env.participants.calls ++
    ((env.participants.deletedRun s.branches ++
        (env.participants.deleteLeft s.branches).take 1).filter
      (·.status != .phaseOneFailed)).map Branch.deleteCall
  /-- Exactly the rows of the branches deleted are released, and the session keeps the
  branches left. -/
  quiet : env'.Quiet (t.afterDelete s (env.participants.deleteLeft s.branches))
    (lt.release ((env.participants.deletedRun s.branches).flatMap Branch.rowLocks))
  /-- The delete fails at the branch it stopped at. -/
  result : r = deleteOutcome s.xid (env.participants.deleteLeft s.branches)

namespace Deleted

variable {env env₁ env' : Env} {t : SessionTable} {lt : LockTable} {s : GlobalSession}
  {b : Branch} {bs : List Branch} {r : Except CoordError Unit}

/-- A delete of a session with no branch left removes it, asking no participant. -/
theorem nil (hb : s.branches = []) (hcalls : env'.participants.calls = env.participants.calls)
    (hq : env'.Quiet (t.remove s.xid) lt) (hr : r = .ok ()) : Deleted env t lt s r env' where
  calls := by simp [hb, hcalls, Participants.deletedRun, Participants.deleteLeft]
  quiet := by
    simpa [hb, SessionTable.afterDelete, Participants.deletedRun, Participants.deleteLeft] using hq
  result := by simp [hb, hr, deleteOutcome, Participants.deleteLeft]

/-- A delete that stops at its first branch, asked once unless it failed phase one, leaves the
stores as they were. -/
theorem stop (hb : s.branches = b :: bs) (hdel : env.participants.deletes b = false)
    (ht : t.put s = t)
    (hcalls : env'.participants.calls = env.participants.calls ++
      ([b].filter (·.status != .phaseOneFailed)).map Branch.deleteCall)
    (hq : env'.Quiet t lt) (hr : r = .error (.branchDeleteFailed s.xid b.branchId)) :
    Deleted env t lt s r env' := by
  have htake : env.participants.deletedRun s.branches = [] := by
    rw [hb, Participants.deletedRun, if_neg (by simp [hdel])]
  have hdrop : env.participants.deleteLeft s.branches = s.branches := by
    rw [hb, Participants.deleteLeft, if_neg (by simp [hdel])]
  refine ⟨?_, ?_, ?_⟩
  · rw [hcalls, htake, hdrop, hb]
    rfl
  · have hs : { s with branches := b :: bs } = s := by rw [← hb]
    rw [htake, hdrop, hb]
    simpa [SessionTable.afterDelete, hs, ht] using hq
  · rw [hdrop, hb, hr]
    rfl

/-- A delete that goes on past its first branch, deleted with its rows and removed from the
stored session, and then does what `Deleted` says of the rest, does what `Deleted` says of all
its branches. -/
theorem cons (hb : s.branches = b :: bs) (hdel : env.participants.deletes b = true)
    (hp : env₁.participants = env.participants.afterDelete b)
    (h : Deleted env₁ (t.put { s with branches := bs }) (lt.release b.rowLocks)
      { s with branches := bs } r env') :
    Deleted env t lt s r env' := by
  -- the rest is taken with the replies left once `b` was asked
  have htake : env.participants.deletedRun s.branches =
      b :: env₁.participants.deletedRun bs := by
    rw [hb, Participants.deletedRun, if_pos hdel, hp]
  have hdrop : env.participants.deleteLeft s.branches = env₁.participants.deleteLeft bs := by
    rw [hb, Participants.deleteLeft, if_pos hdel, hp]
  obtain ⟨hc, hq, hr⟩ := h
  refine ⟨?_, ?_, ?_⟩
  · rw [hc, hp, Participants.calls_afterDelete, ← hp, htake, hdrop, List.cons_append,
      List.filter_cons]
    by_cases hf : (b.status != .phaseOneFailed) = true <;> simp [hf]
  · rw [htake, hdrop, List.flatMap_cons, ← LockTable.release_release]
    rwa [SessionTable.afterDelete_withBranches,
      SessionTable.afterDelete_put t (s := s) (g := { s with branches := bs }) rfl] at hq
  · rw [hdrop]
    exact hr

/-- Every request a delete sends is about a branch of the session. -/
theorem mem_calls (hd : Deleted env t lt s r env') {call : Call}
    (hc : call ∈ env'.participants.calls.drop env.participants.calls.length) :
    ∃ b ∈ s.branches, call = b.deleteCall := by
  rw [hd.calls, List.drop_append_length] at hc
  obtain ⟨b, hb, rfl⟩ := List.mem_map.1 hc
  have hb' := (List.mem_filter.1 hb).1
  refine ⟨b, ?_, rfl⟩
  rw [← Participants.deletedRun_append_deleteLeft env.participants s.branches]
  rcases List.mem_append.1 hb' with hb' | hb'
  · exact List.mem_append_left _ hb'
  · exact List.mem_append_right _ ((List.take_sublist _ _).subset hb')

/-- A delete begun once the session was stored anew does what `Deleted` says over the table
before. -/
theorem of_put {g : GlobalSession} (hx : g.xid = s.xid)
    (hp : env₁.participants = env.participants) (h : Deleted env₁ (t.put g) lt s r env') :
    Deleted env t lt s r env' := by
  obtain ⟨hc, hq, hr⟩ := h
  rw [hp] at hc hq hr
  exact ⟨hc, SessionTable.afterDelete_put t hx _ ▸ hq, hr⟩

end Deleted

namespace GlobalSession

variable {s : GlobalSession} {b : Branch} {bs : List Branch}

/-- Where branch ids are distinct, no branch a delete goes on past shares its id with a branch
it leaves. -/
theorem branchId_ne_of_deletedRun (hids : s.branchIds.Nodup) (p : Participants) {c : Branch}
    (hb : b ∈ p.deletedRun s.branches) (hc : c ∈ p.deleteLeft s.branches) :
    b.branchId ≠ c.branchId := by
  rw [branchIds, ← p.deletedRun_append_deleteLeft s.branches, List.map_append,
    List.nodup_append] at hids
  exact hids.2.2 _ (List.mem_map_of_mem hb) _ (List.mem_map_of_mem hc)

/-- Removing the first branch of a session by its id leaves the branches after it. -/
theorem removeBranch_head (hb : s.branches = b :: bs) :
    s.removeBranch b.branchId = { s with branches := bs } := by
  simp [removeBranch, hb]

end GlobalSession

namespace CoordM

variable {env : Env} {t : SessionTable} {lt : LockTable} {s : GlobalSession}

/-- A delete request is logged, and answered with the participant's next reply. -/
theorem run_requestDelete (b : Branch) (env : Env) :
    Steps.run (requestDelete b).run env =
      (.ok (Answer.ofDeleteReply b (env.participants.request .delete b).1),
        { env with participants := (env.participants.request .delete b).2 }) :=
  rfl

/-- Releasing the rows of `b` and going on with `k`, which answers whether that worked: on
quiet stores it works exactly when the lock key of `b` can be read, and then releases the
branch's rows. -/
theorem run_releaseBranch_then (h : env.Quiet t lt) (b : Branch)
    (k : Except LockError Unit → CoordM Bool) (hok : k (.ok ()) = pure true)
    (herr : ∀ e, k (.error e) = pure false) :
    Steps.run (lockingResult (LockManager.releaseBranch lockStore b) >>= k).run env =
      (.ok (LockManager.collect b).isOk,
        { env with
          locks := .table (if (LockManager.collect b).isOk then lt.release b.rowLocks else lt) }) := by
  rw [Steps.run_exceptT_bind, lockingResult, Steps.run_exceptT_lift, run_releaseBranch h.at]
  cases hcol : LockManager.collect b with
  | error e =>
    dsimp only
    rw [herr, Steps.run_exceptT_pure]
    have hlt : env.locks = .table lt := h.locks
    simp [← hlt, Except.isOk, Except.toBool]
  | ok ls =>
    dsimp only
    rw [hok, Steps.run_exceptT_pure, Branch.rowLocks_of_collect hcol]
    rfl

/-- Deleting a branch at its participant, on quiet stores: the participant is asked unless the
branch failed phase one, and the answer is whether the delete goes on past the branch, whose
rows are released exactly then.  The replies left are those `Participants.afterDelete` says. -/
theorem run_deleteAtParticipant (c : Config) (h : env.Quiet t lt) (b : Branch) :
    ∃ env₁, Steps.run (deleteAtParticipant c b).run env = (.ok (env.participants.deletes b), env₁) ∧
      env₁.Quiet t (if env.participants.deletes b then lt.release b.rowLocks else lt) ∧
      env₁.participants = env.participants.afterDelete b := by
  unfold deleteAtParticipant
  dsimp only
  by_cases hpf : b.status = .phaseOneFailed
  · -- a branch that failed phase one is not asked: its rows are released at once
    have hdel : env.participants.deletes b = (LockManager.collect b).isOk := by
      simp [Participants.deletes, Participants.letsDelete, hpf]
    rw [if_neg (by simp [hpf]), hdel]
    exact ⟨_, run_releaseBranch_then h b _ rfl fun _ => rfl, ⟨h.sessions, rfl, h.faults⟩,
      (if_pos hpf).symm⟩
  · -- the participant is asked once, and answers with the next reply queued for the branch
    have hp : (env.participants.request .delete b).2 = env.participants.afterDelete b :=
      (if_neg hpf).symm
    have hq₁ : ({ env with participants := (env.participants.request .delete b).2 } : Env).Quiet
        t lt :=
      ⟨h.sessions, h.locks, h.faults⟩
    rw [if_pos (by simpa using hpf), Steps.run_exceptT_bind, run_requestDelete,
      Participants.fst_request]
    dsimp only
    cases ha : Answer.ofDeleteReply b (env.participants.queue b.branchId).head? with
    | answered ok =>
      cases ok with
      | true =>
        -- the participant lets the data go: the rows are released
        have hdel : env.participants.deletes b = (LockManager.collect b).isOk := by
          simp [Participants.deletes, Participants.letsDelete, ha]
        rw [hdel]
        exact ⟨_, run_releaseBranch_then hq₁ b _ rfl fun _ => rfl, ⟨h.sessions, rfl, h.faults⟩,
          hp⟩
      | false =>
        -- a refusal
        have hdel : env.participants.deletes b = false := by
          simp [Participants.deletes, Participants.letsDelete, ha, hpf]
        rw [hdel]
        exact ⟨_, rfl, hq₁, hp⟩
    | failed e =>
      have hdel : env.participants.deletes b = false := by
        simp [Participants.deletes, Participants.letsDelete, ha, hpf]
      rw [hdel]
      exact ⟨_, rfl, hq₁, hp⟩
    | silent =>
      -- a silent participant is waited for, a pause that changes only the timers
      have hdel : env.participants.deletes b = false := by
        simp [Participants.deletes, Participants.letsDelete, ha, hpf]
      rw [hdel, Steps.run_exceptT_bind, run_sleep]
      by_cases hz : c.branchTimeout = 0
      · rw [if_pos hz]
        exact ⟨_, rfl, hq₁, hp⟩
      · rw [if_neg hz]
        exact ⟨_, rfl, ⟨h.sessions, h.locks, h.faults⟩, hp⟩

/-- Removing a branch whose rows are already released, from a session stored as it is. -/
theorem run_removeBranch_released (h : env.Quiet t lt) (hg : t.find? s.xid = some s)
    (b : Branch) :
    Steps.run (removeBranch s b false).run env =
      (.ok (s.removeBranch b.branchId),
        { env with sessions := .table (t.put (s.removeBranch b.branchId)) }) := by
  unfold removeBranch
  rw [if_neg Bool.false_ne_true]
  dsimp only
  rw [Steps.run_bind_ok (run_storeRemoveBranch h _ _), SessionTable.removeBranch_eq hg]
  rfl

/-- Moving a session stored as it is along a legal edge, and persisting it. -/
theorem run_transitAndPersist (h : env.Quiet t lt) (hg : t.find? s.xid = some s)
    {target : GlobalStatus} (hlegal : s.status.canTransitTo target = true) :
    Steps.run (transitAndPersist s target).run env =
      (.ok { s with status := target, gmtUpdated := env.clock.now },
        { env with
          sessions := .table (t.put { s with status := target, gmtUpdated := env.clock.now }) }) := by
  unfold transitAndPersist
  rw [Steps.run_exceptT_bind, run_transit, if_pos hlegal]
  dsimp only
  rw [run_update h (s := { s with status := target, gmtUpdated := env.clock.now }) hg]

/-- Deleting the branches `bs` of the session `s`, stored as it is, in turn and then the session:
by induction on the branches left, the first of which is the first branch of the stored session.
Each is deleted at its participant, its rows released, and removed from the stored session,
which is then stored as it is again. -/
theorem run_deleteAll (c : Config) (x : String) :
    ∀ (bs : List Branch) {env env' : Env} {t : SessionTable} {lt : LockTable} {s : GlobalSession}
      {r : Except CoordError Unit}, env.Quiet t lt → t.find? s.xid = some s → t.put s = t →
      s.branches = bs → s.xid = x →
      Steps.run (do
        let s ← bs.foldlM (fun s b => do
          unless ← deleteAtParticipant c b do
            throw (CoordError.branchDeleteFailed x b.branchId)
          removeBranch s b false) s
        endSession s).run env = (r, env') →
      Deleted env t lt s r env'
  | [], env, env', t, lt, s, r, h, _, _, hb, _, hrun => by
    -- no branch is left: the session is removed
    rw [List.foldlM_nil, pure_bind, run_endSession h hb] at hrun
    obtain ⟨rfl, rfl⟩ := Prod.mk.inj hrun
    exact Deleted.nil hb rfl ⟨rfl, h.locks, h.faults⟩ rfl
  | b :: bs, env, env', t, lt, s, r, h, hg, ht, hb, hx, hrun => by
    obtain ⟨env₁, hdel, hq₁, hp⟩ := run_deleteAtParticipant c h b
    rw [List.foldlM_cons, Steps.run_exceptT_bind, Steps.run_exceptT_bind, Steps.run_exceptT_bind,
      hdel] at hrun
    cases hd : env.participants.deletes b with
    | true =>
      -- the delete goes on: the branch is removed, and the rest taken from the session left
      rw [hd, if_pos rfl] at hq₁
      dsimp only at hrun
      rw [if_pos hd, run_removeBranch_released hq₁ hg b, GlobalSession.removeBranch_head hb]
        at hrun
      dsimp only at hrun
      rw [← Steps.run_exceptT_bind] at hrun
      have hq₂ : ({ env₁ with sessions := .table (t.put { s with branches := bs }) } : Env).Quiet
          (t.put { s with branches := bs }) (lt.release b.rowLocks) :=
        ⟨rfl, hq₁.locks, hq₁.faults⟩
      have hrest := run_deleteAll c x bs (s := { s with branches := bs }) hq₂
        (SessionTable.find?_put_self hg) (SessionTable.put_put rfl) rfl hx hrun
      exact Deleted.cons hb hd (by exact hp) hrest
    | false =>
      -- the delete stops at the branch, and the error ends it
      rw [hd, if_neg Bool.false_ne_true] at hq₁
      dsimp only at hrun
      rw [hd, if_neg Bool.false_ne_true, Steps.run_exceptT_bind, Steps.run_exceptT_throw] at hrun
      dsimp only at hrun
      obtain ⟨rfl, rfl⟩ := Prod.mk.inj hrun
      exact Deleted.stop hb hd ht (hp ▸ Participants.calls_afterDelete _ b) hq₁ (hx ▸ rfl)

/-- A delete of the stored session `x`, run alone on quiet stores that keep one session per
xid, where the session's status allows a delete: it persists the session in status `deleting`,
unless it was there already, and then does what `Deleted` says. -/
theorem run_deleteGlobal (c : Config) {x : String} (h : env.Quiet t lt)
    (hxids : (t.sessions.map (·.xid)).Nodup) (hg : t.find? x = some s)
    (hdel : s.status.isDeletable = true) :
    Deleted env t lt (s.markedDeleting env.clock.now) (Steps.run (deleteGlobal c x).run env).1
      (Steps.run (deleteGlobal c x).run env).2 := by
  have hx : s.xid = x := (SessionTable.find?_eq_some hg).2
  have hgs : t.find? s.xid = some s := hx ▸ hg
  unfold deleteGlobal
  rw [Steps.run_exceptT_bind, run_load h.sessions, if_neg h.no_failed_reads,
    hg]
  dsimp only
  rw [if_pos hdel]
  by_cases hd : s.status = .deleting
  · -- already being deleted: nothing is written before the branches are taken
    have hm : s.markedDeleting env.clock.now = s := if_pos hd
    rw [if_pos (by simp [hd]), hm, Steps.run_exceptT_bind, Steps.run_exceptT_pure]
    dsimp only
    exact run_deleteAll c x s.branches h hgs (SessionTable.put_of_find? hxids hgs) rfl hx
      (Prod.eta _).symm
  · -- the session is persisted in status `deleting` first
    have hm : s.markedDeleting env.clock.now =
        { s with status := .deleting, gmtUpdated := env.clock.now } := if_neg hd
    rw [if_neg (by simpa using hd), hm, Steps.run_exceptT_bind,
      run_transitAndPersist h hgs (GlobalStatus.canTransitTo_deleting_of_isDeletable hdel)]
    dsimp only
    have h₁ : ({ env with
        sessions := .table (t.put { s with status := .deleting, gmtUpdated := env.clock.now }) } :
          Env).Quiet (t.put { s with status := .deleting, gmtUpdated := env.clock.now }) lt :=
      ⟨rfl, h.locks, h.faults⟩
    refine Deleted.of_put rfl ?_ (run_deleteAll c x s.branches h₁
      (SessionTable.find?_put_self hgs) (SessionTable.put_put rfl) rfl hx (Prod.eta _).symm)
    rfl

/-- Deleting a session resumes where it stopped.  Run alone on quiet stores that keep one
session per xid, a delete of a session whose status allows it does what `Deleted` says of the
session persisted in status `deleting`: it asks, in registration order, about the branches it
deletes and about the first one it does not, releases exactly the rows of the branches deleted,
and either removes the session or fails at that branch.  When it fails, the session is left
stored in status `deleting` with the branches from that one on; a delete run again over those
stores, whatever the participants answer then, does what `Deleted` says of the session left: it
asks about branches left only, and so, where branch ids are distinct, never asks again about a
branch deleted before. -/
theorem delete_resumes_at_first_refusal (c : Config) {env : Env} {t : SessionTable}
    {lt : LockTable} {x : String} {s : GlobalSession} (h : env.Quiet t lt)
    (hxids : (t.sessions.map (·.xid)).Nodup) (hg : t.find? x = some s)
    (hdel : s.status.isDeletable = true) :
    let first := Steps.run (deleteGlobal c x).run env
    let done := env.participants.deletedRun s.branches
    let left := env.participants.deleteLeft s.branches
    let s' : GlobalSession := { s.markedDeleting env.clock.now with branches := left }
    Deleted env t lt (s.markedDeleting env.clock.now) first.1 first.2 ∧
    (left ≠ [] → ∀ (env₂ : Env) (lt₂ : LockTable), env₂.Quiet (t.put s') lt₂ →
      let again := Steps.run (deleteGlobal c x).run env₂
      Deleted env₂ (t.put s') lt₂ s' again.1 again.2 ∧
      (∀ call ∈ again.2.participants.calls.drop env₂.participants.calls.length,
        ∃ d ∈ left, call = d.deleteCall) ∧
      (s.branchIds.Nodup → ∀ b ∈ done,
        b.deleteCall ∉ again.2.participants.calls.drop env₂.participants.calls.length)) := by
  intro first done left s'
  refine ⟨run_deleteGlobal c h hxids hg hdel, fun _ env₂ lt₂ h₂ => ?_⟩
  -- the session left is stored under `x`, in status `deleting`
  have hx : s'.xid = x := by simp [s', (SessionTable.find?_eq_some hg).2]
  have hg₂ : (t.put s').find? x = some s' := hx ▸ SessionTable.find?_put_self (hx ▸ hg)
  have hst : s'.status = .deleting := GlobalSession.status_markedDeleting s env.clock.now
  have hxids₂ : ((t.put s').sessions.map (·.xid)).Nodup := by
    rw [SessionTable.xids_put]
    exact hxids
  have hagain := run_deleteGlobal c h₂ hxids₂ hg₂ (by rw [hst]; rfl)
  rw [GlobalSession.markedDeleting_of_deleting hst] at hagain
  refine ⟨hagain, fun _ hcall => hagain.mem_calls hcall, fun hids b hb hcall => ?_⟩
  -- a request about `b` would be about a branch left, which has another id
  obtain ⟨d, hd, hbd⟩ := hagain.mem_calls hcall
  have hid : b.branchId = d.branchId := by
    simp only [Branch.deleteCall, Call.branch.injEq] at hbd
    exact hbd.2.2.1
  exact GlobalSession.branchId_ne_of_deletedRun hids _ hb hd hid

/-- A failed commit of two branches that share an id, as a restart that keeps the rows may leave
them: the participant lets the first go and refuses the second, the delete stops at the second
branch, and a second delete resumes there. -/
theorem delete_resumes_at_refusing_second_branch :
    let b₁ : Branch := ⟨"x", 1, 2, "g", "db", "c", .at, .phaseOneDone, "t:1", "", 0⟩
    let b₂ : Branch := ⟨"x", 1, 2, "g", "db", "c", .tcc, .phaseOneDone, "", "", 0⟩
    let s : GlobalSession := ⟨"x", 1, "app", "g", "tx", .commitFailed, ⟨0⟩, 0, 0, "", [b₁, b₂]⟩
    let t : SessionTable := ⟨[s]⟩
    let env : Env :=
      { clock := ⟨5⟩, ids := ⟨0, 4⟩, sessions := .table t,
        participants := { replies := [(2, [.deleted true, .deleted false])] } }
    env.Quiet t {} ∧ (t.sessions.map (·.xid)).Nodup ∧ t.find? "x" = some s ∧
      s.status.isDeletable = true ∧ env.participants.deleteLeft s.branches = [b₂] ∧
    let first := Steps.run (deleteGlobal {} "x").run env
    let done := env.participants.deletedRun s.branches
    let left := env.participants.deleteLeft s.branches
    let s' : GlobalSession := { s.markedDeleting env.clock.now with branches := left }
    Deleted env t {} (s.markedDeleting env.clock.now) first.1 first.2 ∧
    (left ≠ [] → ∀ (env₂ : Env) (lt₂ : LockTable), env₂.Quiet (t.put s') lt₂ →
      let again := Steps.run (deleteGlobal {} "x").run env₂
      Deleted env₂ (t.put s') lt₂ s' again.1 again.2 ∧
      (∀ call ∈ again.2.participants.calls.drop env₂.participants.calls.length,
        ∃ d ∈ left, call = d.deleteCall) ∧
      (s.branchIds.Nodup → ∀ b ∈ done,
        b.deleteCall ∉ again.2.participants.calls.drop env₂.participants.calls.length)) := by
  intro b₁ b₂ s t env
  have h : env.Quiet t {} := ⟨rfl, rfl, rfl⟩
  have hxids : (t.sessions.map (·.xid)).Nodup := by decide
  have hg : t.find? "x" = some s := by decide
  have hdel : s.status.isDeletable = true := by decide
  have hleft : env.participants.deleteLeft s.branches = [b₂] := by decide
  exact ⟨h, hxids, hg, hdel, hleft, delete_resumes_at_first_refusal {} h hxids hg hdel⟩

end CoordM

end GlobalTxn
