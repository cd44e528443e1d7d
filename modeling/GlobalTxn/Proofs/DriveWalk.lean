import GlobalTxn.Proofs.OwnSession
import GlobalTxn.Proofs.Recovery

/-! # A drive beside others, seen from its session

Run alone, a drive does what `Driven` says (`CoordM.drive_walks_branches_in_order`).  Inside a
scan it runs beside the handlers of other sessions, which write other sessions, free other rows,
and take replies queued for their own branches.  Seen from its own session it still does what a
drive run alone does: where the branch ids of the session are distinct, the requests about it,
the rows held for it and what is stored under its xid move as `Direction.sent`,
`Direction.freed` and `Direction.stored` say, for the answers its participants gave
(`CoordM.own_walk`).

Each call of a drive moves the session of its xid in one way (`Env.Moved`, one lemma per call in
`OwnSession`); moves compose, and what the others do meanwhile moves nothing of it.  A branch
that is asked takes the next reply queued for its id at that moment, which other handlers may
have changed before.  As the ids are distinct, the answers the drive got are still those of one
set of queues, gathered branch by branch (`Participants.setQueue`).

## Key results

- `Direction.sent_cons_passes`, `Direction.freed_cons_passes`, `Direction.stored_cons_passes`: a
  drive that goes on past its first branch does to the rest what a drive of the rest does.
- `CoordM.own_walk`: the walk of a drive moves its session as a drive run alone does.
- `CoordM.own_driveHandled_walks`: a drive counted as handled, with all `own_driveHandled` says.
-/

namespace GlobalTxn

open Steps

theorem Participants.queue_setQueue_self (p : Participants) (id : Nat) (q : List Reply) :
    (p.setQueue id q).queue id = q := by
  have hnone : (p.replies.filter (·.1 != id)).find? (·.1 == id) = none :=
    List.find?_eq_none.2 fun x hx => by
      simp only [List.mem_filter, bne_iff_ne, ne_eq] at hx
      simp [hx.2]
  simp [Participants.setQueue, Participants.queue, List.find?_append, hnone]

/-- Branches whose lock keys can all be read take, all together, the rows of each in turn. -/
theorem LockManager.flatMap_rowLocks_of_flatMapM :
    ∀ {bs : List Branch} {ls : List RowLock}, bs.flatMapM LockManager.collect = .ok ls →
      bs.flatMap Branch.rowLocks = ls
  | [], _, h => by
    cases h
    rfl
  | b :: bs, ls, h => by
    rw [List.flatMapM_cons] at h
    cases hb : LockManager.collect b with
    | error e => rw [hb] at h; cases h
    | ok lb =>
      cases hrest : bs.flatMapM LockManager.collect with
      | error e => rw [hb, hrest] at h; cases h
      | ok lr =>
        rw [hb, hrest] at h
        cases h
        rw [List.flatMap_cons, Branch.rowLocks_of_collect hb, flatMap_rowLocks_of_flatMapM hrest]

/-! ## What a drive does to its session, for the answers it gets -/

namespace Direction

variable (dir : Direction) (p : Participants)

/-- The requests a drive sends taking the branches `bs` in turn, when participants answer from
`p`: one to each branch it passes that needs phase two, then one to the branch it stops at. -/
def sent (bs : List Branch) : List Call :=
  ((bs.takeWhile (dir.passes p) ++ (bs.dropWhile (dir.passes p)).take 1).filter
    fun b => !b.branchType.skipsPhaseTwo b.status).map dir.call

/-- The rows a drive frees taking the branches `bs` in turn: those of the branches it passes. -/
def freed (bs : List Branch) : List RowLock :=
  (bs.takeWhile (dir.passes p)).flatMap Branch.rowLocks

/-- What a drive of the session `s` taking the branches `bs` in turn leaves stored, when the
clock reads `now`: nothing once it passes every branch, and otherwise the session stopped at the
first branch it does not pass, in the status that branch's answer calls for. -/
def stored (now : Nat) (s : GlobalSession) (bs : List Branch) : Option GlobalSession :=
  match bs.dropWhile (dir.passes p) with
  | [] => none
  | b :: _ => some (s.stoppedAt (bs.takeWhile (dir.passes p)) b (dir.answer p b).reported
      (dir.stopStatus s.status b (dir.answer p b)) now)

variable {dir p} {p' : Participants} {b : Branch} {bs : List Branch}

theorem skipsPhaseTwo_of_passes_eq_false (h : dir.passes p b = false) :
    b.branchType.skipsPhaseTwo b.status = false := by
  simp only [passes, Bool.or_eq_false_iff] at h
  exact h.1

theorem sent_cons_passes (h : dir.passes p b = true) :
    dir.sent p (b :: bs) =
      (if b.branchType.skipsPhaseTwo b.status then [] else [dir.call b]) ++ dir.sent p bs := by
  unfold sent
  rw [List.takeWhile_cons_of_pos h, List.dropWhile_cons_of_pos h, List.cons_append,
    List.filter_cons]
  by_cases hs : b.branchType.skipsPhaseTwo b.status = true <;> simp [hs]

theorem freed_cons_passes (h : dir.passes p b = true) :
    dir.freed p (b :: bs) = b.rowLocks ++ dir.freed p bs := by
  unfold freed
  rw [List.takeWhile_cons_of_pos h, List.flatMap_cons]

theorem stored_cons_passes (h : dir.passes p b = true) (now : Nat) (s : GlobalSession) :
    dir.stored p now s (b :: bs) =
      dir.stored p now { s with branches := s.branches.filter (· ≠ b) } bs := by
  unfold stored
  rw [List.takeWhile_cons_of_pos h, List.dropWhile_cons_of_pos h]
  cases bs.dropWhile (dir.passes p) with
  | nil => rfl
  | cons c cs =>
    dsimp only
    rw [GlobalSession.stoppedAt_cons]

theorem sent_cons_stop (h : dir.passes p b = false) : dir.sent p (b :: bs) = [dir.call b] := by
  unfold sent
  rw [List.takeWhile_cons_of_neg (by simp [h]), List.dropWhile_cons_of_neg (by simp [h])]
  simp [skipsPhaseTwo_of_passes_eq_false h]

theorem freed_cons_stop (h : dir.passes p b = false) : dir.freed p (b :: bs) = [] := by
  unfold freed
  rw [List.takeWhile_cons_of_neg (by simp [h])]
  rfl

theorem stored_cons_stop (h : dir.passes p b = false) (now : Nat) (s : GlobalSession) :
    dir.stored p now s (b :: bs) = some (s.stoppedAt [] b (dir.answer p b).reported
      (dir.stopStatus s.status b (dir.answer p b)) now) := by
  unfold stored
  rw [List.takeWhile_cons_of_neg (by simp [h]), List.dropWhile_cons_of_neg (by simp [h])]

section Congr

variable (h : ∀ c ∈ bs, p'.queue c.branchId = p.queue c.branchId)
include h

/-- Participants that queue the same replies for the branches `bs` answer a drive of `bs`
alike. -/
theorem passes_congr_mem : ∀ c ∈ bs, dir.passes p' c = dir.passes p c :=
  fun c hc => passes_congr (h c hc)

theorem sent_congr : dir.sent p' bs = dir.sent p bs := by
  unfold sent
  rw [List.takeWhile_congr_mem (passes_congr_mem h), List.dropWhile_congr_mem (passes_congr_mem h)]

theorem freed_congr : dir.freed p' bs = dir.freed p bs := by
  unfold freed
  rw [List.takeWhile_congr_mem (passes_congr_mem h)]

theorem stored_congr (now : Nat) (s : GlobalSession) :
    dir.stored p' now s bs = dir.stored p now s bs := by
  unfold stored
  rw [List.takeWhile_congr_mem (passes_congr_mem h), List.dropWhile_congr_mem (passes_congr_mem h)]
  cases hd : bs.dropWhile (dir.passes p) with
  | nil => rfl
  | cons c cs =>
    -- the branch stopped at is one of `bs`, and answers alike
    have hc : c ∈ bs := (List.dropWhile_suffix _).subset (hd ▸ List.mem_cons_self ..)
    have hans : dir.answer p' c = dir.answer p c := by simp only [answer, h c hc]
    dsimp only
    rw [hans]

end Congr

end Direction

/-! ## The walk -/

namespace Env

/-- A drive of direction `dir` may go on with the copy `s` of the session of `y`, taking the
branches `bs` in turn: `s` is drivable, and the branches left are its branches, with distinct
ids. -/
structure Walking (now : Nat) (dir : Direction) (y : String) (s : GlobalSession)
    (bs : List Branch) (env : Env) : Prop extends env.Drivable now dir y s where
  left : s.Left bs

end Env

namespace CoordM

section Walk

variable (c : Config) (dir : Direction) {now : Nat} {y : String}

open GlobalSession in
/-- The walk of a drive of the session of `y` over the branches left, `bs`, in the order taken,
beside others that leave `y` untouched: it moves `y` as a drive run alone does, for the answers
its participants gave.  By induction on `bs`; the answers are gathered into one set of queues,
the queue of each branch as it was when the branch was asked, which the ids being distinct keeps
apart from the queues of the branches taken later. -/
theorem own_walk : ∀ (bs : List Branch) {s : GlobalSession} {env : Env},
    env.Walking now dir y s bs →
    (drive.go c dir s (bs.map (·.branchId))).run.Guarded (Env.Calm now) (Env.Untouched y)
      (Env.Own y) (Ends (fun _ _ => False) fun _ env' =>
        ∃ p, env.Moved y (dir.sent p bs) (dir.freed p bs) (dir.stored p now s bs) env') env
  | [], s, env, hw => by
    -- no branch is left: the session reaches the outcome of the direction and is removed
    have hnil : s.branches = [] :=
      List.eq_nil_iff_forall_not_mem.2 fun b hb => by simpa using (hw.left.left b).2 hb
    obtain ⟨t, lt, hq⟩ := hw.calm.1
    rw [List.map_nil]
    unfold drive.go
    refine guarded_bind (Env.own_lasting y)
      (own_transit (Direction.canTransitTo_completed hw.bound)) fun s₁ env₁ h₁ => ?_
    obtain ⟨rfl, rfl⟩ := h₁
    refine guarded_bind (Env.own_lasting y) (own_update hq (hw.find?_xid hq) hw.xid)
      fun s₂ env₂ h₂ => ?_
    obtain ⟨hs₂, rfl⟩ := h₂
    have hx₂ : s₂.xid = y := by rw [hs₂]; exact hw.xid
    refine guarded_bind (Env.own_lasting y)
      (own_endSession (hw.calm.withSessions _) hw.xid hw.branches) fun _ env₃ h₃ => ?_
    obtain ⟨-, ls, hls, hm₃⟩ := h₃
    -- with no branch left, the end frees no row
    have hls' : ls = [] := by
      rw [hnil] at hls
      exact (Except.ok.inj hls).symm
    subst hls'
    exact guarded_pure _ ⟨{}, (Env.moved_put hq hw.stored hx₂).trans hm₃⟩
  | b :: bs, s, env, hw => by
    have hb := hw.left.mem
    have hfind : s.findBranch? b.branchId = some b := findBranch?_of_mem hw.left.ids hb
    have hby : b.xid = y := (hw.branches b hb).1
    rw [List.map_cons]
    unfold drive.go
    rw [hfind]
    dsimp only
    -- the drive goes on past `b`: the branch is removed with its rows, and the walk goes on over
    -- the rest, from the session less `b`; `hp` says how the answers of `b` and of the rest add up
    have hnext : ∀ (env₁ : Env) (cs : List Call), env₁.Drivable now dir y s →
        env.Moved y cs [] (some s) env₁ →
        (∀ p', ∃ p, dir.sent p (b :: bs) = cs ++ dir.sent p' bs ∧
          dir.freed p (b :: bs) = b.rowLocks ++ dir.freed p' bs ∧
          dir.stored p now s (b :: bs) =
            dir.stored p' now { s with branches := s.branches.filter (· ≠ b) } bs) →
        (removeBranch s b true >>= fun s => drive.go c dir s (bs.map (·.branchId))).run.Guarded
          (Env.Calm now) (Env.Untouched y) (Env.Own y) (Ends (fun _ _ => False) fun _ env' =>
            ∃ p, env.Moved y (dir.sent p (b :: bs)) (dir.freed p (b :: bs))
              (dir.stored p now s (b :: bs)) env') env₁ := by
      intro env₁ cs hd₁ hm₁ hp
      refine guarded_bind (Env.own_lasting y) (own_removeBranch hd₁ hb) fun s' env₂ h₂ => ?_
      obtain ⟨rfl, hd₂, ls, hls, hm₂⟩ := h₂
      rw [removeBranch_of_mem hw.left.ids hb] at hd₂ hm₂ ⊢
      refine (own_walk bs ⟨hd₂, hw.left.next⟩).mono
        (Ends.imp (fun _ _ h => h) fun _ env' h => ?_)
      obtain ⟨p', hm'⟩ := h
      obtain ⟨p, hsent, hfreed, hstored⟩ := hp p'
      refine ⟨p, ?_⟩
      have hm := (hm₁.trans hm₂).trans hm'
      rwa [List.append_nil, List.nil_append, ← Branch.rowLocks_of_collect hls, ← hsent, ← hfreed,
        ← hstored] at hm
    -- the drive stops at `b`, asked once, as its answer says
    have hstop : ∀ (env₂ : Env) (rep : Option BranchStatus) (st : GlobalStatus),
        env₂.Drivable now dir y s → env.Moved y [dir.call b] [] (some s) env₂ →
        dir.passes env.participants b = false → rep = (dir.answer env.participants b).reported →
        st = dir.stopStatus s.status b (dir.answer env.participants b) →
        (suspend s b rep st).run.Guarded (Env.Calm now) (Env.Untouched y) (Env.Own y)
          (Ends (fun _ _ => False) fun _ env' =>
            ∃ p, env.Moved y (dir.sent p (b :: bs)) (dir.freed p (b :: bs))
              (dir.stored p now s (b :: bs)) env') env₂ := by
      intro env₂ rep st hd₂ hm₂ hpass hrep hst
      have hlegal : s.status.canTransitTo st = true :=
        hst ▸ Direction.canTransitTo_stopStatus hw.bound _
      refine (own_suspend hd₂ hfind hlegal).mono
        (Ends.imp (fun _ _ h => h) fun _ env' h => ⟨env.participants, ?_⟩)
      rw [Direction.sent_cons_stop hpass, Direction.freed_cons_stop hpass,
        Direction.stored_cons_stop hpass, ← hrep, ← hst]
      have hm := hm₂.trans h.2.2
      rwa [List.append_nil, List.append_nil] at hm
    split
    · -- a branch that needs no phase two is removed with its rows, and not asked
      rename_i hskip
      have hpass : ∀ p, dir.passes p b = true := fun _ => by simp [Direction.passes, hskip]
      refine hnext env [] hw.toDrivable (Env.moved_of_eq hw.stored rfl rfl) fun p' =>
        ⟨p', ?_, Direction.freed_cons_passes (hpass p'),
          Direction.stored_cons_passes (hpass p') now s⟩
      rw [Direction.sent_cons_passes (hpass p'), if_pos hskip]
    · rename_i hskip
      refine guarded_bind (Env.own_lasting y) (own_requestPhaseTwo hby) fun a env₁ h₁ => ?_
      obtain ⟨ha, rfl⟩ := h₁
      rw [Direction.answer_request] at ha
      subst ha
      -- the branch is asked: the request is sent about `y`, and nothing else moves
      have hd₁ : Env.Drivable now dir y s
          { env with participants := (env.participants.request dir.action b).2 } :=
        hw.toDrivable.of_eq rfl rfl rfl rfl
      have hm₁ : env.Moved y [dir.call b] [] (env.stored y)
          { env with participants := (env.participants.request dir.action b).2 } :=
        Env.moved_request hby
      rw [hw.stored] at hm₁
      cases ha : dir.answer env.participants b with
      | answered r =>
        dsimp only
        cases ho : dir.outcome b r with
        | done =>
          -- a participant done: the queues the rest answers from get the reply `b` took
          have hpass : dir.passes env.participants b = true := by
            simp [Direction.passes, ha, ho]
          refine hnext _ [dir.call b] hd₁ hm₁ fun p' => ?_
          refine ⟨p'.setQueue b.branchId (env.participants.queue b.branchId), ?_⟩
          have hq : ∀ c ∈ bs, (p'.setQueue b.branchId (env.participants.queue b.branchId)).queue
              c.branchId = p'.queue c.branchId :=
            fun c hc => Participants.queue_setQueue_of_ne _ _ (hw.left.ne_of_mem hc)
          have hpass' : dir.passes (p'.setQueue b.branchId (env.participants.queue b.branchId))
              b = true := by
            rw [Direction.passes_congr (Participants.queue_setQueue_self _ _ _), hpass]
          refine ⟨?_, ?_, ?_⟩
          · rw [Direction.sent_cons_passes hpass', if_neg hskip, Direction.sent_congr hq]
          · rw [Direction.freed_cons_passes hpass', Direction.freed_congr hq]
          · rw [Direction.stored_cons_passes hpass', Direction.stored_congr hq]
        | retryable =>
          exact hstop _ _ _ hd₁ hm₁ (by simp [Direction.passes, hskip, ha, ho]) (by rw [ha]; rfl)
            (by simp [ha, Direction.stopStatus, ho])
        | unretryable =>
          exact hstop _ _ _ hd₁ hm₁ (by simp [Direction.passes, hskip, ha, ho]) (by rw [ha]; rfl)
            (by simp [ha, Direction.stopStatus, ho])
      | failed e =>
        exact hstop _ _ _ hd₁ hm₁ (by simp [Direction.passes, hskip, ha]) (by rw [ha]; rfl)
          (by rw [ha]; rfl)
      | silent =>
        -- a silent participant is waited for; meanwhile the others leave `y` untouched
        refine guarded_bind (Env.own_lasting y) (own_sleep hd₁.calm c.branchTimeout)
          fun _ env₂ h₂ => ?_
        exact hstop _ _ _ (hd₁.of_untouched h₂.1 h₂.2) (hm₁.untouched h₂.2)
          (by simp [Direction.passes, hskip, ha]) (by rw [ha]; rfl) (by rw [ha]; rfl)

/-- A drive counted as handled: all that `own_driveHandled` says, and, where the branch ids of
the session are distinct, its session moved as a drive run alone moves it, its branches taken in
the order of the direction. -/
theorem own_driveHandled_walks {s : GlobalSession} {env : Env} (hd : env.Drivable now dir y s) :
    (driveHandled c dir s).run.Guarded (Env.Calm now) (Env.Untouched y) (Env.Own y)
      (Ends (fun _ _ => False) fun handled env' => handled = true ∧ env'.Calm now ∧
        (∃ st, DriveEnd dir s.status st (env'.stored y)) ∧ env.FreesOnly y env' ∧
        (s.branchIds.Nodup → ∃ p, env.Moved y (dir.sent p (dir.arrange s.branches))
          (dir.freed p (dir.arrange s.branches)) (dir.stored p now s (dir.arrange s.branches))
          env')) env := by
  by_cases hids : s.branchIds.Nodup
  · -- the walk over the branches in the order of the direction, beside the drive's end
    have hwalk : (driveHandled c dir s).run.Guarded (Env.Calm now) (Env.Untouched y) (Env.Own y)
        (Ends (fun _ _ => False) fun _ env' => ∃ p, env.Moved y (dir.sent p (dir.arrange s.branches))
          (dir.freed p (dir.arrange s.branches)) (dir.stored p now s (dir.arrange s.branches))
          env') env := by
      have horder : dir.order s.branchIds = (dir.arrange s.branches).map (·.branchId) :=
        Direction.order_map_branchId dir s.branches
      unfold driveHandled drive
      rw [horder]
      exact guarded_bind (Env.own_lasting y)
        (own_walk c dir _ ⟨hd, GlobalSession.left_arrange hids dir⟩) fun _ _ h => guarded_pure true h
    refine ((own_driveHandled c dir hd).and hwalk).mono fun r env' h =>
      Ends.imp (fun _ _ h => h) (fun _ _ h => ?_) r env' (Ends.and r env' h.1 h.2)
    exact ⟨h.1.1, h.1.2.1, h.1.2.2.1, h.1.2.2.2, fun _ => h.2⟩
  · exact (own_driveHandled c dir hd).mono (Ends.imp (fun _ _ h => h) fun _ _ h =>
      ⟨h.1, h.2.1, h.2.2.1, h.2.2.2, fun h' => absurd h' hids⟩)

end Walk

end CoordM

end GlobalTxn
