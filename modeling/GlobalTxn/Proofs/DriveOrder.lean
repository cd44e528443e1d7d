import GlobalTxn.Proofs.AgreementCalls
import GlobalTxn.Proofs.RunAlone

/-! # A drive run alone: which branches it passes, where it stops

A drive takes the branches of a session in registration order for a commit and in reverse for
a rollback (`Direction.arrange`).  Run alone on quiet stores, the drive of a session whose
branch ids are distinct does exactly this (`CoordM.drive_walks_branches_in_order`):

* it passes the longest run of branches, in that order, that need no phase two or whose
  participant answers with a status that ends it (`Direction.passes`), and removes each from
  the store with its row locks;
* it sends one request to each passed branch that needs phase two, and one to the branch it
  stops at, in that order, and to no other branch;
* when it passes every branch, the session reaches the outcome of the direction and is
  removed;
* otherwise it stops at the first branch it does not pass: that branch keeps its row locks
  and takes the status its participant reported, the branches after it stay as they were, and
  the session takes the retrying or the failed status of the direction
  (`Direction.stopStatus`).

What a participant answers is read off the replies queued for its branch before the drive:
the drive asks each branch at most once, and a request takes a reply from its own branch's
queue only.

Each call a drive makes has an exact equation on quiet stores (`run_removeBranch`,
`run_suspend`, `run_endSession`), and the walk is one induction over the branches left, in the
order taken (`run_go`), whose step is `Driven.cons_passes`.

A drive looks branches up by id.  Where two branches share an id, as when a generator seeded
again at the same clock reading draws an id a second time, it takes the first of them where the
order says the second (`drive_rollback_asks_first_of_shared_id`).
-/

namespace GlobalTxn

open Steps

/-! ## Replies, tables and sessions -/

namespace Participants

theorem queue_setQueue_of_ne (p : Participants) {id id' : Nat} (q : List Reply) (h : id' ≠ id) :
    (p.setQueue id q).queue id' = p.queue id' := by
  have hp : (fun x : Nat × List Reply => !decide (x.1 = id) && decide (x.1 = id')) =
      (fun x => x.1 == id') := by
    funext x
    by_cases hx : x.1 = id' <;> simp [hx, h]
  simp [setQueue, queue, List.find?_append, List.find?_filter, hp, Ne.symm h]

/-- A request about one branch leaves the replies queued for every other branch. -/
theorem queue_request_of_ne (p : Participants) (a : Action) (b : Branch) {id : Nat}
    (h : id ≠ b.branchId) : (p.request a b).2.queue id = p.queue id := by
  unfold request
  dsimp only
  split
  · rfl
  · exact queue_setQueue_of_ne _ _ h

end Participants

namespace SessionTable

variable {t : SessionTable} {a g : GlobalSession}

/-- Storing two sessions of one xid keeps the second. -/
theorem put_put (h : a.xid = g.xid) : (t.put a).put g = t.put g := by
  obtain ⟨gs⟩ := t
  simp only [put, List.map_map, mk.injEq]
  refine List.map_congr_left fun x _ => ?_
  by_cases hx : x.xid = a.xid
  · simp [hx, h]
  · simp [hx, h ▸ hx]

/-- Removing a session forgets what was stored for it. -/
theorem remove_put {x : String} (h : a.xid = x) : (t.put a).remove x = t.remove x := by
  obtain ⟨gs⟩ := t
  simp only [put, remove, mk.injEq]
  induction gs with
  | nil => rfl
  | cons y ys ih =>
    simp only [List.map_cons, List.filter_cons]
    rw [ih]
    by_cases hy : y.xid = a.xid
    · simp [hy, h]
    · simp [hy]

end SessionTable

namespace GlobalSession

variable {s : GlobalSession} {b : Branch}

/-- In a session whose branch ids are distinct, each branch is the one found under its id. -/
theorem findBranch?_of_mem (hids : s.branchIds.Nodup) (hb : b ∈ s.branches) :
    s.findBranch? b.branchId = some b := by
  cases hf : s.findBranch? b.branchId with
  | none =>
    have := List.find?_eq_none.1 hf b hb
    simp at this
  | some c =>
    have hc := List.mem_of_find?_eq_some hf
    have hid : c.branchId = b.branchId := by simpa using List.find?_some hf
    rw [List.inj_on_of_nodup_map hids hc hb hid]

/-- Removing the first branch with a given id, where ids are distinct, drops exactly the branch
with that id. -/
theorem eraseP_branchId {l : List Branch} (hids : (l.map (·.branchId)).Nodup) (hb : b ∈ l) :
    l.eraseP (·.branchId == b.branchId) = l.filter (· ≠ b) := by
  induction l with
  | nil => cases hb
  | cons c cs ih =>
    rw [List.map_cons, List.nodup_cons] at hids
    by_cases hcb : c = b
    · subst hcb
      have hnot : ∀ d ∈ cs, d ≠ c := fun d hd hdc => hids.1 (hdc ▸ List.mem_map_of_mem hd)
      rw [List.eraseP_cons_of_pos (by simp), List.filter_cons_of_neg (by simp)]
      exact (List.filter_eq_self.2 fun d hd => by simpa using hnot d hd).symm
    · have hb' : b ∈ cs := (List.mem_cons.1 hb).resolve_left (Ne.symm hcb)
      have hid : c.branchId ≠ b.branchId := fun h => hids.1 (h ▸ List.mem_map_of_mem hb')
      simp [hid, hcb, ih hids.2 hb']

/-- Removing a branch by its id, where ids are distinct, drops exactly that branch. -/
theorem removeBranch_of_mem (hids : s.branchIds.Nodup) (hb : b ∈ s.branches) :
    s.removeBranch b.branchId = { s with branches := s.branches.filter (· ≠ b) } := by
  unfold removeBranch
  rw [eraseP_branchId hids hb]

/-- Replacing a branch by itself changes nothing. -/
theorem replaceBranch_self (hb : s.findBranch? b.branchId = some b) : s.replaceBranch b = s := by
  unfold replaceBranch
  unfold findBranch? at hb
  suffices h : ∀ l : List Branch, l.find? (·.branchId == b.branchId) = some b →
      replaceBranch.replaceFirst b l = l by
    rw [h _ hb]
  intro l hl
  induction l with
  | nil => cases hl
  | cons c cs ih =>
    unfold replaceBranch.replaceFirst
    by_cases hc : c.branchId = b.branchId
    · rw [List.find?_cons_of_pos (by simpa using hc), Option.some.injEq] at hl
      subst hl
      simp
    · rw [List.find?_cons_of_neg (by simpa using hc)] at hl
      simp [hc, ih hl]

end GlobalSession

namespace LockTable

/-- Releasing rows in two calls releases them all. -/
theorem release_release (lt : LockTable) (ls ls' : List RowLock) :
    (lt.release ls).release ls' = lt.release (ls ++ ls') :=
  (List.foldl_append ..).symm

end LockTable

/-! ## What a drive does, branch by branch -/

namespace Direction

/-- The branches of a session in the order a drive in direction `dir` takes them. -/
def arrange : Direction → List Branch → List Branch
  | commit, bs => bs
  | rollback, bs => bs.reverse

theorem order_map_branchId (dir : Direction) (bs : List Branch) :
    dir.order (bs.map (·.branchId)) = (dir.arrange bs).map (·.branchId) := by
  cases dir <;> simp [order, arrange, List.map_reverse]

theorem mem_arrange {dir : Direction} {bs : List Branch} {b : Branch} :
    b ∈ dir.arrange bs ↔ b ∈ bs := by
  cases dir <;> simp [arrange]

/-- What the participant of `b` answers a drive's request, by the replies queued in `p`. -/
def answer (dir : Direction) (p : Participants) (b : Branch) : Answer BranchStatus :=
  Answer.ofReply b dir.doneStatus (p.queue b.branchId).head?

/-- Whether a drive goes on past `b`: the branch needs no phase two, or its participant answers
with a status that ends it. -/
def passes (dir : Direction) (p : Participants) (b : Branch) : Bool :=
  b.branchType.skipsPhaseTwo b.status ||
    match dir.answer p b with
    | .answered r => dir.outcome b r == .done
    | _ => false

/-- The status a session takes when its drive, begun in status `st`, stops at `b`, whose
participant answered `a`: the failed status when the answer says the branch cannot succeed, and
the retrying status otherwise, unreachable and silent participants included. -/
def stopStatus (dir : Direction) (st : GlobalStatus) (b : Branch) :
    Answer BranchStatus → GlobalStatus
  | .answered r => if dir.outcome b r = .unretryable then dir.failed else dir.retrying st
  | _ => dir.retrying st

/-- The request a drive logs about `b`. -/
def call (dir : Direction) (b : Branch) : Call := .branch dir.action b.xid b.branchId b.status

variable {dir : Direction} {p p' : Participants} {b : Branch}

theorem answer_request (a : Action) :
    Answer.ofReply b dir.doneStatus (p.request a b).1 = dir.answer p b := by
  rw [Participants.fst_request]
  rfl

theorem passes_congr (h : p'.queue b.branchId = p.queue b.branchId) :
    dir.passes p' b = dir.passes p b := by
  simp only [passes, answer, h]

theorem canTransitTo_stopStatus {st : GlobalStatus} (h : dir.bound st = true)
    (a : Answer BranchStatus) : st.canTransitTo (dir.stopStatus st b a) = true := by
  cases a with
  | answered r =>
    by_cases hu : dir.outcome b r = .unretryable
    · rw [stopStatus, if_pos hu]
      exact canTransitTo_failed h
    · rw [stopStatus, if_neg hu]
      exact canTransitTo_retrying h
  | failed e => exact canTransitTo_retrying h
  | silent => exact canTransitTo_retrying h

end Direction

/-- The status an answer reports, if it is one. -/
def Answer.reported : Answer BranchStatus → Option BranchStatus
  | .answered r => some r
  | _ => none

/-- The session a drive leaves when it stops at `b`: the branches `done` are gone, `b` has the
status `rep` reported, if any, and the session is in status `st` since `now`. -/
def GlobalSession.stoppedAt (s : GlobalSession) (done : List Branch) (b : Branch)
    (rep : Option BranchStatus) (st : GlobalStatus) (now : Nat) : GlobalSession :=
  { ({ s with branches := s.branches.filter (· ∉ done) }.replaceBranch
      { b with status := rep.getD b.status }) with status := st, gmtUpdated := now }

/-- Stopping after the branches `b :: done` is stopping the session less `b` after `done`. -/
theorem GlobalSession.stoppedAt_cons (s : GlobalSession) (b c : Branch) (done : List Branch)
    (rep : Option BranchStatus) (st : GlobalStatus) (now : Nat) :
    s.stoppedAt (b :: done) c rep st now =
      { s with branches := s.branches.filter (· ≠ b) }.stoppedAt done c rep st now := by
  have hleft : (s.branches.filter (· ≠ b)).filter (· ∉ done) =
      s.branches.filter (· ∉ b :: done) := by
    rw [List.filter_filter]
    refine List.filter_congr fun d _ => ?_
    simp only [ne_eq, List.mem_cons, not_or, Bool.decide_and, decide_not]
    exact Bool.and_comm _ _
  simp only [GlobalSession.stoppedAt, hleft]

theorem List.takeWhile_congr_mem {α : Type} {p q : α → Bool} :
    ∀ {l : List α}, (∀ a ∈ l, p a = q a) → l.takeWhile p = l.takeWhile q
  | [], _ => rfl
  | a :: l, h => by
    rw [List.takeWhile_cons, List.takeWhile_cons, h a (List.mem_cons_self ..),
      List.takeWhile_congr_mem fun x hx => h x (List.mem_cons_of_mem _ hx)]

theorem List.dropWhile_congr_mem {α : Type} {p q : α → Bool} :
    ∀ {l : List α}, (∀ a ∈ l, p a = q a) → l.dropWhile p = l.dropWhile q
  | [], _ => rfl
  | a :: l, h => by
    rw [List.dropWhile_cons, List.dropWhile_cons, h a (List.mem_cons_self ..),
      List.dropWhile_congr_mem fun x hx => h x (List.mem_cons_of_mem _ hx)]

/-- What a drive in direction `dir` of session `s`, taking the branches `bs` in turn, leaves when
run from `env` on quiet stores with session table `t` and lock table `lt`: result `r` and
environment `env'`, with `rows b` the row locks of branch `b`.  The branches passed are the
longest run of `bs` the drive goes on past, and the drive stops at the branch after them, if
there is one. -/
def Driven (dir : Direction) (rows : Branch → List RowLock) (env : Env) (t : SessionTable)
    (lt : LockTable) (s : GlobalSession) (bs : List Branch) (r : Except CoordError GlobalStatus)
    (env' : Env) : Prop :=
  -- requests go, in order, to the branches passed that need one and to the branch stopped at
  env'.participants.calls = env.participants.calls ++
      ((bs.takeWhile (dir.passes env.participants) ++
          (bs.dropWhile (dir.passes env.participants)).take 1).filter
        fun b => !b.branchType.skipsPhaseTwo b.status).map dir.call ∧
  -- exactly the rows of the branches passed are released
  ∃ t', env'.Quiet t' (lt.release ((bs.takeWhile (dir.passes env.participants)).flatMap rows)) ∧
    match bs.dropWhile (dir.passes env.participants) with
    | [] => r = .ok (dir.completed s.status) ∧ t' = t.remove s.xid
    | b :: _ =>
      r = .ok (dir.stopStatus s.status b (dir.answer env.participants b)) ∧
      t' = t.put (s.stoppedAt (bs.takeWhile (dir.passes env.participants)) b
        (dir.answer env.participants b).reported
        (dir.stopStatus s.status b (dir.answer env.participants b)) env.clock.now)


/-! ## The calls of a drive on quiet stores -/

namespace CoordM

variable {env : Env} {t : SessionTable} {lt : LockTable}

/-- On quiet stores a session write runs the table operation. -/
theorem run_storeWrite {α : Type} {op : SessionTableM α} {etcd : String → Etcd.SessionsM α}
    (h : env.Quiet t lt) :
    Steps.run (store (EnvM.atomic (Env.failSessionWrite >>= fun _ => Env.onSessions op etcd))).run
        env =
      ((op.run.run t).1.mapError .store, { env with sessions := .table (op.run.run t).2 }) := by
  simp only [store, storeWith, Steps.run_exceptT_adapt, run_envAtomic]
  rw [h.run_sessionWrite]

/-- Updating a stored session keeps the stored branches. -/
theorem run_update (h : env.Quiet t lt) {s g : GlobalSession} (hg : t.find? s.xid = some g) :
    Steps.run (store (sessionStore.update s)).run env =
      (.ok { s with branches := g.branches },
        { env with sessions := .table (t.put { s with branches := g.branches }) }) := by
  simp only [sessionStore, Env.sessionStore, Env.sessionsKept, SessionTable.store]
  rw [run_storeWrite h, SessionTable.run_change]
  simp only [SessionTable.update, hg]
  rfl

theorem run_updateBranch (h : env.Quiet t lt) {b c : Branch} {g : GlobalSession}
    (hg : t.find? b.xid = some g) (hc : g.findBranch? b.branchId = some c) :
    Steps.run (store (sessionStore.updateBranch b)).run env =
      (.ok (), { env with sessions := .table (t.put (g.replaceBranch b)) }) := by
  simp only [sessionStore, Env.sessionStore, Env.sessionsKept, SessionTable.store]
  rw [run_storeWrite h, SessionTable.run_change]
  simp only [SessionTable.updateBranch, hg, hc]
  rfl

theorem run_storeRemoveBranch (h : env.Quiet t lt) (x : String) (id : Nat) :
    Steps.run (store (sessionStore.removeBranch x id)).run env =
      (.ok (), { env with sessions := .table (t.removeBranch x id) }) := by
  simp only [sessionStore, Env.sessionStore, Env.sessionsKept, SessionTable.store]
  rw [run_storeWrite h]
  rfl

theorem run_storeRemove (h : env.Quiet t lt) (x : String) :
    Steps.run (store (sessionStore.remove x)).run env =
      (.ok (), { env with sessions := .table (t.remove x) }) := by
  simp only [sessionStore, Env.sessionStore, Env.sessionsKept, SessionTable.store]
  rw [run_storeWrite h]
  rfl

/-- A phase-two request is logged, and answered with the participant's next reply. -/
theorem run_requestPhaseTwo (a : Action) (b : Branch) (done : BranchStatus) (env : Env) :
    Steps.run (requestPhaseTwo a b done).run env =
      (.ok (Answer.ofReply b done (env.participants.request a b).1),
        { env with participants := (env.participants.request a b).2 }) :=
  rfl

variable {s : GlobalSession} {b : Branch}

/-- Removing a branch with its row locks, from a session stored as it is. -/
theorem run_removeBranch (h : env.Quiet t lt) (hg : t.find? s.xid = some s) {ls : List RowLock}
    (hls : LockManager.collect b = .ok ls) :
    Steps.run (removeBranch s b true).run env =
      (.ok (s.removeBranch b.branchId),
        { env with sessions := .table (t.put (s.removeBranch b.branchId)),
                   locks := .table (lt.release ls) }) := by
  have hrel : Steps.run (locking (LockManager.releaseBranch lockStore b)).run env =
      (.ok (), { env with locks := .table (lt.release ls) }) := by
    rw [locking, Steps.run_exceptT_adapt, run_releaseBranch h.at, hls]
    rfl
  have hq : ({ env with locks := .table (lt.release ls) } : Env).Quiet t (lt.release ls) :=
    ⟨h.sessions, rfl, h.faults⟩
  unfold removeBranch
  rw [if_pos rfl, Steps.run_bind_ok hrel, Steps.run_bind_ok (run_storeRemoveBranch hq _ _),
    SessionTable.removeBranch_eq hg]
  rfl

/-- Ending a session with no branch left removes it, and releases no row. -/
theorem run_endSession (h : env.Quiet t lt) (hs : s.branches = []) :
    Steps.run (endSession s).run env = (.ok (), { env with sessions := .table (t.remove s.xid) }) := by
  have hrel : Steps.run (locking (LockManager.releaseSession lockStore s)).run env = (.ok (), env) := by
    unfold LockManager.releaseSession
    rw [hs]
    rfl
  unfold endSession
  rw [Steps.run_bind_ok hrel, run_storeRemove h]

/-- Where a drive stops: the branch takes the status reported, if any, and the session the
status `st`, keeping its branches. -/
theorem run_suspend (h : env.Quiet t lt) (hg : t.find? s.xid = some s)
    (hb : s.findBranch? b.branchId = some b) (hxb : b.xid = s.xid) (rep : Option BranchStatus)
    {st : GlobalStatus} (hst : s.status.canTransitTo st = true) :
    Steps.run (suspend s b rep st).run env =
      (.ok st, { env with sessions := .table (t.put
        { s.replaceBranch { b with status := rep.getD b.status } with
          status := st, gmtUpdated := env.clock.now }) }) := by
  -- the session moved to `st` and stored over the table `t₁`, whose session has branches `g`
  have hrest : ∀ (env₁ : Env) (t₁ : SessionTable) (g : GlobalSession), env₁.Quiet t₁ lt →
      t₁.find? s.xid = some g →
      Steps.run (do let s ← transit s st; let _ ← store (sessionStore.update s); pure st :
        CoordM GlobalStatus).run env₁ =
      (.ok st, { env₁ with sessions := .table (t₁.put
        { s with status := st, gmtUpdated := env₁.clock.now, branches := g.branches }) }) := by
    intro env₁ t₁ g h₁ hg₁
    rw [Steps.run_exceptT_bind, run_transit, if_pos hst]
    dsimp only
    rw [Steps.run_exceptT_bind,
      run_update h₁ (s := { s with status := st, gmtUpdated := env₁.clock.now }) hg₁]
    rfl
  have hself : s.replaceBranch { b with status := b.status } = s :=
    GlobalSession.replaceBranch_self hb
  unfold suspend
  cases rep with
  | none =>
    dsimp only
    rw [hrest env t s h hg, Option.getD_none, hself]
  | some r =>
    by_cases hr : (r != b.status) = true
    · -- the reported status is recorded on the stored branch first
      have hupd := run_updateBranch h (b := { b with status := r }) (hxb ▸ hg) hb
      dsimp only
      rw [if_pos hr, Steps.run_exceptT_bind, hupd]
      dsimp only
      have h₁ : ({ env with sessions := .table (t.put (s.replaceBranch { b with status := r })) } :
          Env).Quiet (t.put (s.replaceBranch { b with status := r })) lt :=
        ⟨rfl, h.locks, h.faults⟩
      have hg₁ : (t.put (s.replaceBranch { b with status := r })).find? s.xid =
          some (s.replaceBranch { b with status := r }) :=
        SessionTable.find?_put_self (g := s) hg
      rw [hrest _ _ _ h₁ hg₁, SessionTable.put_put]
      · rfl
      · rfl
    · have hrb : r = b.status := by simpa using hr
      dsimp only
      rw [if_neg hr, hrest env t s h hg, Option.getD_some, hrb, hself]

end CoordM


/-! ## The walk of a drive -/

/-- The branches `bs` a drive has yet to take are the branches of `s`, each once, and the branch
ids of `s` are distinct. -/
structure GlobalSession.Left (s : GlobalSession) (bs : List Branch) : Prop where
  ids : s.branchIds.Nodup
  leftIds : (bs.map (·.branchId)).Nodup
  left : ∀ b, b ∈ bs ↔ b ∈ s.branches

namespace GlobalSession.Left

variable {s : GlobalSession} {b : Branch} {bs : List Branch}

theorem mem (hl : s.Left (b :: bs)) : b ∈ s.branches :=
  (hl.left b).1 (List.mem_cons_self ..)

theorem ne_of_mem (hl : s.Left (b :: bs)) {c : Branch} (hc : c ∈ bs) :
    c.branchId ≠ b.branchId := by
  have hnd := hl.leftIds
  rw [List.map_cons, List.nodup_cons] at hnd
  exact fun h => hnd.1 (h ▸ List.mem_map_of_mem hc)

/-- Once the first branch is taken and removed, the rest are left of the session less it. -/
theorem next (hl : s.Left (b :: bs)) : { s with branches := s.branches.filter (· ≠ b) }.Left bs where
  ids := hl.ids.sublist (List.filter_sublist.map _)
  leftIds := (List.nodup_cons.1 (List.map_cons .. ▸ hl.leftIds)).2
  left := fun c => by
    simp only [List.mem_filter, decide_eq_true_eq]
    constructor
    · intro hc
      exact ⟨(hl.left c).1 (List.mem_cons_of_mem _ hc), fun h => hl.ne_of_mem hc (h ▸ rfl)⟩
    · rintro ⟨hc, hcb⟩
      exact ((List.mem_cons.1 ((hl.left c).2 hc)).resolve_left hcb)

end GlobalSession.Left

/-- A drive in either direction takes each branch of a session with distinct branch ids once. -/
theorem GlobalSession.left_arrange {s : GlobalSession} (hids : s.branchIds.Nodup)
    (dir : Direction) : s.Left (dir.arrange s.branches) where
  ids := hids
  leftIds := by
    rw [← Direction.order_map_branchId]
    cases dir
    · exact hids
    · exact List.nodup_reverse.2 hids
  left _ := Direction.mem_arrange

/-- What holds at each turn of a drive on quiet stores, with `bs` the branches left to take: the
session `s` the drive holds is the one stored, its branch ids are distinct, the branches left
are exactly its branches, each names the session's xid and has the row locks `rows b`, and its
status is one a drive in direction `dir` starts from. -/
structure Walk (dir : Direction) (rows : Branch → List RowLock) (env : Env) (t : SessionTable)
    (lt : LockTable) (s : GlobalSession) (bs : List Branch) : Prop where
  quiet : env.Quiet t lt
  stored : t.find? s.xid = some s
  ids : s.branchIds.Nodup
  leftIds : (bs.map (·.branchId)).Nodup
  left : ∀ b, b ∈ bs ↔ b ∈ s.branches
  xids : ∀ b ∈ s.branches, b.xid = s.xid
  rows : ∀ b ∈ s.branches, LockManager.collect b = .ok (rows b)
  bound : dir.bound s.status = true

namespace Walk

variable {dir : Direction} {rows : Branch → List RowLock} {env env₁ : Env} {t : SessionTable}
  {lt : LockTable} {s : GlobalSession} {b : Branch} {bs : List Branch}

theorem toLeft (hw : Walk dir rows env t lt s bs) : s.Left bs := ⟨hw.ids, hw.leftIds, hw.left⟩

theorem mem (hw : Walk dir rows env t lt s (b :: bs)) : b ∈ s.branches := hw.toLeft.mem

theorem ne_of_mem (hw : Walk dir rows env t lt s (b :: bs)) {c : Branch} (hc : c ∈ bs) :
    c.branchId ≠ b.branchId :=
  hw.toLeft.ne_of_mem hc

/-- Once the drive has removed its first branch, the walk goes on over the rest. -/
theorem next (hw : Walk dir rows env t lt s (b :: bs))
    (h₁ : env₁.Quiet (t.put { s with branches := s.branches.filter (· ≠ b) })
      (lt.release (rows b))) :
    Walk dir rows env₁ (t.put { s with branches := s.branches.filter (· ≠ b) })
      (lt.release (rows b)) { s with branches := s.branches.filter (· ≠ b) } bs where
  quiet := h₁
  stored := SessionTable.find?_put_self hw.stored
  ids := hw.toLeft.next.ids
  leftIds := hw.toLeft.next.leftIds
  left := hw.toLeft.next.left
  xids := fun c hc => hw.xids c (List.mem_of_mem_filter hc)
  rows := fun c hc => hw.rows c (List.mem_of_mem_filter hc)
  bound := hw.bound

end Walk

namespace Driven

variable {dir : Direction} {rows : Branch → List RowLock} {env env₁ env' : Env}
  {t : SessionTable} {lt : LockTable} {s : GlobalSession} {b : Branch} {bs : List Branch}
  {r : Except CoordError GlobalStatus}

/-- A drive that goes on past its first branch, removed with its row locks, and then does what
`Driven` says of the rest, does what `Driven` says of all its branches. -/
theorem cons_passes (hpass : dir.passes env.participants b = true)
    (hqueue : ∀ c ∈ bs, env₁.participants.queue c.branchId = env.participants.queue c.branchId)
    (hcalls : env₁.participants.calls = env.participants.calls ++
      if b.branchType.skipsPhaseTwo b.status then [] else [dir.call b])
    (hclock : env₁.clock = env.clock)
    (h : Driven dir rows env₁ (t.put { s with branches := s.branches.filter (· ≠ b) })
      (lt.release (rows b)) { s with branches := s.branches.filter (· ≠ b) } bs r env') :
    Driven dir rows env t lt s (b :: bs) r env' := by
  -- the branches left answer as they would have before
  have hpasses : ∀ c ∈ bs, dir.passes env₁.participants c = dir.passes env.participants c :=
    fun c hc => Direction.passes_congr (hqueue c hc)
  unfold Driven at h ⊢
  rw [List.takeWhile_congr_mem hpasses, List.dropWhile_congr_mem hpasses] at h
  rw [List.takeWhile_cons_of_pos hpass, List.dropWhile_cons_of_pos hpass]
  obtain ⟨hc, t', hq, hrest⟩ := h
  refine ⟨?_, t', ?_, ?_⟩
  · rw [hc, hcalls, List.cons_append, List.filter_cons]
    by_cases hskip : b.branchType.skipsPhaseTwo b.status = true <;> simp [hskip]
  · rwa [List.flatMap_cons, ← LockTable.release_release]
  · revert hrest
    cases hd : bs.dropWhile (dir.passes env.participants) with
    | nil =>
      rintro ⟨hr, ht⟩
      exact ⟨hr, ht ▸ SessionTable.remove_put rfl⟩
    | cons c cs =>
      rintro ⟨hr, ht⟩
      have hcm : c ∈ bs := (List.dropWhile_suffix _).subset (hd ▸ List.mem_cons_self ..)
      have hans : dir.answer env₁.participants c = dir.answer env.participants c := by
        simp only [Direction.answer, hqueue c hcm]
      rw [hans] at hr ht
      refine ⟨hr, ?_⟩
      rw [ht, SessionTable.put_put, hclock, GlobalSession.stoppedAt_cons]
      rfl

/-- A drive that stops at its first branch, asked once, leaves the session as `suspend` does. -/
theorem stop (hpass : dir.passes env.participants b = false)
    (hskip : b.branchType.skipsPhaseTwo b.status = false)
    (hcalls : env'.participants.calls = env.participants.calls ++ [dir.call b])
    (hq : env'.Quiet (t.put (s.stoppedAt [] b (dir.answer env.participants b).reported
      (dir.stopStatus s.status b (dir.answer env.participants b)) env.clock.now)) lt)
    (hr : r = .ok (dir.stopStatus s.status b (dir.answer env.participants b))) :
    Driven dir rows env t lt s (b :: bs) r env' := by
  unfold Driven
  rw [List.takeWhile_cons_of_neg (by simp [hpass]), List.dropWhile_cons_of_neg (by simp [hpass])]
  refine ⟨?_, _, hq, hr, rfl⟩
  simp [hcalls, hskip]

end Driven

theorem GlobalSession.stoppedAt_nil (s : GlobalSession) (b : Branch) (rep : Option BranchStatus)
    (st : GlobalStatus) (now : Nat) :
    s.stoppedAt [] b rep st now =
      { s.replaceBranch { b with status := rep.getD b.status } with status := st, gmtUpdated := now } := by
  simp [stoppedAt]


namespace CoordM

open GlobalSession in
/-- The walk of a drive over the branches left, `bs`, in the order taken, does what `Driven`
says: by induction on `bs`, with the walk's invariant `Walk` carried from one branch to the
next. -/
theorem run_go (c : Config) (dir : Direction) (rows : Branch → List RowLock) :
    ∀ (bs : List Branch) {env env' : Env} {t : SessionTable} {lt : LockTable} {s : GlobalSession}
      {r : Except CoordError GlobalStatus}, Walk dir rows env t lt s bs →
      Steps.run (drive.go c dir s (bs.map (·.branchId))).run env = (r, env') →
      Driven dir rows env t lt s bs r env'
  | [], env, env', t, lt, s, r, hw, hrun => by
    -- no branch is left: the session reaches the outcome of the direction and is removed
    have hnil : s.branches = [] :=
      List.eq_nil_iff_forall_not_mem.2 fun b hb => by simpa using (hw.left b).2 hb
    rw [List.map_nil] at hrun
    unfold drive.go at hrun
    rw [Steps.run_exceptT_bind, run_transit,
      if_pos (Direction.canTransitTo_completed hw.bound)] at hrun
    dsimp only at hrun
    set s₁ : GlobalSession :=
      { s with status := dir.completed s.status, gmtUpdated := env.clock.now }
    rw [Steps.run_exceptT_bind, run_update hw.quiet (s := s₁) hw.stored] at hrun
    dsimp only at hrun
    have hq₁ : ({ env with sessions := .table (t.put { s₁ with branches := s.branches }) } :
        Env).Quiet (t.put { s₁ with branches := s.branches }) lt :=
      ⟨rfl, hw.quiet.locks, hw.quiet.faults⟩
    rw [Steps.run_exceptT_bind, run_endSession hq₁ (s := s₁) hnil] at hrun
    obtain ⟨rfl, rfl⟩ := Prod.mk.inj hrun
    exact ⟨by simp, _, ⟨rfl, hw.quiet.locks, hw.quiet.faults⟩, rfl, SessionTable.remove_put rfl⟩
  | b :: bs, env, env', t, lt, s, r, hw, hrun => by
    have hb := hw.mem
    rw [List.map_cons] at hrun
    unfold drive.go at hrun
    rw [findBranch?_of_mem hw.ids hb] at hrun
    dsimp only at hrun
    by_cases hskip : b.branchType.skipsPhaseTwo b.status = true
    · -- a branch that needs no phase two is removed with its rows, and not asked
      rw [if_pos hskip, Steps.run_bind_ok (run_removeBranch hw.quiet hw.stored (hw.rows b hb)),
        removeBranch_of_mem hw.ids hb] at hrun
      have hrest := run_go c dir rows bs (hw.next (by exact ⟨rfl, rfl, hw.quiet.faults⟩)) hrun
      exact Driven.cons_passes (by simp [Direction.passes, hskip]) (fun _ _ => rfl)
        (by simp [hskip]) rfl hrest
    · rw [if_neg hskip, Steps.run_exceptT_bind, run_requestPhaseTwo, Direction.answer_request]
        at hrun
      dsimp only at hrun
      -- the branch is asked once: the request is logged and takes a reply from its own queue
      have hcalls := Participants.calls_request env.participants dir.action b
      have hqueue : ∀ c ∈ bs, (env.participants.request dir.action b).2.queue c.branchId =
          env.participants.queue c.branchId :=
        fun c hc => Participants.queue_request_of_ne _ _ _ (hw.ne_of_mem hc)
      have hq₁ : ({ env with participants := (env.participants.request dir.action b).2 } :
          Env).Quiet t lt :=
        ⟨hw.quiet.sessions, hw.quiet.locks, hw.quiet.faults⟩
      -- where the drive stops at the branch, it suspends there
      have hstop : ∀ (env₂ : Env) (rep : Option BranchStatus) (st : GlobalStatus),
          Steps.run (suspend s b rep st).run env₂ = (r, env') →
          dir.passes env.participants b = false → env₂.Quiet t lt →
          env₂.participants = (env.participants.request dir.action b).2 →
          env₂.clock = env.clock → rep = (dir.answer env.participants b).reported →
          st = dir.stopStatus s.status b (dir.answer env.participants b) →
          Driven dir rows env t lt s (b :: bs) r env' := by
        intro env₂ rep st hrun hpass h₂ hp hclock hrep hst
        have hlegal : s.status.canTransitTo st = true :=
          hst ▸ Direction.canTransitTo_stopStatus hw.bound _
        rw [run_suspend h₂ hw.stored (findBranch?_of_mem hw.ids hb) (hw.xids b hb) rep hlegal]
          at hrun
        obtain ⟨rfl, rfl⟩ := Prod.mk.inj hrun
        refine Driven.stop hpass (by simpa using hskip) ?_ ⟨?_, h₂.locks, h₂.faults⟩ (hst ▸ rfl)
        · rw [hp, hcalls]
          rfl
        · rw [stoppedAt_nil, ← hrep, ← hst, hclock]
      cases ha : dir.answer env.participants b with
      | answered st =>
        rw [ha] at hrun
        dsimp only at hrun
        cases ho : dir.outcome b st with
        | done =>
          -- a participant done: the branch is removed with its rows
          rw [ho] at hrun
          dsimp only at hrun
          rw [Steps.run_bind_ok (run_removeBranch hq₁ hw.stored (hw.rows b hb)),
            removeBranch_of_mem hw.ids hb] at hrun
          have hrest := run_go c dir rows bs (hw.next (by exact ⟨rfl, rfl, hw.quiet.faults⟩)) hrun
          refine Driven.cons_passes ?_ hqueue ?_ ?_ hrest
          · simp [Direction.passes, ha, ho]
          · simp [hcalls, hskip, Direction.call]
          · rfl
        | retryable =>
          rw [ho] at hrun
          exact hstop _ _ _ hrun (by simp [Direction.passes, hskip, ha, ho]) hq₁ rfl rfl
            (by rw [ha]; rfl) (by simp [ha, Direction.stopStatus, ho])
        | unretryable =>
          rw [ho] at hrun
          exact hstop _ _ _ hrun (by simp [Direction.passes, hskip, ha, ho]) hq₁ rfl rfl
            (by rw [ha]; rfl) (by simp [ha, Direction.stopStatus, ho])
      | failed e =>
        rw [ha] at hrun
        exact hstop _ _ _ hrun (by simp [Direction.passes, hskip, ha]) hq₁ rfl rfl
          (by rw [ha]; rfl) (by rw [ha]; rfl)
      | silent =>
        -- a silent participant is waited for, a pause that changes only the timers
        rw [ha] at hrun
        dsimp only at hrun
        rw [Steps.run_exceptT_bind, run_sleep] at hrun
        by_cases hz : c.branchTimeout = 0
        · rw [if_pos hz] at hrun
          exact hstop _ _ _ hrun (by simp [Direction.passes, hskip, ha]) hq₁ rfl rfl
            (by rw [ha]; rfl) (by rw [ha]; rfl)
        · rw [if_neg hz] at hrun
          dsimp only at hrun
          exact hstop _ _ _ hrun (by simp [Direction.passes, hskip, ha])
            ⟨hw.quiet.sessions, hw.quiet.locks, hw.quiet.faults⟩ rfl rfl
            (by rw [ha]; rfl) (by rw [ha]; rfl)

/-- A drive run alone on quiet stores, of a session stored as it is, whose branch ids are
distinct, each branch naming the session and with row locks `rows b`, from a status bound to the
direction: it does what `Driven` says of the branches in the order of the direction. -/
theorem drive_walks_branches_in_order (c : Config) (dir : Direction) {s : GlobalSession}
    {env env' : Env} {t : SessionTable} {lt : LockTable} {r : Except CoordError GlobalStatus}
    (rows : Branch → List RowLock) (h : env.Quiet t lt) (hg : t.find? s.xid = some s)
    (hids : s.branchIds.Nodup) (hxids : ∀ b ∈ s.branches, b.xid = s.xid)
    (hrows : ∀ b ∈ s.branches, LockManager.collect b = .ok (rows b))
    (hbound : dir.bound s.status = true)
    (hrun : Steps.run (drive c dir s).run env = (r, env')) :
    Driven dir rows env t lt s (dir.arrange s.branches) r env' := by
  have horder : dir.order s.branchIds = (dir.arrange s.branches).map (·.branchId) :=
    Direction.order_map_branchId dir s.branches
  have hleft := GlobalSession.left_arrange hids dir
  unfold drive at hrun
  rw [horder] at hrun
  exact run_go c dir rows _ ⟨h, hg, hids, hleft.leftIds, hleft.left, hxids, hrows, hbound⟩ hrun

/-- A rollback of two branches: the participant of the second answers done, and that of the
first cannot be reached. -/
theorem drive_walks_branches_in_order_rollback :
    let b₁ : Branch := ⟨"x", 1, 2, "g", "db", "c", .at, .phaseOneDone, "t:1", "", 0⟩
    let b₂ : Branch := ⟨"x", 1, 3, "g", "db", "c", .at, .phaseOneDone, "t:2", "", 0⟩
    let s : GlobalSession := ⟨"x", 1, "app", "g", "tx", .rollbacking, ⟨0⟩, 0, 0, "", [b₁, b₂]⟩
    let env : Env :=
      { clock := ⟨0⟩, ids := ⟨0, 3⟩, sessions := .table ⟨[s]⟩,
        participants := { replies := [(2, [.unreachable])] } }
    Driven .rollback (fun b => ((LockManager.collect b).toOption).getD []) env ⟨[s]⟩ {} s
      (Direction.rollback.arrange s.branches) (Steps.run (drive {} .rollback s).run env).1
      (Steps.run (drive {} .rollback s).run env).2 := by
  intro b₁ b₂ s env
  exact drive_walks_branches_in_order {} .rollback _ ⟨rfl, rfl, rfl⟩ (by decide) (by decide)
    (by decide) (by decide) (by decide) (Prod.eta _).symm

/-- Where two branches share an id, a rollback asks the branch registered first before the one
registered after it: it takes ids in reverse order, and finds under each the first branch left
with that id. -/
theorem drive_rollback_asks_first_of_shared_id :
    let a : Branch := ⟨"x", 1, 2, "g", "db", "c", .at, .phaseOneDone, "t:1", "", 0⟩
    let b : Branch := ⟨"x", 1, 2, "g", "db", "c", .tcc, .registered, "", "", 0⟩
    let s : GlobalSession := ⟨"x", 1, "app", "g", "tx", .rollbacking, ⟨0⟩, 0, 0, "", [a, b]⟩
    let env : Env := { clock := ⟨0⟩, ids := ⟨0, 3⟩, sessions := .table ⟨[s]⟩ }
    Direction.rollback.arrange s.branches = [b, a] ∧
      (Steps.run (drive {} .rollback s).run env).2.participants.calls =
        [Direction.rollback.call a, Direction.rollback.call b] := by
  decide

end CoordM

end GlobalTxn
