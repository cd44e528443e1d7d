import GlobalTxn.Proofs.RegisterStages
import GlobalTxn.Coordinator.Scan
import GlobalTxn.Proofs.Run

/-! # A registration racing a decision

Two coordinators share the stores.  One registers a branch into a transaction `x` whose session
is in `begin`; the other decides it: it commits, rolls back, or rolls back a timed-out session.
Each call on the stores is one atomic step, and the steps of the two may interleave in any
order (`Steps.interleave`).  The store's own check that the session is still in `begin` when the
branch is added is where the two are ordered:

* the branch is added before the decision stores its status: the run ends as if the
  registration had run first and the decision after it, which adopts the new branch
  (`CoordM.RegisteredFirst`);
* the decision stores its status first: the registration adds nothing.  It answers the id of a
  branch the session had registered the same way, or fails, and frees every row it locked; the
  decision runs as it runs alone, and the stores end as the decision leaves them, but for the
  id drawn by the registration (`CoordM.RaceEnd`).

A rollback, of either kind, adopts the new branch whenever it was added first.  A commit does
not always: it chooses between an asynchronous and a synchronous commit on the session it read,
and the branch may be added between that read and the write of its status.  The commit then
stores the status it chose for the branches it read, over the session with the new branch.  A
session with one branch that commits asynchronously, joined so by a branch that does not, is
stored as committing asynchronously and answered committed
(`CoordM.commit_goes_async_over_branch_that_cannot`).

The registration goes by the stages of module `RegisterStages`.  A decision reads until it
writes (`Steps.ReadsUntil`): while it reads, a registration that has not added its branch is not
seen, and one that has is either not told apart or settles how the decision ends; once its
status is stored, the rest of it respects `Env.Aside` (module `DriveBeside`).  The invariant of
the interleaving, `CoordM.Race`, has three phases: neither has written, the registration has
added its branch, the decision has written.

Main statement: `CoordM.registration_never_slips_past_decision`.
-/

namespace GlobalTxn

namespace GlobalSession

/-- A copy with the branches of `g` lists only branches of `g`. -/
theorem lists_of_branches_eq {s g : GlobalSession} (h : s.branches = g.branches) :
    ∀ b ∈ s.branches, g.Lists b :=
  fun _ hb => lists_of_mem (h ▸ hb)

end GlobalSession

namespace Env

variable {x : String} {n : Nat} {gen : IdGenerator} {ks : List String} {s t : Env}

/-- A state is beside itself, where it holds no row for the branch. -/
theorem beside_self {lt : LockTable} (hl : s.locks = .table lt)
    (hfresh : ∀ k h, lt.owner? k = some h → ¬ (h.xid = x ∧ h.branchId = n)) :
    s.Beside x n s.ids [] s := by
  refine ⟨rfl, ⟨lt, lt, hl, hl, fun _ => .inl rfl⟩, fun lt' hl' => ?_⟩
  rw [hl] at hl'
  cases hl'
  exact hfresh

variable {g : GlobalSession} {now : Nat}

/-- Beside a state where a decision stands, the state itself with any generator. -/
theorem Aside.self (h : s.Aside x n g now gen ks t) (gen' : IdGenerator) (ks' : List String) :
    ({ t with ids := gen' } : Env).Aside x n g now gen' ks' t := by
  obtain ⟨⟨T, Lt, hq⟩, -⟩ := h.calm
  exact ⟨⟨rfl, ⟨Lt, Lt, hq.locks, hq.locks, fun _ => .inl rfl⟩, h.beside.fresh⟩, h.calm, h.decided⟩

end Env

namespace CoordM

/-! ## The stages of a decision -/

/-- A commit of the session it read. -/
def commitFrom (c : Config) (x : String) (s : GlobalSession) : CoordM GlobalStatus :=
  match s.status with
  | .begin =>
    if c.asyncCommit && s.hasBranch && s.canBeCommittedAsync then do
      let s ← transitAndPersist s .asyncCommitting
      let _ ← lockingResult (LockManager.releaseSession lockStore s)
      pure .committed
    else do
      let s ← transitAndPersist s .committing
      drive c .commit s
  | .asyncCommitting => pure .committed
  | status =>
    if status.isCommitBound || status.isCommitOutcome then pure status
    else throw (.invalidStatus x status .commit)

theorem commit_eq (c : Config) (x : String) :
    commit c x = store (sessionStore.find? x) >>= fun r =>
      match r with
      | some s => commitFrom c x s
      | none => pure .finished := by
  unfold commit
  congr 1
  funext r
  cases r with
  | none => rfl
  | some s => rfl

/-- A rollback of the session it read. -/
def rollbackFrom (c : Config) (x : String) (s : GlobalSession) : CoordM GlobalStatus :=
  match s.status with
  | .begin => do
    let s ← transitAndPersist s .rollbacking
    drive c .rollback s
  | status =>
    if status.isRollbackBound || status.isRollbackOutcome then pure status
    else throw (.invalidStatus x status .rollback)

theorem rollback_eq (c : Config) (x : String) :
    rollback c x = store (sessionStore.find? x) >>= fun r =>
      match r with
      | some s => rollbackFrom c x s
      | none => pure .finished := by
  unfold rollback
  congr 1
  funext r
  cases r with
  | none => rfl
  | some s => rfl

/-- The rollback of a timed-out session it read, begun at clock reading `now`. -/
def timedOutFrom (c : Config) (now : Nat) (s : GlobalSession) : CoordM Bool := do
  let s ← transitAndPersist s
    (if c.timeoutRollbackGrace ≤ now - s.deadline then .timeoutRollbacking else .rollbacking)
  driveHandled c .rollback s

theorem rollbackTimedOut_eq (c : Config) (x : String) :
    rollbackTimedOut c x =
      now >>= fun n => now >>= fun n' => store (sessionStore.find? x) >>= fun r =>
        match r.filter (ScanKind.timeoutCheck.isCandidate c n') with
        | some s => timedOutFrom c n s
        | none => pure false := by
  unfold rollbackTimedOut reload
  simp only [bind_assoc, pure_bind]
  congr 1
  funext n
  congr 1
  funext n'
  congr 1
  funext r
  cases Option.filter (ScanKind.isCandidate c n' .timeoutCheck) r <;> rfl

/-- Storing a session in a new status does not depend on the branches of the copy: the store
keeps the branches it holds. -/
theorem transitAndPersist_branches (s : GlobalSession) (bs : List Branch) (target : GlobalStatus) :
    transitAndPersist { s with branches := bs } target = transitAndPersist s target := by
  simp only [transitAndPersist, transit, bind_assoc, GlobalSession.transit]
  congr 1
  funext n
  by_cases hc : s.status.canTransitTo target = true
  · simp only [hc, if_true, pure_bind]
    rfl
  · simp only [hc, Bool.false_eq_true, if_false]

section AddBranch

variable {x : String} {g : GlobalSession} {b : Branch}

/-- Storing a session with a branch added in a new status is storing it without: the store
keeps the branches it holds. -/
theorem transitAndPersist_addBranch (s : GlobalSession) (b : Branch) (target : GlobalStatus) :
    transitAndPersist (s.addBranch b) target = transitAndPersist s target :=
  transitAndPersist_branches s _ target

theorem rollbackFrom_addBranch (c : Config) (hbegin : g.status = .begin) :
    rollbackFrom c x (g.addBranch b) = rollbackFrom c x g := by
  have hst : (g.addBranch b).status = .begin := hbegin
  unfold rollbackFrom
  rw [hst, hbegin, transitAndPersist_addBranch]

theorem timedOutFrom_addBranch (c : Config) (t : Nat) :
    timedOutFrom c t (g.addBranch b) = timedOutFrom c t g := by
  unfold timedOutFrom
  rw [transitAndPersist_addBranch]
  rfl

end AddBranch


/-! ## A decision reads until it stores its status -/

/-- `s` is a state a decision on `x`, begun from `env`, may read before it writes, with the
session table `T`: no faults, and the clock of `env`. -/
structure Near (env : Env) (T : SessionTable) (s : Env) : Prop where
  faults : s.faults = {}
  clock : s.clock = env.clock
  sessions : s.sessions = .table T

/-- The step of a decision that stores the status of `x`, from a state beside `env`: it leaves
the state aside the one it leaves from `env`, goes on as from `env`, and what is left of the
decision does on every state aside its own what it does on its own. -/
structure Writes (env : Env) (x : String) (n : Nat) (g : GlobalSession) {α : Type} (u : Env → Env)
    (k : Env → Steps Env α) : Prop where
  aside : ∀ gen ks s, s.Beside x n gen ks env → (u s).Aside x n g env.clock.now gen ks (u env)
  same : ∀ gen ks s, s.Beside x n gen ks env → k s = k env
  respects : ∀ gen ks, (k env).Respects (Env.Aside x n g env.clock.now gen ks) fun _ => True

section Decision

variable {x : String} {env : Env} {tt : SessionTable} {lt : LockTable} {g : GlobalSession}
  {b : Branch} {n : Nat} {β : Type} {other : Env → Except CoordError β × Env}

/-- A drive of a copy with the branches of `g` does the same aside. -/
theorem respects_drive_copy (c : Config) (dir : Direction) {s' : GlobalSession}
    (hs' : s'.branches = g.branches) (gen : IdGenerator) (ks : List String) :
    (drive c dir s').run.Respects (Env.Aside x n g env.clock.now gen ks) fun _ => True :=
  (respects_drive c dir (GlobalSession.lists_of_branches_eq hs')).mono fun _ _ => trivial

/-- A read of the clock tells no two states apart that share it. -/
theorem readsUntil_now {f : Nat → CoordM β}
    (hrest : (f env.clock.now).run.ReadsUntil (Near env tt) (Near env (tt.put (g.addBranch b)))
      env other (Writes env x n g)) :
    (now >>= f).run.ReadsUntil (Near env tt) (Near env (tt.put (g.addBranch b))) env other
      (Writes env x n g) := by
  refine Steps.readsUntil_read
    (Steps.Brief.eq_step (p := now.run) (fun _ => ⟨_, rfl⟩) (fun _ h => by cases h))
    (fun s hs => ?_) (fun s hs => ?_) hrest
  · rw [run_now, run_now, hs.clock]
    exact ⟨rfl, rfl⟩
  · rw [run_now, run_now, hs.clock]
    exact ⟨rfl, .inl rfl⟩

variable (hq : env.Quiet tt lt) (hg : tt.find? x = some g)
include hq hg

/-- The read of `x` finds `g`, with the new branch or without it.  A decision that goes on alike
from both does not tell them apart; one that goes on otherwise ends, from a state with the new
branch, as it does having read `g`. -/
theorem readsUntil_find {f : Option GlobalSession → CoordM β}
    (hf : f (some (g.addBranch b)) = f (some g) ∨ ∀ s, Steps.run (f (some g)).run s = other s)
    (hrest : (f (some g)).run.ReadsUntil (Near env tt) (Near env (tt.put (g.addBranch b))) env
      other (Writes env x n g)) :
    (store (sessionStore.find? x) >>= f).run.ReadsUntil (Near env tt)
      (Near env (tt.put (g.addBranch b))) env other (Writes env x n g) := by
  have hgx : g.xid = x := (SessionTable.find?_eq_some hg).2
  have hfind : (tt.put (g.addBranch b)).find? x = some (g.addBranch b) := by
    have hself : tt.find? g.xid = some g := SessionTable.find?_self hg
    rw [← hgx]
    exact SessionTable.find?_put_self (s := g.addBranch b) hself
  refine Steps.readsUntil_read (Steps.Brief.eq_step (p := (store (sessionStore.find? x)).run)
    (Steps.brief_adapt_atomic _ _) (fun _ h => by cases h)) (fun s hs => ?_) (fun s hs => ?_) ?_
  · rw [run_find?_of_faults hq.faults hq.sessions x, hg, run_find?_of_faults hs.faults hs.sessions x,
      hg]
    exact ⟨rfl, rfl⟩
  · rw [run_find?_of_faults hq.faults hq.sessions x, hg, run_find?_of_faults hs.faults hs.sessions x,
      hfind]
    exact ⟨rfl, hf.imp (congrArg ExceptT.run) fun h => h s⟩
  · rw [run_find?_of_faults hq.faults hq.sessions x, hg]
    exact hrest

/-- Storing a session of `x` in a status other than `begin`, over `g`, is the write of a
decision: the store keeps the branches of `g`, and what follows does the same aside. -/
theorem writes_update (s₁ : GlobalSession) (hx : s₁.xid = x) (hst : s₁.status ≠ .begin)
    {k : GlobalSession → CoordM β}
    (hk : ∀ gen ks, (k { s₁ with branches := g.branches }).run.Respects
      (Env.Aside x n g env.clock.now gen ks) fun _ => True) :
    Writes env x n g (fun s => (Steps.run (store (sessionStore.update s₁)).run s).2)
      fun s => ExceptT.bindCont k (Steps.run (store (sessionStore.update s₁)).run s).1 := by
  have hg₁ : tt.find? s₁.xid = some g := by rw [hx]; exact hg
  -- the stored session is decided, with the branches of `g`
  have hdec : (tt.put { s₁ with branches := g.branches }).Decided x g := fun s₀ hs₀ => by
    have hfind : (tt.put { s₁ with branches := g.branches }).find? x =
        some { s₁ with branches := g.branches } := by
      rw [← hx]
      exact SessionTable.find?_put_self (s := { s₁ with branches := g.branches }) hg₁
    rw [hfind, Option.some.injEq] at hs₀
    subst hs₀
    exact ⟨hst, fun c hc => GlobalSession.lists_of_mem hc⟩
  have hcalm : env.Calm env.clock.now := ⟨⟨tt, lt, hq⟩, rfl⟩
  refine ⟨fun gen ks s hs => ?_, fun gen ks s hs => ?_, fun gen ks => ?_⟩
  · obtain ⟨Ls, hqs⟩ := hs.quiet hq
    rw [run_update hqs hg₁, run_update hq hg₁]
    exact ⟨hs.map (f := fun e => { e with sessions := .table (tt.put _) }) (fun _ _ _ => rfl)
      (fun _ => rfl), hcalm.withSessions _, _, rfl, hdec⟩
  · obtain ⟨Ls, hqs⟩ := hs.quiet hq
    rw [run_update hqs hg₁, run_update hq hg₁]
  · rw [run_update hq hg₁]
    exact hk gen ks

/-- Storing a new status of `g`, not `begin`, is the write of a decision, after a read of the
clock; what follows it does the same aside. -/
theorem readsUntil_transitAndPersist (target : GlobalStatus)
    (hlegal : g.status.canTransitTo target = true) (htarget : target ≠ .begin)
    {k : GlobalSession → CoordM β}
    (hk : ∀ s', s'.branches = g.branches →
      ∀ gen ks, (k s').run.Respects (Env.Aside x n g env.clock.now gen ks) fun _ => True) :
    (transitAndPersist g target >>= k).run.ReadsUntil (Near env tt)
      (Near env (tt.put (g.addBranch b))) env other (Writes env x n g) := by
  have hgx : g.xid = x := (SessionTable.find?_eq_some hg).2
  unfold transitAndPersist transit
  simp only [bind_assoc]
  refine readsUntil_now ?_
  have htr : g.transit target env.clock.now =
      .ok { g with status := target, gmtUpdated := env.clock.now } := by
    simp [GlobalSession.transit, hlegal]
  rw [htr]
  simp only [pure_bind]
  exact Steps.readsUntil_write (Steps.Brief.eq_step
    (p := (store (sessionStore.update
      { g with status := target, gmtUpdated := env.clock.now })).run)
    (Steps.brief_adapt_atomic _ _) (fun _ h => by cases h))
    (writes_update hq hg { g with status := target, gmtUpdated := env.clock.now } hgx htarget
      fun gen ks => hk _ (by rfl) gen ks)

/-- A commit of `x` in `begin` reads until it stores its status; from a state where the new
branch was added after its read, it ends as the commit of `g` it chose on that read. -/
theorem readsUntil_commit (c : Config) (hbegin : g.status = .begin) :
    (commit c x).run.ReadsUntil (Near env tt) (Near env (tt.put (g.addBranch b))) env
      (Steps.run (commitFrom c x g).run) (Writes env x n g) := by
  rw [commit_eq]
  refine readsUntil_find hq hg (.inr fun _ => rfl) ?_
  show (commitFrom c x g).run.ReadsUntil _ _ _ _ _
  unfold commitFrom
  rw [hbegin]
  dsimp only
  split
  · -- the asynchronous commit frees the rows of the session it stored
    refine readsUntil_transitAndPersist hq hg .asyncCommitting (by rw [hbegin]; decide)
      (by decide) fun s' _ gen ks => ?_
    have hrel : (lockingResult (LockManager.releaseSession lockStore s')).run.Respects
        (Env.Aside x n g env.clock.now gen ks) (Outcome (fun _ => True) fun _ => True) :=
      Steps.respects_lift ((respects_releaseSession s').mono fun _ _ => trivial)
    exact (Steps.respects_bind (Q := fun _ => True) hrel
      fun _ _ => Steps.respects_pure _ trivial).mono fun _ _ => trivial
  · exact readsUntil_transitAndPersist hq hg .committing (by rw [hbegin]; decide)
      (by decide) fun _ hs' => respects_drive_copy c .commit hs'

/-- A rollback of `x` in `begin` reads until it stores its status, and goes on alike with the
new branch and without it. -/
theorem readsUntil_rollback (c : Config) (hbegin : g.status = .begin)
    {o : Env → Except CoordError GlobalStatus × Env} :
    (rollback c x).run.ReadsUntil (Near env tt) (Near env (tt.put (g.addBranch b))) env o
      (Writes env x n g) := by
  rw [rollback_eq]
  refine readsUntil_find hq hg (.inl (rollbackFrom_addBranch (x := x) c hbegin)) ?_
  show (rollbackFrom c x g).run.ReadsUntil _ _ _ _ _
  unfold rollbackFrom
  rw [hbegin]
  exact readsUntil_transitAndPersist hq hg .rollbacking (by rw [hbegin]; decide)
    (by decide) fun _ hs' => respects_drive_copy c .rollback hs'

/-- A rollback of `x` in `begin` by the timeout check reads until it stores its status; a
session that is no candidate is left as it is. -/
theorem readsUntil_rollbackTimedOut (c : Config) (hbegin : g.status = .begin)
    {o : Env → Except CoordError Bool × Env} :
    (rollbackTimedOut c x).run.ReadsUntil (Near env tt) (Near env (tt.put (g.addBranch b))) env o
      (Writes env x n g) := by
  rw [rollbackTimedOut_eq]
  refine readsUntil_now (readsUntil_now (readsUntil_find hq hg (.inl ?_) ?_))
  · -- whether `x` is a candidate does not depend on its branches
    have hcand : ScanKind.timeoutCheck.isCandidate c env.clock.now (g.addBranch b) =
        ScanKind.timeoutCheck.isCandidate c env.clock.now g := rfl
    rw [Option.filter_some, Option.filter_some, hcand]
    cases ScanKind.timeoutCheck.isCandidate c env.clock.now g with
    | true => exact timedOutFrom_addBranch c _
    | false => rfl
  · rw [Option.filter_some]
    cases ScanKind.timeoutCheck.isCandidate c env.clock.now g with
    | true =>
      refine readsUntil_transitAndPersist hq hg _ ?_ (by split <;> decide)
        fun _ hs' gen ks =>
          (respects_driveHandled c .rollback (GlobalSession.lists_of_branches_eq hs')).mono
            fun _ _ => trivial
      rw [hbegin]
      split <;> decide
    | false => trivial

end Decision

/-! ## The race -/

section Race

variable (bt : BranchType) (res cli x data key : String)

/-- The registration into `x` ran to its end first, from `env`, and the decision then ended as
`other` ends from where the registration left the stores. -/
def RegisteredFirst (env : Env) {β : Type} (other : Env → β × Env)
    (r : (Except CoordError Nat × β) × Env) : Prop :=
  r.1.1 = (Steps.run (register bt res cli x data key).run env).1 ∧
    (r.1.2, r.2) = other (Steps.run (register bt res cli x data key).run env).2

/-- How a registration into `x`, stored as `g`, and a decision `D` end when their steps
interleave from `env`: as if the registration had run first and the decision after it; or
refused, with the stores as the decision leaves them alone but for the generator, and for the
order, not the holders, of the rows. -/
def RaceEnd (g : GlobalSession) (env : Env) {β : Type} (D : Steps Env β)
    (r : (Except CoordError Nat × β) × Env) : Prop :=
  RegisteredFirst bt res cli x data key env D.run r ∨
  (Refused bt res cli x key g r.1.1 ∧ r.1.2 = (D.run env).1 ∧
    ∃ gen ls lt, (gen = env.ids ∨ gen = env.ids.next.2) ∧
      r.2 = { (D.run env).2 with ids := gen, locks := .table ls } ∧
      (D.run env).2.locks = .table lt ∧ ∀ k, ls.owner? k = lt.owner? k)

/-- The invariant of a registration `p` and a decision `q` interleaved from `env`, where `x` is
stored in the table `tt` as `g`, in `begin`; `D` is the whole decision, and `other` how it ends
once it has told the new branch apart. -/
inductive Race (g : GlobalSession) (env : Env) (tt : SessionTable) {β : Type}
    (D : Steps Env (Except CoordError β)) (other : Env → Except CoordError β × Env) :
    Steps Env (Except CoordError Nat) → Steps Env (Except CoordError β) → Env → Prop
  /-- Neither has written: the registration is at a stage of its run alone, beside `env`, and
  the decision has only read, as from `env`, or settled how it ends with the new branch. -/
  | reading {p q s gen ks} (hst : Stage bt res cli x data key g env.ids env.clock.now p gen ks)
      (hbes : s.Beside x env.ids.next.1 gen ks env)
      (hrun : p.run s = Steps.run (register bt res cli x data key).run env)
      (hreads : q.ReadsUntil (Near env tt) (Near env (tt.put (g.addBranch
        (registeredBranch bt res cli data key g env.ids.next.1 env.clock.now)))) env other
        (Writes env x env.ids.next.1 g))
      (hsame : ∀ s', Near env tt s' → q.run s' = D.run s')
      (hseen : ∀ s', Near env (tt.put (g.addBranch
        (registeredBranch bt res cli data key g env.ids.next.1 env.clock.now))) s' →
        q.run s' = D.run s' ∨ q.run s' = other s') : Race g env tt D other p q s
  /-- The registration added its branch, as it does run alone; the decision goes on as from
  where the registration alone ends, or as `other` from there. -/
  | added {q s} (hrun : q.run s = D.run (Steps.run (register bt res cli x data key).run env).2 ∨
      q.run s = other (Steps.run (register bt res cli x data key).run env).2) :
      Race g env tt D other (.done (Steps.run (register bt res cli x data key).run env).1) q s
  /-- The decision stored its status first: the registration is at a stage aside `t`, where the
  decision stands as it does alone from `env`. -/
  | decided {p q s t gen ks} (hst : Stage bt res cli x data key g env.ids env.clock.now p gen ks)
      (haside : s.Aside x env.ids.next.1 g env.clock.now gen ks t)
      (hresp : ∀ gen ks,
        q.Respects (Env.Aside x env.ids.next.1 g env.clock.now gen ks) fun _ => True)
      (hrun : q.run t = D.run env) : Race g env tt D other p q s

variable {bt res cli x data key}

variable {g : GlobalSession} {env : Env} {tt : SessionTable} {lt : LockTable} {β : Type}
  {D : Steps Env (Except CoordError β)} {other : Env → Except CoordError β × Env}

/-- A pause of the decision keeps the invariant. -/
theorem Race.rightPause {p s w k n}
    (h : Race bt res cli x data key g env tt D other p (.pause w k n) s) :
    Race bt res cli x data key g env tt D other p n s := by
  cases h with
  | reading _ _ _ hreads => exact hreads.elim
  | added hrun => exact .added hrun
  | decided hst haside hresp hrun => exact .decided hst haside hresp hrun

variable (hq : env.Quiet tt lt)
include hq

/-- A step of the decision keeps the invariant: a read changes nothing, its write puts the
decision aside, and after it the decision does aside what it does alone. -/
theorem Race.right {p s u n} (h : Race bt res cli x data key g env tt D other p (.step u n) s) :
    Race bt res cli x data key g env tt D other p (n s) (u s) := by
  cases h with
  | reading hst hbes hrun hreads hsame hseen =>
    rcases hreads with ⟨hidle, hidleSeen, hrest⟩ | hw
    · -- a read: the state stays, and the decision goes on as from `env`
      obtain ⟨hu, hn⟩ := hidle s ⟨hbes.faults.trans hq.faults, hbes.clock,
        hbes.sessions.trans hq.sessions⟩
      rw [hu, hn]
      refine .reading hst hbes hrun hrest (fun s' hs' => ?_) fun s' hs' => ?_
      · obtain ⟨hu', hn'⟩ := hidle s' hs'
        rw [← hsame s' hs', Steps.run_step, hu', hn']
      · -- with the new branch, it goes on as it would have, or has settled on `other`
        obtain ⟨hu', hn' | hother⟩ := hidleSeen s' hs'
        · have h := hseen s' hs'
          rw [Steps.run_step, hu', hn'] at h
          exact h
        · exact .inr hother
    · -- the write
      have hrun' : Steps.run (n env) (u env) = D.run env :=
        hsame env ⟨hq.faults, rfl, hq.sessions⟩
      rename_i gen ks
      rw [hw.same gen ks s hbes]
      exact .decided hst (hw.aside gen ks s hbes) hw.respects hrun'
  | added hrun => exact .added hrun
  | decided hst haside hresp hrun =>
    rename_i t gen ks
    obtain ⟨hn, haside', -⟩ := hresp gen ks s t haside
    rw [hn]
    exact .decided hst haside'
      (fun gen' ks' => (hresp gen' ks' _ t (haside.self gen' ks')).2.2) hrun

/-- Where both have ended, they end as `RaceEnd` says, or the registration ran first and the
decision ended as `other`. -/
theorem Race.finish {a r s} (h : Race bt res cli x data key g env tt D other (.done a) (.done r) s) :
    RaceEnd bt res cli x data key g env D ((a, r), s) ∨
      RegisteredFirst bt res cli x data key env other ((a, r), s) := by
  cases h with
  | reading hst hbes hrun hreads hsame =>
    have hD : D.run env = (r, env) := (hsame env ⟨hq.faults, rfl, hq.sessions⟩).symm
    obtain ⟨hR, ls, hgen, hs, hrows⟩ := hst.finish hbes hq.locks
    exact .inl (.inr ⟨hR, by rw [hD], _, ls, lt, hgen, by rw [hD, hs], by rw [hD, hq.locks],
      hrows⟩)
  | added hrun =>
    rcases hrun with hrun | hrun
    · exact .inl (.inl ⟨rfl, hrun⟩)
    · exact .inr ⟨rfl, hrun⟩
  | decided hst haside hresp hrun =>
    rename_i t gen ks
    have hD : D.run env = (r, t) := hrun.symm
    obtain ⟨T, Ls, Lt, -, hqt, -⟩ := haside.quiet
    obtain ⟨hR, ls, hgen, hs, hrows⟩ := hst.finish haside.beside hqt.locks
    exact .inl (.inr ⟨hR, by rw [hD], _, ls, Lt, hgen, by rw [hD, hs], by rw [hD, hqt.locks],
      hrows⟩)

variable (hg : tt.find? x = some g) (hbegin : g.status = .begin)
include hg hbegin

/-- A step of the registration keeps the invariant: it reaches its next stage, or, in `begin`,
adds its branch. -/
theorem Race.left {p p' q s s'} (h : Race bt res cli x data key g env tt D other p q s)
    (hadv : p.advance s = some (p', s')) :
    Race bt res cli x data key g env tt D other p' q s' := by
  have hgx : g.xid = x := (SessionTable.find?_eq_some hg).2
  cases h with
  | reading hst hbes hrun hreads hsame hseen =>
    obtain ⟨Ls, hqs⟩ := hbes.quiet hq
    rcases hst.next hqs hbes (by rw [hbes.clock]) (.inl hg) hgx hbegin hadv with
      ⟨gen', ks', hst', hbes'⟩ | ⟨-, rfl, rfl⟩
    · exact .reading hst' hbes' (by rw [Steps.run_of_advance hadv, hrun]) hreads hsame hseen
    · -- the branch is added: the registration ends as it ends alone
      have hend : Steps.run (register bt res cli x data key).run env =
          (.ok env.ids.next.1, { s with sessions := (.table (tt.put (g.addBranch
            (registeredBranch bt res cli data key g env.ids.next.1 env.clock.now)))) }) := by
        rw [← hrun, ← Steps.run_of_advance hadv]
        rfl
      have hr : (Except.ok env.ids.next.1 : Except CoordError Nat) =
          (Steps.run (register bt res cli x data key).run env).1 := by rw [hend]
      rw [hr]
      refine .added ?_
      rw [hend]
      exact hseen _ ⟨hbes.faults.trans hq.faults, hbes.clock, rfl⟩
  | added hrun => cases hadv
  | decided hst haside hresp hrun =>
    obtain ⟨T, Ls, Lt, hqs, -, hd⟩ := haside.quiet
    have hclock : s.clock.now = env.clock.now := by rw [haside.beside.clock, haside.calm.2]
    rcases hst.next hqs haside.beside hclock (.inr hd) hgx hbegin hadv with
      ⟨gen', ks', hst', hbes'⟩ | ⟨hfind, -, -⟩
    · exact .decided hst' ⟨hbes', haside.calm, haside.decided⟩ hresp hrun
    · exact absurd hbegin (hd g hfind).1

/-- A registration into `x`, stored as `g` in `begin`, interleaved in any order with a decision
that reads until it stores the status of `x`, ends as `RaceEnd` says, or, where the decision
told the new branch apart, with the registration first and the decision ending as `other`; no
row may be held under the id the registration draws. -/
theorem race_ends
    (hfresh : ∀ k h, lt.owner? k = some h → ¬ (h.xid = x ∧ h.branchId = env.ids.next.1))
    (hD : D.ReadsUntil (Near env tt) (Near env (tt.put (g.addBranch
      (registeredBranch bt res cli data key g env.ids.next.1 env.clock.now)))) env other
      (Writes env x env.ids.next.1 g)) (sched : List Bool) :
    RaceEnd bt res cli x data key g env D
        (Steps.interleave sched (register bt res cli x data key).run D env) ∨
      RegisteredFirst bt res cli x data key env other
        (Steps.interleave sched (register bt res cli x data key).run D env) :=
  Steps.interleave_of_invariant (I := Race bt res cli x data key g env tt D other)
    (G := fun r => RaceEnd bt res cli x data key g env D r ∨
      RegisteredFirst bt res cli x data key env other r)
    (fun _ _ _ _ h => h.left hq hg hbegin rfl) (fun _ _ _ _ _ h => h.left hq hg hbegin rfl)
    (fun _ _ _ _ h => h.right hq) (fun _ _ _ _ _ h => h.rightPause) (fun _ _ _ h => h.finish hq)
    sched _ _ env
    (.reading .start (Env.beside_self hq.locks hfresh) rfl hD (fun _ _ => rfl) fun _ _ => .inl rfl)

/-- A decision that goes on alike with the new branch and without it ends as `RaceEnd` says. -/
theorem race_ends_alike
    (hfresh : ∀ k h, lt.owner? k = some h → ¬ (h.xid = x ∧ h.branchId = env.ids.next.1))
    (hD : D.ReadsUntil (Near env tt) (Near env (tt.put (g.addBranch
      (registeredBranch bt res cli data key g env.ids.next.1 env.clock.now)))) env D.run
      (Writes env x env.ids.next.1 g)) (sched : List Bool) :
    RaceEnd bt res cli x data key g env D
      (Steps.interleave sched (register bt res cli x data key).run D env) :=
  (race_ends hq hg hbegin hfresh hD sched).elim id .inl

end Race

/-- A registration into `x`, stored in `begin`, racing a commit, a rollback or the rollback of
the timeout check of `x` on shared memory stores, in any interleaving of their calls, drawing an
id under which no row is held.  Against a rollback of either kind it ends as if it had run
first and the rollback after it, or refused with the stores as the rollback leaves them alone.
Against a commit it may also run first while the commit, having read the session before the
branch was added, goes on as the commit of the session it read: with the choice between an
asynchronous and a synchronous commit made without the new branch. -/
theorem registration_never_slips_past_decision (c : Config) (bt : BranchType)
    (res cli x data key : String) {env : Env} {tt : SessionTable} {lt : LockTable}
    {g : GlobalSession} (hq : env.Quiet tt lt) (hg : tt.find? x = some g)
    (hbegin : g.status = .begin)
    (hfresh : ∀ k h, lt.owner? k = some h → ¬ (h.xid = x ∧ h.branchId = env.ids.next.1))
    (sched : List Bool) :
    (RaceEnd bt res cli x data key g env (commit c x).run
        (Steps.interleave sched (register bt res cli x data key).run (commit c x).run env) ∨
      RegisteredFirst bt res cli x data key env (Steps.run (commitFrom c x g).run)
        (Steps.interleave sched (register bt res cli x data key).run (commit c x).run env)) ∧
    RaceEnd bt res cli x data key g env (rollback c x).run
      (Steps.interleave sched (register bt res cli x data key).run (rollback c x).run env) ∧
    RaceEnd bt res cli x data key g env (rollbackTimedOut c x).run
      (Steps.interleave sched (register bt res cli x data key).run (rollbackTimedOut c x).run
        env) :=
  ⟨race_ends hq hg hbegin hfresh (readsUntil_commit hq hg c hbegin) sched,
    race_ends_alike hq hg hbegin hfresh (readsUntil_rollback hq hg c hbegin) sched,
    race_ends_alike hq hg hbegin hfresh (readsUntil_rollbackTimedOut hq hg c hbegin) sched⟩

/-- With asynchronous commit on, a session with one branch that commits asynchronously, and a
branch that does not registered while the commit runs, its read first. -/
theorem registration_never_slips_past_async_commit :
    let c : Config := { asyncCommit := true }
    let a : Branch := ⟨"x", 1, 2, "g", "db", "cli", .at, .registered, "t:1", "", 0⟩
    let g : GlobalSession := ⟨"x", 1, "app", "g", "tx", .begin, ⟨0⟩, 0, 0, "", [a]⟩
    let lt : LockTable := ⟨[("db^^^t^^^1", ⟨"x", 1, 2⟩)]⟩
    let env : Env := { clock := ⟨0⟩, ids := ⟨0, 2⟩, sessions := .table ⟨[g]⟩, locks := .table lt }
    env.Quiet ⟨[g]⟩ lt ∧ (⟨[g]⟩ : SessionTable).find? "x" = some g ∧ g.status = .begin ∧
    (∀ k h, lt.owner? k = some h → ¬ (h.xid = "x" ∧ h.branchId = env.ids.next.1)) ∧
    (RaceEnd .tcc "db" "cli" "x" "" "" g env (commit c "x").run
        (Steps.interleave [false] (register .tcc "db" "cli" "x" "" "").run (commit c "x").run
          env) ∨
      RegisteredFirst .tcc "db" "cli" "x" "" "" env (Steps.run (commitFrom c "x" g).run)
        (Steps.interleave [false] (register .tcc "db" "cli" "x" "" "").run (commit c "x").run
          env)) ∧
    RaceEnd .tcc "db" "cli" "x" "" "" g env (rollback c "x").run
      (Steps.interleave [false] (register .tcc "db" "cli" "x" "" "").run (rollback c "x").run
        env) ∧
    RaceEnd .tcc "db" "cli" "x" "" "" g env (rollbackTimedOut c "x").run
      (Steps.interleave [false] (register .tcc "db" "cli" "x" "" "").run
        (rollbackTimedOut c "x").run env) := by
  intro c a g lt env
  have hq : env.Quiet ⟨[g]⟩ lt := ⟨rfl, rfl, rfl⟩
  have hg : (⟨[g]⟩ : SessionTable).find? "x" = some g := rfl
  have hfresh : ∀ k h, lt.owner? k = some h → ¬ (h.xid = "x" ∧ h.branchId = env.ids.next.1) := by
    -- the one row held is held by branch 2, and the registration draws id 3
    intro k h hk hx
    have hh : h.branchId = 2 := by
      unfold LockTable.owner? at hk
      simp only [lt, List.find?_cons, List.find?_nil] at hk
      split at hk
      · cases hk
        rfl
      · cases hk
    rw [hh] at hx
    exact absurd hx.2 (by decide)
  exact ⟨hq, hg, rfl, hfresh,
    registration_never_slips_past_decision c .tcc "db" "cli" "x" "" "" hq hg rfl hfresh _⟩

/-- The slip: with asynchronous commit on, a commit reads a session whose one branch commits
asynchronously; a branch that does not is registered before the commit stores its status.  The
commit answers committed and stores the session as committing asynchronously, with both
branches: a session that cannot be committed asynchronously. -/
theorem commit_goes_async_over_branch_that_cannot :
    let c : Config := { asyncCommit := true }
    let a : Branch := ⟨"x", 1, 2, "g", "db", "cli", .at, .registered, "t:1", "", 0⟩
    let g : GlobalSession := ⟨"x", 1, "app", "g", "tx", .begin, ⟨0⟩, 0, 0, "", [a]⟩
    let lt : LockTable := ⟨[("db^^^t^^^1", ⟨"x", 1, 2⟩)]⟩
    let env : Env := { clock := ⟨0⟩, ids := ⟨0, 2⟩, sessions := .table ⟨[g]⟩, locks := .table lt }
    let r := Steps.interleave [false] (register .tcc "db" "cli" "x" "" "").run (commit c "x").run
      env
    r.1.1.toOption = some 3 ∧ r.1.2.toOption = some .committed ∧
      (r.2.stored "x").map (fun s => (s.status, s.branches.map (·.branchType),
        s.canBeCommittedAsync)) = some (.asyncCommitting, [.at, .tcc], false) := by
  decide

end CoordM

end GlobalTxn
