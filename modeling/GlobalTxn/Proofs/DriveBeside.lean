import GlobalTxn.Proofs.Interleaving
import GlobalTxn.Proofs.OwnSession
import GlobalTxn.Proofs.DriveOrder

/-! # A decided session driven beside a late registration

Once a decision has stored its session in a status other than `begin`, a registration into that
session can no longer add a branch.  What it may still leave while the decision goes on is an id
drawn from the generator, and rows it holds for the branch it meant to add until it frees them.
`Env.Beside x n gen ks s t` says that `s` is `t` but for these: the generator is `gen`, and the
rows of `s` are those of `t` and, at keys among `ks` that `t` leaves free, rows held for branch
`n` of `x`.

`Env.Aside` adds what the decision's side keeps: its stores are calm, and the session of `x`,
while stored, is decided (`SessionTable.Decided`): not in `begin`, with branches that are those
the decision adopted, their statuses aside (`GlobalSession.Lists`).

Every call a drive makes does on a state aside the decision's what it does on the decision's
state, and keeps the two aside (`Steps.Respects`).  So a drive, and every way a decision goes on
once its status is stored, runs beside a late registration as it runs alone.

Main statements: `CoordM.respects_go`, `respects_drive`, `respects_driveHandled`, and
`respects_releaseSession` for a commit that leaves its branches to finish on their own.
-/

namespace GlobalTxn

open Steps

/-- A program of at most one step, that does on related states the same and keeps them
related, respects the relation. -/
theorem Steps.Brief.respects {σ α : Type} {R : σ → σ → Prop} :
    ∀ {p : Steps σ α}, p.Brief →
      (∀ s t, R s t → (p.run s).1 = (p.run t).1 ∧ R (p.run s).2 (p.run t).2) →
      p.Respects R fun _ => True
  | done _, _, _ => trivial
  | step u n, hp, h => fun s t hst => by
    obtain ⟨a, ha⟩ := hp s
    obtain ⟨b, hb⟩ := hp t
    have hr := h s t hst
    simp only [run_step, ha, hb, run_done] at hr
    obtain ⟨rfl, hR⟩ := hr
    refine ⟨by rw [ha, hb], hR, ?_⟩
    rw [hb]
    trivial
  | pause _ _ _, hp, _ => hp.elim

namespace GlobalSession

/-- `b` is a branch of `g` but for its status. -/
def Lists (g : GlobalSession) (b : Branch) : Prop :=
  ∃ c ∈ g.branches, b = { c with status := b.status }

variable {g : GlobalSession} {b : Branch}

theorem lists_of_mem (hb : b ∈ g.branches) : g.Lists b := ⟨b, hb, rfl⟩

theorem Lists.restatus (h : g.Lists b) (st : BranchStatus) : g.Lists { b with status := st } := by
  obtain ⟨c, hc, hb⟩ := h
  exact ⟨c, hc, by rw [hb]⟩

/-- A branch listed the same way as a registration was registered the same way. -/
theorem Lists.sameRegistration (h : g.Lists b) {bt : BranchType} {res cli key : String}
    (hb : b.isSameRegistration bt res cli key = true) :
    ∃ c ∈ g.branches, c.isSameRegistration bt res cli key = true ∧ c.branchId = b.branchId := by
  obtain ⟨c, hc, hcb⟩ := h
  rw [hcb] at hb ⊢
  exact ⟨c, hc, hb, rfl⟩

end GlobalSession

namespace Direction

theorem retrying_ne_begin (dir : Direction) (st : GlobalStatus) : dir.retrying st ≠ .begin := by
  cases dir <;> cases st <;> decide

theorem failed_ne_begin (dir : Direction) : dir.failed ≠ .begin := by
  cases dir <;> decide

theorem completed_ne_begin (dir : Direction) (st : GlobalStatus) : dir.completed st ≠ .begin := by
  cases dir <;> cases st <;> decide

end Direction

/-! ## A decided session in a table -/

namespace SessionTable

/-- The session stored under `x`, if any, is in a status other than `begin`, and each of its
branches is a branch of `g` but for its status. -/
def Decided (x : String) (g : GlobalSession) (t : SessionTable) : Prop :=
  ∀ s, t.find? x = some s → s.status ≠ .begin ∧ ∀ b ∈ s.branches, g.Lists b

variable {x : String} {g : GlobalSession}

/-- Storing a session over the one stored under its xid keeps `x` decided when the session
belongs to another xid, or is decided itself. -/
theorem Decided.put {t : SessionTable} (hd : t.Decided x g) {s stored : GlobalSession}
    (hstored : t.find? s.xid = some stored)
    (hs : s.xid = x → s.status ≠ .begin ∧ ∀ b ∈ s.branches, g.Lists b) :
    (t.put s).Decided x g := by
  intro s' hs'
  rw [find?_put hstored] at hs'
  split at hs'
  · rename_i hx
    cases hs'
    exact hs hx
  · exact hd s' hs'

/-- A session stored again with its stored branches keeps `x` decided if its status is not
`begin`. -/
theorem decided_update {s : GlobalSession} (hs : s.xid = x → s.status ≠ .begin) :
    (atomic (store.update s).run).Keeps (Decided x g) (Outcome (fun _ => True) fun _ => True) :=
  keeps_change fun t hd => by
    unfold update
    split
    · rename_i stored hstored
      refine ⟨hd.put (s := { s with branches := stored.branches }) hstored fun hx => ?_, trivial⟩
      -- the branches are those stored under `x`, which is decided
      exact ⟨hs hx, (hd stored (hx ▸ hstored)).2⟩
    · trivial

/-- A branch stored again keeps `x` decided if it is a branch of `g` but for its status. -/
theorem decided_updateBranch {b : Branch} (hb : b.xid = x → g.Lists b) :
    (atomic (store.updateBranch b).run).Keeps (Decided x g)
      (Outcome (fun _ => True) fun _ => True) :=
  keeps_change fun t hd => by
    unfold updateBranch
    split
    · rename_i stored hstored
      split
      · have hxid : stored.xid = b.xid := (find?_eq_some hstored).2
        have hfound : t.find? (stored.replaceBranch b).xid = some stored := find?_self hstored
        refine ⟨hd.put hfound fun hx => ?_, trivial⟩
        obtain ⟨hst, hbr⟩ := hd stored (hx ▸ find?_self hstored)
        refine ⟨hst, fun c hc => ?_⟩
        rcases GlobalSession.mem_replaceBranch hc with hc | rfl
        · exact hbr c hc
        · exact hb (hxid ▸ hx)
      · trivial
    · trivial

theorem decided_removeBranch (y : String) (bid : Nat) :
    (atomic (store.removeBranch y bid).run).Keeps (Decided x g)
      (Outcome (fun _ => True) fun _ => True) :=
  keeps_atomic_modify fun t hd => by
    unfold removeBranch
    split
    · rename_i stored hstored
      have hfound : t.find? (stored.removeBranch bid).xid = some stored := find?_self hstored
      refine hd.put hfound fun hx => ?_
      obtain ⟨hst, hbr⟩ := hd stored (hx ▸ find?_self hstored)
      exact ⟨hst, fun c hc => hbr c (GlobalSession.mem_removeBranch hc)⟩
    · exact hd

theorem decided_remove (y : String) :
    (atomic (store.remove y).run).Keeps (Decided x g) (Outcome (fun _ => True) fun _ => True) :=
  keeps_atomic_modify fun t hd s hs => by
    rw [find?_remove_eq] at hs
    split at hs
    · cases hs
    · exact hd s hs

end SessionTable

/-! ## States beside each other -/

namespace Env

/-- `s` is `t` but for what a registration of branch `n` into `x` keeps beside it: the id
generator `gen`, and rows at keys among `ks` that `t` leaves free and `s` holds for that branch.
`t` holds no row for that branch. -/
structure Beside (x : String) (n : Nat) (gen : IdGenerator) (ks : List String) (s t : Env) :
    Prop where
  frame : s = { t with ids := gen, locks := s.locks }
  rows : ∃ ls lt, s.locks = .table ls ∧ t.locks = .table lt ∧ ∀ k,
    ls.owner? k = lt.owner? k ∨
      k ∈ ks ∧ lt.owner? k = none ∧ ∃ h, ls.owner? k = some h ∧ h.xid = x ∧ h.branchId = n
  fresh : ∀ lt, t.locks = .table lt → ∀ k h, lt.owner? k = some h → ¬ (h.xid = x ∧ h.branchId = n)

variable {x : String} {n : Nat} {gen : IdGenerator} {ks : List String} {s t : Env}

theorem Beside.sessions (h : s.Beside x n gen ks t) : s.sessions = t.sessions := by
  rw [h.frame]

theorem Beside.faults (h : s.Beside x n gen ks t) : s.faults = t.faults := by
  rw [h.frame]

theorem Beside.clock (h : s.Beside x n gen ks t) : s.clock = t.clock := by
  rw [h.frame]

theorem Beside.participants (h : s.Beside x n gen ks t) : s.participants = t.participants := by
  rw [h.frame]

theorem Beside.timers (h : s.Beside x n gen ks t) : s.timers = t.timers := by
  rw [h.frame]

theorem Beside.ids (h : s.Beside x n gen ks t) : s.ids = gen := by
  rw [h.frame]

/-- A change of what a registration leaves alone, made on both states, keeps them beside each
other. -/
theorem Beside.map {f : Env → Env}
    (hf : ∀ e gen l, f { e with ids := gen, locks := l } = { f e with ids := gen, locks := l })
    (hl : ∀ e, (f e).locks = e.locks) (h : s.Beside x n gen ks t) :
    (f s).Beside x n gen ks (f t) := by
  obtain ⟨hframe, hrows, hfresh⟩ := h
  refine ⟨?_, ?_, ?_⟩
  · have hfs := hf t gen s.locks
    rw [← hframe] at hfs
    rw [hfs]
  · rw [hl, hl]
    exact hrows
  · rw [hl]
    exact hfresh

/-- Releasing the same rows on both sides keeps two states beside each other: a row the
registration holds is freed or kept, and no row of `t` is held for its branch. -/
theorem Beside.release {ls lt : LockTable} (h : s.Beside x n gen ks t) (hs : s.locks = .table ls)
    (ht : t.locks = .table lt) (L : List RowLock) :
    ({ s with locks := .table (ls.release L) } : Env).Beside x n gen ks
      { t with locks := .table (lt.release L) } := by
  obtain ⟨hframe, ⟨ls', lt', hs', ht', hrows⟩, hfresh⟩ := h
  rw [hs] at hs'
  rw [ht] at ht'
  cases hs'
  cases ht'
  refine ⟨?_, ⟨_, _, rfl, rfl, fun k => ?_⟩, fun lt'' hlt'' k hd hown => ?_⟩
  · rw [hframe]
  · rw [LockTable.owner?_release, LockTable.owner?_release]
    rcases hrows k with heq | ⟨hk, hnone, hd, hsome, hx, hn⟩
    · exact .inl (by rw [heq])
    · rw [hnone, hsome]
      by_cases hkeep : (!L.any fun l => l.rowKey == k && l.isHeldByBranch hd) = true
      · exact .inr ⟨hk, rfl, hd, Option.filter_some_pos hkeep, hx, hn⟩
      · exact .inl (by rw [Option.filter_none]; exact Option.filter_some_neg (Bool.eq_false_iff.2 hkeep))
  · cases hlt''
    rw [LockTable.owner?_release] at hown
    exact hfresh lt ht k hd (Option.filter_eq_some_iff.1 hown).1

/-- `s` is beside `t` for a registration of branch `n` into `x`, and `t` is where a decision on
`x`, having adopted the branches of `g`, stands: its stores are calm at `now`, and `x` is
decided. -/
structure Aside (x : String) (n : Nat) (g : GlobalSession) (now : Nat) (gen : IdGenerator)
    (ks : List String) (s t : Env) : Prop where
  beside : s.Beside x n gen ks t
  calm : t.Calm now
  decided : SessionBacking.InTable (SessionTable.Decided x g) t.sessions

variable {g : GlobalSession} {now : Nat}

/-- Both sides keep their sessions in the same table, and their rows in tables. -/
theorem Aside.quiet (h : s.Aside x n g now gen ks t) :
    ∃ tt ls lt, s.Quiet tt ls ∧ t.Quiet tt lt ∧ tt.Decided x g := by
  obtain ⟨⟨tt, lt, hq⟩, -⟩ := h.calm
  obtain ⟨tt', hts, hd⟩ := h.decided
  rw [hq.sessions] at hts
  cases hts
  obtain ⟨ls, lt', hs, -, -⟩ := h.beside.rows
  exact ⟨tt, ls, lt, ⟨h.beside.sessions.trans hq.sessions, hs, h.beside.faults.trans hq.faults⟩,
    hq, hd⟩

/-- A change of what a registration leaves alone and the decided session keeps, made on both
sides, keeps them aside. -/
theorem Aside.map {f : Env → Env}
    (hf : ∀ e gen l, f { e with ids := gen, locks := l } = { f e with ids := gen, locks := l })
    (hl : ∀ e, (f e).locks = e.locks) (hs : ∀ e, (f e).sessions = e.sessions)
    (hq : ∀ e, (f e).faults = e.faults ∧ (f e).clock = e.clock)
    (h : s.Aside x n g now gen ks t) : (f s).Aside x n g now gen ks (f t) :=
  ⟨h.beside.map hf hl, h.calm.of_eq (hs t) (hl t) (hq t).1 (hq t).2, (hs t) ▸ h.decided⟩

end Env

/-! ## The calls of a decided session -/

namespace CoordM

variable {x : String} {n : Nat} {g : GlobalSession} {clk : Nat} {gen : IdGenerator}
  {ks : List String}

/-- A session write does the same on both sides, and keeps `x` decided when the table operation
does. -/
theorem respects_storeWrite {α : Type} {op : SessionTableM α}
    {etcd : String → Etcd.SessionsM α}
    (hop : (atomic op.run).Keeps (SessionTable.Decided x g) (Outcome (fun _ => True) fun _ => True)) :
    (store (EnvM.atomic (Env.failSessionWrite >>= fun _ => Env.onSessions op etcd))).run.Respects
      (Env.Aside x n g clk gen ks) fun _ => True :=
  (brief_adapt_atomic _ _).respects
    (p := (store (EnvM.atomic (Env.failSessionWrite >>= fun _ => Env.onSessions op etcd))).run)
    fun s t h => by
    obtain ⟨tt, ls, lt, hqs, hqt, hd⟩ := h.quiet
    rw [run_storeWrite hqs, run_storeWrite hqt]
    refine ⟨rfl, h.beside.map (f := fun e => { e with sessions := .table (op.run.run tt).2 })
      (fun _ _ _ => rfl) (fun _ => rfl), h.calm.withSessions _, _, rfl, (hop tt hd).1⟩

theorem respects_update {s : GlobalSession} (hs : s.xid = x → s.status ≠ .begin) :
    (store (sessionStore.update s)).run.Respects (Env.Aside x n g clk gen ks) fun _ => True :=
  respects_storeWrite (SessionTable.decided_update hs)

theorem respects_updateBranch {b : Branch} (hb : b.xid = x → g.Lists b) :
    (store (sessionStore.updateBranch b)).run.Respects (Env.Aside x n g clk gen ks) fun _ => True :=
  respects_storeWrite (SessionTable.decided_updateBranch hb)

theorem respects_storeRemoveBranch (y : String) (bid : Nat) :
    (store (sessionStore.removeBranch y bid)).run.Respects (Env.Aside x n g clk gen ks)
      fun _ => True :=
  respects_storeWrite (SessionTable.decided_removeBranch y bid)

theorem respects_storeRemove (y : String) :
    (store (sessionStore.remove y)).run.Respects (Env.Aside x n g clk gen ks) fun _ => True :=
  respects_storeWrite (SessionTable.decided_remove y)

/-- Rows released on both sides. -/
theorem respects_release (L : List RowLock) :
    (lockStore.release L).run.Respects (Env.Aside x n g clk gen ks) fun _ => True :=
  (brief_atomic _).respects (p := (lockStore.release L).run) fun s t h => by
    obtain ⟨tt, ls, lt, hqs, hqt, -⟩ := h.quiet
    rw [run_lockStore_release hqs.at, run_lockStore_release hqt.at]
    exact ⟨rfl, h.beside.release hqs.locks hqt.locks L, h.calm.withLocks _, h.decided⟩

theorem respects_releaseBranch (b : Branch) :
    (locking (LockManager.releaseBranch lockStore b)).run.Respects (Env.Aside x n g clk gen ks)
      (Outcome (fun _ => True) fun _ => True) := by
  unfold locking LockManager.releaseBranch
  refine respects_adapt (respects_bind (P := fun _ => True) (respects_liftExcept ?_) fun L _ => ?_)
  · cases LockManager.collect b <;> trivial
  · split
    · exact respects_pure _ trivial
    · exact (respects_release L).mono fun r _ => outcome_true r

/-- The rows of a whole session released on both sides. -/
theorem respects_releaseSession (s : GlobalSession) :
    (LockManager.releaseSession lockStore s).run.Respects (Env.Aside x n g clk gen ks)
      (Outcome (fun _ => True) fun _ => True) := by
  unfold LockManager.releaseSession
  refine respects_bind (P := fun _ => True) (respects_liftExcept ?_) fun L _ => ?_
  · cases s.branches.flatMapM LockManager.collect <;> trivial
  · split
    · exact respects_pure _ trivial
    · exact (respects_release L).mono fun r _ => outcome_true r

theorem respects_now :
    now.run.Respects (Env.Aside x n g clk gen ks) (Outcome (fun _ => True) fun _ => True) :=
  (Steps.Brief.respects (p := now.run) (fun _ => ⟨_, rfl⟩) fun s t h => by
    rw [run_now, run_now, h.beside.clock]
    exact ⟨rfl, h⟩).mono fun r _ => outcome_true r

/-- A transition reads the clock, the same on both sides. -/
theorem respects_transit (s : GlobalSession) (target : GlobalStatus) :
    (transit s target).run.Respects (Env.Aside x n g clk gen ks)
      (Outcome (fun _ => True) fun s' => s'.xid = s.xid ∧ s'.status = target ∧
        s'.branches = s.branches) := by
  unfold transit
  refine respects_bind (P := fun _ => True) respects_now fun now _ => ?_
  unfold GlobalSession.transit
  split
  · rename_i s' hs'
    split at hs'
    · cases hs'
      exact respects_pure _ ⟨rfl, rfl, rfl⟩
    · cases hs'
  · exact respects_throw _ trivial

theorem respects_requestPhaseTwo (a : Action) (b : Branch) (d : BranchStatus) :
    (requestPhaseTwo a b d).run.Respects (Env.Aside x n g clk gen ks)
      (Outcome (fun _ => True) fun _ => True) :=
  (Steps.Brief.respects (p := (requestPhaseTwo a b d).run) (fun _ => ⟨_, rfl⟩) fun s t h => by
    rw [run_requestPhaseTwo, run_requestPhaseTwo, h.beside.participants]
    exact ⟨rfl, h.map (f := fun e => { e with participants := (t.participants.request a b).2 })
      (fun _ _ _ => rfl) (fun _ => rfl) (fun _ => rfl) fun _ => ⟨rfl, rfl⟩⟩).mono
    fun r _ => outcome_true r

theorem respects_runtimeNow :
    runtimeNow.run.Respects (Env.Aside x n g clk gen ks) (Outcome (fun _ => True) fun _ => True) :=
  (Steps.Brief.respects (p := runtimeNow.run) (fun _ => ⟨_, rfl⟩) fun s t h => by
    refine ⟨?_, h⟩
    show Except.ok s.timers.now = .ok t.timers.now
    rw [h.beside.timers]).mono fun r _ => outcome_true r

theorem respects_newTimer :
    newTimer.run.Respects (Env.Aside x n g clk gen ks) (Outcome (fun _ => True) fun _ => True) :=
  (Steps.Brief.respects (p := newTimer.run) (fun _ => ⟨_, rfl⟩) fun s t h => by
    refine ⟨?_, h.map (f := fun e => { e with timers := { e.timers with count := e.timers.count + 1 } })
      (fun _ _ _ => rfl) (fun _ => rfl) (fun _ => rfl) fun _ => ⟨rfl, rfl⟩⟩
    show Except.ok s.timers.count = .ok t.timers.count
    rw [h.beside.timers]).mono fun r _ => outcome_true r

/-- Waiting for a silent participant sets a timer on both sides; the pause changes nothing. -/
theorem respects_sleep (ms : Nat) :
    (sleep ms).run.Respects (Env.Aside x n g clk gen ks) (Outcome (fun _ => True) fun _ => True) := by
  unfold sleep
  split
  · exact respects_pure _ trivial
  · have htimer : (setTimer ms).run.Respects (Env.Aside x n g clk gen ks)
        (Outcome (fun _ => True) fun _ => True) :=
      respects_bind respects_runtimeNow fun _ _ =>
        respects_bind respects_newTimer fun _ _ => respects_pure _ trivial
    refine respects_bind htimer fun _ _ => ?_
    exact respects_lift (show (pause _ _ (pure ())).Respects _ fun _ => True from trivial)

/-! ## A drive of the decided session -/

section Drive

variable (c : Config) (dir : Direction)

/-- Removing a branch frees its rows and removes it on both sides; the drive goes on with the
session less that branch. -/
theorem respects_removeBranch (s : GlobalSession) (b : Branch) :
    (removeBranch s b true).run.Respects (Env.Aside x n g clk gen ks)
      (Outcome (fun _ => True) fun s' => s' = s.removeBranch b.branchId) := by
  unfold removeBranch
  rw [if_pos rfl]
  refine respects_bind (respects_releaseBranch b) fun _ _ => ?_
  refine respects_bind (P := fun _ => True)
    ((respects_storeRemoveBranch s.xid b.branchId).mono fun r _ => outcome_true r) fun _ _ => ?_
  exact respects_pure _ rfl

/-- Where a drive stops: the reported status of a branch of `g` and the session's new status,
never `begin`, are stored on both sides. -/
theorem respects_suspend (s : GlobalSession) {b : Branch} (hb : g.Lists b)
    (rep : Option BranchStatus) {st : GlobalStatus} (hst : st ≠ .begin) :
    (suspend s b rep st).run.Respects (Env.Aside x n g clk gen ks)
      (Outcome (fun _ => True) fun _ => True) := by
  unfold suspend
  have hrest : (do let s ← transit s st; let _ ← store (sessionStore.update s); pure st :
      CoordM GlobalStatus).run.Respects (Env.Aside x n g clk gen ks)
        (Outcome (fun _ => True) fun _ => True) := by
    refine respects_bind (respects_transit s st) fun s₁ h₁ => ?_
    refine respects_bind (P := fun _ => True)
      ((respects_update fun _ => h₁.2.1 ▸ hst).mono fun r _ => outcome_true r) fun _ _ => ?_
    exact respects_pure _ trivial
  cases rep with
  | none => exact hrest
  | some r =>
    dsimp only
    split
    · -- the reported status is recorded on the stored branch first
      exact respects_bind (P := fun _ => True)
        ((respects_updateBranch fun _ => hb.restatus r).mono fun r _ => outcome_true r)
        fun _ _ => hrest
    · exact hrest

/-- Ending the session releases the rows of its branches and removes it on both sides. -/
theorem respects_endSession (s : GlobalSession) :
    (endSession s).run.Respects (Env.Aside x n g clk gen ks)
      (Outcome (fun _ => True) fun _ => True) := by
  unfold endSession
  refine respects_bind (respects_adapt (respects_releaseSession s)) fun _ _ => ?_
  exact (respects_storeRemove s.xid).mono fun r _ => outcome_true r

/-- A drive of a copy whose branches are those of `g`, statuses aside, does on a state aside the
decision's what it does on the decision's state.  By induction on the branch ids left, as
`own_go`: each call respects the relation, and the copy keeps its branches among those of `g`. -/
theorem respects_go : ∀ (bids : List Nat) {s : GlobalSession}, (∀ b ∈ s.branches, g.Lists b) →
    (drive.go c dir s bids).run.Respects (Env.Aside x n g clk gen ks)
      (Outcome (fun _ => True) fun _ => True)
  | [], s, _ => by
    -- no branch is left: the session reaches the outcome of the direction and is removed
    unfold drive.go
    refine respects_bind (respects_transit s _) fun s₁ h₁ => ?_
    refine respects_bind (P := fun _ => True)
      ((respects_update fun _ => h₁.2.1 ▸ Direction.completed_ne_begin dir s.status).mono
        fun r _ => outcome_true r) fun _ _ => ?_
    exact respects_bind (respects_endSession s₁) fun _ _ => respects_pure _ trivial
  | bid :: rest, s, hl => by
    unfold drive.go
    cases hb : s.findBranch? bid with
    | none => exact respects_go rest hl
    | some b =>
      dsimp only
      have hlb : g.Lists b := hl b (List.mem_of_find?_eq_some hb)
      -- a branch removed: the drive goes on over the rest with the session less it
      have hnext : (removeBranch s b true >>= fun s => drive.go c dir s rest).run.Respects
          (Env.Aside x n g clk gen ks) (Outcome (fun _ => True) fun _ => True) :=
        respects_bind (respects_removeBranch s b) fun s' hs' => by
          rw [hs']
          exact respects_go rest fun c hc => hl c (GlobalSession.mem_removeBranch hc)
      have hretry : ∀ rep, (suspend s b rep (dir.retrying s.status)).run.Respects
          (Env.Aside x n g clk gen ks) (Outcome (fun _ => True) fun _ => True) := fun rep =>
        respects_suspend s hlb rep (Direction.retrying_ne_begin dir s.status)
      split
      · exact hnext
      · refine respects_bind (respects_requestPhaseTwo dir.action b dir.doneStatus) fun a _ => ?_
        cases a with
        | answered r =>
          dsimp only
          generalize dir.outcome b r = o
          cases o with
          | done => exact hnext
          | retryable => exact hretry _
          | unretryable => exact respects_suspend s hlb _ (Direction.failed_ne_begin dir)
        | failed e => exact hretry _
        | silent => exact respects_bind (respects_sleep c.branchTimeout) fun _ _ => hretry _

theorem respects_drive {s : GlobalSession} (hl : ∀ b ∈ s.branches, g.Lists b) :
    (drive c dir s).run.Respects (Env.Aside x n g clk gen ks)
      (Outcome (fun _ => True) fun _ => True) :=
  respects_go c dir _ hl

theorem respects_driveHandled {s : GlobalSession} (hl : ∀ b ∈ s.branches, g.Lists b) :
    (driveHandled c dir s).run.Respects (Env.Aside x n g clk gen ks)
      (Outcome (fun _ => True) fun _ => True) :=
  respects_bind (respects_drive c dir hl) fun _ _ => respects_pure _ trivial

end Drive

end CoordM

end GlobalTxn
