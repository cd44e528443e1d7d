import GlobalTxn.Proofs.DriveBeside
import GlobalTxn.Proofs.Register

/-! # A registration, call by call

A registration is cut into the stages of its calls on the stores: it reads the session, draws
the id of its branch, reads the clock, locks the rows of its branch, adds the branch, and, if
the store refuses it, releases the rows again.  Each stage is a definition proved to be what
is left of `CoordM.register` (`register_eq`, `registerLock_of_cons`, `registerUndo_of_cons`),
and each takes one call, whose next step `advance_register` and its siblings give.

`CoordM.Stage` says where a registration into a session `g`, begun with a generator `ids`,
stands: what is left of it, the generator it leaves, and the keys of the rows it may hold.
From a stage, one step on a state beside another (`Env.Beside`) reaches the next stage beside
the same state, unless the session is still in `begin` and the branch is added
(`Stage.next`).  Where the session is decided instead, the registration adds nothing: it answers
the id of a branch registered the same way, or fails (`CoordM.Refused`), and ends holding no
row (`Stage.finish`).

Main statements: `CoordM.Stage.next` and `CoordM.Stage.finish`.
-/

namespace GlobalTxn

/-- A program of one step takes it and ends. -/
theorem Steps.Brief.advance {σ α : Type} {p : Steps σ α} (hp : p.Brief) (hs : ∀ a, p ≠ .done a)
    (s : σ) : p.advance s = some (.done (p.run s).1, (p.run s).2) := by
  cases p with
  | done a => exact absurd rfl (hs a)
  | step u n =>
    obtain ⟨a, ha⟩ := hp s
    simp only [Steps.advance, Steps.run_step, ha, Steps.run_done]
  | pause _ _ _ => exact hp.elim

/-- A program of one step is that step. -/
theorem Steps.Brief.eq_step {σ α : Type} {p : Steps σ α} (hp : p.Brief) (hs : ∀ a, p ≠ .done a) :
    p = .step (fun s => (p.run s).2) fun s => .done (p.run s).1 := by
  cases p with
  | done a => exact absurd rfl (hs a)
  | step u n =>
    have hu : (fun s => (Steps.run (.step u n) s).2) = u := funext fun s => by
      obtain ⟨a, ha⟩ := hp s
      simp only [Steps.run_step, ha, Steps.run_done]
    have hn : (fun s => Steps.done (Steps.run (.step u n) s).1) = n := funext fun s => by
      obtain ⟨a, ha⟩ := hp s
      simp only [Steps.run_step, ha, Steps.run_done]
    rw [hu, hn]
  | pause _ _ _ => exact hp.elim

namespace Env

variable {x : String} {n : Nat} {gen : IdGenerator} {ks : List String} {s t : Env}

/-- Drawing an id keeps the states beside each other, with the new generator. -/
theorem Beside.withIds (h : s.Beside x n gen ks t) (gen' : IdGenerator) :
    ({ s with ids := gen' } : Env).Beside x n gen' ks t := by
  obtain ⟨hframe, hrows, hfresh⟩ := h
  refine ⟨?_, hrows, hfresh⟩
  rw [hframe]

/-- `s` keeps its sessions in the table `t` does, and its rows in a table, with no faults. -/
theorem Beside.quiet {T : SessionTable} {Lt : LockTable} (h : s.Beside x n gen ks t)
    (ht : t.Quiet T Lt) : ∃ Ls, s.Quiet T Ls := by
  obtain ⟨Ls, _, hs, -, -⟩ := h.rows
  exact ⟨Ls, h.sessions.trans ht.sessions, hs, h.faults.trans ht.faults⟩

variable {Ls : LockTable} {ls : List RowLock} {txid : Nat}

/-- Rows acquired for the registration's branch, where `s` holds no row of its own yet: each
row that was free is held for it. -/
theorem Beside.acquire (h : s.Beside x n gen [] t) (hs : s.locks = .table Ls)
    (hh : ∀ l ∈ ls, l.holder = ⟨x, txid, n⟩) (hacq : (Ls.acquire ls).1 = true) :
    ({ s with locks := .table (Ls.acquire ls).2 } : Env).Beside x n gen (ls.map (·.rowKey)) t := by
  obtain ⟨hframe, ⟨Ls', lt, hs', ht, hrows⟩, hfresh⟩ := h
  rw [hs] at hs'
  cases hs'
  refine ⟨?_, ⟨_, lt, rfl, ht, fun k => ?_⟩, hfresh⟩
  · rw [hframe]
  · have heq : Ls.owner? k = lt.owner? k := by
      rcases hrows k with heq | ⟨hk, -⟩
      · exact heq
      · cases hk
    rw [LockTable.owner?_acquire_of_holders hh hacq k, heq]
    by_cases hk : k ∈ ls.map (·.rowKey) ∧ lt.owner? k = none
    · rw [if_pos hk]
      exact .inr ⟨hk.1, hk.2, _, rfl, rfl, rfl⟩
    · rw [if_neg hk]
      exact .inl rfl

/-- The registration's rows released: no row is held for its branch any more, and the rows of
the two states are the same. -/
theorem Beside.releaseOwn (h : s.Beside x n gen (ls.map (·.rowKey)) t) (hs : s.locks = .table Ls)
    (hh : ∀ l ∈ ls, l.holder = ⟨x, txid, n⟩) :
    ({ s with locks := .table (Ls.release ls) } : Env).Beside x n gen [] t := by
  obtain ⟨hframe, ⟨Ls', lt, hs', ht, hrows⟩, hfresh⟩ := h
  rw [hs] at hs'
  cases hs'
  refine ⟨?_, ⟨_, lt, rfl, ht, fun k => .inl ?_⟩, hfresh⟩
  · rw [hframe]
  · have hheld := LockTable.any_heldByBranch_iff hh k
    rw [LockTable.owner?_release]
    rcases hrows k with heq | ⟨hk, hnone, hd, hsome, hx, hn⟩
    · -- a row both hold is not held for the branch, so it stays
      rw [heq]
      cases hown : lt.owner? k with
      | none => rfl
      | some hd =>
        have hany : (ls.any fun l => l.rowKey == k && l.isHeldByBranch hd) = false :=
          Bool.eq_false_iff.2 fun hany => hfresh lt ht k hd hown ((hheld hd).1 hany).2
        rw [Option.filter_some_pos (by simp [hany])]
    · -- a row held for the branch goes
      have hany := (hheld hd).2 ⟨hk, hx, hn⟩
      rw [hsome, hnone, Option.filter_some_neg (by simp [hany])]

end Env

namespace CoordM

/-! ## The stages of a registration -/

section Stages

variable (bt : BranchType) (res cli x data key : String)

/-- The branch a registration into `s` makes, with id `bid`, at clock reading `now`. -/
def registeredBranch (s : GlobalSession) (bid now : Nat) : Branch :=
  ⟨s.xid, s.transactionId, bid, s.transactionServiceGroup, res, cli, bt, .registered, key, data,
    now⟩

/-- What a registration refused by the store reports. -/
def registerFailure : StoreError → CoordError
  | .sessionNotActive _ status => .invalidStatus x status .branchRegister
  | e => .store e

/-- After the store refused the branch: its rows are released. -/
def registerUndo (b : Branch) (e : StoreError) : CoordM Nat := do
  let _ ← lockingResult (LockManager.releaseBranch lockStore b)
  match e with
  | .sessionNotActive _ status => throw (.invalidStatus x status .branchRegister)
  | e => throw (.store e)

/-- Adding the branch to its session in the store. -/
def registerStore (b : Branch) (bid : Nat) : CoordM Nat := do
  match ← storeResult (sessionStore.addBranch b) with
  | .ok () => pure bid
  | .error e => registerUndo x b e

/-- Locking the rows of the branch. -/
def registerLock (b : Branch) (bid : Nat) : CoordM Nat := do
  if (← locking (LockManager.acquireBranch lockStore b)) = true then registerStore x b bid
  else do
    let _ ← (throw (CoordError.lockConflict x key) : CoordM Unit)
    registerStore x b bid

/-- Reading the clock for the branch with id `bid`. -/
def registerWith (s : GlobalSession) (bid : Nat) : CoordM Nat := do
  registerLock x key (registeredBranch bt res cli data key s bid (← now)) bid

/-- Drawing the id of the branch. -/
def registerFrom (s : GlobalSession) : CoordM Nat := do
  registerWith bt res cli x data key s (← nextId)

/-- What a registration does with the session it read. -/
def registerStatus (s : GlobalSession) : CoordM Nat :=
  match s.status with
  | .begin => registerFrom bt res cli x data key s
  | .committing =>
    match s.branches.find? (·.isSameRegistration bt res cli key) with
    | some b => pure b.branchId
    | none => (throw (.invalidStatus x s.status .branchRegister) : CoordM Unit) >>= fun _ =>
      registerFrom bt res cli x data key s
  | .rollbacking =>
    match s.branches.find? (·.isSameRegistration bt res cli key) with
    | some b => pure b.branchId
    | none => (throw (.invalidStatus x s.status .branchRegister) : CoordM Unit) >>= fun _ =>
      registerFrom bt res cli x data key s
  | status => (throw (.invalidStatus x status .branchRegister) : CoordM Unit) >>= fun _ =>
    registerFrom bt res cli x data key s

/-- What a registration does with what it read under `x`. -/
def registerRead : Option GlobalSession → CoordM Nat
  | some s => registerStatus bt res cli x data key s
  | none => throw (.globalNotFound x)

/-- Locking rows all or none, in one call of the lock store; if the call fails, the rows are
released. -/
def acquireRows (ls : List RowLock) : ExceptT LockError (Steps Env) Bool :=
  tryCatchThe LockError (lockStore.acquire ls) fun e => do
    tryCatchThe LockError (lockStore.release ls) fun _ => pure ()
    throwThe LockError e

/-- Locking rows that are there to lock. -/
def registerAcquire (b : Branch) (bid : Nat) (ls : List RowLock) : CoordM Nat := do
  let ok ← locking (acquireRows ls)
  if ok = true then registerStore x b bid
  else do
    let _ ← (throw (CoordError.lockConflict x key) : CoordM Unit)
    registerStore x b bid

/-- Releasing rows that are there to release: one call of the lock store. -/
def registerRelease (e : StoreError) (ls : List RowLock) : CoordM Nat := do
  let _ ← lockingResult (lockStore.release ls)
  match e with
  | .sessionNotActive _ status => throw (.invalidStatus x status .branchRegister)
  | e => throw (.store e)

theorem register_eq_load :
    register bt res cli x data key = load x >>= registerStatus bt res cli x data key := rfl

/-- A registration reads the session of `x`, then goes on with what it read. -/
theorem register_eq : register bt res cli x data key =
    store (sessionStore.find? x) >>= registerRead bt res cli x data key := by
  rw [register_eq_load, load, bind_assoc]
  congr 1
  funext r
  cases r <;> rfl

variable {bt res cli x data key}

theorem registerStatus_of_begin {s : GlobalSession} (h : s.status = .begin) :
    registerStatus bt res cli x data key s = registerFrom bt res cli x data key s := by
  unfold registerStatus
  rw [h]

theorem registerLock_of_error {b : Branch} {bid : Nat} {e : LockError}
    (h : LockManager.collect b = .error e) :
    (registerLock x key b bid).run = Steps.done (.error (.ofLock e)) := by
  unfold registerLock LockManager.acquireBranch
  rw [h]
  rfl

theorem registerLock_of_nil {b : Branch} {bid : Nat} (h : LockManager.collect b = .ok []) :
    registerLock x key b bid = registerStore x b bid := by
  unfold registerLock LockManager.acquireBranch
  rw [h]
  rfl

theorem registerLock_of_cons {b : Branch} {bid : Nat} {ls : List RowLock}
    (h : LockManager.collect b = .ok ls) (hne : ls ≠ []) :
    registerLock x key b bid = registerAcquire x key b bid ls := by
  unfold registerLock LockManager.acquireBranch
  rw [h]
  have hempty : ls.isEmpty = false := List.isEmpty_eq_false_iff.2 hne
  simp only [liftExcept, pure_bind, hempty, Bool.false_eq_true, if_false]
  rfl

theorem registerUndo_of_nil {b : Branch} {e : StoreError} (h : LockManager.collect b = .ok []) :
    (registerUndo x b e).run = Steps.done (.error (registerFailure x e)) := by
  unfold registerUndo LockManager.releaseBranch
  rw [h]
  cases e <;> rfl

theorem registerUndo_of_cons {b : Branch} {e : StoreError} {ls : List RowLock}
    (h : LockManager.collect b = .ok ls) (hne : ls ≠ []) :
    registerUndo x b e = registerRelease x e ls := by
  unfold registerUndo registerRelease LockManager.releaseBranch
  rw [h]
  have hempty : ls.isEmpty = false := List.isEmpty_eq_false_iff.2 hne
  simp only [liftExcept, pure_bind, hempty, Bool.false_eq_true, if_false]

end Stages

/-! ## One step of a registration

On a state whose stores are quiet, each stage takes one call, and goes on as the call answers.
-/

section Advance

variable {bt : BranchType} {res cli x data key : String} {s : Env} {T : SessionTable}
  {L : LockTable}

/-- With no read set to fail, a read of the session table answers from it. -/
theorem run_find?_of_faults (hf : s.faults = {}) (hT : s.sessions = .table T) (y : String) :
    Steps.run (store (sessionStore.find? y)).run s = (.ok (T.find? y), s) := by
  rw [run_find? hT, if_neg (by rw [hf]; exact Nat.lt_irrefl 0)]

theorem advance_find? (hq : s.Quiet T L) (y : String) :
    (store (sessionStore.find? y)).run.advance s = some (.done (.ok (T.find? y)), s) := by
  have h := Steps.Brief.advance (p := (store (sessionStore.find? y)).run)
    (Steps.brief_adapt_atomic _ _) (fun _ h => by cases h) s
  rw [h, run_find?_of_faults hq.faults hq.sessions]

theorem advance_register (hq : s.Quiet T L) :
    (register bt res cli x data key).run.advance s =
      some ((registerRead bt res cli x data key (T.find? x)).run, s) := by
  rw [register_eq]
  exact Steps.advance_exceptT_bind (advance_find? hq x)

theorem advance_registerFrom (g : GlobalSession) :
    (registerFrom bt res cli x data key g).run.advance s =
      some ((registerWith bt res cli x data key g s.ids.next.1).run,
        { s with ids := s.ids.next.2 }) :=
  rfl

theorem advance_registerWith (g : GlobalSession) (bid : Nat) :
    (registerWith bt res cli x data key g bid).run.advance s =
      some ((registerLock x key (registeredBranch bt res cli data key g bid s.clock.now) bid).run,
        s) :=
  rfl


theorem advance_acquireRows (hat : s.At T L) (ls : List RowLock) :
    (acquireRows ls).run.advance s =
      some (.done (.ok (L.acquire ls).1), { s with locks := .table (L.acquire ls).2 }) := by
  have h := Steps.Brief.advance (p := (lockStore.acquire ls).run) (Steps.brief_atomic _)
    (fun _ h => by cases h) s
  rw [run_lockStore_acquire hat] at h
  exact Steps.advance_bind_of_done h

theorem advance_registerAcquire (hat : s.At T L) (b : Branch) (bid : Nat) (ls : List RowLock) :
    (registerAcquire x key b bid ls).run.advance s =
      some (if (L.acquire ls).1 = true then (registerStore x b bid).run
          else .done (.error (.lockConflict x key)),
        { s with locks := .table (L.acquire ls).2 }) := by
  have h : (locking (acquireRows ls)).run.advance s =
      some (.done (.ok (L.acquire ls).1), { s with locks := .table (L.acquire ls).2 }) :=
    Steps.advance_bind_of_done (advance_acquireRows hat ls)
  rw [registerAcquire, Steps.advance_exceptT_bind h]
  cases (L.acquire ls).1 <;> rfl

theorem advance_registerStore (hq : s.Quiet T L) (b : Branch) (bid : Nat) :
    (registerStore x b bid).run.advance s =
      match T.addBranch b with
      | .ok T' => some (.done (.ok bid), { s with sessions := .table T' })
      | .error e => some ((registerUndo x b e).run, s) := by
  have h := Steps.Brief.advance (p := (storeResult (sessionStore.addBranch b)).run)
    (fun _ => ⟨_, rfl⟩) (fun _ h => by cases h) s
  rw [run_storeResult_addBranch hq.sessions, if_neg (by rw [hq.faults]; exact Nat.lt_irrefl 0)] at h
  unfold registerStore
  rw [Steps.advance_exceptT_bind h]
  cases T.addBranch b <;> rfl

theorem advance_registerRelease (hat : s.At T L) (e : StoreError) (ls : List RowLock) :
    (registerRelease x e ls).run.advance s =
      some (.done (.error (registerFailure x e)), { s with locks := .table (L.release ls) }) := by
  have h : (lockingResult (lockStore.release ls)).run.advance s =
      some (.done (.ok (.ok ())), { s with locks := .table (L.release ls) }) := by
    rw [Steps.Brief.advance (p := (lockingResult (lockStore.release ls)).run) (fun _ => ⟨_, rfl⟩)
      (fun _ h => by cases h) s]
    rw [lockingResult, Steps.run_exceptT_lift, run_lockStore_release hat]
  unfold registerRelease
  rw [Steps.advance_exceptT_bind h]
  cases e <;> rfl

end Advance

/-! ## Where a registration stands -/

/-- A session store's refusal of a branch into a decided session: the session is gone, or in a
status other than `begin`. -/
def StoreRefusal (x : String) (e : StoreError) : Prop :=
  e = .sessionNotFound x ∨ ∃ st, st ≠ .begin ∧ e = .sessionNotActive x st

/-- A decided session refuses every branch. -/
theorem addBranch_of_decided {x : String} {T : SessionTable} {g : GlobalSession} {b : Branch}
    (hd : T.Decided x g) (hbx : b.xid = x) : ∃ e, T.addBranch b = .error e ∧ StoreRefusal x e := by
  unfold SessionTable.addBranch
  rw [hbx]
  cases hf : T.find? x with
  | none => exact ⟨_, rfl, .inl rfl⟩
  | some s₀ =>
    have hst := (hd s₀ hf).1
    exact ⟨_, by simp only [hst, if_false], .inr ⟨_, hst, rfl⟩⟩

section Standing

variable (bt : BranchType) (res cli x data key : String)

/-- What a registration that added no branch to `g` may answer: the id of a branch of `g`
registered the same way, or one of its failures. -/
def Refused (g : GlobalSession) : Except CoordError Nat → Prop
  | .ok bid => ∃ c ∈ g.branches, c.isSameRegistration bt res cli key = true ∧ c.branchId = bid
  | .error e => e = .globalNotFound x ∨
      (∃ st, st ≠ .begin ∧ e = .invalidStatus x st .branchRegister) ∨
      e = .store (.sessionNotFound x) ∨ e = .lockConflict x key ∨
      ∃ p, e = CoordError.ofLock (.invalidKey key p)

/-- Where a registration into `g`, begun with the generator `ids` at clock reading `now`, stands:
what is left of it, the generator it leaves, and the keys of rows it may hold for its branch. -/
inductive Stage (g : GlobalSession) (ids : IdGenerator) (now : Nat) :
    Steps Env (Except CoordError Nat) → IdGenerator → List String → Prop
  /-- Before it reads the session. -/
  | start : Stage g ids now (register bt res cli x data key).run ids []
  /-- It read `g` in `begin`. -/
  | found : Stage g ids now (registerFrom bt res cli x data key g).run ids []
  /-- It drew the id of its branch. -/
  | drawn : Stage g ids now (registerWith bt res cli x data key g ids.next.1).run ids.next.2 []
  /-- It built its branch, which has rows to lock. -/
  | built {ls : List RowLock}
      (hc : LockManager.collect (registeredBranch bt res cli data key g ids.next.1 now) = .ok ls)
      (hne : ls ≠ []) :
      Stage g ids now
        (registerAcquire x key (registeredBranch bt res cli data key g ids.next.1 now) ids.next.1
          ls).run ids.next.2 []
  /-- It holds the rows of its branch, and is about to add the branch. -/
  | locked {ls : List RowLock}
      (hc : LockManager.collect (registeredBranch bt res cli data key g ids.next.1 now) = .ok ls) :
      Stage g ids now
        (registerStore x (registeredBranch bt res cli data key g ids.next.1 now) ids.next.1).run
        ids.next.2 (ls.map (·.rowKey))
  /-- The store refused its branch; its rows are still to release. -/
  | refused {ls : List RowLock} {e : StoreError}
      (hc : LockManager.collect (registeredBranch bt res cli data key g ids.next.1 now) = .ok ls)
      (hne : ls ≠ []) (he : StoreRefusal x e) :
      Stage g ids now (registerRelease x e ls).run ids.next.2 (ls.map (·.rowKey))
  /-- It ended without adding a branch. -/
  | ended {r : Except CoordError Nat} {gen : IdGenerator} (hr : Refused bt res cli x key g r)
      (hgen : gen = ids ∨ gen = ids.next.2) : Stage g ids now (.done r) gen []

variable {bt res cli x data key}

theorem registerFailure_refused {g : GlobalSession} {e : StoreError} (he : StoreRefusal x e) :
    Refused bt res cli x key g (.error (registerFailure x e)) := by
  rcases he with rfl | ⟨st, hst, rfl⟩
  · exact .inr (.inr (.inl rfl))
  · exact .inr (.inl ⟨st, hst, rfl⟩)

/-- A registration that reads a decided session ends at once, refused. -/
theorem registerStatus_decided {g s₀ : GlobalSession} (hst : s₀.status ≠ .begin)
    (hl : ∀ b ∈ s₀.branches, g.Lists b) :
    ∃ r, (registerStatus bt res cli x data key s₀).run = .done r ∧
      Refused bt res cli x key g r := by
  have hseen : ∀ b, s₀.branches.find? (·.isSameRegistration bt res cli key) = some b →
      Refused bt res cli x key g (.ok b.branchId) := fun b hf => by
    have hb := List.find?_some hf
    exact (hl b (List.mem_of_find?_eq_some hf)).sameRegistration hb
  unfold registerStatus
  split
  · exact absurd ‹_› hst
  · cases hf : s₀.branches.find? (·.isSameRegistration bt res cli key) with
    | some b => exact ⟨_, rfl, hseen b hf⟩
    | none => exact ⟨_, rfl, .inr (.inl ⟨_, by rw [‹s₀.status = _›]; decide, rfl⟩)⟩
  · cases hf : s₀.branches.find? (·.isSameRegistration bt res cli key) with
    | some b => exact ⟨_, rfl, hseen b hf⟩
    | none => exact ⟨_, rfl, .inr (.inl ⟨_, by rw [‹s₀.status = _›]; decide, rfl⟩)⟩
  · exact ⟨_, rfl, .inr (.inl ⟨_, ‹_›, rfl⟩)⟩

/-- One step of a registration from a stage, on a state beside `t` that keeps its sessions in
the table `T`, where `x` is stored as `g` or decided: the registration reaches the next stage,
or it adds its branch to `g`. -/
theorem Stage.next {g : GlobalSession} {ids : IdGenerator} {now : Nat}
    {p : Steps Env (Except CoordError Nat)} {gen : IdGenerator} {ks : List String}
    (hst : Stage bt res cli x data key g ids now p gen ks) {s t : Env} {T : SessionTable}
    {Ls : LockTable} (hs : s.Quiet T Ls) (hbes : s.Beside x ids.next.1 gen ks t)
    (hclock : s.clock.now = now) (hT : T.find? x = some g ∨ T.Decided x g) (hgx : g.xid = x)
    (hbegin : g.status = .begin) {p' : Steps Env (Except CoordError Nat)} {s' : Env}
    (hadv : p.advance s = some (p', s')) :
    (∃ gen' ks', Stage bt res cli x data key g ids now p' gen' ks' ∧
      s'.Beside x ids.next.1 gen' ks' t) ∨
    (T.find? x = some g ∧ p' = .done (.ok ids.next.1) ∧
      s' = { s with sessions := (.table (T.put (g.addBranch
        (registeredBranch bt res cli data key g ids.next.1 now)))) }) := by
  -- the rows of the branch are held for `x` and the drawn id
  have hholder : ∀ {ls : List RowLock},
      LockManager.collect (registeredBranch bt res cli data key g ids.next.1 now) = .ok ls →
      ∀ l ∈ ls, l.holder = ⟨x, g.transactionId, ids.next.1⟩ := fun hc l hl => by
    rw [LockManager.holder_of_collect hc l hl, ← hgx]
    rfl
  cases hst with
  | start =>
    rw [advance_register hs, Option.some.injEq, Prod.mk.injEq] at hadv
    obtain ⟨rfl, rfl⟩ := hadv
    rcases hT with hg | hd
    · refine .inl ⟨ids, [], ?_, hbes⟩
      show Stage bt res cli x data key g ids now (registerRead bt res cli x data key _).run ids []
      rw [hg]
      show Stage bt res cli x data key g ids now (registerStatus bt res cli x data key g).run ids []
      rw [registerStatus_of_begin hbegin]
      exact .found
    · -- the session is decided or gone: the registration ends at once
      cases hf : T.find? x with
      | none => exact .inl ⟨ids, [], .ended (.inl rfl) (.inl rfl), hbes⟩
      | some s₀ =>
        obtain ⟨hst₀, hl⟩ := hd s₀ hf
        obtain ⟨r, hr, hR⟩ : ∃ r, (registerStatus bt res cli x data key s₀).run = .done r ∧
            Refused bt res cli x key g r := registerStatus_decided hst₀ hl
        refine .inl ⟨ids, [], ?_, hbes⟩
        show Stage bt res cli x data key g ids now (registerStatus bt res cli x data key s₀).run
          ids []
        rw [hr]
        exact .ended hR (.inl rfl)
  | found =>
    -- the generator is still `ids`, so the id drawn is `ids.next.1`
    rw [advance_registerFrom, Option.some.injEq, Prod.mk.injEq, hbes.ids] at hadv
    obtain ⟨rfl, rfl⟩ := hadv
    exact .inl ⟨_, [], .drawn, hbes.withIds _⟩
  | drawn =>
    rw [advance_registerWith, Option.some.injEq, Prod.mk.injEq, hclock] at hadv
    obtain ⟨rfl, rfl⟩ := hadv
    cases hc : LockManager.collect (registeredBranch bt res cli data key g ids.next.1 now) with
    | error le =>
      -- a lock key that breaks the grammar
      obtain ⟨p, rfl⟩ := LockManager.collect_error hc
      rw [registerLock_of_error hc]
      exact .inl ⟨_, [], .ended (.inr (.inr (.inr (.inr ⟨p, rfl⟩)))) (.inr rfl), hbes⟩
    | ok ls =>
      by_cases hne : ls = []
      · subst hne
        rw [registerLock_of_nil hc]
        exact .inl ⟨_, _, .locked hc, hbes⟩
      · rw [registerLock_of_cons hc hne]
        exact .inl ⟨_, [], .built hc hne, hbes⟩
  | built hc hne =>
    rw [advance_registerAcquire hs.at, Option.some.injEq, Prod.mk.injEq] at hadv
    obtain ⟨rfl, rfl⟩ := hadv
    cases hacq : (Ls.acquire _).1 with
    | false =>
      -- a row is held by another transaction: nothing is locked
      rw [LockTable.acquire_eq_of_fst_eq_false hacq, Env.with_locks_self hs.locks]
      exact .inl ⟨_, [], .ended (.inr (.inr (.inr (.inl rfl)))) (.inr rfl), hbes⟩
    | true => exact .inl ⟨_, _, .locked hc, hbes.acquire hs.locks (hholder hc) hacq⟩
  | locked hc =>
    rw [advance_registerStore hs] at hadv
    rcases hT with hg | hd
    · -- `x` is still in `begin`: the branch is added
      have hgb : T.find? (registeredBranch bt res cli data key g ids.next.1 now).xid = some g := by
        rw [← hgx] at hg
        exact hg
      rw [SessionTable.addBranch_of_begin hgb hbegin, Option.some.injEq, Prod.mk.injEq] at hadv
      obtain ⟨rfl, rfl⟩ := hadv
      exact .inr ⟨hg, rfl, rfl⟩
    · -- `x` is decided: the store refuses the branch
      obtain ⟨e, he, hr⟩ :=
        addBranch_of_decided (b := registeredBranch bt res cli data key g ids.next.1 now) hd hgx
      rw [he, Option.some.injEq, Prod.mk.injEq] at hadv
      obtain ⟨rfl, rfl⟩ := hadv
      rename_i ls
      by_cases hne : ls = []
      · subst hne
        rw [registerUndo_of_nil hc]
        exact .inl ⟨_, [], .ended (registerFailure_refused hr) (.inr rfl), hbes⟩
      · rw [registerUndo_of_cons hc hne]
        exact .inl ⟨_, _, .refused hc hne hr, hbes⟩
  | refused hc hne he =>
    rw [advance_registerRelease hs.at, Option.some.injEq, Prod.mk.injEq] at hadv
    obtain ⟨rfl, rfl⟩ := hadv
    exact .inl ⟨_, [], .ended (registerFailure_refused he) (.inr rfl),
      hbes.releaseOwn hs.locks (hholder hc)⟩
  | ended hr hgen => cases hadv

/-- A registration that has ended at a stage was refused, and holds no row any more. -/
theorem Stage.finish {g : GlobalSession} {ids : IdGenerator} {now : Nat} {r : Except CoordError Nat}
    {gen : IdGenerator} {ks : List String}
    (hst : Stage bt res cli x data key g ids now (.done r) gen ks) {s t : Env} {lt : LockTable}
    (hbes : s.Beside x ids.next.1 gen ks t) (ht : t.locks = .table lt) :
    Refused bt res cli x key g r ∧ ∃ ls, (gen = ids ∨ gen = ids.next.2) ∧
      s = { t with ids := gen, locks := .table ls } ∧ ∀ k, ls.owner? k = lt.owner? k := by
  cases hst with
  | ended hr hgen =>
    obtain ⟨ls, lt', hs, ht', hrows⟩ := hbes.rows
    rw [ht] at ht'
    cases ht'
    refine ⟨hr, ls, hgen, ?_, fun k => ?_⟩
    · rw [hbes.frame, hs]
    · rcases hrows k with heq | ⟨hk, -⟩
      · exact heq
      · cases hk

end Standing

end CoordM

end GlobalTxn
