import GlobalTxn.Proofs.DriveOrder
import GlobalTxn.Proofs.Register

/-! # Recovery locks the rows of stored sessions again, and a second one changes nothing

After a restart over a kept session store, `CoordM.recover` locks again the rows of every
stored session whose status holds row locks.  Run alone on stores kept in tables that do not
fail (`Env.Quiet`), it does what `LockTable.restore` says of the branches' rows: sessions in
the order the store finds them, oldest first, and the branches of each in registration order;
each branch gets all its rows or none, and is refused, and counted as a conflict, when another
transaction holds one of them.  The session store stays as it was, and the report counts every
stored session and every stored branch (`CoordM.run_recover`).

Acquiring never frees a row nor gives it another holder (`LockTable.Extends`), so after one
recovery every branch is settled: refused for a row another transaction still holds, or with
each of its rows held by its own transaction (`LockTable.settles_restore`).  A recovery over a
table that settles every branch changes nothing and counts the branches refused again
(`LockTable.restore_of_settles`).

Main statement: `CoordM.recover_is_idempotent`.
-/

namespace GlobalTxn

namespace LockTable

/-- Acquires again, all or none per list and in the order given, the rows of each list of row
locks: a list one of whose rows another transaction holds is refused and counted, and every
other list gives a holder to those of its rows not held yet.  Answers how many lists were
refused, and the table. -/
def restore : LockTable → List (List RowLock) → Nat × LockTable
  | t, [] => (0, t)
  | t, ls :: rest =>
    if ls.any t.conflicts then ((t.restore rest).1 + 1, (t.restore rest).2)
    else (ls.foldl insertIfAbsent t).restore rest

/-- `t'` keeps the holder of every row `t` holds. -/
def Extends (t t' : LockTable) : Prop := ∀ k h, t.owner? k = some h → t'.owner? k = some h

/-- A list of row locks that the table settles: refused, for a row another transaction holds, or
with each of its rows held by its own transaction. -/
def Settles (t : LockTable) (ls : List RowLock) : Prop :=
  ls.any t.conflicts = true ∨ ∀ l ∈ ls, ∃ h, t.owner? l.rowKey = some h ∧ h.xid = l.xid

/-- Row locks that give each row one transaction. -/
def OneXidPerRow (ls : List RowLock) : Prop :=
  ∀ l ∈ ls, ∀ l' ∈ ls, l.rowKey = l'.rowKey → l.xid = l'.xid

variable {t t' : LockTable} {ls : List RowLock} {L : List (List RowLock)}

theorem restore_cons (t : LockTable) (ls : List RowLock) (rest : List (List RowLock)) :
    t.restore (ls :: rest) =
      if ls.any t.conflicts then ((t.restore rest).1 + 1, (t.restore rest).2)
      else (ls.foldl insertIfAbsent t).restore rest :=
  rfl

theorem restore_append (t : LockTable) (L L' : List (List RowLock)) :
    t.restore (L ++ L') =
      ((t.restore L).1 + ((t.restore L).2.restore L').1, ((t.restore L).2.restore L').2) := by
  induction L generalizing t with
  | nil => simp [restore]
  | cons ls rest ih =>
    rw [List.cons_append, restore_cons t ls (rest ++ L'), restore_cons t ls rest]
    by_cases hc : ls.any t.conflicts = true
    · rw [if_pos hc, if_pos hc, ih]
      refine Prod.ext ?_ rfl
      dsimp only
      omega
    · rw [if_neg hc, if_neg hc]
      exact ih _

theorem Extends.refl (t : LockTable) : t.Extends t := fun _ _ h => h

theorem Extends.trans {t₁ t₂ t₃ : LockTable} (h₁ : t₁.Extends t₂) (h₂ : t₂.Extends t₃) :
    t₁.Extends t₃ :=
  fun k h hk => h₂ k h (h₁ k h hk)

theorem extends_foldl_insertIfAbsent (t : LockTable) (ls : List RowLock) :
    t.Extends (ls.foldl insertIfAbsent t) := by
  intro k h hk
  rw [owner?_foldl_insertIfAbsent, hk]
  rfl

/-- Restoring rows never frees a row nor gives it another holder. -/
theorem extends_restore (t : LockTable) (L : List (List RowLock)) : t.Extends (t.restore L).2 := by
  induction L generalizing t with
  | nil => exact Extends.refl t
  | cons ls rest ih =>
    rw [restore_cons]
    split
    · exact ih t
    · exact (extends_foldl_insertIfAbsent t ls).trans (ih _)

theorem Settles.of_extends (h : t.Settles ls) (hext : t.Extends t') : t'.Settles ls := by
  rcases h with hc | hheld
  · left
    obtain ⟨l, hl, h, hown, hx⟩ := any_conflicts_eq_true_iff.1 hc
    exact any_conflicts_eq_true_iff.2 ⟨l, hl, h, hext _ _ hown, hx⟩
  · right
    intro l hl
    obtain ⟨h, hown, hx⟩ := hheld l hl
    exact ⟨h, hext _ _ hown, hx⟩

/-- Rows that no other transaction holds, once given holders, are each held by their own
transaction. -/
theorem held_of_foldl_insertIfAbsent (hc : ls.any t.conflicts = false) (hone : OneXidPerRow ls) :
    ∀ l ∈ ls, ∃ h, (ls.foldl insertIfAbsent t).owner? l.rowKey = some h ∧ h.xid = l.xid := by
  intro l hl
  rw [owner?_foldl_insertIfAbsent]
  cases hown : t.owner? l.rowKey with
  | some h =>
    -- a row held already is held by the same transaction, or it would conflict
    have hnc : t.conflicts l = false := by
      rw [List.any_eq_false] at hc
      simpa using hc l hl
    refine ⟨h, rfl, ?_⟩
    simpa [conflicts, hown] using hnc
  | none =>
    -- a free row gets the holder of the first lock of that row
    obtain ⟨l', hl', hk⟩ : ∃ l', ls.find? (·.rowKey == l.rowKey) = some l' ∧ l'.rowKey = l.rowKey := by
      cases hf : ls.find? (·.rowKey == l.rowKey) with
      | none => simpa using List.find?_eq_none.1 hf l hl
      | some l' => exact ⟨l', rfl, by simpa using List.find?_some hf⟩
    refine ⟨l'.holder, by simp [hl'], ?_⟩
    exact hone l' (List.mem_of_find?_eq_some hl') l hl hk

/-- After a restore, each list it took is settled, and the lists refused are exactly those the
final table refuses. -/
theorem settles_restore (t : LockTable) :
    ∀ L : List (List RowLock), (∀ ls ∈ L, OneXidPerRow ls) →
      (∀ ls ∈ L, (t.restore L).2.Settles ls) ∧
        (t.restore L).1 = (L.filter (·.any (t.restore L).2.conflicts)).length
  | [], _ => ⟨fun _ h => (by cases h), rfl⟩
  | ls :: rest, hone => by
    have hrest := fun t => settles_restore t rest fun ls' h => hone ls' (List.mem_cons_of_mem _ h)
    rw [restore_cons]
    by_cases hc : ls.any t.conflicts = true
    · -- refused: the row another transaction holds stays so
      rw [if_pos hc]
      have hs : (t.restore rest).2.Settles ls := Settles.of_extends (.inl hc) (extends_restore t rest)
      have hc' : ls.any (t.restore rest).2.conflicts = true := by
        obtain ⟨l, hl, h, hown, hx⟩ := any_conflicts_eq_true_iff.1 hc
        exact any_conflicts_eq_true_iff.2 ⟨l, hl, h, extends_restore t rest _ _ hown, hx⟩
      refine ⟨fun ls' h => ?_, ?_⟩
      · rcases List.mem_cons.1 h with rfl | h
        · exact hs
        · exact (hrest t).1 ls' h
      · simp only [List.filter_cons, hc', if_true, List.length_cons, (hrest t).2]
    · -- admitted: each of its rows is held by its own transaction from then on
      rw [if_neg hc]
      have hheld := held_of_foldl_insertIfAbsent (Bool.eq_false_iff.2 hc) (hone ls List.mem_cons_self)
      have hs : ((ls.foldl insertIfAbsent t).restore rest).2.Settles ls :=
        Settles.of_extends (.inr hheld) (extends_restore _ rest)
      have hc' : ls.any ((ls.foldl insertIfAbsent t).restore rest).2.conflicts = false := by
        rw [List.any_eq_false]
        intro l hl hcl
        obtain ⟨h, hown, hx⟩ := hheld l hl
        have hown' := extends_restore _ rest _ _ hown
        simp [conflicts, hown', hx] at hcl
      refine ⟨fun ls' h => ?_, ?_⟩
      · rcases List.mem_cons.1 h with rfl | h
        · exact hs
        · exact (hrest _).1 ls' h
      · simp only [List.filter_cons, hc', Bool.false_eq_true, if_false, (hrest _).2]

/-- Rows all held already change nothing when given holders. -/
theorem foldl_insertIfAbsent_of_held :
    ∀ {ls : List RowLock}, (∀ l ∈ ls, ∃ h, t.owner? l.rowKey = some h) → ls.foldl insertIfAbsent t = t
  | [], _ => rfl
  | l :: ls, hheld => by
    obtain ⟨h, hown⟩ := hheld l List.mem_cons_self
    have hl : t.insertIfAbsent l = t := by simp [insertIfAbsent, hown]
    rw [List.foldl_cons, hl]
    exact foldl_insertIfAbsent_of_held fun l' h' => hheld l' (List.mem_cons_of_mem _ h')

/-- Restoring lists that a table settles changes nothing, and refuses those it refuses. -/
theorem restore_of_settles (t : LockTable) :
    ∀ L : List (List RowLock), (∀ ls ∈ L, t.Settles ls) →
      t.restore L = ((L.filter (·.any t.conflicts)).length, t)
  | [], _ => rfl
  | ls :: rest, hs => by
    have hrest := restore_of_settles t rest fun ls' h => hs ls' (List.mem_cons_of_mem _ h)
    rw [restore_cons]
    by_cases hc : ls.any t.conflicts = true
    · simp only [if_pos hc, hrest, List.filter_cons, List.length_cons]
    · have hheld := (hs ls List.mem_cons_self).resolve_left hc
      rw [if_neg hc, foldl_insertIfAbsent_of_held fun l hl => (hheld l hl).imp fun _ h => h.1,
        hrest]
      simp only [List.filter_cons, Bool.eq_false_iff.2 hc, Bool.false_eq_true, if_false]

/-- Restoring twice is restoring once. -/
theorem restore_restore (t : LockTable) (hone : ∀ ls ∈ L, OneXidPerRow ls) :
    (t.restore L).2.restore L = t.restore L := by
  obtain ⟨hs, hcount⟩ := settles_restore t L hone
  rw [restore_of_settles _ L hs, ← hcount]

end LockTable

/-- The row locks a branch takes; none for a lock key that breaks the grammar. -/
def Branch.rowLocks (b : Branch) : List RowLock := (LockManager.collect b).toOption.getD []

theorem Branch.rowLocks_of_collect {b : Branch} {ls : List RowLock}
    (h : LockManager.collect b = .ok ls) : b.rowLocks = ls := by
  simp [rowLocks, h, Except.toOption]

/-- Every row lock a branch takes is of the branch's transaction. -/
theorem Branch.oneXidPerRow_rowLocks (b : Branch) : LockTable.OneXidPerRow b.rowLocks := by
  unfold rowLocks
  cases hc : LockManager.collect b with
  | error e => exact fun l hl => by cases hl
  | ok ls =>
    -- each lock's holder is the branch's
    have hx : ∀ l ∈ ls, l.xid = b.xid := fun l hl =>
      congrArg LockHolder.xid (LockManager.holder_of_collect hc l hl)
    intro l hl l' hl' _
    simp only [Except.toOption, Option.getD_some] at hl hl'
    rw [hx l hl, hx l' hl']

namespace CoordM

/-- The row locks a recovery asks for, branch by branch: those of each branch of the sessions
found that hold row locks, in the order found and each session's branches in registration
order. -/
def recoveryRows (found : List GlobalSession) : List (List RowLock) :=
  (found.filter (·.status.holdsRowLocks)).flatMap fun g => g.branches.map Branch.rowLocks

theorem recoveryRows_cons (g : GlobalSession) (gs : List GlobalSession) :
    recoveryRows (g :: gs) =
      (if g.status.holdsRowLocks then g.branches.map Branch.rowLocks else []) ++
        recoveryRows gs := by
  unfold recoveryRows
  by_cases hg : g.status.holdsRowLocks = true <;> simp [hg]

theorem recoveryRows_singleton (g : GlobalSession) :
    recoveryRows [g] = if g.status.holdsRowLocks then g.branches.map Branch.rowLocks else [] := by
  by_cases hg : g.status.holdsRowLocks = true <;> simp [recoveryRows, hg]

theorem oneXidPerRow_recoveryRows (found : List GlobalSession) :
    ∀ ls ∈ recoveryRows found, LockTable.OneXidPerRow ls := by
  intro ls hls
  obtain ⟨g, -, hb⟩ := List.mem_flatMap.1 hls
  obtain ⟨b, -, rfl⟩ := List.mem_map.1 hb
  exact b.oneXidPerRow_rowLocks

/-- What a recovery over the stored sessions `t` reports, and the row locks it leaves from `lt`:
every stored session and branch counted, and the rows of the sessions found restored. -/
def recovery (t : SessionTable) (lt : LockTable) : Recovery × LockTable :=
  ({ sessions := t.size, branches := (t.sessions.map (·.branches.length)).sum,
     lockConflicts := (lt.restore (recoveryRows (t.findBy GlobalStatus.all))).1 },
   (lt.restore (recoveryRows (t.findBy GlobalStatus.all))).2)

/-- One branch of a recovery: its rows locked again, or a conflict counted. -/
def recoverBranch (r : Recovery) (b : Branch) : CoordM Recovery := do
  if ← locking (LockManager.acquireBranch lockStore b) then pure r
  else pure { r with lockConflicts := r.lockConflicts + 1 }

/-- One session of a recovery: counted with its branches, whose rows are locked again if its
status holds row locks. -/
def recoverSession (r : Recovery) (s : GlobalSession) : CoordM Recovery := do
  let r := { r with sessions := r.sessions + 1, branches := r.branches + s.branches.length }
  if !s.status.holdsRowLocks then return r
  s.branches.foldlM recoverBranch r

theorem recover_eq :
    recover = (do
      let sessions ← store (sessionStore.findBy GlobalStatus.all)
      sessions.foldlM recoverSession {} : CoordM Recovery) :=
  rfl

/-- The sessions found in any status are the stored ones, in another order. -/
theorem findBy_all_perm (t : SessionTable) : (t.findBy GlobalStatus.all).Perm t.sessions := by
  unfold SessionTable.findBy
  rw [List.filter_eq_self.2 fun g _ => by simpa using GlobalStatus.mem_all g.status]
  exact List.mergeSort_perm _ _

variable {env : Env} {t : SessionTable} {lt : LockTable}

/-- Finding sessions by status on quiet stores reads the table. -/
theorem run_findBy (h : env.Quiet t lt) (ss : List GlobalStatus) :
    Steps.run (store (sessionStore.findBy ss)).run env = (.ok (t.findBy ss), env) := by
  simp only [store, storeWith, sessionStore, Steps.run_exceptT_adapt, run_envAtomic,
    Env.sessionStore, Env.sessionsKept]
  rw [h.run_sessionRead]
  show ((Except.ok (t.findBy ss) : Except StoreError _).mapError CoordError.store,
    { env with sessions := .table t }) = _
  rw [h.with_sessions]
  rfl

/-- A branch of a recovery on quiet stores restores its rows. -/
theorem run_recoverBranch (h : env.Quiet t lt) (r : Recovery) {b : Branch} {ls : List RowLock}
    (hls : LockManager.collect b = .ok ls) :
    Steps.run (recoverBranch r b).run env =
      (.ok { r with lockConflicts := r.lockConflicts + (lt.restore [ls]).1 },
        { env with locks := .table (lt.restore [ls]).2 }) := by
  unfold recoverBranch
  rw [Steps.run_exceptT_bind, locking, Steps.run_exceptT_adapt, run_acquireBranch h.at, hls]
  by_cases hc : ls.any lt.conflicts
  · simp [LockTable.acquire, LockTable.restore, hc, Except.mapError]
  · simp [LockTable.acquire, LockTable.restore, hc, Except.mapError]

/-- The branches of a recovery, in turn, restore their rows.  By induction on the branches, the
lock table growing as they go. -/
theorem run_foldlM_recoverBranch :
    ∀ (bs : List Branch) {env : Env} {lt : LockTable} (r : Recovery), env.Quiet t lt →
      (∀ b ∈ bs, ∃ ls, LockManager.collect b = .ok ls) →
      Steps.run (bs.foldlM recoverBranch r).run env =
        (.ok { r with lockConflicts := r.lockConflicts + (lt.restore (bs.map Branch.rowLocks)).1 },
          { env with locks := .table (lt.restore (bs.map Branch.rowLocks)).2 })
  | [], env, lt, r, h, _ => by
    rw [List.foldlM_nil, Steps.run_exceptT_pure, List.map_nil, LockTable.restore,
      Nat.add_zero, Env.with_locks_self h.locks]
  | b :: bs, env, lt, r, h, hkeys => by
    obtain ⟨ls, hls⟩ := hkeys b List.mem_cons_self
    have h₁ : ({ env with locks := .table (lt.restore [ls]).2 } : Env).Quiet t (lt.restore [ls]).2 :=
      ⟨h.sessions, rfl, h.faults⟩
    rw [List.foldlM_cons, Steps.run_bind_ok (run_recoverBranch h r hls),
      run_foldlM_recoverBranch bs _ h₁ fun b' hb' => hkeys b' (List.mem_cons_of_mem _ hb'),
      List.map_cons, Branch.rowLocks_of_collect hls,
      show ls :: bs.map Branch.rowLocks = [ls] ++ bs.map Branch.rowLocks from rfl,
      LockTable.restore_append, Nat.add_assoc]

/-- A session of a recovery on quiet stores is counted with its branches, and restores the
rows of its branches if its status holds row locks. -/
theorem run_recoverSession (h : env.Quiet t lt) (r : Recovery) {g : GlobalSession}
    (hkeys : ∀ b ∈ g.branches, ∃ ls, LockManager.collect b = .ok ls) :
    Steps.run (recoverSession r g).run env =
      (.ok { sessions := r.sessions + 1, branches := r.branches + g.branches.length,
             lockConflicts := r.lockConflicts + (lt.restore (recoveryRows [g])).1 },
        { env with locks := .table (lt.restore (recoveryRows [g])).2 }) := by
  unfold recoverSession
  rw [recoveryRows_singleton]
  by_cases hg : g.status.holdsRowLocks = true
  · simp only [hg, Bool.not_true, Bool.false_eq_true, if_false, if_true]
    exact run_foldlM_recoverBranch g.branches _ h hkeys
  · have hg' : g.status.holdsRowLocks = false := Bool.eq_false_iff.2 hg
    simp only [hg', Bool.not_false, if_true, Bool.false_eq_true, if_false, LockTable.restore,
      Nat.add_zero, Steps.run_exceptT_pure, Env.with_locks_self h.locks]

/-- The sessions of a recovery, in turn, are counted and restore the rows of their branches.
By induction on the sessions. -/
theorem run_foldlM_recoverSession :
    ∀ (gs : List GlobalSession) {env : Env} {lt : LockTable} (r : Recovery), env.Quiet t lt →
      (∀ g ∈ gs, ∀ b ∈ g.branches, ∃ ls, LockManager.collect b = .ok ls) →
      Steps.run (gs.foldlM recoverSession r).run env =
        (.ok { sessions := r.sessions + gs.length,
               branches := r.branches + (gs.map (·.branches.length)).sum,
               lockConflicts := r.lockConflicts + (lt.restore (recoveryRows gs)).1 },
          { env with locks := .table (lt.restore (recoveryRows gs)).2 })
  | [], env, lt, r, h, _ => by
    simp only [List.foldlM_nil, Steps.run_exceptT_pure, recoveryRows, List.filter_nil,
      List.flatMap_nil, LockTable.restore, List.length_nil, List.map_nil, List.sum_nil, Nat.add_zero,
      Env.with_locks_self h.locks]
  | g :: gs, env, lt, r, h, hkeys => by
    have h₁ : ({ env with locks := .table (lt.restore (recoveryRows [g])).2 } : Env).Quiet t
        (lt.restore (recoveryRows [g])).2 :=
      ⟨h.sessions, rfl, h.faults⟩
    rw [List.foldlM_cons, Steps.run_bind_ok (run_recoverSession h r (hkeys g List.mem_cons_self)),
      run_foldlM_recoverSession gs _ h₁ fun g' hg' => hkeys g' (List.mem_cons_of_mem _ hg'),
      show recoveryRows (g :: gs) = recoveryRows [g] ++ recoveryRows gs by
        rw [recoveryRows_cons, recoveryRows_singleton],
      LockTable.restore_append]
    simp only [List.length_cons, List.map_cons, List.sum_cons, Prod.mk.injEq, Except.ok.injEq,
      Recovery.mk.injEq, and_true]
    omega

/-- A recovery run alone on quiet stores, where every stored branch that takes row locks has a
lock key that parses: it reports every stored session and branch, and the conflicts of
restoring, oldest session first and branches in registration order, the rows of the sessions
whose status holds row locks; it changes the row locks only. -/
theorem run_recover (h : env.Quiet t lt)
    (hkeys : ∀ g ∈ t.sessions, ∀ b ∈ g.branches, ∃ ls, LockManager.collect b = .ok ls) :
    Steps.run recover.run env =
      (.ok (recovery t lt).1, { env with locks := .table (recovery t lt).2 }) := by
  have hperm := findBy_all_perm t
  rw [recover_eq, Steps.run_bind_ok (run_findBy h _),
    run_foldlM_recoverSession _ _ h fun g hg => hkeys g (hperm.subset hg)]
  simp only [recovery, SessionTable.size, Nat.zero_add, hperm.length_eq,
    (hperm.map (·.branches.length)).sum_eq]

/-- Recovery is idempotent.  Run alone on quiet stores whose every stored branch that takes row
locks has a lock key that parses, a recovery leaves the session store as it was, reports every
stored session and branch, and restores, all or none per branch, oldest session first and
branches in registration order, the rows of the sessions whose status holds row locks,
counting the branches refused for a row another transaction holds; a second recovery then
leaves everything as it is and reports the same counts. -/
theorem recover_is_idempotent (h : env.Quiet t lt)
    (hkeys : ∀ g ∈ t.sessions, ∀ b ∈ g.branches, ∃ ls, LockManager.collect b = .ok ls) :
    Steps.run recover.run env =
        (.ok (recovery t lt).1, { env with locks := .table (recovery t lt).2 }) ∧
      Steps.run recover.run { env with locks := .table (recovery t lt).2 } =
        (.ok (recovery t lt).1, { env with locks := .table (recovery t lt).2 }) := by
  have h' : ({ env with locks := .table (recovery t lt).2 } : Env).Quiet t (recovery t lt).2 :=
    ⟨h.sessions, rfl, h.faults⟩
  -- the second recovery restores over the table the first one left, which settles every branch
  have hfixed : (recovery t (recovery t lt).2) = recovery t lt := by
    unfold recovery
    rw [LockTable.restore_restore _ (oneXidPerRow_recoveryRows _)]
  refine ⟨run_recover h hkeys, ?_⟩
  rw [run_recover h' hkeys, hfixed]

/-- Two sessions name row `t:1`: the older one, committing, gets it, and the branch of the
rollback begun later is refused for it, also its row `t:2`. -/
example :
    let b₁ : Branch := ⟨"x1", 1, 2, "g", "db", "c", .at, .phaseOneDone, "t:1", "", 0⟩
    let b₂ : Branch := ⟨"x2", 3, 4, "g", "db", "c", .at, .phaseOneDone, "t:1,2", "", 5⟩
    let s₁ : GlobalSession := ⟨"x1", 1, "app", "g", "tx", .committing, ⟨0⟩, 0, 0, "", [b₁]⟩
    let s₂ : GlobalSession := ⟨"x2", 3, "app", "g", "tx", .rollbacking, ⟨0⟩, 5, 5, "", [b₂]⟩
    recovery ⟨[s₂, s₁]⟩ {} = (⟨2, 2, 1⟩, ⟨[("db^^^t^^^1", ⟨"x1", 1, 2⟩)]⟩) := by
  cbv

/-- The two sessions of the example above, recovered twice. -/
theorem recover_is_idempotent_of_conflict :
    let b₁ : Branch := ⟨"x1", 1, 2, "g", "db", "c", .at, .phaseOneDone, "t:1", "", 0⟩
    let b₂ : Branch := ⟨"x2", 3, 4, "g", "db", "c", .at, .phaseOneDone, "t:1,2", "", 5⟩
    let s₁ : GlobalSession := ⟨"x1", 1, "app", "g", "tx", .committing, ⟨0⟩, 0, 0, "", [b₁]⟩
    let s₂ : GlobalSession := ⟨"x2", 3, "app", "g", "tx", .rollbacking, ⟨0⟩, 5, 5, "", [b₂]⟩
    let t : SessionTable := ⟨[s₂, s₁]⟩
    let env : Env := { clock := ⟨0⟩, ids := ⟨0, 5⟩, sessions := .table t }
    env.Quiet t {} ∧ (∀ g ∈ t.sessions, ∀ b ∈ g.branches, ∃ ls, LockManager.collect b = .ok ls) ∧
      (Steps.run recover.run env =
          (.ok (recovery t {}).1, { env with locks := .table (recovery t {}).2 }) ∧
        Steps.run recover.run { env with locks := .table (recovery t {}).2 } =
          (.ok (recovery t {}).1, { env with locks := .table (recovery t {}).2 })) := by
  intro b₁ b₂ s₁ s₂ t env
  have hq : env.Quiet t {} := ⟨rfl, rfl, rfl⟩
  have hkeys : ∀ g ∈ t.sessions, ∀ b ∈ g.branches, ∃ ls, LockManager.collect b = .ok ls := by
    have hrows : ∀ g ∈ t.sessions, ∀ b ∈ g.branches, LockManager.collect b = .ok b.rowLocks := by
      decide
    exact fun g hg b hb => ⟨_, hrows g hg b hb⟩
  exact ⟨hq, hkeys, recover_is_idempotent hq hkeys⟩

end CoordM

end GlobalTxn
