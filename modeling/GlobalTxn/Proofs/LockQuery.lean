import GlobalTxn.Proofs.LockKeyGrammar
import GlobalTxn.Proofs.DriveOrder

/-! # Asking for row locks agrees with taking them

A participant may ask whether the rows of a lock key are free or held by its own transaction
(`CoordM.lockQuery`) before it registers a branch with that key (`CoordM.register`).  The two
go different ways: the query reads the key with a placeholder branch and asks the holder of
each row in turn, while a registration builds the branch, skips keys that name no rows, and
hands all rows to the lock store at once.  Both come down to one question, whether some row
the key names is held by another transaction (`LockTable.conflicts`), asked of the rows the key
names (`RowLock.expand_eq`), and a row's key and the transaction it is asked for do not depend
on the branch asking.

Main statement: `CoordM.lockQuery_agrees_with_register`.
-/

namespace GlobalTxn

open Steps

namespace LockTable

/-- Whether a row named by a key conflicts depends on the owner's transaction and resource
only. -/
theorem conflicts_ofRow {o o' : LockOwner} (hx : o.xid = o'.xid) (hr : o.resourceId = o'.resourceId)
    (lt : LockTable) (r : String × String) :
    lt.conflicts (RowLock.ofRow o r) = lt.conflicts (RowLock.ofRow o' r) := by
  simp [conflicts, RowLock.ofRow, RowLock.ofOwner, RowLock.rowKey, hx, hr]

end LockTable

namespace LockManager

/-- A branch of a type that holds row locks takes the rows its key names: a key that names none
gives none either way. -/
theorem collect_of_holdsRowLocks {b : Branch} (h : b.branchType.holdsRowLocks = true) :
    collect b = RowLock.expand ⟨b.xid, b.transactionId, b.branchId, b.resourceId⟩ b.lockKey := by
  unfold collect
  by_cases hk : b.lockKey.isEmpty = true
  · -- an empty key has one empty segment, left out
    have hkey : b.lockKey = "" := String.isEmpty_iff.1 hk
    simp only [Branch.holdsRowLocks, h, hk, Bool.not_true, Bool.and_false, Bool.false_eq_true,
      if_false]
    rw [hkey]
    rfl
  · simp [Branch.holdsRowLocks, h, hk]

end LockManager

namespace Env

variable {env : Env} {t : SessionTable} {lt : LockTable}

/-- Asking who holds a row changes no row lock, whatever the store and its failures. -/
theorem locks_lockStore_owner? (env : Env) (key : String) :
    ((lockStore.owner? key).run env).2.locks = env.locks := by
  obtain ⟨_, _, _, locks, _, ⟨_, _, _, _, q⟩, _, _, _, _⟩ := env
  cases locks <;> cases q <;> rfl

end Env

namespace CoordM

variable {env : Env} {t : SessionTable} {lt : LockTable}

theorem run_lockStore_owner? (key : String) (env : Env) :
    Steps.run (lockStore.owner? key).run env = (Env.lockStore.owner? key).run env := rfl

/-- Whether a row is held by another transaction than `xid`. -/
def heldByOther (lt : LockTable) (xid : String) (l : RowLock) : Bool :=
  match lt.owner? l.rowKey with
  | some h => h.xid != xid
  | none => false

/-- On quiet stores, asking for rows in turn answers whether none is held by another
transaction, and changes nothing: by induction on the rows. -/
theorem run_isLockable_go (h : env.Quiet t lt) (xid : String) :
    ∀ ls : List RowLock, Steps.run (LockManager.isLockable.go lockStore xid ls).run env =
      (.ok (!ls.any (heldByOther lt xid)), env)
  | [] => rfl
  | l :: ls => by
    unfold LockManager.isLockable.go
    rw [Steps.run_exceptT_bind, run_lockStore_owner?, h.run_lockStore_owner?_eq]
    dsimp only
    cases hown : lt.owner? l.rowKey with
    | none =>
      dsimp only
      rw [run_isLockable_go h xid ls]
      simp [heldByOther, hown]
    | some hd =>
      dsimp only
      by_cases hx : (hd.xid != xid) = true
      · rw [if_pos hx]
        simp [heldByOther, hown, hx]
      · rw [if_neg hx, run_isLockable_go h xid ls]
        simp [heldByOther, hown, hx]

/-- Asking for rows in turn changes no row lock, whatever the store and its failures: by
induction on the rows. -/
theorem locks_isLockable_go (xid : String) :
    ∀ (ls : List RowLock) (env : Env),
      (Steps.run (LockManager.isLockable.go lockStore xid ls).run env).2.locks = env.locks
  | [], _ => rfl
  | l :: ls, env => by
    unfold LockManager.isLockable.go
    rw [Steps.run_exceptT_bind, run_lockStore_owner?]
    have hkeep := Env.locks_lockStore_owner? env l.rowKey
    revert hkeep
    rcases (Env.lockStore.owner? l.rowKey).run env with ⟨_ | owner, env₁⟩
    · exact id
    · intro hkeep
      dsimp only
      split
      · split
        · exact hkeep
        · rw [locks_isLockable_go xid ls env₁, hkeep]
      · rw [locks_isLockable_go xid ls env₁, hkeep]

/-- Asking whether the rows of a key are lockable changes no row lock, whatever the store and
its failures. -/
theorem locks_isLockable (x res key : String) (env : Env) :
    (Steps.run (LockManager.isLockable lockStore x res key).run env).2.locks = env.locks := by
  unfold LockManager.isLockable
  rw [Steps.run_exceptT_bind]
  cases RowLock.expand ⟨x, 0, 0, res⟩ key with
  | error e => rfl
  | ok ls => exact locks_isLockable_go x ls env

/-- A lock query changes no row lock, whatever the store and its failures. -/
theorem locks_lockQuery (bt : BranchType) (res x key : String) (env : Env) :
    (Steps.run (lockQuery bt res x key).run env).2.locks = env.locks := by
  unfold lockQuery
  dsimp only
  by_cases hb : bt.holdsRowLocks = true
  · rw [if_pos hb, locking, Steps.run_exceptT_adapt]
    exact locks_isLockable x res key env
  · rw [if_neg hb]
    rfl

/-- On quiet stores, a query for a branch type that holds row locks reads the key, failing as
a bad argument where it breaks the grammar, and answers whether no row it names is held by
another transaction; it changes nothing. -/
theorem run_lockQuery (h : env.Quiet t lt) (res x key : String) :
    Steps.run (lockQuery .at res x key).run env =
      (match RowLock.expand ⟨x, 0, 0, res⟩ key with
        | .error e => .error (CoordError.ofLock e)
        | .ok ls => .ok (!ls.any lt.conflicts), env) := by
  have hat : BranchType.at.holdsRowLocks = true := rfl
  unfold lockQuery
  dsimp only
  rw [if_pos hat, locking, Steps.run_exceptT_adapt]
  unfold LockManager.isLockable
  rw [Steps.run_exceptT_bind]
  cases hls : RowLock.expand ⟨x, 0, 0, res⟩ key with
  | error e => rfl
  | ok ls =>
    -- every row is asked for `x`, the transaction the query names
    have hsame : ∀ l ∈ ls, heldByOther lt x l = lt.conflicts l := by
      intro l hl
      have hlx : l.xid = x := (RowLock.ownedBy_expand hls l hl).1
      unfold heldByOther LockTable.conflicts
      cases lt.owner? l.rowKey with
      | none => rfl
      | some hd => exact congrArg (hd.xid != ·) hlx.symm
    have hheld : ls.any (heldByOther lt x) = ls.any lt.conflicts := by
      refine Bool.eq_iff_iff.2 ?_
      simp only [List.any_eq_true]
      constructor
      · rintro ⟨l, hl, he⟩
        exact ⟨l, hl, hsame l hl ▸ he⟩
      · rintro ⟨l, hl, he⟩
        exact ⟨l, hl, (hsame l hl).symm ▸ he⟩
    show ((Steps.run (LockManager.isLockable.go lockStore x ls).run env).1.mapError _,
      (Steps.run (LockManager.isLockable.go lockStore x ls).run env).2) = _
    rw [run_isLockable_go h x ls, hheld]
    rfl

/-- On quiet stores, a registration of a branch of a type that holds row locks into a session in
`begin` fails as a bad argument where the key breaks the grammar, fails with a lock conflict
where a row it names is held by another transaction, and otherwise answers the id it drew. -/
theorem run_register_of_begin (h : env.Quiet t lt) {x : String} {g : GlobalSession}
    (hg : t.find? x = some g) (hbegin : g.status = .begin) {bt : BranchType}
    (hbt : bt.holdsRowLocks = true) (res cli data key : String) :
    (Steps.run (register bt res cli x data key).run env).1 =
      match RowLock.expand ⟨x, g.transactionId, env.ids.next.1, res⟩ key with
      | .error e => .error (CoordError.ofLock e)
      | .ok ls => if ls.any lt.conflicts then .error (.lockConflict x key) else .ok env.ids.next.1 := by
  have hx : g.xid = x := (SessionTable.find?_eq_some hg).2
  unfold register
  rw [Steps.run_exceptT_bind, run_load h.sessions, if_neg h.no_failed_reads,
    hg]
  dsimp only
  rw [hbegin]
  dsimp only
  rw [Steps.run_bind_ok (run_nextId env), Steps.run_bind_ok (run_now _)]
  dsimp only
  generalize hb : (⟨g.xid, g.transactionId, env.ids.next.1, g.transactionServiceGroup, res, cli,
    bt, .registered, key, data, env.clock.now⟩ : Branch) = b
  have hcollect : LockManager.collect b =
      RowLock.expand ⟨x, g.transactionId, env.ids.next.1, res⟩ key := by
    rw [LockManager.collect_of_holdsRowLocks (hb ▸ hbt), ← hb, hx]
  have h₁ : ({ env with ids := env.ids.next.2 } : Env).Quiet t lt :=
    ⟨h.sessions, h.locks, h.faults⟩
  rw [Steps.run_exceptT_bind, locking, Steps.run_exceptT_adapt, run_acquireBranch h₁.at, hcollect]
  cases RowLock.expand ⟨x, g.transactionId, env.ids.next.1, res⟩ key with
  | error e => rfl
  | ok ls =>
    dsimp only [Except.mapError]
    by_cases hc : ls.any lt.conflicts = true
    · -- a row is held by another transaction: the acquisition refuses
      have hacq : (lt.acquire ls).1 = false := by simp [LockTable.acquire, hc]
      rw [hacq, if_pos hc]
      rfl
    · -- every row is free or the transaction's own: the store takes the branch
      have hacq : (lt.acquire ls).1 = true := by simp [LockTable.acquire, hc]
      have h₂ : ({ env with ids := env.ids.next.2, locks := .table (lt.acquire ls).2 } :
          Env).Quiet t (lt.acquire ls).2 := ⟨h.sessions, rfl, h.faults⟩
      have hadd : t.addBranch b = .ok (t.put (g.addBranch b)) := by
        have hgb : t.find? b.xid = some g := by
          rw [← hb]
          exact SessionTable.find?_self hg
        simp [SessionTable.addBranch, hgb, hbegin]
      rw [hacq, if_pos rfl, if_neg hc, Steps.run_exceptT_bind,
        run_storeResult_addBranch h₂.sessions, if_neg (by rw [h.faults]; exact Nat.lt_irrefl 0)]
      rw [hadd]
      rfl

/-- On stores that do not fail, with the session of `x` in `begin`, a lock query for a branch
that holds row locks answers as a registration with the same resource and key would end, for
any client and data: `true` exactly when the registration succeeds, `false` exactly when it
meets a lock conflict, and a bad argument exactly when it fails as one, on a key that breaks
the grammar.  The query changes nothing there; and neither it nor the lockability check it
makes changes a row lock, whatever the store and its failures. -/
theorem lockQuery_agrees_with_register (h : env.Quiet t lt) {x : String} {g : GlobalSession}
    (hg : t.find? x = some g) (hbegin : g.status = .begin) (res cli data key : String) :
    let query := Steps.run (lockQuery .at res x key).run env
    let registered := (Steps.run (register .at res cli x data key).run env).1
    (query.1 = .ok true ↔ ∃ id, registered = .ok id) ∧
      (query.1 = .ok false ↔ registered = .error (.lockConflict x key)) ∧
      (∀ m, query.1 = .error (.invalidArgument m) ↔ registered = .error (.invalidArgument m)) ∧
      query.2 = env ∧
      ∀ env' : Env, (Steps.run (LockManager.isLockable lockStore x res key).run env').2.locks =
          env'.locks ∧
        ∀ bt, (Steps.run (lockQuery bt res x key).run env').2.locks = env'.locks := by
  intro query registered
  have hq : query = _ := run_lockQuery h res x key
  have hr : registered = _ := run_register_of_begin h hg hbegin rfl res cli data key
  -- the placeholder owner of the query and the registered branch ask the same rows
  have hsame : ∀ rs : List (String × String),
      (rs.map (RowLock.ofRow ⟨x, 0, 0, res⟩)).any lt.conflicts =
        (rs.map (RowLock.ofRow ⟨x, g.transactionId, env.ids.next.1, res⟩)).any lt.conflicts := by
    intro rs
    simp only [List.any_map, Function.comp_def,
      @LockTable.conflicts_ofRow ⟨x, 0, 0, res⟩ ⟨x, g.transactionId, env.ids.next.1, res⟩ rfl rfl lt]
  have hkeep : query.2 = env := by rw [hq]
  suffices hres : (query.1 = .ok true ↔ ∃ id, registered = .ok id) ∧
      (query.1 = .ok false ↔ registered = .error (.lockConflict x key)) ∧
      (∀ m, query.1 = .error (.invalidArgument m) ↔ registered = .error (.invalidArgument m)) from
    ⟨hres.1, hres.2.1, hres.2.2, hkeep, fun env' => ⟨locks_isLockable x res key env',
      fun bt => locks_lockQuery bt res x key env'⟩⟩
  cases hp : (LockKey.segments key).findSome? LockKey.problem? with
  | some p =>
    -- a key that breaks the grammar: both fail, as the same bad argument
    have hq' : query.1 = .error (CoordError.ofLock (.invalidKey key p)) := by
      rw [hq, RowLock.expand_eq, hp]
    have hr' : registered = .error (CoordError.ofLock (.invalidKey key p)) := by
      rw [hr, RowLock.expand_eq, hp]
    rw [hq', hr']
    simp [CoordError.ofLock]
  | none =>
    -- a key read by the grammar: both ask whether a row it names is held by another
    -- transaction
    have hq' : query.1 =
        .ok (!((LockKey.namedRows key).map (RowLock.ofRow ⟨x, 0, 0, res⟩)).any lt.conflicts) := by
      rw [hq, RowLock.expand_eq, hp]
    have hr' : registered =
        if ((LockKey.namedRows key).map (RowLock.ofRow ⟨x, 0, 0, res⟩)).any lt.conflicts then
          .error (.lockConflict x key)
        else .ok env.ids.next.1 := by
      rw [hr, RowLock.expand_eq, hp, hsame]
    rw [hq', hr']
    cases ((LockKey.namedRows key).map (RowLock.ofRow ⟨x, 0, 0, res⟩)).any lt.conflicts <;> simp

/-- A query and a registration on row `t:1` of resource `db`, held by another transaction. -/
theorem lockQuery_agrees_with_register_on_held_row :
    let g : GlobalSession := ⟨"x", 1, "app", "g", "tx", .begin, ⟨0⟩, 0, 0, "", []⟩
    let lt : LockTable := ⟨[("db^^^t^^^1", ⟨"y", 2, 3⟩)]⟩
    let env : Env := { clock := ⟨0⟩, ids := ⟨0, 1⟩, sessions := .table ⟨[g]⟩, locks := .table lt }
    env.Quiet ⟨[g]⟩ lt ∧ (⟨[g]⟩ : SessionTable).find? "x" = some g ∧ g.status = .begin ∧
      let query := Steps.run (lockQuery .at "db" "x" "t:1").run env
      let registered := (Steps.run (register .at "db" "cli" "x" "" "t:1").run env).1
      (query.1 = .ok true ↔ ∃ id, registered = .ok id) ∧
        (query.1 = .ok false ↔ registered = .error (.lockConflict "x" "t:1")) ∧
        (∀ m, query.1 = .error (.invalidArgument m) ↔ registered = .error (.invalidArgument m)) ∧
        query.2 = env ∧
        ∀ env' : Env,
          (Steps.run (LockManager.isLockable lockStore "x" "db" "t:1").run env').2.locks =
            env'.locks ∧
          ∀ bt, (Steps.run (lockQuery bt "db" "x" "t:1").run env').2.locks = env'.locks := by
  intro g lt env
  have hq : env.Quiet ⟨[g]⟩ lt := ⟨rfl, rfl, rfl⟩
  have hg : (⟨[g]⟩ : SessionTable).find? "x" = some g := by decide
  exact ⟨hq, hg, rfl, lockQuery_agrees_with_register hq hg rfl "db" "cli" "" "t:1"⟩

end CoordM

end GlobalTxn
