import GlobalTxn.Proofs.HeldRowsOps

/-! # No row lock outlives its branch

Along every run from empty stores, every held row is justified by the session store: the stored
session of its holder's transaction keeps row locks, and a branch of it with the holder's
branch id holds row locks and locks that row (`Env.RowsJustified`).  So a session store with no
session goes with an empty lock table.  This holds whatever participants reply, however the
clock moves and whichever session-store calls fail.

The proof carries `Env.Accounted` along the run, one event at a time (`Env.accounted_apply`):
an operation keeps it, run alone with its waits ending at once (`CoordM.wp_program` and
`Steps.Wp.run`), and the other events change neither the stores nor the lock faults.

## Key results

- `held_rows_justified_by_stored_sessions`: every held row is justified after every run.
- `Env.accounted_runEvents`: every run keeps the held rows accounted for.
-/

namespace GlobalTxn

namespace LockManager

/-- A branch locks rows only if it holds row locks. -/
theorem holdsRowLocks_of_mem_collect {b : Branch} {ls : List RowLock}
    (hls : collect b = .ok ls) {l : RowLock} (hl : l ∈ ls) : b.holdsRowLocks = true := by
  unfold collect at hls
  split at hls
  · assumption
  · cases hls
    cases hl

end LockManager

namespace Env

variable {env : Env}

/-- Every held row is justified by the session store: the stored session of the holder's
transaction keeps row locks, and one of its branches, with the holder's branch id, holds row
locks and has a row lock on that row. -/
def RowsJustified (env : Env) : Prop :=
  ∀ p ∈ env.lockRows, ∃ g, env.stored p.2.xid = some g ∧ g.status.holdsRowLocks = true ∧
    ∃ b ∈ g.branches, b.branchId = p.2.branchId ∧ b.branchType.holdsRowLocks = true ∧
      ∃ ls, LockManager.collect b = .ok ls ∧ ∃ l ∈ ls, l.rowKey = p.1

theorem Accounted.rowsJustified (h : env.Accounted) : env.RowsJustified := by
  obtain ⟨t, lt, hat, hacc⟩ := h
  intro p hp
  rw [hat.lockRows] at hp
  obtain ⟨g, hg, b, hb, -, hid, ls, hls, l, hl, hkey⟩ := hacc.named p hp
  -- a branch with a row lock holds row locks
  have hhold := LockManager.holdsRowLocks_of_mem_collect hls hl
  simp only [Branch.holdsRowLocks, Bool.and_eq_true] at hhold
  refine ⟨g, ?_, hacc.holding p hp g hg, b, hb, hid, hhold.1, ls, hls, l, hl, hkey⟩
  rw [hat.stored]
  exact hg

/-- With no session stored, no row is held. -/
theorem RowsJustified.lockRows_eq_nil (h : env.RowsJustified)
    (hnone : ∀ x, env.stored x = none) : env.lockRows = [] := by
  cases hrows : env.lockRows with
  | nil => rfl
  | cons p ps =>
    obtain ⟨g, hg, -⟩ := h p (hrows ▸ List.mem_cons_self)
    rw [hnone] at hg
    cases hg

theorem Fresh.accounted (h : env.Fresh) : env.Accounted :=
  ⟨{}, {}, ⟨h.sessions, h.locks, by rw [h.faults], by rw [h.faults]⟩,
    SessionTable.accounts_empty⟩

/-- One event keeps the held rows accounted for. -/
theorem accounted_apply (c : Config) (e : Event) (h : env.Accounted) :
    (e.apply c env).Accounted := by
  cases e with
  | op o =>
    -- the operation runs alone, its waits ending at once, and ends failed or not
    exact match (Steps.run (o.program c).run env).1,
        Steps.Wp.run onlyFrees_refl (CoordM.wp_program c o h) with
      | .ok _, h' => h'
      | .error _, h' => h'
  | script _ _ | advance _ | failWrites _ | failReads _ =>
    -- participants, the clock and session-store faults change: the tables stay
    obtain ⟨t, lt, hat, hacc⟩ := h
    exact ⟨t, lt, ⟨hat.sessions, hat.locks, hat.acquires, hat.releases⟩, hacc⟩

/-- Every run keeps the held rows accounted for.  By induction on the events. -/
theorem accounted_runEvents (c : Config) :
    ∀ (events : List Event) {env : Env}, env.Accounted → (runEvents c events env).Accounted
  | [], _, h => h
  | e :: events, _, h => accounted_runEvents c events (accounted_apply c e h)

end Env

/-- After every run from empty stores, every held row is justified by the session store: the
stored session of its holder's transaction keeps row locks, and a branch of it with the
holder's branch id holds row locks and has a row lock on that row.  With no session stored, no
row is held. -/
theorem held_rows_justified_by_stored_sessions (c : Config) (events : List Event) {start : Env}
    (hstart : start.Fresh) :
    (runEvents c events start).RowsJustified ∧
      ((∀ x, (runEvents c events start).stored x = none) →
        (runEvents c events start).lockRows = []) := by
  have hjust := (Env.accounted_runEvents c events hstart.accounted).rowsJustified
  exact ⟨hjust, hjust.lockRows_eq_nil⟩

/-- A branch registered on row `t:1`, whose session then fails to commit to a silent
participant. -/
theorem held_rows_justified_by_stored_sessions_after_retry :
    ({ clock := ⟨0⟩, ids := ⟨1, 0⟩ } : Env).Fresh ∧
      (runEvents {} [.op (.begin "app" "group" "tx" 60000),
        .op (.register .at "db" "cli" (formatXid ({} : Config).address 1) "" "t:1"),
        .script 2 [.hang], .op (.commit (formatXid ({} : Config).address 1))]
        { clock := ⟨0⟩, ids := ⟨1, 0⟩ }).RowsJustified ∧
      ((∀ x, (runEvents {} [.op (.begin "app" "group" "tx" 60000),
        .op (.register .at "db" "cli" (formatXid ({} : Config).address 1) "" "t:1"),
        .script 2 [.hang], .op (.commit (formatXid ({} : Config).address 1))]
        { clock := ⟨0⟩, ids := ⟨1, 0⟩ }).stored x = none) →
        (runEvents {} [.op (.begin "app" "group" "tx" 60000),
          .op (.register .at "db" "cli" (formatXid ({} : Config).address 1) "" "t:1"),
          .script 2 [.hang], .op (.commit (formatXid ({} : Config).address 1))]
          { clock := ⟨0⟩, ids := ⟨1, 0⟩ }).lockRows = []) :=
  ⟨⟨rfl, rfl, rfl, rfl⟩, held_rows_justified_by_stored_sessions {} _ ⟨rfl, rfl, rfl, rfl⟩⟩

end GlobalTxn
