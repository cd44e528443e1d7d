import GlobalTxn.Proofs.LockCoverageOps

/-! # Stored sessions keep their rows locked along every run

Along every run from empty stores with no store failure, of a coordinator that never commits
asynchronously nor gives a rollback up unlocked, and where no two registrations of one
transaction name a common row, every row a branch of a stored session names is held for the
session's transaction, no row is named by two transactions that keep row locks, and a
coordinator restarted over the session store with an empty lock table recovers without a lock
conflict (`stored_rows_stay_locked`).

The proof carries `Env.Covered` along the run, one event at a time, with the rows the
registrations asked for so far (`Env.Covered.apply`, `Env.Covered.runEvents`).

Where two registrations of one transaction name a row, the coverage fails: the row keeps its
first holder, and finishing that branch frees the row the other still names
(`commit_frees_row_named_by_pending_branch`).
-/

namespace GlobalTxn

namespace Env

variable {A : List (String × String)} {env : Env}

theorem Fresh.covered (h : env.Fresh) : env.Covered [] :=
  ⟨{}, {}, ⟨h.sessions, h.locks, h.faults⟩, SessionTable.covers_empty []⟩

/-- One event that injects no store failure keeps the stores covered, counting the rows it asks
for, when its transaction did not ask for them before. -/
theorem Covered.apply (c : Config) (hasync : c.asyncCommit = false)
    (hunlock : c.rollbackRetryTimeoutUnlock = false) (e : Event) (he : e.injectsFailure = false)
    (h : env.Covered A) (hfresh : ∀ p ∈ e.asks, p ∉ A) : (e.apply c env).Covered (A ++ e.asks) := by
  cases e with
  | op o => exact h.apply_op c hasync hunlock o hfresh
  | script _ _ | advance _ =>
    -- participants and the clock change: the stores and their faults stay
    obtain ⟨t, lt, hq, hcov⟩ := h
    simp only [Event.asks, List.append_nil]
    exact ⟨t, lt, ⟨hq.sessions, hq.locks, hq.faults⟩, hcov⟩
  | failWrites _ | failReads _ => cases he

/-- Every run that injects no store failure, and asks for no row twice, keeps the stores covered.
By induction on the events, the rows asked for growing with each registration. -/
theorem Covered.runEvents (c : Config) (hasync : c.asyncCommit = false)
    (hunlock : c.rollbackRetryTimeoutUnlock = false) :
    ∀ (events : List Event) {A : List (String × String)} {env : Env}, env.Covered A →
      (∀ e ∈ events, e.injectsFailure = false) → (A ++ events.flatMap Event.asks).Nodup →
      (GlobalTxn.runEvents c events env).Covered (A ++ events.flatMap Event.asks)
  | [], _, _, h, _, _ => by simpa using h
  | e :: events, A, _, h, hquiet, hnodup => by
    rw [List.flatMap_cons, ← List.append_assoc] at hnodup ⊢
    -- the rows `e` asks for were not asked for before
    have hfresh : ∀ p ∈ e.asks, p ∉ A := fun p hp hpA =>
      List.disjoint_of_nodup_append (List.Nodup.of_append_left hnodup) hpA hp
    exact Covered.runEvents c hasync hunlock events
      (h.apply c hasync hunlock e (hquiet e List.mem_cons_self) hfresh)
      (fun e' he' => hquiet e' (List.mem_cons_of_mem e he')) hnodup

end Env

/-- Along every run from empty stores that injects no store failure, of a coordinator that never
commits asynchronously nor gives a rollback up unlocked, where no two registrations of one
transaction name a common row: every row a branch of a stored session that keeps row locks
names is held for the session's transaction, no row is named by two such sessions of different
transactions, and a coordinator restarted over the session store with an empty lock table
recovers without a lock conflict. -/
theorem stored_rows_stay_locked (c : Config) (hasync : c.asyncCommit = false)
    (hunlock : c.rollbackRetryTimeoutUnlock = false) (events : List Event) {start : Env}
    (hstart : start.Fresh) (hquiet : ∀ e ∈ events, e.injectsFailure = false)
    (hasks : (events.flatMap Event.asks).Nodup) :
    (runEvents c events start).RowsCovered ∧ (runEvents c events start).RowsApart ∧
      ∃ r, (Steps.run CoordM.recover.run
        { runEvents c events start with locks := .table {} }).1 = .ok r ∧ r.lockConflicts = 0 := by
  have hcov := Env.Covered.runEvents c hasync hunlock events hstart.covered hquiet hasks
  exact ⟨hcov.rowsCovered, hcov.rowsApart, hcov.recover_without_conflicts⟩

/-- Two branches of one transaction on rows `t:1` and `t:2`; the commit finishes the first and
stops at the second, which cannot be reached. -/
theorem stored_rows_stay_locked_after_partial_commit :
    ∃ (run : List Event) (start : Env),
      run = [.op (.begin "app" "group" "tx" 60000),
        .op (.register .at "db" "cli" (formatXid ({} : Config).address 9007199254740993) ""
          "t:1"),
        .op (.register .at "db" "cli" (formatXid ({} : Config).address 9007199254740993) ""
          "t:2"),
        .script 9007199254740995 [.unreachable],
        .op (.commit (formatXid ({} : Config).address 9007199254740993))] ∧
      start = { clock := ⟨0⟩, ids := ⟨1, 0⟩ } ∧
      ({} : Config).asyncCommit = false ∧ ({} : Config).rollbackRetryTimeoutUnlock = false ∧
      start.Fresh ∧ (∀ e ∈ run, e.injectsFailure = false) ∧ (run.flatMap Event.asks).Nodup ∧
      (runEvents {} run start).RowsCovered ∧ (runEvents {} run start).RowsApart ∧
      ∃ r, (Steps.run CoordM.recover.run
        { runEvents {} run start with locks := .table {} }).1 = .ok r ∧ r.lockConflicts = 0 :=
  ⟨_, _, rfl, rfl, rfl, rfl, ⟨rfl, rfl, rfl, rfl⟩, by decide, by decide,
    stored_rows_stay_locked {} rfl rfl _ ⟨rfl, rfl, rfl, rfl⟩ (by decide) (by decide)⟩

/-- Two branches of `x` name row `t:1`; the commit finishes the first, which frees the row, and
stops at the second, which cannot be reached.  The row is then free although `x` keeps row
locks, and `y` locks it while `x` still names it. -/
theorem commit_frees_row_named_by_pending_branch :
    ∃ (x y : String) (run : List Event) (start env : Env),
      x = formatXid ({} : Config).address 9007199254740993 ∧
      y = formatXid ({} : Config).address 9007199254740996 ∧
      run = [.op (.begin "app" "group" "tx" 60000),
        .op (.register .at "db" "cli" x "" "t:1"), .op (.register .at "db" "cli" x "" "t:1"),
        .script 9007199254740995 [.unreachable], .op (.commit x),
        .op (.begin "app" "group" "tx" 60000), .op (.register .at "db" "cli" y "" "t:1")] ∧
      start = { clock := ⟨0⟩, ids := ⟨1, 0⟩ } ∧ env = runEvents {} run start ∧
      start.Fresh ∧ (∀ e ∈ run, e.injectsFailure = false) ∧ ¬ env.RowsCovered ∧
      (env.stored x).map (·.status) = some .commitRetrying ∧
      (env.stored y).map (·.status) = some .begin ∧
      env.lockRows = [("db^^^t^^^1", ⟨y, 9007199254740996, 9007199254740997⟩)] := by
  let x := formatXid ({} : Config).address 9007199254740993
  let b : Branch :=
    ⟨x, 9007199254740993, 9007199254740995, "group", "db", "cli", .at, .registered, "t:1", "", 0⟩
  have hb :
      LockManager.collect b = .ok [⟨x, 9007199254740993, 9007199254740995, "db", "t", "1"⟩] :=
    Except.eq_ok_of_toOption (by decide)
  refine ⟨_, _, _, _, _, rfl, rfl, rfl, rfl, rfl, ⟨rfl, rfl, rfl, rfl⟩, by decide,
    Env.not_rowsCovered_of_free (x := x)
      (g := ⟨x, 9007199254740993, "app", "group", "tx", .commitRetrying, 60000, 0, 0, "", [b]⟩)
      (by decide) rfl (List.mem_singleton_self b) hb (by decide),
    by decide, by decide, by decide⟩

end GlobalTxn
