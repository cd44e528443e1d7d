import GlobalTxn.Proofs.ScanHandlers
import GlobalTxn.Proofs.NoLeakedRows
import GlobalTxn.Proofs.Recovery

/-! # One pass of a session scan

A session scan lists its candidates, the sessions in the statuses of the scan that pass its
test when it reads the clock, and hands each to its handler, latched on the candidate's xid;
the handlers run side by side (`Pool`).  On stores whose rows are accounted for, that do not
fail, with no xid latched, one pass run alone handles every candidate and counts each once:
it answers the number of candidates, leaves each as `ScanKind.Leaves` says, and leaves every
other xid untouched: its session and branches, the rows it holds, the requests about it
(`scanNow_handles_candidates`).  This holds however the pool interleaves the handlers' steps,
as each keeps to its own session.

## Main statements

- `timeout_check_rolls_back_overdue`: the timeout check, on every state a run reaches.
- `timeout_check_asks_first_of_shared_id`: with two branches of one id, the check's rollback
  asks them in registration order.
- `retry_scans_touch_only_candidates`: the three retry scans, on every store whose rows are
  accounted for.
- `retry_rollback_ends_failed_timeout_rollback`: a session rolled back on timeout, whose status
  counts among the failed rollbacks, is ended by the rollback retry scan when it has no branch.
-/

namespace GlobalTxn

open Steps

namespace Env

/-- `env` is where some run of operations and outside events leads from empty stores. -/
def Reached (c : Config) (env : Env) : Prop :=
  ∃ events start, Env.Fresh start ∧ runEvents c events start = env

/-- In every state a run reaches, the rows held are accounted for by the stored sessions. -/
theorem Reached.accounts {c : Config} {env : Env} {t : SessionTable} {lt : LockTable}
    (h : env.Reached c) (hq : env.Quiet t lt) : t.Accounts lt := by
  obtain ⟨events, start, hstart, rfl⟩ := h
  obtain ⟨t', lt', hat, hacc⟩ := accounted_runEvents c events hstart.accounted
  have ht : t' = t := SessionBacking.table.inj (hat.sessions.symm.trans hq.sessions)
  have hlt : lt' = lt := LockBacking.table.inj (hat.locks.symm.trans hq.locks)
  subst ht hlt
  exact hacc

end Env

namespace SessionTable

/-- One session without branches, and no row held, are accounted for. -/
theorem accounts_single {g : GlobalSession} (hb : g.branches = []) :
    (⟨[g]⟩ : SessionTable).Accounts {} where
  xids := List.nodup_singleton _
  branches g' hg' b hb' := by
    rw [List.mem_singleton.1 hg', hb] at hb'
    cases hb'
  keys := List.nodup_nil
  named := nofun
  holding := nofun

end SessionTable

namespace ScanKind

variable {c : Config} {now : Nat} {t : SessionTable}

/-- The candidates a scan lists, oldest first, are the candidates among the stored sessions. -/
theorem perm_candidates (kind : ScanKind) :
    ((t.findBy kind.statuses).filter (kind.isCandidate c now)).Perm
      (t.sessions.filter (kind.isCandidate c now)) := by
  unfold SessionTable.findBy
  refine ((List.mergeSort_perm _ _).filter _).trans ?_
  -- every candidate is in a status the scan lists
  have hlisted : (fun g => kind.isCandidate c now g && kind.statuses.contains g.status) =
      kind.isCandidate c now := by
    funext g
    cases hc : kind.isCandidate c now g
    · rfl
    · simp [mem_statuses_of_isCandidate hc]
  rw [List.filter_filter, hlisted]

/-- No retry scan takes up a session in `begin`, paused by an operator, failed for good or out of
retries, or being deleted, save one: the rollback retry scan takes up a session rolled back on
timeout that has no branch left. -/
theorem isCandidate_eq_false_of_held {g : GlobalSession} {kind : ScanKind}
    (hk : kind = .retryCommitting ∨ kind = .asyncCommitting ∨ kind = .retryRollbacking)
    (hs : g.status ∈ .begin :: GlobalStatus.stopped ++ GlobalStatus.failedCommit ++
      GlobalStatus.failedRollback ++ [.deleting])
    (hb : kind = .retryRollbacking → g.status = .timeoutRollbacked → g.hasBranch = true) :
    kind.isCandidate c now g = false := by
  simp only [GlobalStatus.stopped, GlobalStatus.failedCommit, GlobalStatus.failedRollback,
    List.cons_append, List.nil_append, List.mem_cons, List.not_mem_nil, or_false] at hs
  rcases hk with rfl | rfl | rfl <;>
    rcases hs with h | h | h | h | h | h | h | h | h | h <;>
    simp_all [isCandidate, Config.isRetryCommitting, Config.isRetryRollbacking]

theorem isCandidate_timeoutRollbacked {g : GlobalSession} (hs : g.status = .timeoutRollbacked)
    (hb : g.branches = []) : retryRollbacking.isCandidate c now g = true := by
  simp [isCandidate, Config.isRetryRollbacking, hs, GlobalSession.hasBranch, hb]

end ScanKind

namespace CoordM

variable {env : Env} {t : SessionTable} {lt : LockTable}

theorem run_candidates (c : Config) (kind : ScanKind) (hq : env.Quiet t lt) :
    Steps.run (candidates c kind).run env =
      (.ok (((t.findBy kind.statuses).filter (kind.isCandidate c env.clock.now)).map (·.xid)),
        env) := by
  unfold candidates
  rw [run_bind_ok (run_now env), run_bind_ok (run_findBy hq _)]
  rfl

theorem run_scanPool (c : Config) (kind : ScanKind) (hq : env.Quiet t lt) :
    Steps.run (scanPool c kind).run env =
      (.ok { parallelism := c.scanParallelism,
             queued := (((t.findBy kind.statuses).filter (kind.isCandidate c env.clock.now)).map
               (·.xid)).map fun x => (x, underLatch x (handler c kind x)) }, env) := by
  unfold scanPool
  rw [run_bind_ok (run_candidates c kind hq)]
  rfl

/-- Apart from the undo log purge, a scan outside any lock runs the pool of the handlers of its
candidates, with a round of fuel per handler and more. -/
theorem run_scan_of_ne (c : Config) {kind : ScanKind} (hk : kind ≠ .undoLogDelete) (env : Env) :
    Steps.run (scan c kind none).run env = Steps.run (scanPool c kind >>= fun p =>
      p.run none ((p.queued.length + 1) * (c.branchTimeout + 2))).run env := by
  cases kind with
  | undoLogDelete => exact absurd rfl hk
  | _ => rfl

/-- One pass of a session scan run alone, on stores whose rows are accounted for, that do not
fail, with no xid latched: it answers the number of candidates when it read the clock; the
stores stay calm, every candidate is left handled, and every xid of no candidate untouched.  The
handlers run side by side in the pool; each keeps to its own session
(`handles_underLatch_handler`), so every interleaving of their steps ends so. -/
theorem scanNow_handles_candidates (c : Config) {kind : ScanKind} (hk : kind ≠ .undoLogDelete)
    (hq : env.Quiet t lt) (hacc : t.Accounts lt) (hl : env.latched = [])
    (hpar : 0 < c.scanParallelism) :
    ∃ env', Steps.run (scanNow c kind).run env =
        (.ok (t.sessions.filter (kind.isCandidate c env.clock.now)).length, env') ∧
      env'.Calm env.clock.now ∧
      (∀ g ∈ t.sessions, kind.isCandidate c env.clock.now g = true →
        env.Handled c env.clock.now kind g.xid g env') ∧
      ∀ x, (∀ g ∈ t.sessions, g.xid = x → kind.isCandidate c env.clock.now g = false) →
        env.Untouched x env' := by
  -- the candidates as the scan lists them, and their xids, each handled by one handler
  have hperm : ((t.findBy kind.statuses).filter (kind.isCandidate c env.clock.now)).Perm
      (t.sessions.filter (kind.isCandidate c env.clock.now)) := ScanKind.perm_candidates kind
  have hmem : ∀ g, g ∈ (t.findBy kind.statuses).filter (kind.isCandidate c env.clock.now) ↔
      g ∈ t.sessions ∧ kind.isCandidate c env.clock.now g = true := fun g => by
    rw [hperm.mem_iff, List.mem_filter]
  have hnodup : (((t.findBy kind.statuses).filter (kind.isCandidate c env.clock.now)).map
      (·.xid)).Nodup :=
    ((hperm.map _).nodup_iff).2 (hacc.xids.sublist ((List.filter_sublist).map _))
  have hh : ∀ x ∈ ((t.findBy kind.statuses).filter (kind.isCandidate c env.clock.now)).map
      (·.xid), Pool.Handles Env.Untouched (Env.Calm env.clock.now)
        (fun x e => ∃ g, t.find? x = some g ∧ env.Handled c env.clock.now kind x g e) x 1
        (underLatch x (handler c kind x)) env := by
    intro x hx
    obtain ⟨g, hgc, rfl⟩ := List.mem_map.1 hx
    obtain ⟨hgt, hc⟩ := (hmem g).1 hgc
    have hfind := SessionTable.find?_of_mem hacc.xids hgt
    exact handles_underLatch_handler c hfind
      ⟨⟨⟨t, lt, hq⟩, rfl⟩, (hq.stored _).trans hfind, hacc.branches g hgt⟩
      (Env.named_of_accounts hq hacc hfind) (by rw [hl]; exact List.not_mem_nil) hc
  -- a round of fuel per handler, and more
  have hfuel : (((t.findBy kind.statuses).filter (kind.isCandidate c env.clock.now)).map
      (·.xid)).length < ((((t.findBy kind.statuses).filter (kind.isCandidate c env.clock.now)).map
        (·.xid)).map fun x => (x, underLatch x (handler c kind x))).length.succ *
        (c.branchTimeout + 2) := by
    simp only [List.length_map]
    exact Nat.lt_of_lt_of_le (Nat.lt_succ_self _) (Nat.le_mul_of_pos_right _ (Nat.zero_lt_succ _))
  obtain ⟨env', hrun, hcalm, hfin, hkeep⟩ := Pool.run_none_handles_all
    Env.Untouched.refl (fun _ _ _ _ => Env.Untouched.trans)
    (fun _ _ _ hfin hu => by
      obtain ⟨g, hg, hd⟩ := hfin
      exact ⟨g, hg, hd.trans_nil hu.moved⟩)
    _ (fun x => underLatch x (handler c kind x)) hpar hnodup hh ⟨⟨t, lt, hq⟩, rfl⟩ hfuel
  -- the pass lists the candidates and runs the pool of their handlers to its end
  have hscan : Steps.run (scan c kind none).run env = (.ok (.finished
      (((t.findBy kind.statuses).filter (kind.isCandidate c env.clock.now)).map (·.xid)).length),
      env') := by
    rw [run_scan_of_ne c hk, run_bind_ok (run_scanPool c kind hq)]
    exact hrun
  refine ⟨env', ?_, hcalm, fun g hg hc => ?_, fun x hx => hkeep x fun hmx => ?_⟩
  · unfold scanNow
    rw [run_bind_ok hscan, List.length_map, hperm.length_eq]
    rfl
  · obtain ⟨g', hg', hd⟩ := hfin g.xid (List.mem_map.2 ⟨g, (hmem g).2 ⟨hg, hc⟩, rfl⟩)
    rw [SessionTable.find?_of_mem hacc.xids hg] at hg'
    cases hg'
    exact hd
  · obtain ⟨g, hgc, rfl⟩ := List.mem_map.1 hmx
    obtain ⟨hgt, hc⟩ := (hmem g).1 hgc
    rw [hx g hgt rfl] at hc
    cases hc

/-- The timeout check on a state some run reaches, with stores that do not fail and no xid
latched.  Every session in `begin` past its deadline when the check reads the clock is persisted
in the status `Config.timeoutStatus` gives, a timeout rollback once the grace span is over, and
rolled back from that copy (`Env.Drove`): it ends as a drive from that status ends, and when its
branch ids are distinct, the requests about it are those of the rollback walk of its branches in
reverse order, the rows it frees are those of the branches the walk passes, and the session is
stored as the walk leaves it.  The check answers how many such sessions there are, and every
other xid is untouched: its session and branches, the rows it holds, the requests about it. -/
theorem timeout_check_rolls_back_overdue (c : Config) (hreach : env.Reached c)
    (hq : env.Quiet t lt) (hl : env.latched = []) (hpar : 0 < c.scanParallelism) :
    ∃ env', Steps.run (scanNow c .timeoutCheck).run env =
        (.ok (t.sessions.filter fun g => g.status == .begin && g.isTimedOut env.clock.now).length,
          env') ∧
      (∀ g ∈ t.sessions, g.status = .begin → g.isTimedOut env.clock.now = true →
        env.Drove .rollback env.clock.now g.xid
          { g with status := c.timeoutStatus env.clock.now g, gmtUpdated := env.clock.now } [] env') ∧
      ∀ x, (∀ g ∈ t.sessions, g.xid = x → g.status = .begin → g.isTimedOut env.clock.now = false) →
        env.Untouched x env' := by
  obtain ⟨env', hrun, -, hdone, hkeep⟩ := scanNow_handles_candidates c
    (by decide : ScanKind.timeoutCheck ≠ .undoLogDelete) hq (hreach.accounts hq) hl hpar
  refine ⟨env', hrun, fun g hg hb hto => (hdone g hg ?_).leaves,
    fun x hx => hkeep x fun g hg hgx => ?_⟩
  · simp [ScanKind.isCandidate, hb, hto]
  · -- a session of `x` is not in `begin`, or not past its deadline
    by_cases hb : g.status = .begin
    · simp [ScanKind.isCandidate, hb, hx g hg hgx hb]
    · simp [ScanKind.isCandidate, hb]

/-- A transaction begun with a minute to run, checked a hundred seconds on. -/
theorem timeout_check_rolls_back_overdue_after_a_minute :
    let env := runEvents {} [.op (.begin "app" "group" "tx" 60000), .advance 100000]
      { clock := ⟨0⟩, ids := ⟨1, 0⟩ }
    let g : GlobalSession := ⟨formatXid ({} : Config).address 9007199254740993, 9007199254740993,
      "app", "group", "tx", .begin, ⟨60000000000⟩, 0, 0, "", []⟩
    env.Reached {} ∧ env.Quiet ⟨[g]⟩ {} ∧ env.latched = [] ∧ 0 < ({} : Config).scanParallelism ∧
    ∃ env', Steps.run (scanNow {} .timeoutCheck).run env =
        (.ok ([g].filter fun g => g.status == .begin && g.isTimedOut env.clock.now).length, env') ∧
      (∀ g' ∈ [g], g'.status = .begin → g'.isTimedOut env.clock.now = true →
        env.Drove .rollback env.clock.now g'.xid
          { g' with status := ({} : Config).timeoutStatus env.clock.now g',
                    gmtUpdated := env.clock.now } [] env') ∧
      ∀ x, (∀ g' ∈ [g], g'.xid = x → g'.status = .begin → g'.isTimedOut env.clock.now = false) →
        env.Untouched x env' := by
  intro env g
  have hreach : env.Reached {} := ⟨_, _, ⟨rfl, rfl, rfl, rfl⟩, rfl⟩
  have hq : env.Quiet ⟨[g]⟩ {} := ⟨by decide, rfl, rfl⟩
  exact ⟨hreach, hq, rfl, by decide,
    timeout_check_rolls_back_overdue {} hreach hq rfl (by decide)⟩

/-- With two branches of one id, which a restart that keeps the rows lets a session gain, the
timeout check asks the branch registered first before the one registered after it, where the
reverse order of a rollback would ask the later one first: the drive looks each id up and
finds the first branch with it. -/
theorem timeout_check_asks_first_of_shared_id :
    let a : Branch := ⟨"x", 1, 2, "g", "db", "c", .at, .phaseOneDone, "t:1", "", 0⟩
    let b : Branch := ⟨"x", 1, 2, "g", "db", "c", .tcc, .registered, "", "", 0⟩
    let s : GlobalSession := ⟨"x", 1, "app", "g", "tx", .begin, ⟨60000000000⟩, 0, 0, "", [a, b]⟩
    let env : Env := { clock := ⟨100000⟩, ids := ⟨0, 3⟩, sessions := .table ⟨[s]⟩ }
    Direction.rollback.arrange s.branches = [b, a] ∧
      (Steps.run (scanNow {} .timeoutCheck).run env).2.participants.calls =
        [Direction.rollback.call a, Direction.rollback.call b] := by
  intro a b s env
  have hq : env.Quiet ⟨[s]⟩ {} := ⟨rfl, rfl, rfl⟩
  -- the one session found is overdue, and needs no sorting
  have hfind : ((⟨[s]⟩ : SessionTable).findBy ScanKind.timeoutCheck.statuses).filter
      (ScanKind.timeoutCheck.isCandidate {} env.clock.now) = [s] := by
    simp [SessionTable.findBy, s, ScanKind.statuses]
    decide
  have hpool := run_scanPool {} ScanKind.timeoutCheck hq
  rw [hfind] at hpool
  refine ⟨by decide, ?_⟩
  unfold scanNow
  rw [run_exceptT_bind, run_scan_of_ne {} (by decide) env, run_bind_ok hpool]
  dsimp only [List.map, List.length]
  -- the pool's moves are given by well-founded recursion, which evaluation does not open:
  -- unfold its first round, where the one handler starts and runs to its end
  rw [show (0 + 1 + 1) * (30000 + 2) = 60003 + 1 from rfl, Pool.run.eq_2]
  simp only [Pool.advance, Pool.advance.runReady, Pool.moves, List.length_cons, List.length_nil,
    List.nil_append, Nat.reduceAdd, Nat.reduceMul, Nat.reduceLT, ↓reduceIte]
  dsimp only [a, b, s, env]
  decide +kernel

/-- A pass of a retry scan, of retrying commits, asynchronous commits or retrying rollbacks, on a
store whose rows are accounted for, that does not fail, with no xid latched.  It answers the
number of its candidates, leaves each as `ScanKind.Leaves` says, with no row held where
`ScanKind.frees` says, and leaves every other xid untouched: its session and branches, the rows
it holds, the requests about it.  So a session in `begin`, paused by an operator, failed for good
or out of retries, or being deleted is left untouched, but for a session rolled back on timeout
with no branch left, which the rollback retry scan ends. -/
theorem retry_scans_touch_only_candidates (c : Config) {kind : ScanKind}
    (hk : kind = .retryCommitting ∨ kind = .asyncCommitting ∨ kind = .retryRollbacking)
    (hq : env.Quiet t lt) (hacc : t.Accounts lt) (hl : env.latched = [])
    (hpar : 0 < c.scanParallelism) :
    ∃ env', Steps.run (scanNow c kind).run env =
        (.ok (t.sessions.filter (kind.isCandidate c env.clock.now)).length, env') ∧
      (∀ g ∈ t.sessions, kind.isCandidate c env.clock.now g = true →
        env.Handled c env.clock.now kind g.xid g env') ∧
      (∀ x, (∀ g ∈ t.sessions, g.xid = x → kind.isCandidate c env.clock.now g = false) →
        env.Untouched x env') ∧
      ∀ g ∈ t.sessions, g.status ∈ .begin :: GlobalStatus.stopped ++ GlobalStatus.failedCommit ++
        GlobalStatus.failedRollback ++ [.deleting] →
        (kind = .retryRollbacking → g.status = .timeoutRollbacked → g.hasBranch = true) →
        env.Untouched g.xid env' := by
  have hne : kind ≠ .undoLogDelete := by
    rcases hk with rfl | rfl | rfl <;> exact nofun
  obtain ⟨env', hrun, -, hdone, hkeep⟩ := scanNow_handles_candidates c hne hq hacc hl hpar
  refine ⟨env', hrun, hdone, hkeep, fun g hg hs hb => hkeep g.xid fun g' hg' hx => ?_⟩
  -- the only session stored under the xid of `g` is `g`
  have hsame : g' = g := by
    have h₁ := SessionTable.find?_of_mem hacc.xids hg'
    rw [hx, SessionTable.find?_of_mem hacc.xids hg] at h₁
    exact (Option.some.inj h₁).symm
  subst hsame
  exact ScanKind.isCandidate_eq_false_of_held hk hs hb

/-- A session rolled back on timeout with no branch left, scanned by the rollback retry scan. -/
theorem retry_scans_touch_only_candidates_of_timeout_rollback :
    let g : GlobalSession :=
      ⟨"x", 1, "app", "group", "tx", .timeoutRollbacked, ⟨60000000000⟩, 0, 0, "", []⟩
    let env : Env := { clock := ⟨100000⟩, ids := ⟨0, 1⟩, sessions := .table ⟨[g]⟩ }
    (ScanKind.retryRollbacking = .retryCommitting ∨ ScanKind.retryRollbacking = .asyncCommitting ∨
      ScanKind.retryRollbacking = .retryRollbacking) ∧ env.Quiet ⟨[g]⟩ {} ∧
    (⟨[g]⟩ : SessionTable).Accounts {} ∧ env.latched = [] ∧ 0 < ({} : Config).scanParallelism ∧
    ∃ env', Steps.run (scanNow {} .retryRollbacking).run env =
        (.ok ([g].filter (ScanKind.retryRollbacking.isCandidate {} env.clock.now)).length, env') ∧
      (∀ g' ∈ [g], ScanKind.retryRollbacking.isCandidate {} env.clock.now g' = true →
        env.Handled {} env.clock.now .retryRollbacking g'.xid g' env') ∧
      (∀ x, (∀ g' ∈ [g], g'.xid = x → ScanKind.retryRollbacking.isCandidate {} env.clock.now g' =
        false) → env.Untouched x env') ∧
      ∀ g' ∈ [g], g'.status ∈ .begin :: GlobalStatus.stopped ++ GlobalStatus.failedCommit ++
        GlobalStatus.failedRollback ++ [.deleting] →
        (ScanKind.retryRollbacking = .retryRollbacking → g'.status = .timeoutRollbacked →
          g'.hasBranch = true) →
        env.Untouched g'.xid env' := by
  intro g env
  have hk : ScanKind.retryRollbacking = .retryCommitting ∨
      ScanKind.retryRollbacking = .asyncCommitting ∨
      ScanKind.retryRollbacking = .retryRollbacking := .inr (.inr rfl)
  have hq : env.Quiet ⟨[g]⟩ {} := ⟨rfl, rfl, rfl⟩
  have hacc : (⟨[g]⟩ : SessionTable).Accounts {} := SessionTable.accounts_single rfl
  exact ⟨hk, hq, hacc, rfl, by decide,
    retry_scans_touch_only_candidates {} hk hq hacc rfl (by decide)⟩

/-- A session rolled back on timeout counts among the failed rollbacks; yet, with no branch
left, it is a candidate of the rollback retry scan, which counts it and removes it. -/
theorem retry_rollback_ends_failed_timeout_rollback :
    let g : GlobalSession :=
      ⟨"x", 1, "app", "group", "tx", .timeoutRollbacked, ⟨60000000000⟩, 0, 0, "", []⟩
    let env : Env := { clock := ⟨100000⟩, ids := ⟨0, 1⟩, sessions := .table ⟨[g]⟩ }
    g.status ∈ GlobalStatus.failedRollback ∧ env.stored "x" = some g ∧
      ∃ env', Steps.run (scanNow {} .retryRollbacking).run env = (.ok 1, env') ∧
        env'.stored "x" = none := by
  intro g env
  have hq : env.Quiet ⟨[g]⟩ {} := ⟨rfl, rfl, rfl⟩
  have hc : ScanKind.retryRollbacking.isCandidate {} env.clock.now g = true :=
    ScanKind.isCandidate_timeoutRollbacked rfl rfl
  obtain ⟨env', hrun, -, hdone, -⟩ := scanNow_handles_candidates {}
    (by decide : ScanKind.retryRollbacking ≠ .undoLogDelete) hq (SessionTable.accounts_single rfl)
    rfl (by decide)
  have hended := (hdone g List.mem_cons_self hc).leaves
  simp only [ScanKind.Leaves, if_pos (Or.inr rfl : g.status = .rollbacked ∨
    g.status = .timeoutRollbacked)] at hended
  refine ⟨by decide, rfl, env', ?_, hended.stored⟩
  rw [hrun, List.filter_singleton, hc]
  rfl

end CoordM

end GlobalTxn
