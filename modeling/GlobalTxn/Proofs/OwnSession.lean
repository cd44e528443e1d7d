import GlobalTxn.Proofs.HandlersApart
import GlobalTxn.Proofs.RepeatedDecision

/-! # Calls that keep to the session of one xid

A scan handler works on the session of one xid.  What belongs to the session of `x` is the
session stored under `x` with its branches, the rows its transaction holds, the requests sent
about it, and whether `x` is latched; `Env.Untouched x env env'` says that all of it is the same
in `env'` as in `env`.

Every call a handler of `y` makes keeps every other xid untouched (`Env.Own y`, the guarantee of
`Pool.Handles` for this view), as long as the session it holds is stored under `y` and its
branches name `y`: a session write puts or removes the session of `y` only, a release frees rows
held by `y`'s branches only, and a request is logged about `y`.  The lemmas here state this call
by call, together with what each call leaves, on stores kept in tables that do not fail at a
fixed clock reading (`Env.Calm`).

A handler goes on from a state where the copy of the session it holds is the one stored
(`Env.Found`); a drive, from one where that session is in a status the drive starts from
(`Env.Drivable`).  A drive keeps to its session in the same way, only frees rows held for `y`
(`Env.FreesOnly`), and leaves its session as `CoordM.DriveEnd` says, whatever the others do while
it waits for a silent participant, as long as they leave the session of `y` untouched
(`CoordM.own_go`).

## Key results

- `Env.Untouched.trans`, and one lemma per kind of change that keeps an xid untouched.
- `Steps.Brief.guarded`: a call of at most one step is guarded by what its run does.
- `CoordM.own_removeBranch`, `CoordM.own_suspend`, `CoordM.own_endSession`: the calls of a drive.
- `CoordM.own_go`: a drive keeps to its session and ends as `DriveEnd` says; `own_driveHandled`
  counts it as handled.
-/

namespace GlobalTxn

open Steps

namespace Steps

variable {σ α : Type}

/-- `p` ends at once or after one step, with no pause. -/
def Brief : Steps σ α → Prop
  | done _ => True
  | step _ n => ∀ s, ∃ a, n s = done a
  | pause _ _ _ => False

/-- A program of at most one step is guarded when the step its run takes is allowed and the
run ends where the post-condition holds. -/
theorem Brief.guarded {inv : σ → Prop} {le : σ → σ → Prop} {g : σ → σ → List (σ × σ) → Prop}
    {post : α → σ → Prop} {s : σ} :
    ∀ {p : Steps σ α}, p.Brief → g s (p.run s).2 [] → post (p.run s).1 (p.run s).2 →
      p.Guarded inv le g post s
  | done _, _, _, hpost => hpost
  | step u n, hp, hg, hpost => by
    obtain ⟨a, ha⟩ := hp s
    simp only [run_step, ha, run_done] at hg hpost
    simp only [Guarded, ha, segment]
    exact ⟨hg, hpost⟩
  | pause _ _ _, hp, _, _ => hp.elim

theorem brief_atomic {ε : Type} (X : EnvM ε α) : (EnvM.atomic X).run.Brief :=
  fun _ => ⟨_, rfl⟩

theorem brief_adapt_atomic {ε ε' : Type} (f : ε → ε') (X : EnvM ε α) :
    (ExceptT.adapt f (EnvM.atomic X)).run.Brief :=
  fun _ => ⟨_, rfl⟩

end Steps

namespace Env

variable {env : Env} {t : SessionTable} {lt : LockTable} {x y : String}

/-- The holder of a row, where row locks are kept in a table. -/
def holder? (env : Env) (key : String) : Option LockHolder :=
  (env.lockRows.find? (·.1 == key)).map (·.2)

theorem holder?_of_locks (h : env.locks = .table lt) (key : String) :
    env.holder? key = lt.owner? key := by
  simp only [holder?, lockRows, h, LockTable.owner?]

/-- What belongs to the session of `x` is the same in `env'` as in `env`: the session stored
under `x` with its branches, the holder of every row `x`'s transaction holds, the requests sent
about `x`, and whether `x` is latched. -/
structure Untouched (x : String) (env env' : Env) : Prop where
  stored : env'.stored x = env.stored x
  rows : ∀ key, (env'.holder? key).filter (·.xid == x) = (env.holder? key).filter (·.xid == x)
  calls : env'.participants.calls.filter (·.xid == x) = env.participants.calls.filter (·.xid == x)
  latched : x ∈ env'.latched ↔ x ∈ env.latched

theorem Untouched.refl (x : String) (env : Env) : env.Untouched x env :=
  ⟨rfl, fun _ => rfl, rfl, Iff.rfl⟩

theorem Untouched.trans {a b c : Env} (hab : a.Untouched x b) (hbc : b.Untouched x c) :
    a.Untouched x c :=
  ⟨hbc.stored.trans hab.stored, fun key => (hbc.rows key).trans (hab.rows key),
    hbc.calls.trans hab.calls, hbc.latched.trans hab.latched⟩

/-- The guarantee of each step of the handler of `y`: every other xid is left untouched. -/
def Own (y : String) (env env' : Env) (_ : List (Env × Env)) : Prop :=
  Pool.Apart Untouched y env env'

theorem own_lasting (y : String) : Lasting (Own y) := fun _ _ _ _ _ h => h

theorem own_refl (y : String) (env : Env) : Own y env env [] := fun x _ => Untouched.refl x env

/-! ## Changes that keep an xid untouched -/

theorem untouched_put (h : env.sessions = .table t) {s : GlobalSession} (hx : s.xid ≠ x) :
    env.Untouched x { env with sessions := .table (t.put s) } := by
  refine ⟨?_, fun _ => rfl, rfl, Iff.rfl⟩
  simp only [stored, h]
  exact SessionTable.find?_put_of_ne hx

theorem untouched_remove (h : env.sessions = .table t) (hx : y ≠ x) :
    env.Untouched x { env with sessions := .table (t.remove y) } := by
  refine ⟨?_, fun _ => rfl, rfl, Iff.rfl⟩
  simp only [stored, h]
  exact SessionTable.find?_remove_of_ne hx

/-- A release frees only rows held for the branches of its locks, so it keeps the rows of every
transaction none of its locks belongs to. -/
theorem untouched_release (h : env.locks = .table lt) {ls : List RowLock}
    (hls : ∀ l ∈ ls, l.xid ≠ x) : env.Untouched x { env with locks := .table (lt.release ls) } := by
  refine ⟨rfl, fun key => ?_, rfl, Iff.rfl⟩
  rw [holder?_of_locks rfl, holder?_of_locks h, LockTable.owner?_release, Option.filter_filter]
  congr 1
  funext hd
  by_cases hx : hd.xid = x
  · -- a row held by `x` is named by none of the locks
    have hnone : (ls.any fun l => l.rowKey == key && l.isHeldByBranch hd) = false := by
      rw [List.any_eq_false]
      intro l hl
      simp [RowLock.isHeldByBranch, hx, Ne.symm (hls l hl)]
    simp [hnone]
  · simp [hx]

theorem untouched_request {a : Action} {b : Branch} (hx : b.xid ≠ x) :
    env.Untouched x { env with participants := (env.participants.request a b).2 } := by
  refine ⟨rfl, fun _ => rfl, ?_, Iff.rfl⟩
  simp [Participants.calls_request, List.filter_append, Call.xid, hx]

theorem untouched_latch (hx : y ≠ x) : env.Untouched x { env with latched := env.latched ++ [y] } :=
  ⟨rfl, fun _ => rfl, rfl, by simp [Ne.symm hx]⟩

theorem untouched_unlatch (hx : y ≠ x) :
    env.Untouched x { env with latched := env.latched.erase y } :=
  ⟨rfl, fun _ => rfl, rfl, List.mem_erase_of_ne (Ne.symm hx)⟩

theorem untouched_timers (timers : Timers) : env.Untouched x { env with timers } :=
  ⟨rfl, fun _ => rfl, rfl, Iff.rfl⟩

/-! ## Calm stores -/

/-- Sessions and row locks are kept in tables that do not fail, and the clock reads `now`. -/
def Calm (now : Nat) (env : Env) : Prop := (∃ t lt, env.Quiet t lt) ∧ env.clock.now = now

theorem Calm.of_eq {now : Nat} {env' : Env} (h : env.Calm now) (hs : env'.sessions = env.sessions)
    (hl : env'.locks = env.locks) (hf : env'.faults = env.faults) (hc : env'.clock = env.clock) :
    env'.Calm now := by
  obtain ⟨⟨t, lt, hq⟩, hnow⟩ := h
  exact ⟨⟨t, lt, hq.of_eq hs hl hf⟩, hc ▸ hnow⟩

theorem Calm.withSessions {now : Nat} (h : env.Calm now) (t' : SessionTable) :
    ({ env with sessions := .table t' } : Env).Calm now := by
  obtain ⟨⟨_, lt, hq⟩, hnow⟩ := h
  exact ⟨⟨t', lt, rfl, hq.locks, hq.faults⟩, hnow⟩

theorem Calm.withLocks {now : Nat} (h : env.Calm now) (lt' : LockTable) :
    ({ env with locks := .table lt' } : Env).Calm now := by
  obtain ⟨⟨t, _, hq⟩, hnow⟩ := h
  exact ⟨⟨t, lt', hq.sessions, rfl, hq.faults⟩, hnow⟩

theorem stored_of_sessions {env' : Env} (hs : env'.sessions = env.sessions) (x : String) :
    env'.stored x = env.stored x := by
  rw [stored, stored, hs]

/-- A session put in the table over the one stored under its xid is the one stored. -/
theorem stored_put_self {g s : GlobalSession} (hq : env.Quiet t lt) (hg : env.stored y = some g)
    (hx : s.xid = y) : ({ env with sessions := .table (t.put s) } : Env).stored y = some s := by
  show (t.put s).find? y = some s
  rw [← hx]
  exact SessionTable.find?_put_self (by rw [hx, ← hq.stored y]; exact hg)

/-! ## Rows only freed -/

theorem holder?_congr {env' : Env} (hl : env'.locks = env.locks) (key : String) :
    env'.holder? key = env.holder? key := by
  simp only [holder?, lockRows, hl]

/-- Each row held for `y` in `env'` was held, by the same holder, in `env`: in between, rows of
`y` were only freed. -/
def FreesOnly (y : String) (env env' : Env) : Prop :=
  ∀ key h, env'.holder? key = some h → h.xid = y → env.holder? key = some h

theorem FreesOnly.refl (y : String) (env : Env) : env.FreesOnly y env := fun _ _ h _ => h

theorem FreesOnly.trans {a b c : Env} (hab : a.FreesOnly y b) (hbc : b.FreesOnly y c) :
    a.FreesOnly y c :=
  fun key h hc hy => hab key h (hbc key h hc hy) hy

theorem FreesOnly.of_locks {env' : Env} (hl : env'.locks = env.locks) : env.FreesOnly y env' :=
  fun key h hh _ => by rwa [holder?_congr hl] at hh

theorem Untouched.freesOnly {env' : Env} (hu : env.Untouched y env') : env.FreesOnly y env' := by
  intro key h hh hy
  have hrows := hu.rows key
  rw [hh, Option.filter_some, if_pos (by simpa using hy)] at hrows
  exact (Option.filter_eq_some_iff.1 hrows.symm).1

theorem freesOnly_release (h : env.locks = .table lt) (ls : List RowLock) :
    env.FreesOnly y { env with locks := .table (lt.release ls) } := by
  intro key hd hh _
  rw [holder?_of_locks rfl, LockTable.owner?_release_eq_some] at hh
  rw [holder?_of_locks h]
  exact hh.1

/-! ## What a handler changes of its own session -/

/-- What changed of the session of `y` from `env` to `env'`: the requests `cs` were sent about
`y` after those sent before, the rows held for `y` are those a release of `freed` leaves of the
rows held before, and `after` is stored under `y`. -/
structure Moved (y : String) (cs : List Call) (freed : List RowLock) (after : Option GlobalSession)
    (env env' : Env) : Prop where
  sent : env'.participants.calls.filter (·.xid == y) =
    env.participants.calls.filter (·.xid == y) ++ cs
  rows : ∀ key, (env'.holder? key).filter (·.xid == y) =
    ((env.holder? key).filter (·.xid == y)).filter fun h =>
      !freed.any fun l => l.rowKey == key && l.isHeldByBranch h
  stored : env'.stored y = after

namespace Moved

variable {env₁ env₂ env₃ : Env} {cs cs' : List Call} {freed freed' : List RowLock}
  {after after' : Option GlobalSession}

theorem trans (h₁ : env₁.Moved y cs freed after env₂) (h₂ : env₂.Moved y cs' freed' after' env₃) :
    env₁.Moved y (cs ++ cs') (freed ++ freed') after' env₃ where
  sent := by rw [h₂.sent, h₁.sent, List.append_assoc]
  rows key := by
    rw [h₂.rows, h₁.rows, Option.filter_filter]
    congr 1
    funext h
    simp [List.any_append]
  stored := h₂.stored

/-- What others do afterwards, leaving `y` untouched, moves it no further. -/
theorem untouched (hm : env₁.Moved y cs freed after env₂) (hu : env₂.Untouched y env₃) :
    env₁.Moved y cs freed after env₃ where
  sent := hu.calls.trans hm.sent
  rows key := (hu.rows key).trans (hm.rows key)
  stored := hu.stored.trans hm.stored

/-- What follows and moves nothing of `y`, as a latch let go or others that leave `y`
untouched, moves it no further. -/
theorem trans_nil (hm : env₁.Moved y cs freed after env₂)
    (h : env₂.Moved y [] [] (env₂.stored y) env₃) : env₁.Moved y cs freed after env₃ := by
  have hm' := hm.trans h
  rwa [List.append_nil, List.append_nil, hm.stored] at hm'

/-- What comes first and moves nothing of `y` but what is stored, as a latch taken or others
that leave `y` untouched, changes nothing of the move after it. -/
theorem nil_trans (h : env₁.Moved y [] [] after env₂) (hm : env₂.Moved y cs freed after' env₃) :
    env₁.Moved y cs freed after' env₃ := by
  have hm' := h.trans hm
  rwa [List.nil_append, List.nil_append] at hm'

theorem freesOnly (hm : env₁.Moved y cs freed after env₂) : env₁.FreesOnly y env₂ := by
  intro key h hh hy
  have hrows := hm.rows key
  rw [hh, Option.filter_some, if_pos (by simpa using hy)] at hrows
  exact (Option.filter_eq_some_iff.1 (Option.filter_eq_some_iff.1 hrows.symm).1).1

end Moved

theorem Untouched.moved {env' : Env} (hu : env.Untouched y env') :
    env.Moved y [] [] (env.stored y) env' where
  sent := by rw [hu.calls, List.append_nil]
  rows key := by simp [hu.rows key]
  stored := hu.stored

/-- A change that sends no request and frees no row moves `y` to what it stores. -/
theorem moved_of_eq {env' : Env} {after : Option GlobalSession} (hs : env'.stored y = after)
    (hp : env'.participants = env.participants) (hl : env'.locks = env.locks) :
    env.Moved y [] [] after env' where
  sent := by rw [hp, List.append_nil]
  rows key := by simp [holder?_congr hl]
  stored := hs

theorem moved_release (h : env.locks = .table lt) (ls : List RowLock) :
    env.Moved y [] ls (env.stored y) { env with locks := .table (lt.release ls) } where
  sent := (List.append_nil _).symm
  rows key := by
    rw [holder?_of_locks rfl, holder?_of_locks h, LockTable.owner?_release, Option.filter_filter,
      Option.filter_filter]
    congr 1
    funext hd
    exact Bool.and_comm _ _
  stored := rfl

/-- Storing a session of `y` over the one stored moves `y` to it. -/
theorem moved_put {g s : GlobalSession} (hq : env.Quiet t lt) (hg : env.stored y = some g)
    (hx : s.xid = y) : env.Moved y [] [] (some s) { env with sessions := .table (t.put s) } :=
  moved_of_eq (stored_put_self hq hg hx) rfl rfl

theorem moved_remove (t : SessionTable) :
    env.Moved y [] [] none { env with sessions := .table (t.remove y) } :=
  moved_of_eq (SessionTable.find?_remove t y) rfl rfl

theorem moved_request {a : Action} {b : Branch} (hy : b.xid = y) :
    env.Moved y [.branch a b.xid b.branchId b.status] [] (env.stored y)
      { env with participants := (env.participants.request a b).2 } where
  sent := by simp [Participants.calls_request, List.filter_append, Call.xid, hy]
  rows key := by simp [holder?, lockRows]
  stored := rfl

/-! ## Where a handler and a drive may go on -/

/-- The handler of `y` may go on from `env` with the copy `s` of its session: the stores are calm
at `now`, `s` is the session stored under `y`, and each of its branches names `y` and has a
well-formed lock key. -/
structure Found (now : Nat) (y : String) (s : GlobalSession) (env : Env) : Prop where
  calm : env.Calm now
  stored : env.stored y = some s
  branches : ∀ b ∈ s.branches, b.xid = y ∧ ∃ ls, LockManager.collect b = .ok ls

/-- A drive of direction `dir` may go on from `env` with the copy `s` of the session of `y`: it is
found, in a status a drive of `dir` starts from. -/
structure Drivable (now : Nat) (dir : Direction) (y : String) (s : GlobalSession) (env : Env) :
    Prop extends env.Found now y s where
  bound : dir.bound s.status = true

namespace Found

variable {now : Nat} {s : GlobalSession} {env' : Env}

theorem find? (hf : env.Found now y s) (hq : env.Quiet t lt) : t.find? y = some s :=
  (hq.stored y).symm.trans hf.stored

theorem xid (hf : env.Found now y s) : s.xid = y := by
  obtain ⟨t, lt, hq⟩ := hf.calm.1
  exact (SessionTable.find?_eq_some (hf.find? hq)).2

theorem find?_xid (hf : env.Found now y s) (hq : env.Quiet t lt) : t.find? s.xid = some s := by
  rw [hf.xid]
  exact hf.find? hq

theorem of_eq (hf : env.Found now y s) (hs : env'.sessions = env.sessions)
    (hl : env'.locks = env.locks) (hf' : env'.faults = env.faults) (hc : env'.clock = env.clock) :
    env'.Found now y s :=
  ⟨hf.calm.of_eq hs hl hf' hc, (stored_of_sessions hs y).trans hf.stored, hf.branches⟩

/-- What others leave untouched of `y` keeps the handler of `y` going. -/
theorem of_untouched (hf : env.Found now y s) (hc : env'.Calm now) (hu : env.Untouched y env') :
    env'.Found now y s :=
  ⟨hc, hu.stored.trans hf.stored, hf.branches⟩

end Found

theorem Drivable.of_eq {now : Nat} {dir : Direction} {s : GlobalSession} {env' : Env}
    (hd : env.Drivable now dir y s) (hs : env'.sessions = env.sessions)
    (hl : env'.locks = env.locks) (hf : env'.faults = env.faults) (hc : env'.clock = env.clock) :
    env'.Drivable now dir y s :=
  ⟨hd.toFound.of_eq hs hl hf hc, hd.bound⟩

theorem Drivable.of_untouched {now : Nat} {dir : Direction} {s : GlobalSession} {env' : Env}
    (hd : env.Drivable now dir y s) (hc : env'.Calm now) (hu : env.Untouched y env') :
    env'.Drivable now dir y s :=
  ⟨hd.toFound.of_untouched hc hu, hd.bound⟩

end Env

namespace LockManager

/-- The row locks of branches that all name `y` are all taken for `y`. -/
theorem xid_of_flatMapM_collect {y : String} :
    ∀ {bs : List Branch} {ls : List RowLock}, bs.flatMapM collect = .ok ls →
      (∀ b ∈ bs, b.xid = y) → ∀ l ∈ ls, l.xid = y
  | [], _, h, _, l, hl => by
    cases h
    cases hl
  | b :: bs, ls, h, hy, l, hl => by
    rw [List.flatMapM_cons] at h
    cases hb : collect b with
    | error e => rw [hb] at h; cases h
    | ok lb =>
      cases hrest : bs.flatMapM collect with
      | error e => rw [hb, hrest] at h; cases h
      | ok lr =>
        rw [hb, hrest] at h
        cases h
        rcases List.mem_append.1 hl with hl | hl
        · rw [(ownedBy_collect hb l hl).1]
          exact hy b List.mem_cons_self
        · exact xid_of_flatMapM_collect hrest (fun b' hb' => hy b' (List.mem_cons_of_mem b hb')) l hl

/-- Branches that all name `y`, each with a well-formed lock key, take row locks all for `y`. -/
theorem exists_flatMapM_collect_of_xid {y : String} {bs : List Branch}
    (hbs : ∀ b ∈ bs, b.xid = y ∧ ∃ ls, collect b = .ok ls) :
    ∃ ls, bs.flatMapM collect = .ok ls ∧ ∀ l ∈ ls, l.xid = y := by
  obtain ⟨ls, hls⟩ := flatMapM_collect_ok fun b hb => (hbs b hb).2
  exact ⟨ls, hls, xid_of_flatMapM_collect hls fun b hb => (hbs b hb).1⟩

end LockManager

namespace CoordM

variable {inv : Env → Prop} {le : Env → Env → Prop} {err : CoordError → Env → Prop}
  {y : String} {env : Env} {t : SessionTable} {lt : LockTable} {s g : GlobalSession}

/-! ## Calls of a handler of `y` -/

theorem own_now :
    now.run.Guarded inv le (Env.Own y) (Ends err fun n env' => n = env.clock.now ∧ env' = env)
      env :=
  guarded_bind (Env.own_lasting y) (P := fun e env' => e = env ∧ env' = env)
    (guarded_modifyGet (f := fun env => (env, env)) (Env.own_refl y env) ⟨rfl, rfl⟩)
    fun _ _ h => by
      obtain ⟨rfl, rfl⟩ := h
      exact guarded_pure _ ⟨rfl, rfl⟩

theorem own_find? (hq : env.Quiet t lt) (x : String) :
    (store (sessionStore.find? x)).run.Guarded inv le (Env.Own y)
      (Ends err fun r env' => r = t.find? x ∧ env' = env) env := by
  refine Brief.guarded (brief_adapt_atomic _ _) ?_ ?_ <;>
    rw [run_find? hq.sessions, if_neg hq.no_failed_reads]
  · exact Env.own_refl y env
  · exact ⟨rfl, rfl⟩

/-- Moving the session copy along an edge of the state machine reads the clock only. -/
theorem own_transit {target : GlobalStatus} (hc : s.status.canTransitTo target = true) :
    (transit s target).run.Guarded inv le (Env.Own y) (Ends err fun s' env' =>
      s' = { s with status := target, gmtUpdated := env.clock.now } ∧ env' = env) env := by
  unfold transit
  refine guarded_bind (Env.own_lasting y) own_now fun n env₁ h => ?_
  obtain ⟨rfl, rfl⟩ := h
  simp only [GlobalSession.transit, if_pos hc]
  exact guarded_pure _ ⟨rfl, rfl⟩

/-- Writing back the session of `y` keeps its stored branches. -/
theorem own_update (hq : env.Quiet t lt) (hg : t.find? s.xid = some g) (hy : s.xid = y) :
    (store (sessionStore.update s)).run.Guarded inv le (Env.Own y) (Ends err fun s' env' =>
      s' = { s with branches := g.branches } ∧ env' = { env with sessions := .table (t.put s') })
      env := by
  refine Brief.guarded (brief_adapt_atomic _ _) ?_ ?_ <;> rw [run_update hq hg]
  · exact fun x hx => Env.untouched_put hq.sessions (by rw [hy]; exact Ne.symm hx)
  · exact ⟨rfl, rfl⟩

theorem own_updateBranch {b c : Branch} (hq : env.Quiet t lt) (hg : t.find? b.xid = some g)
    (hc : g.findBranch? b.branchId = some c) (hy : b.xid = y) :
    (store (sessionStore.updateBranch b)).run.Guarded inv le (Env.Own y) (Ends err fun _ env' =>
      env' = { env with sessions := .table (t.put (g.replaceBranch b)) }) env := by
  have hgx : (g.replaceBranch b).xid = y := (SessionTable.find?_eq_some hg).2.trans hy
  refine Brief.guarded (brief_adapt_atomic _ _) ?_ ?_ <;> rw [run_updateBranch hq hg hc]
  · exact fun x hx => Env.untouched_put hq.sessions (by rw [hgx]; exact Ne.symm hx)
  · rfl

theorem own_storeRemoveBranch {x : String} (hq : env.Quiet t lt) (hg : t.find? x = some g)
    (hy : x = y) (id : Nat) :
    (store (sessionStore.removeBranch x id)).run.Guarded inv le (Env.Own y) (Ends err fun _ env' =>
      env' = { env with sessions := .table (t.put (g.removeBranch id)) }) env := by
  have hgx : (g.removeBranch id).xid = y := (SessionTable.find?_eq_some hg).2.trans hy
  refine Brief.guarded (brief_adapt_atomic _ _) ?_ ?_ <;>
    rw [run_storeRemoveBranch hq, SessionTable.removeBranch_eq hg]
  · exact fun x hx => Env.untouched_put hq.sessions (by rw [hgx]; exact Ne.symm hx)
  · rfl

theorem own_storeRemove (hq : env.Quiet t lt) :
    (store (sessionStore.remove y)).run.Guarded inv le (Env.Own y) (Ends err fun _ env' =>
      env' = { env with sessions := .table (t.remove y) }) env := by
  refine Brief.guarded (brief_adapt_atomic _ _) ?_ ?_ <;> rw [run_storeRemove hq]
  · exact fun x hx => Env.untouched_remove hq.sessions (Ne.symm hx)
  · rfl

section Locks

variable {err' : LockError → Env → Prop} {ls : List RowLock}

theorem own_release (hq : env.Quiet t lt) (hy : ∀ l ∈ ls, l.xid = y) :
    (lockStore.release ls).run.Guarded inv le (Env.Own y) (Ends err' fun _ env' =>
      env' = { env with locks := .table (lt.release ls) }) env := by
  refine Brief.guarded (brief_atomic _) ?_ ?_ <;> rw [run_lockStore_release hq.at]
  · exact fun x hx => Env.untouched_release hq.locks fun l hl => by rw [hy l hl]; exact Ne.symm hx
  · rfl

/-- Releasing the rows of a branch of `y`; a branch that takes no row releases nothing. -/
theorem own_releaseBranch {b : Branch} (hq : env.Quiet t lt)
    (hls : LockManager.collect b = .ok ls) (hy : b.xid = y) :
    (LockManager.releaseBranch lockStore b).run.Guarded inv le (Env.Own y) (Ends err' fun _ env' =>
      env' = { env with locks := .table (lt.release ls) }) env := by
  unfold LockManager.releaseBranch
  rw [hls]
  refine guarded_bind (Env.own_lasting y) (P := fun ls' env' => ls' = ls ∧ env' = env)
    (guarded_liftExcept ⟨rfl, rfl⟩) fun ls' env₁ h => ?_
  obtain ⟨rfl, rfl⟩ := h
  split
  · rename_i hnil
    rw [List.isEmpty_iff.1 hnil]
    exact guarded_pure () (Env.with_locks_self hq.locks).symm
  · exact own_release hq fun l hl => (LockManager.ownedBy_collect hls l hl).1.trans hy

/-- Releasing the rows of a session all of whose locks are taken for `y`. -/
theorem own_releaseSession (hq : env.Quiet t lt)
    (hls : s.branches.flatMapM LockManager.collect = .ok ls) (hy : ∀ l ∈ ls, l.xid = y) :
    (LockManager.releaseSession lockStore s).run.Guarded inv le (Env.Own y) (Ends err' fun _ env' =>
      env' = { env with locks := .table (lt.release ls) }) env := by
  unfold LockManager.releaseSession
  rw [hls]
  refine guarded_bind (Env.own_lasting y) (P := fun ls' env' => ls' = ls ∧ env' = env)
    (guarded_liftExcept ⟨rfl, rfl⟩) fun ls' env₁ h => ?_
  obtain ⟨rfl, rfl⟩ := h
  split
  · rename_i hnil
    rw [List.isEmpty_iff.1 hnil]
    exact guarded_pure () (Env.with_locks_self hq.locks).symm
  · exact own_release hq hy

end Locks

theorem own_requestPhaseTwo {a : Action} {b : Branch} {done : BranchStatus} (hy : b.xid = y) :
    (requestPhaseTwo a b done).run.Guarded inv le (Env.Own y) (Ends err fun r env' =>
      r = Answer.ofReply b done (env.participants.request a b).1 ∧
        env' = { env with participants := (env.participants.request a b).2 }) env := by
  refine Brief.guarded (fun _ => ⟨_, rfl⟩) ?_ ?_ <;> rw [run_requestPhaseTwo]
  · exact fun x hx => Env.untouched_request (by rw [hy]; exact Ne.symm hx)
  · exact ⟨rfl, rfl⟩

theorem own_tryLatch (hy : y ∉ env.latched) :
    (tryLatch y).run.Guarded inv le (Env.Own y) (Ends err fun r env' =>
      r = true ∧ env' = { env with latched := env.latched ++ [y] }) env := by
  have hc : ¬ env.latched.contains y = true := by simpa using hy
  unfold tryLatch
  refine guarded_modifyGet ?_ ?_ <;> rw [if_neg hc]
  · exact fun x hx => Env.untouched_latch (Ne.symm hx)
  · exact ⟨rfl, rfl⟩

theorem own_unlatch :
    (unlatch y).run.Guarded inv le (Env.Own y) (Ends err fun _ env' =>
      env' = { env with latched := env.latched.erase y }) env :=
  guarded_modifyGet (fun _ hx => Env.untouched_unlatch (Ne.symm hx)) rfl

/-- Waiting for a silent participant: the others may run meanwhile, leaving `y` untouched. -/
theorem own_sleep {now : Nat} (hc : env.Calm now) (ms : Nat) :
    (sleep ms).run.Guarded (Env.Calm now) (Env.Untouched y) (Env.Own y) (Ends err fun _ env' =>
      env'.Calm now ∧ env.Untouched y env') env := by
  unfold sleep
  split
  · exact guarded_pure () ⟨hc, Env.Untouched.refl y env⟩
  · -- setting the timer changes the timers only; the pause is where the others run
    have htimer : (setTimer ms).run.Guarded (Env.Calm now) (Env.Untouched y) (Env.Own y)
        (Ends err fun _ env' =>
          env' = { env with timers := { env.timers with count := env.timers.count + 1 } }) env := by
      unfold setTimer runtimeNow
      refine guarded_bind (Env.own_lasting y) (P := fun _ env' => env' = env) (guarded_bind
        (Env.own_lasting y) (P := fun _ env' => env' = env)
        (guarded_modifyGet (f := fun env => (env, env)) (Env.own_refl y env) rfl)
        fun _ _ h => guarded_pure _ h) fun _ env₁ h₁ => ?_
      subst h₁
      exact guarded_bind (Env.own_lasting y)
        (guarded_modifyGet (fun _ _ => Env.untouched_timers _) rfl) fun _ _ h => guarded_pure _ h
    refine guarded_bind (Env.own_lasting y) htimer fun r env₁ h₁ => ?_
    obtain ⟨wake, timer⟩ := r
    subst h₁
    have hc₁ : ({ env with timers := { env.timers with count := env.timers.count + 1 } } :
        Env).Calm now := hc.of_eq rfl rfl rfl rfl
    exact guarded_lift (Env.own_lasting y) ⟨hc₁, fun env₂ hc₂ hu₂ =>
      ⟨hc₂, (Env.untouched_timers _).trans hu₂⟩⟩

/-! ## The calls of a drive -/

section Drive

variable {now : Nat} {dir : Direction} {b : Branch}

/-- Removing a branch of the session with its rows: the drive goes on with the session less
that branch, and only the branch's rows are freed. -/
theorem own_removeBranch (hd : env.Drivable now dir y s) (hb : b ∈ s.branches) :
    (removeBranch s b true).run.Guarded inv le (Env.Own y) (Ends err fun s' env' =>
      s' = s.removeBranch b.branchId ∧ env'.Drivable now dir y s' ∧
        ∃ ls, LockManager.collect b = .ok ls ∧ env.Moved y [] ls (some s') env') env := by
  obtain ⟨⟨t, lt, hq⟩, hnow⟩ := hd.calm
  obtain ⟨hby, ls, hls⟩ := hd.branches b hb
  unfold removeBranch
  rw [if_pos rfl]
  refine guarded_bind (Env.own_lasting y)
    (guarded_adapt (Env.own_lasting y) (own_releaseBranch hq hls hby)) fun _ env₁ h₁ => ?_
  subst h₁
  have hq₁ : ({ env with locks := .table (lt.release ls) } : Env).Quiet t (lt.release ls) :=
    ⟨hq.sessions, rfl, hq.faults⟩
  refine guarded_bind (Env.own_lasting y)
    (own_storeRemoveBranch hq₁ (hd.find?_xid hq) hd.xid b.branchId) fun _ env₂ h₂ => ?_
  subst h₂
  have hstored := Env.stored_put_self hq₁ hd.stored (s := s.removeBranch b.branchId) hd.xid
  have hm := (Env.moved_release (y := y) hq.locks ls).trans
    (Env.moved_put hq₁ hd.stored (s := s.removeBranch b.branchId) hd.xid)
  rw [List.append_nil, List.append_nil] at hm
  exact guarded_pure _ ⟨rfl, ⟨⟨⟨⟨_, _, rfl, rfl, hq.faults⟩, hnow⟩, hstored,
    fun c hc => hd.branches c (GlobalSession.mem_removeBranch hc)⟩, hd.bound⟩, ls, hls, hm⟩

/-- Writing the copy back in status `st`, over whatever the store holds under `y`: the stored
branches stay, and nothing else of `y` moves. -/
theorem own_transit_update {st : GlobalStatus} (hc : env.Calm now) (hg : env.stored y = some g)
    (hxid : s.xid = y) (hst : s.status.canTransitTo st = true) :
    (do let s ← transit s st; let _ ← store (sessionStore.update s); pure st :
      CoordM GlobalStatus).run.Guarded inv le (Env.Own y) (Ends err fun st' env' =>
        st' = st ∧ env'.Calm now ∧
          env.Moved y [] [] (some { s with status := st, gmtUpdated := now, branches := g.branches })
            env') env := by
  obtain ⟨t, lt, hq⟩ := hc.1
  have hnow := hc.2
  subst hnow
  have hg' : t.find? s.xid = some g := by rw [hxid, ← hq.stored y]; exact hg
  refine guarded_bind (Env.own_lasting y) (own_transit hst) fun s₁ env₁ h => ?_
  obtain ⟨rfl, rfl⟩ := h
  refine guarded_bind (Env.own_lasting y) (own_update hq hg' hxid) fun s₂ env₂ h => ?_
  obtain ⟨rfl, rfl⟩ := h
  exact guarded_pure _ ⟨rfl, hc.withSessions _, Env.moved_put hq hg hxid⟩

/-- Where a drive stops: the branch takes the status reported, if any, the session of `y` is
stored in the status `st`, and no row changes. -/
theorem own_suspend {rep : Option BranchStatus} {st : GlobalStatus}
    (hd : env.Drivable now dir y s) (hb : s.findBranch? b.branchId = some b)
    (hst : s.status.canTransitTo st = true) :
    (suspend s b rep st).run.Guarded inv le (Env.Own y) (Ends err fun st' env' =>
      st' = st ∧ env'.Calm now ∧ env.Moved y [] [] (some (s.stoppedAt [] b rep st now)) env')
      env := by
  have hself : s.replaceBranch { b with status := b.status } = s :=
    GlobalSession.replaceBranch_self hb
  unfold suspend
  cases rep with
  | none =>
    rw [GlobalSession.stoppedAt_nil, Option.getD_none, hself]
    exact own_transit_update hd.calm hd.stored hd.xid hst
  | some r =>
    dsimp only
    split
    · -- the reported status is recorded on the stored branch first
      rw [GlobalSession.stoppedAt_nil, Option.getD_some]
      obtain ⟨t, lt, hq⟩ := hd.calm.1
      have hby : b.xid = y := (hd.branches b (List.mem_of_find?_eq_some hb)).1
      have hg : t.find? b.xid = some s := by rw [hby]; exact hd.find? hq
      refine guarded_bind (Env.own_lasting y)
        (own_updateBranch (b := { b with status := r }) hq hg hb hby) fun _ env₁ h₁ => ?_
      subst h₁
      refine (own_transit_update (hd.calm.withSessions _)
        (Env.stored_put_self hq hd.stored (s := s.replaceBranch { b with status := r }) hd.xid)
        hd.xid hst).mono (Ends.imp (fun _ _ h => h) fun st' env' h => ⟨h.1, h.2.1, ?_⟩)
      have hm := (Env.moved_put hq hd.stored (s := s.replaceBranch { b with status := r })
        hd.xid).trans h.2.2
      rwa [List.append_nil, List.append_nil] at hm
    · rename_i hr
      have hrb : r = b.status := by simpa using hr
      rw [GlobalSession.stoppedAt_nil, Option.getD_some, hrb, hself]
      exact own_transit_update hd.calm hd.stored hd.xid hst

/-- Ending the session of `y` releases the rows of its branches and removes it. -/
theorem own_endSession (hc : env.Calm now) (hxid : s.xid = y)
    (hbr : ∀ b ∈ s.branches, b.xid = y ∧ ∃ ls, LockManager.collect b = .ok ls) :
    (endSession s).run.Guarded inv le (Env.Own y) (Ends err fun _ env' =>
      env'.Calm now ∧ ∃ ls, s.branches.flatMapM LockManager.collect = .ok ls ∧
        env.Moved y [] ls none env') env := by
  obtain ⟨⟨t, lt, hq⟩, hnow⟩ := hc
  obtain ⟨ls, hls, hy⟩ := LockManager.exists_flatMapM_collect_of_xid hbr
  unfold endSession
  refine guarded_bind (Env.own_lasting y)
    (guarded_adapt (Env.own_lasting y) (own_releaseSession hq hls hy)) fun _ env₁ h₁ => ?_
  subst h₁
  have hq₁ : ({ env with locks := .table (lt.release ls) } : Env).Quiet t (lt.release ls) :=
    ⟨hq.sessions, rfl, hq.faults⟩
  rw [hxid]
  refine (own_storeRemove hq₁).mono (Ends.imp (fun _ _ h => h) fun _ env₂ h₂ => ?_)
  subst h₂
  have hm := (Env.moved_release (y := y) hq.locks ls).trans (Env.moved_remove t)
  rw [List.append_nil, List.append_nil] at hm
  exact ⟨⟨⟨_, _, rfl, rfl, hq.faults⟩, hnow⟩, ls, hls, hm⟩

end Drive

section Go

variable (c : Config) (dir : Direction) {now : Nat}

/-- A drive of the session of `y` keeps every other xid untouched at each step, only frees rows
of `y`, and ends as `DriveEnd` says with the stores calm, however long it waits for a silent
participant, as long as the others leave `y` untouched meanwhile.  By induction on the branch ids
left, as `driveEnd_go`; the copy the drive holds is the stored session, in the status it started
in. -/
theorem own_go : ∀ (ids : List Nat) {s : GlobalSession} {env : Env},
    env.Drivable now dir y s →
    (drive.go c dir s ids).run.Guarded (Env.Calm now) (Env.Untouched y) (Env.Own y)
      (Ends (fun _ _ => False) fun st env' =>
        env'.Calm now ∧ DriveEnd dir s.status st (env'.stored y) ∧ env.FreesOnly y env') env
  | [], s, env, hd => by
    -- no branch is left: the session reaches the outcome of the direction and is removed
    obtain ⟨t, lt, hq⟩ := hd.calm.1
    unfold drive.go
    refine guarded_bind (Env.own_lasting y) (own_transit (Direction.canTransitTo_completed hd.bound))
      fun s₁ env₁ h₁ => ?_
    obtain ⟨rfl, rfl⟩ := h₁
    refine guarded_bind (Env.own_lasting y) (own_update hq (hd.find?_xid hq) hd.xid)
      fun s₂ env₂ h₂ => ?_
    obtain ⟨rfl, rfl⟩ := h₂
    refine guarded_bind (Env.own_lasting y)
      (own_endSession (hd.calm.withSessions _) hd.xid hd.branches) fun _ env₃ h₃ => ?_
    obtain ⟨hc₃, _, -, hm₃⟩ := h₃
    refine guarded_pure _ ⟨hc₃, ?_, (Env.FreesOnly.of_locks rfl).trans hm₃.freesOnly⟩
    rw [hm₃.stored]
    rfl
  | id :: rest, s, env, hd => by
    unfold drive.go
    cases hb : s.findBranch? id with
    | none => exact own_go rest hd
    | some b =>
      dsimp only
      have hbmem : b ∈ s.branches := List.mem_of_find?_eq_some hb
      have hfind : s.findBranch? b.branchId = some b := by
        have hbid : b.branchId = id := by simpa using List.find?_some hb
        rw [hbid]
        exact hb
      have hby : b.xid = y := (hd.branches b hbmem).1
      -- a branch removed: the drive goes on over the rest with the session less it
      have hnext : ∀ env₁ : Env, env₁.Drivable now dir y s → env.FreesOnly y env₁ →
          (removeBranch s b true >>= fun s => drive.go c dir s rest).run.Guarded (Env.Calm now)
            (Env.Untouched y) (Env.Own y) (Ends (fun _ _ => False) fun st env' =>
              env'.Calm now ∧ DriveEnd dir s.status st (env'.stored y) ∧
                env.FreesOnly y env') env₁ := by
        intro env₁ hd₁ hfree₁
        refine guarded_bind (Env.own_lasting y) (own_removeBranch hd₁ hbmem) fun s' env₂ h₂ => ?_
        obtain ⟨rfl, hd₂, _, -, hm₂⟩ := h₂
        refine (own_go rest hd₂).mono (Ends.imp (fun _ _ h => h) fun st env' h => ?_)
        exact ⟨h.1, h.2.1, hfree₁.trans (hm₂.freesOnly.trans h.2.2)⟩
      -- the drive stops at the branch, in the retrying or the failed status
      have hstop : ∀ (env₁ : Env) (rep : Option BranchStatus) (st : GlobalStatus),
          env₁.Drivable now dir y s → env.FreesOnly y env₁ →
          (st = dir.retrying s.status ∨ st = dir.failed) →
          (suspend s b rep st).run.Guarded (Env.Calm now) (Env.Untouched y) (Env.Own y)
            (Ends (fun _ _ => False) fun st' env' =>
              env'.Calm now ∧ DriveEnd dir s.status st' (env'.stored y) ∧
                env.FreesOnly y env') env₁ := by
        intro env₁ rep st hd₁ hfree₁ hside
        have hst : s.status.canTransitTo st = true := by
          rcases hside with rfl | rfl
          · exact Direction.canTransitTo_retrying hd.bound
          · exact Direction.canTransitTo_failed hd.bound
        refine (own_suspend hd₁ hfind hst).mono (Ends.imp (fun _ _ h => h) fun st' env' h => ?_)
        obtain ⟨rfl, hc', hm⟩ := h
        refine ⟨hc', ?_, hfree₁.trans hm.freesOnly⟩
        rw [hm.stored]
        exact ⟨rfl, hside⟩
      split
      · exact hnext env hd (Env.FreesOnly.refl y env)
      · refine guarded_bind (Env.own_lasting y) (own_requestPhaseTwo hby) fun a env₁ h₁ => ?_
        obtain ⟨-, rfl⟩ := h₁
        have hd₁ : Env.Drivable now dir y s { env with participants :=
            (env.participants.request dir.action b).2 } := hd.of_eq rfl rfl rfl rfl
        have hfree₁ : env.FreesOnly y { env with participants :=
            (env.participants.request dir.action b).2 } := Env.FreesOnly.of_locks rfl
        cases a with
        | answered r =>
          dsimp only
          generalize dir.outcome b r = o
          cases o with
          | done => exact hnext _ hd₁ hfree₁
          | retryable => exact hstop _ _ _ hd₁ hfree₁ (.inl rfl)
          | unretryable => exact hstop _ _ _ hd₁ hfree₁ (.inr rfl)
        | failed e => exact hstop _ _ _ hd₁ hfree₁ (.inl rfl)
        | silent =>
          -- a silent participant is waited for; meanwhile the others leave `y` untouched
          refine guarded_bind (Env.own_lasting y) (own_sleep hd₁.calm c.branchTimeout)
            fun _ env₂ h₂ => ?_
          exact hstop _ _ _ (hd₁.of_untouched h₂.1 h₂.2) (hfree₁.trans h₂.2.freesOnly) (.inl rfl)

theorem own_drive {s : GlobalSession} {env : Env} (hd : env.Drivable now dir y s) :
    (drive c dir s).run.Guarded (Env.Calm now) (Env.Untouched y) (Env.Own y)
      (Ends (fun _ _ => False) fun st env' =>
        env'.Calm now ∧ DriveEnd dir s.status st (env'.stored y) ∧ env.FreesOnly y env') env :=
  own_go c dir _ hd

/-- A drive counted as handled. -/
theorem own_driveHandled {s : GlobalSession} {env : Env} (hd : env.Drivable now dir y s) :
    (driveHandled c dir s).run.Guarded (Env.Calm now) (Env.Untouched y) (Env.Own y)
      (Ends (fun _ _ => False) fun handled env' => handled = true ∧
        env'.Calm now ∧ (∃ st, DriveEnd dir s.status st (env'.stored y)) ∧
          env.FreesOnly y env') env :=
  guarded_bind (Env.own_lasting y) (own_drive c dir hd) fun st _ h =>
    guarded_pure true ⟨rfl, h.1, ⟨st, h.2.1⟩, h.2.2⟩

end Go

end CoordM

end GlobalTxn
