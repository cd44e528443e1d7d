import GlobalTxn.Proofs.AgreementScan
import GlobalTxn.Proofs.Run

/-! # Phase two goes one way along every run

Along a run from empty stores in which no store call is made to fail, the requests sent to
participants agree with the coordinator's decisions:

* no transaction has both a commit and a rollback request about its branches, unless a
  participant reported its global outcome with success before;
* every commit or rollback request about a branch is sent while the session store holds the
  session, in a status bound to that direction, with that branch;
* once a participant answers a phase-two request with an outcome that ends phase two of its
  branch, no phase-two request about that branch is sent again.

The steps of a run (`runTrace`) are those of each operation run alone, and one step for each
change of the world.  Every operation keeps the agreement and takes only steps that
`Env.StepAgrees` allows (`CoordM.guarded_program`), so every step of a run is allowed and the
agreement holds at its end (`Env.Agrees.runEvents`).  The first statement is the agreement at
the end; the others follow from the steps alone, which form a chain (`chain_runTrace`):
a branch removed before any request about it is never held again (`Steps.Chain.not_holds`).

The ids drawn along the run are fewer than the generator's period, so that no xid or branch
id is taken twice.
-/

namespace GlobalTxn

open Steps

/-! ## Chains of steps -/

namespace Steps

variable {σ α : Type}

/-- `l` is a list of steps, each starting where the one before it ended, from `s` to `s'`. -/
def Chain : σ → List (σ × σ) → σ → Prop
  | s, [], s' => s = s'
  | s, q :: l, s' => q.1 = s ∧ Chain q.2 l s'

theorem Chain.append :
    ∀ {s s' s'' : σ} {l l' : List (σ × σ)}, Chain s l s' → Chain s' l' s'' →
    Chain s (l ++ l') s''
  | _, _, _, [], _, rfl, h' => h'
  | _, _, _, _ :: _, _, ⟨hq, h⟩, h' => ⟨hq, Chain.append h h'⟩

/-- The steps after some first ones form a chain of their own. -/
theorem Chain.drop : ∀ (pre : List (σ × σ)) {s s'' : σ} {l : List (σ × σ)},
    Chain s (pre ++ l) s'' → ∃ s', Chain s' l s''
  | [], s, _, _, h => ⟨s, h⟩
  | _ :: pre, _, _, _, ⟨_, h⟩ => Chain.drop pre h

theorem Allows.drop {g : σ → σ → List (σ × σ) → Prop} :
    ∀ (pre : List (σ × σ)) {l : List (σ × σ)}, Allows g (pre ++ l) → Allows g l
  | [], _, h => h
  | _ :: pre, _, h => Allows.drop pre h.2

/-- The steps of a program run alone go from where it starts to where it ends. -/
theorem chain_trace : ∀ (p : Steps σ α) (s : σ), Chain s (p.trace s) (p.run s).2
  | .done _, _ => rfl
  | .step _ n, s => ⟨rfl, chain_trace (n s) _⟩
  | .pause _ _ n, s => chain_trace n s

end Steps

/-! ## What runs are made of -/

namespace Op

/-- The ids an operation draws: one for a new transaction or a new branch. -/
def draws : Op → Nat
  | .begin .. | .register .. => 1
  | _ => 0

/-- The transaction whose global outcome the operation reports. -/
def Reports : Op → String → Prop
  | .globalReport x _, y => y = x
  | _, _ => False

end Op

namespace Event

/-- The ids an event draws. -/
def draws : Event → Nat
  | op o => o.draws
  | _ => 0

/-- Event `e`, from `env`, reports the global outcome of `x` with success. -/
def Reports (c : Config) (e : Event) (env : Env) (x : String) : Prop :=
  ∃ o, e = .op o ∧ o.Reports x ∧ (Steps.run (o.program c).run env).1.isOk = true

/-- The steps of an event from `env`, each as the states before and after it: those of an
operation run alone, or the one change of the world. -/
def steps (c : Config) : Event → Env → List (Env × Env)
  | op o, env => Steps.trace (o.program c).run env
  | e, env => [(env, e.apply c env)]

theorem chain_steps (c : Config) (e : Event) (env : Env) :
    Chain env (e.steps c env) (e.apply c env) := by
  cases e with
  | op o => exact chain_trace _ _
  | script _ _ | advance _ | failWrites _ | failReads _ => exact ⟨rfl, rfl⟩

end Event

/-- The transactions whose global outcome was reported with success along a run. -/
def ReportedIn (c : Config) : List Event → Env → String → Prop
  | [], _, _ => False
  | e :: es, env, x => e.Reports c env x ∨ ReportedIn c es (e.apply c env) x

/-- The steps of a run, each as the states before and after it. -/
def runTrace (c : Config) : List Event → Env → List (Env × Env)
  | [], _ => []
  | e :: es, env => e.steps c env ++ runTrace c es (e.apply c env)

/-- The steps of a run go from where it starts to where it ends. -/
theorem chain_runTrace (c : Config) :
    ∀ (events : List Event) (env : Env),
      Chain env (runTrace c events env) (runEvents c events env)
  | [], _ => rfl
  | e :: es, env => (e.chain_steps c env).append (chain_runTrace c es _)

/-! ## Every operation, every event, every run -/

namespace CoordM

variable {c : Config} {m : Nat} {R : String → Prop} {env : Env}

theorem agreeing_discard {α : Type} {p : CoordM α}
    (hp : p.Agreeing c m R (fun _ env' => env'.Agrees c m R) env) :
    (discard p).Agreeing c m R (fun _ env' => env'.Agrees c m R) env :=
  guarded_discard Env.stepAgrees_lasting hp fun _ _ h => h

/-- A program that keeps the agreement keeps it on success with more transactions set apart. -/
theorem Agreeing.setApart {α : Type} {p : CoordM α} (R' : String → Prop)
    (hp : p.Agreeing c m R (fun _ env' => env'.Agrees c m R) env) :
    p.run.Guarded (Env.Agrees c m R) Env.Grows Env.StepAgrees
      (Ends (fun _ env' => env'.Agrees c m R) fun _ env' =>
        env'.Agrees c m fun y => R y ∨ R' y) env :=
  hp.mono fun r _ hr => match r, hr with
    | .ok _, h => h.setApart R'
    | .error _, h => h

/-- Every operation keeps the agreement with the ids it draws used up, and on success with the
transaction whose outcome it reports set apart. -/
theorem guarded_program (o : Op) (h : env.Agrees c m R) (hm : o.draws ≤ m) :
    (o.program c).run.Guarded (Env.Agrees c (m - o.draws) R) Env.Grows Env.StepAgrees
      (Ends (fun _ env' => env'.Agrees c (m - o.draws) R) fun _ env' =>
        env'.Agrees c (m - o.draws) fun y => R y ∨ o.Reports y) env := by
  cases o with
  | begin a g n timeout => exact (agreeing_discard (agreeing_begin a g n timeout h hm)).setApart _
  | register bt r cl x d k =>
    exact (agreeing_discard (agreeing_register bt r cl x d k h hm)).setApart _
  | report x id st d => exact (agreeing_report x id st d h).setApart _
  | commit x => exact (agreeing_discard (agreeing_commit x h)).setApart _
  | rollback x => exact (agreeing_discard (agreeing_rollback x h)).setApart _
  | status x => exact (agreeing_discard (agreeing_status x h)).setApart _
  | globalReport x st =>
    exact guarded_discard Env.stepAgrees_lasting (guarded_globalReport x st h) fun _ _ h' => h'
  | lockQuery bt r x k => exact (agreeing_discard (agreeing_lockQuery bt r x k h)).setApart _
  | recover => exact (agreeing_discard (agreeing_recover h)).setApart _
  | scan kind => exact (agreeing_discard (agreeing_scanNow kind h)).setApart _
  | deleteGlobal x => exact (agreeing_deleteGlobal x h).setApart _
  | forceDeleteGlobal x => exact (agreeing_forceDeleteGlobal x h).setApart _
  | stopRetry x => exact (agreeing_discard (agreeing_stopRetry x h)).setApart _
  | startRetry x => exact (agreeing_discard (agreeing_startRetry x h)).setApart _
  | send x => exact (agreeing_discard (agreeing_send x h)).setApart _
  | changeStatus x => exact (agreeing_discard (agreeing_changeStatus x h)).setApart _
  | deleteBranch x id => exact (agreeing_deleteBranch x id h).setApart _
  | forceDeleteBranch x id => exact (agreeing_forceDeleteBranch x id h).setApart _

end CoordM

namespace Env

variable {c : Config} {m : Nat} {R : String → Prop} {env : Env}

/-- Where a run starts the agreement holds, with up to the generator's period of ids to draw. -/
theorem Fresh.agrees (h : env.Fresh) (hm : m ≤ counterLimit) : env.Agrees c m R := by
  have hnone : ∀ x, env.stored x = none := fun x => by rw [stored, h.sessions]; rfl
  have hsent : ∀ a x bid, ¬ env.Sent a x bid := by
    rintro a x bid ⟨st, hs⟩
    rw [h.calls] at hs
    cases hs
  have hlogged : ∀ x, ¬ env.Logged x := by
    rintro x ⟨a, bid, hs⟩
    exact hsent a x bid hs
  refine ⟨⟨{}, {}, h.sessions, h.locks, h.faults⟩, fun x g hg => ?_, ⟨hm, fun j _ => ?_⟩,
    fun x _ d bid hs => (hsent _ x bid hs).elim⟩
  · rw [hnone] at hg
    cases hg
  · refine ⟨hnone _, hlogged _, fun x g hg => ?_⟩
    rw [hnone] at hg
    cases hg

/-- One event keeps the agreement, with the ids it draws used up and the transaction whose
outcome it reports with success set apart; each of its steps is allowed. -/
theorem Agrees.apply (h : env.Agrees c m R) (e : Event) (hf : e.injectsFailure = false)
    (hm : e.draws ≤ m) :
    Allows StepAgrees (e.steps c env) ∧
      (e.apply c env).Agrees c (m - e.draws) fun y => R y ∨ e.Reports c env y := by
  cases e with
  | op o =>
    -- the operation runs alone, its waits ending at once
    obtain ⟨hallow, hend⟩ := Guarded.allows_trace grows_refl stepAgrees_lasting
      (CoordM.guarded_program o h hm)
    refine ⟨hallow, ?_⟩
    show Agrees c (m - o.draws) _ (Steps.run (o.program c).run env).2
    revert hend
    cases hr : (Steps.run (o.program c).run env).1 with
    | error _ => exact fun hend => hend.setApart _
    | ok _ =>
      refine fun hend => hend.mono (Nat.le_refl _) fun y hy => hy.imp_right fun hy => ?_
      exact ⟨o, rfl, hy, by rw [hr]; rfl⟩
  | script id rs =>
    -- the participant of a branch queues more replies: nothing a request logs changes
    have hcalls : (env.participants.script id rs).calls = env.participants.calls := rfl
    refine ⟨⟨stepAgrees_of_frame [] hcalls fun _ => rfl, trivial⟩, ?_⟩
    obtain ⟨t, lt, hq⟩ := h.quiet
    have h' : (Event.apply c (.script id rs) env).Agrees c m R :=
      h.of_frame ⟨t, lt, hq.of_eq rfl rfl rfl⟩ (fun _ => rfl) rfl fun _ _ _ => Iff.rfl
    exact h'.setApart _
  | advance span =>
    refine ⟨⟨stepAgrees_of_frame [] rfl fun _ => rfl, trivial⟩, ?_⟩
    obtain ⟨t, lt, hq⟩ := h.quiet
    have h' : (Event.apply c (.advance span) env).Agrees c m R :=
      h.of_frame ⟨t, lt, hq.of_eq rfl rfl rfl⟩ (fun _ => rfl) rfl fun _ _ _ => Iff.rfl
    exact h'.setApart _
  | failWrites n => cases hf
  | failReads n => cases hf

/-- Every run without injected store failures that draws at most `m` ids keeps the agreement,
with the transactions whose outcome was reported set apart, and takes only allowed steps.  By
induction on the events. -/
theorem Agrees.runEvents (c : Config) :
    ∀ (events : List Event) {m : Nat} {R : String → Prop} {env : Env}, env.Agrees c m R →
      (∀ e ∈ events, e.injectsFailure = false) → (events.map Event.draws).sum ≤ m →
      Allows StepAgrees (runTrace c events env) ∧
        (GlobalTxn.runEvents c events env).Agrees c (m - (events.map Event.draws).sum)
          fun y => R y ∨ ReportedIn c events env y
  | [], _, _, _, h, _, _ => ⟨trivial, h.setApart _⟩
  | e :: es, m, R, env, h, hf, hm => by
    rw [List.map_cons, List.sum_cons] at hm ⊢
    obtain ⟨hallow, h₁⟩ := h.apply e (hf e List.mem_cons_self) (by omega)
    obtain ⟨hallow', h₂⟩ :=
      Agrees.runEvents c es h₁ (fun e' he' => hf e' (List.mem_cons_of_mem _ he'))
      (by omega)
    refine ⟨hallow.append stepAgrees_lasting _ hallow', ?_⟩
    rw [Nat.sub_add_eq]
    refine h₂.mono (Nat.le_refl _) fun y hy => ?_
    rcases hy with (hy | hy) | hy
    · exact .inl hy
    · exact .inr (.inl hy)
    · exact .inr (.inr hy)

/-! ## What allowed steps keep -/

variable {x : String} {bid : Nat}

theorem Grows.logged {env' : Env} (h : env.Grows env') (hx : env.Logged x) : env'.Logged x :=
  let ⟨a, bid, hs⟩ := hx
  ⟨a, bid, h.sent hs⟩

end Env

/-- Every call logged at the end of a chain of allowed steps was logged at its start or by one
of its steps.  By induction on the steps: each logs one call at most. -/
theorem Steps.Chain.logged : ∀ {e e' : Env} {l : List (Env × Env)}, Chain e l e' →
    Allows Env.StepAgrees l → ∀ call ∈ e'.participants.calls,
      call ∈ e.participants.calls ∨
      ∃ pre q post, l = pre ++ q :: post ∧
        q.2.participants.calls = q.1.participants.calls ++ [call]
  | _, _, [], he, _, call, hc => .inl (he ▸ hc)
  | e, e', q :: l, ⟨hq, hchain⟩, ⟨hstep, hallow⟩, call, hc => by
    rcases Chain.logged hchain hallow call hc with hc | ⟨pre, q', post, rfl, hcalls⟩
    · subst e
      rcases hstep.logs with hkeep | ⟨call', hone⟩
      · exact .inl (hkeep ▸ hc)
      · rw [hone, List.mem_append, List.mem_singleton] at hc
        rcases hc with hc | rfl
        · exact .inl hc
        · exact .inr ⟨[], q, l, rfl, hone⟩
    · exact .inr ⟨q :: pre, q', post, rfl, hcalls⟩

section Settled

variable {x : String} {bid : Nat}

/-- Along allowed steps from a state where requests about `x` were sent, its session past
`begin` and without branch `bid`, the session never holds the branch again, so no request
about the branch is sent.  By induction on the steps, each of which keeps `x` settled. -/
theorem Steps.Chain.not_holds : ∀ {e e' : Env} {l : List (Env × Env)}, Chain e l e' →
    Allows Env.StepAgrees l → e.Logged x → e.PastBegin x → ¬ e.Holds x bid →
      ∀ q ∈ l, ∀ d : Direction, ¬ q.1.Sends q.2 d.action x bid := by
  intro e e' l
  induction l generalizing e with
  | nil => exact fun _ _ _ _ _ _ hq => nomatch hq
  | cons q l ih =>
    rintro ⟨rfl, hchain⟩ ⟨hstep, hallow⟩ hlog hpast hnot
    -- a request about the branch is sent only while the session holds it
    have hno : ∀ d : Direction, ¬ q.1.Sends q.2 d.action x bid := fun d hs => by
      obtain ⟨g, hg, -, hid, -⟩ := hstep.sent d x bid hs
      exact hnot ⟨g, hg, hid⟩
    have hlog' := hstep.le.logged hlog
    obtain ⟨hpast', hkeep⟩ := hstep.settled x hlog' hpast
    intro q' hq' d
    rcases List.mem_cons.1 hq' with rfl | hq'
    · exact hno d
    · exact ih hchain hallow hlog' hpast' (hkeep bid hnot) q' hq' d

/-- Along allowed steps that remove branch `bid` of `x` before any request, from a state where
requests about `x` were sent and its session is past `begin`, no request about the branch is
sent. -/
theorem Steps.Chain.removes : ∀ {e e' : Env} {l : List (Env × Env)}, Chain e l e' →
    Allows Env.StepAgrees l → Env.Removes x bid l → e.Logged x → e.PastBegin x →
      ∀ q ∈ l, ∀ d : Direction, ¬ q.1.Sends q.2 d.action x bid
  | _, _, [], _, _, hr, _, _ => hr.elim
  | _, _, q :: _, ⟨hq, hchain⟩, ⟨hstep, hallow⟩, ⟨hcalls, hrest⟩, hlog, hpast => by
    subst hq
    -- the step before the removal logs nothing
    have hno : ∀ d : Direction, ¬ q.1.Sends q.2 d.action x bid := fun d ⟨st, hs⟩ => by
      rw [hcalls] at hs
      simp at hs
    have hlog' := hstep.le.logged hlog
    obtain ⟨hpast', -⟩ := hstep.settled x hlog' hpast
    intro q' hq' d
    rcases List.mem_cons.1 hq' with rfl | hq'
    · exact hno d
    · rcases hrest with hgone | hrem
      · exact Chain.not_holds hchain hallow hlog' hpast' hgone q' hq' d
      · exact Chain.removes hchain hallow hrem hlog' hpast' q' hq' d

end Settled

/-! ## Phase-two agreement -/

/-- What phase-two agreement asks of the run of `events` from `start`. -/
structure PhaseTwoAgreement (c : Config) (events : List Event) (start : Env) : Prop where
  /-- No transaction has both a commit and a rollback request about its branches, unless a
  participant reported its global outcome with success. -/
  oneWay : ∀ x bid bid', (runEvents c events start).Sent .commit x bid →
    (runEvents c events start).Sent .rollback x bid' → ReportedIn c events start x
  /-- Every commit or rollback request is sent by a step from a state where the session is
  stored in a status bound to the request's direction, with the branch. -/
  sentBound : ∀ (d : Direction) x bid st,
    Call.branch d.action x bid st ∈ (runEvents c events start).participants.calls →
      ∃ pre q post, runTrace c events start = pre ++ q :: post ∧
        q.2.participants.calls = q.1.participants.calls ++ [.branch d.action x bid st] ∧
        ∃ g, q.1.stored x = some g ∧ d.bound g.status = true ∧ bid ∈ g.branchIds
  /-- Once a participant answers a phase-two request with an outcome that ends phase two of
  its branch, no phase-two request about the branch is sent again. -/
  doneIsFinal : ∀ pre q post, runTrace c events start = pre ++ q :: post →
    ∀ (d : Direction) x bid, q.1.Sends q.2 d.action x bid → q.1.AnswersDone d x bid →
      ∀ q' ∈ post, ∀ d' : Direction, ¬ q'.1.Sends q'.2 d'.action x bid

/-- Along every run from empty stores in which no store call is made to fail and at most
`2 ^ 53` ids are drawn, phase two goes one way. -/
theorem phaseTwo_goes_one_way (c : Config) (events : List Event) {start : Env}
    (hstart : start.Fresh) (hfaults : ∀ e ∈ events, e.injectsFailure = false)
    (hids : (events.map Event.draws).sum ≤ 2 ^ 53) : PhaseTwoAgreement c events start := by
  obtain ⟨hallow, hend⟩ := Env.Agrees.runEvents c events
    (hstart.agrees (c := c) (R := fun _ => False) (Nat.le_trans hids (by decide))) hfaults
    (Nat.le_refl _)
  have hchain := chain_runTrace c events start
  refine ⟨fun x bid bid' hc hr => ?_, fun d x bid st hmem => ?_,
    fun pre q post hl d x bid hsends hdone => ?_⟩
  · -- the requests about a transaction not set apart all go one way
    refine Classical.byContradiction fun hx => ?_
    have hR : ¬ (False ∨ ReportedIn c events start x) := by
      rintro (h | h)
      · exact h
      · exact hx h
    cases (hend.directed x hR .commit bid hc).2 .rollback bid' hr
  · -- the request was logged by a step, which the step guarantee allows
    rcases hchain.logged hallow _ hmem with hc | ⟨pre, q, post, hl, hcalls⟩
    · rw [hstart.calls] at hc
      cases hc
    · obtain ⟨g, hg, hb, hid, -⟩ :=
        (Allows.of_eq_append pre hallow hl).sent d x bid ⟨st, hcalls⟩
      exact ⟨pre, q, post, hl, hcalls, g, hg, hb, hid⟩
  · -- the branch is removed before any further request, and never held again
    have hstep := Allows.of_eq_append pre hallow hl
    obtain ⟨g, hg, hb, -, hremoves⟩ := hstep.sent d x bid hsends
    have hpast : q.1.PastBegin x := fun g' hg' => by
      rw [hg] at hg'
      cases hg'
      exact Direction.ne_begin_of_bound hb
    have hlog : q.2.Logged x := ⟨_, _, hsends.sent⟩
    obtain ⟨hpast', -⟩ := hstep.settled x hlog hpast
    rw [hl] at hchain hallow
    obtain ⟨_, -, hpost⟩ := Chain.drop pre hchain
    exact Chain.removes hpost (Allows.drop pre hallow).2 (hremoves hdone) hlog hpast'

/-- A run that begins a transaction, registers a branch and commits it. -/
theorem phaseTwo_goes_one_way_after_commit :
    ({ clock := ⟨0⟩, ids := ⟨1, 0⟩ } : Env).Fresh ∧
      (∀ e ∈ [Event.op (.begin "app" "group" "tx" 60000),
        .op (.register .at "db" "cli" (formatXid ({} : Config).address 1) "" "t:1"),
        .op (.commit (formatXid ({} : Config).address 1))], e.injectsFailure = false) ∧
      ([Event.op (.begin "app" "group" "tx" 60000),
        .op (.register .at "db" "cli" (formatXid ({} : Config).address 1) "" "t:1"),
        .op (.commit (formatXid ({} : Config).address 1))].map Event.draws).sum ≤ 2 ^ 53 ∧
      PhaseTwoAgreement {} [.op (.begin "app" "group" "tx" 60000),
        .op (.register .at "db" "cli" (formatXid ({} : Config).address 1) "" "t:1"),
        .op (.commit (formatXid ({} : Config).address 1))]
        { clock := ⟨0⟩, ids := ⟨1, 0⟩ } :=
  ⟨⟨rfl, rfl, rfl, rfl⟩, by decide, by decide,
    phaseTwo_goes_one_way {} _ ⟨rfl, rfl, rfl, rfl⟩ (by decide) (by decide)⟩

end GlobalTxn
