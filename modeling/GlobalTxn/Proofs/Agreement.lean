import GlobalTxn.Proofs.Guarded
import GlobalTxn.Proofs.LegalTransitions
import GlobalTxn.Proofs.HeldRowsCalls
import GlobalTxn.Proofs.IdLayout
import GlobalTxn.Proofs.Xid

/-! # What phase-two agreement keeps

Phase two of a transaction goes one way: once a commit or a rollback request about one of its
branches is sent, its session only takes statuses on that side (`Direction.side`), which the
state machine never leaves (`Direction.side_canTransitTo`).  Only a participant's report of
the global outcome sets a status outside the state machine.

`Env.Agrees c m R env` is what the coordinator keeps between its steps, outside the
transactions `R` whose outcome was reported:

* no store call fails, and sessions and row locks are kept in tables (`Env.Quiet`);
* every stored session is sound: distinct branch ids, branches of its own, well-formed lock
  keys (`GlobalSession.Sound`);
* the next `m` ids the generator gives are in no use (`Env.FreshIds`), so that a new session
  or branch never takes an xid or branch id seen before;
* phase two of every other transaction went one way, and its stored session is on that side
  (`Env.Directed`).

`Env.StepAgrees` is what every step guarantees, seeing the steps that follow it: the request
log gains one call at most; a phase-two request is sent while the stored session is bound to
that direction and holds the branch, and a branch whose participant answers with success is
removed before any other request; a session that requests were sent about stays past `begin`
and gains no branch.

## Key results

- `Direction.side_canTransitTo`: the state machine never leaves a side.
- `Env.stepAgrees_lasting`: the step guarantee survives more steps after it.
- `Env.Agrees.update`, `Env.Agrees.addBranch`, `Env.Agrees.add`, `Env.Agrees.request`,
  `Env.Agrees.draw`: what each kind of change keeps.
-/

namespace GlobalTxn

namespace GlobalStatus

theorem canTransitTo_begin (s : GlobalStatus) : s.canTransitTo .begin = false := by
  cases s <;> rfl

end GlobalStatus

namespace Direction

/-- The statuses a session may take once phase two went in direction `d`: those of that
direction, `finished`, and `deleting`. -/
def side : Direction → GlobalStatus → Bool
  | commit, s =>
    [.committing, .commitRetrying, .asyncCommitting, .stopCommitOrCommitRetry, .committed,
      .commitFailed, .commitRetryTimeout, .finished, .deleting].contains s
  | rollback, s =>
    [.rollbacking, .rollbackRetrying, .timeoutRollbacking, .timeoutRollbackRetrying,
      .stopRollbackOrRollbackRetry, .rollbacked, .rollbackFailed, .timeoutRollbacked,
      .rollbackRetryTimeout, .timeoutRollbackRetryTimeout, .finished, .deleting].contains s

variable {d d' : Direction} {s t : GlobalStatus}

theorem side_of_bound (h : d.bound s = true) : d.side s = true := by
  revert h
  cases d <;> cases s <;> decide

/-- The state machine never leaves a side. -/
theorem side_canTransitTo (hs : d.side s = true) (ht : s.canTransitTo t = true) :
    d.side t = true := by
  -- every edge out of every status of the side, checked over the list of all statuses
  have hall : ∀ s ∈ GlobalStatus.all, ∀ t ∈ GlobalStatus.all,
      d.side s = true → s.canTransitTo t = true → d.side t = true := by
    cases d <;> decide
  exact hall s (GlobalStatus.mem_all s) t (GlobalStatus.mem_all t) hs ht

/-- A status bound to one direction lies on no other side. -/
theorem eq_of_bound_of_side (hb : d.bound s = true) (hs : d'.side s = true) : d' = d := by
  revert hb hs
  cases d <;> cases d' <;> cases s <;> decide

theorem ne_begin_of_bound (h : d.bound s = true) : s ≠ .begin := by
  rintro rfl
  cases d <;> cases h

theorem action_injective (h : d.action = d'.action) : d = d' := by
  cases d <;> cases d' <;> first | rfl | cases h

theorem action_ne_delete (d : Direction) : d.action ≠ .delete := by
  cases d <;> nofun

end Direction

namespace Participants

/-- The status a participant answers a phase-two request about branch `bid` with, where `done`
is the status of success: its next scripted status, or success when nothing is queued or the
reply is meant for a delete.  It answers none when it cannot be reached or stays silent. -/
def phaseTwoAnswer (p : Participants) (bid : Nat) (done : BranchStatus) : Option BranchStatus :=
  match p.queue bid with
  | [] => some done
  | .deleted _ :: _ => some done
  | .status s :: _ => some s
  | .unreachable :: _ => none
  | .hang :: _ => none

theorem calls_request (p : Participants) (a : Action) (b : Branch) :
    (p.request a b).2.calls = p.calls ++ [.branch a b.xid b.branchId b.status] := by
  unfold request
  dsimp only
  split <;> rfl

/-- The reply to a request is the head of the branch's queue. -/
theorem fst_request (p : Participants) (a : Action) (b : Branch) :
    (p.request a b).1 = (p.queue b.branchId).head? := by
  unfold request queue
  dsimp only
  split <;> rename_i h <;> rw [h] <;> rfl

end Participants

namespace Env

/-- A request asking `a` about branch `bid` of transaction `x` has been sent. -/
def Sent (env : Env) (a : Action) (x : String) (bid : Nat) : Prop :=
  ∃ st, Call.branch a x bid st ∈ env.participants.calls

/-- Some request about a branch of transaction `x` has been sent. -/
def Logged (env : Env) (x : String) : Prop := ∃ a bid, env.Sent a x bid

/-- The step from `env` to `env'` sends a request asking `a` about branch `bid` of `x`. -/
def Sends (env env' : Env) (a : Action) (x : String) (bid : Nat) : Prop :=
  ∃ st, env'.participants.calls = env.participants.calls ++ [.branch a x bid st]

theorem Sends.sent {env env' : Env} {a : Action} {x : String} {bid : Nat}
    (h : env.Sends env' a x bid) : env'.Sent a x bid :=
  let ⟨st, hs⟩ := h
  ⟨st, by rw [hs]; exact List.mem_append_right _ (List.mem_singleton_self _)⟩

/-- The session stored under `x`, if any, is past `begin`. -/
def PastBegin (env : Env) (x : String) : Prop := ∀ g, env.stored x = some g → g.status ≠ .begin

/-- The session stored under `x` has a branch with id `bid`. -/
def Holds (env : Env) (x : String) (bid : Nat) : Prop :=
  ∃ g, env.stored x = some g ∧ bid ∈ g.branchIds

/-- Every request logged in `env` is still logged in `env'`, in front of the new ones. -/
def Grows (env env' : Env) : Prop := env.participants.calls <+: env'.participants.calls

/-- The participant of branch `bid` of `x` answers a phase-two request of direction `d` with a
status that ends phase two of the branch as it is stored. -/
def AnswersDone (env : Env) (d : Direction) (x : String) (bid : Nat) : Prop :=
  ∃ g b r, env.stored x = some g ∧ g.findBranch? bid = some b ∧
    env.participants.phaseTwoAnswer bid d.doneStatus = some r ∧ d.outcome b r = .done

/-- Before any further request is sent, one of the steps removes branch `bid` from the session
of `x`. -/
def Removes (x : String) (bid : Nat) : List (Env × Env) → Prop
  | [] => False
  | q :: l =>
    q.2.participants.calls = q.1.participants.calls ∧ (¬ q.2.Holds x bid ∨ Removes x bid l)

theorem Removes.mono {x : String} {bid : Nat} :
    ∀ {l l' : List (Env × Env)}, l <+: l' → Removes x bid l → Removes x bid l'
  | [], _, _, h => h.elim
  | _ :: _, [], hl, _ => (List.cons_ne_nil _ _ (List.prefix_nil.1 hl)).elim
  | q :: l, q' :: l', hl, ⟨hcalls, hrest⟩ => by
    obtain ⟨rfl, hl'⟩ := List.cons_prefix_cons.1 hl
    exact ⟨hcalls, hrest.imp_right (Removes.mono hl')⟩

/-- The step from `env` to `env'` sends no request. -/
def KeepsCalls (env env' : Env) (_ : List (Env × Env)) : Prop :=
  env'.participants.calls = env.participants.calls

theorem keepsCalls_lasting : Steps.Lasting KeepsCalls := fun _ _ _ _ _ h => h

/-- A program that sends no request, never pauses, and ends where branch `bid` of `x` is no
longer held, removes the branch before any request when it starts where the branch is held. -/
theorem removes_of_guarded {α : Type} {le : Env → Env → Prop} {x : String} {bid : Nat}
    {post : α → Env → Prop} (hpost : ∀ a e, post a e → ¬ e.Holds x bid) :
    ∀ {p : Steps Env α} {s : Env}, s.Holds x bid →
      p.Guarded (fun _ => False) le KeepsCalls post s → Removes x bid (Steps.segment p s)
  | .done a, s, hs, h => (hpost a s h hs).elim
  | .step u n, s, _, h => by
    refine ⟨h.1, ?_⟩
    by_cases hu : (u s).Holds x bid
    · exact .inr (removes_of_guarded hpost hu h.2)
    · exact .inl hu
  | .pause _ _ _, _, _, h => h.1.elim

/-- The step from `env` to `env'` logs at most one call, after those logged before. -/
def LogsOne (env env' : Env) : Prop :=
  env'.participants.calls = env.participants.calls ∨
    ∃ call, env'.participants.calls = env.participants.calls ++ [call]

theorem LogsOne.grows {env env' : Env} (h : env.LogsOne env') : env.Grows env' := by
  unfold Grows
  rcases h with h | ⟨call, h⟩
  · exact h ▸ List.prefix_refl _
  · exact h ▸ List.prefix_append _ _

/-- What every step guarantees, seeing the steps that follow it. -/
structure StepAgrees (env env' : Env) (rest : List (Env × Env)) : Prop where
  /-- The request log keeps its calls and gains one at most. -/
  logs : env.LogsOne env'
  /-- A phase-two request is sent while the session is stored in a status bound to that
  direction and holds the branch; if the participant answers with success, the branch is
  removed before any further request. -/
  sent : ∀ d x bid, env.Sends env' d.action x bid →
    ∃ g, env.stored x = some g ∧ d.bound g.status = true ∧ bid ∈ g.branchIds ∧
      (env.AnswersDone d x bid → Removes x bid rest)
  /-- A session that requests were sent about stays past `begin` and gains no branch. -/
  settled : ∀ x, env'.Logged x → env.PastBegin x →
    env'.PastBegin x ∧ ∀ bid, ¬ env.Holds x bid → ¬ env'.Holds x bid

theorem grows_refl (env : Env) : env.Grows env := List.prefix_refl _

theorem grows_trans (a b c : Env) (hab : a.Grows b) (hbc : b.Grows c) : a.Grows c :=
  hab.trans hbc

theorem stepAgrees_lasting : Steps.Lasting StepAgrees := by
  intro env env' l l' hl h
  refine ⟨h.logs, fun d x bid hs => ?_, h.settled⟩
  obtain ⟨g, hg, hb, hid, hdone⟩ := h.sent d x bid hs
  exact ⟨g, hg, hb, hid, fun ha => (hdone ha).mono hl⟩

theorem StepAgrees.le {env env' : Env} {l : List (Env × Env)} (h : StepAgrees env env' l) :
    env.Grows env' :=
  h.logs.grows

/-- A step that sends no request and changes no stored session is allowed. -/
theorem stepAgrees_of_frame {env env' : Env} (l : List (Env × Env))
    (hcalls : env'.participants.calls = env.participants.calls)
    (hstored : ∀ x, env'.stored x = env.stored x) : StepAgrees env env' l := by
  refine ⟨.inl hcalls, fun d x bid ⟨st, hs⟩ => ?_, fun x _ hpast => ?_⟩
  · rw [hcalls] at hs
    simp at hs
  · refine ⟨fun g hg => hpast g ((hstored x).symm ▸ hg), fun bid hbid ⟨g, hg, hb⟩ => ?_⟩
    exact hbid ⟨g, (hstored x) ▸ hg, hb⟩

/-- Sessions and row locks are kept in the tables `t` and `lt`, and no store call is set to
fail. -/
structure Quiet (env : Env) (t : SessionTable) (lt : LockTable) : Prop where
  sessions : env.sessions = .table t
  locks : env.locks = .table lt
  faults : env.faults = {}

variable {env : Env} {t : SessionTable} {lt : LockTable}

theorem Quiet.at (h : env.Quiet t lt) : env.At t lt :=
  ⟨h.sessions, h.locks, by rw [h.faults], by rw [h.faults]⟩

theorem Quiet.stored (h : env.Quiet t lt) (x : String) : env.stored x = t.find? x := by
  rw [Env.stored, h.sessions]

/-- Stores kept where they were, with the same faults, stay quiet. -/
theorem Quiet.of_eq (h : env.Quiet t lt) {env' : Env} (hs : env'.sessions = env.sessions)
    (hl : env'.locks = env.locks) (hf : env'.faults = env.faults) : env'.Quiet t lt :=
  ⟨hs.trans h.sessions, hl.trans h.locks, hf.trans h.faults⟩

theorem Quiet.with_sessions (h : env.Quiet t lt) : { env with sessions := .table t } = env := by
  obtain ⟨hs, -, -⟩ := h
  cases env
  cases hs
  rfl

/-- `env'` keeps the sessions, the store faults, the id generator and the requests sent of
`env`; its row locks, still kept in a table, the clock, the timers, the latches and the scripted
replies may differ. -/
structure Frame (env env' : Env) : Prop where
  sessions : env'.sessions = env.sessions
  locks : ∃ lt, env'.locks = .table lt
  faults : env'.faults = env.faults
  ids : env'.ids = env.ids
  calls : env'.participants.calls = env.participants.calls

theorem Quiet.frame (h : env.Quiet t lt) : env.Frame env :=
  ⟨rfl, ⟨lt, h.locks⟩, rfl, rfl, rfl⟩

theorem Frame.trans {env₁ env₂ : Env} (h₁ : env.Frame env₁) (h₂ : env₁.Frame env₂) :
    env.Frame env₂ :=
  ⟨h₂.sessions.trans h₁.sessions, h₂.locks, h₂.faults.trans h₁.faults, h₂.ids.trans h₁.ids,
    h₂.calls.trans h₁.calls⟩

theorem Frame.stored {env' : Env} (h : env.Frame env') (x : String) :
    env'.stored x = env.stored x := by
  rw [Env.stored, Env.stored, h.sessions]

theorem Frame.quiet {env' : Env} (h : env.Frame env') (hq : env.Quiet t lt) :
    ∃ lt', env'.Quiet t lt' :=
  let ⟨lt', hl⟩ := h.locks
  ⟨lt', h.sessions.trans hq.sessions, hl, h.faults.trans hq.faults⟩

theorem Frame.sent {env' : Env} (h : env.Frame env') (a : Action) (x : String) (bid : Nat) :
    env'.Sent a x bid ↔ env.Sent a x bid := by
  rw [Sent, Sent, h.calls]

theorem Frame.grows {env' : Env} (h : env.Frame env') : env.Grows env' := by
  unfold Grows
  exact h.calls ▸ List.prefix_refl _

/-- A step that changes nothing but the row locks and what no store call reads is allowed. -/
theorem stepAgrees_frame {env' : Env} (h : env.Frame env') (l : List (Env × Env)) :
    StepAgrees env env' l :=
  stepAgrees_of_frame l h.calls h.stored

end Env

theorem formatXid_injective {address : String} {i j : Nat}
    (h : formatXid address i = formatXid address j) : i = j := by
  have hl := congrArg String.toList h
  rw [toList_formatXid, toList_formatXid] at hl
  have hd : Nat.toDigits 10 i = Nat.toDigits 10 j := (List.cons.inj (List.append_cancel_left hl)).2
  rw [← decimalValue_toDigits i, ← decimalValue_toDigits j, hd]

namespace GlobalSession

variable {s : GlobalSession} {b : Branch} {id : Nat}

theorem branchIds_removeBranch : (s.removeBranch id).branchIds = s.branchIds.erase id := by
  simp only [branchIds, removeBranch]
  rw [List.erase_eq_eraseP, List.eraseP_map]
  congr 2
  funext c
  exact Bool.beq_comm

theorem branchIds_replaceBranch : (s.replaceBranch b).branchIds = s.branchIds := by
  obtain ⟨xid, tid, app, group, name, status, timeout, begin, upd, data, bs⟩ := s
  simp only [branchIds, replaceBranch]
  induction bs with
  | nil => rfl
  | cons c bs ih =>
    simp only [replaceBranch.replaceFirst]
    split
    · rename_i hc
      simp only [List.map_cons, (beq_iff_eq.1 hc).symm]
    · simp only [List.map_cons, ih]

/-- The branch ids of a session are distinct, and each branch belongs to the session and has a
well-formed lock key. -/
def Sound (g : GlobalSession) : Prop :=
  g.branchIds.Nodup ∧ ∀ b ∈ g.branches, b.xid = g.xid ∧ ∃ ls, LockManager.collect b = .ok ls

theorem Sound.removeBranch (h : s.Sound) (id : Nat) : (s.removeBranch id).Sound := by
  refine ⟨?_, fun c hc => h.2 c (mem_removeBranch hc)⟩
  rw [branchIds_removeBranch]
  exact h.1.erase id

/-- With distinct branch ids, removing a branch removes its id. -/
theorem Sound.not_mem_removeBranch (h : s.Sound) (id : Nat) :
    id ∉ (s.removeBranch id).branchIds := by
  rw [branchIds_removeBranch]
  exact h.1.not_mem_erase

theorem Sound.replaceBranch (h : s.Sound) (hxid : b.xid = s.xid)
    (hls : ∃ ls, LockManager.collect b = .ok ls) : (s.replaceBranch b).Sound := by
  refine ⟨by rw [branchIds_replaceBranch]; exact h.1, fun c hc => ?_⟩
  rcases mem_replaceBranch hc with hc | rfl
  · exact h.2 c hc
  · exact ⟨hxid, hls⟩

theorem Sound.addBranch (h : s.Sound) (hid : b.branchId ∉ s.branchIds) (hxid : b.xid = s.xid)
    (hls : ∃ ls, LockManager.collect b = .ok ls) : (s.addBranch b).Sound := by
  refine ⟨?_, fun c hc => ?_⟩
  · rw [branchIds_addBranch, List.nodup_append]
    refine ⟨h.1, List.nodup_cons.2 ⟨List.not_mem_nil, List.nodup_nil⟩, fun a ha c hc => ?_⟩
    rw [List.mem_singleton.1 hc]
    rintro rfl
    exact hid ha
  · rcases List.mem_append.1 hc with hc | hc
    · exact h.2 c hc
    · rw [List.mem_singleton.1 hc]
      exact ⟨hxid, hls⟩

/-- A session written back with the stored branches of a session of the same xid is sound. -/
theorem Sound.withBranches {g : GlobalSession} (h : g.Sound) (hxid : s.xid = g.xid) :
    ({ s with branches := g.branches } : GlobalSession).Sound :=
  ⟨h.1, fun c hc => ⟨(h.2 c hc).1.trans hxid.symm, (h.2 c hc).2⟩⟩

end GlobalSession

namespace SessionTable

variable {t : SessionTable} {s g : GlobalSession} {x y : String}

theorem find?_remove_eq (x y : String) :
    (t.remove x).find? y = if x = y then none else t.find? y := by
  split
  · rename_i h
    subst h
    exact t.find?_remove x
  · exact find?_remove_of_ne ‹_›

theorem find?_removeBranch (hg : t.find? x = some g) (id : Nat) (y : String) :
    (t.removeBranch x id).find? y = if x = y then some (g.removeBranch id) else t.find? y := by
  rw [removeBranch_eq hg]
  have hxid : (g.removeBranch id).xid = x := (find?_eq_some hg).2
  exact hxid ▸ find?_put (hxid ▸ hg) y

/-- A session added under a free xid is found there, and nothing else changes. -/
theorem find?_append (hnone : t.find? s.xid = none) (y : String) :
    (⟨t.sessions ++ [s]⟩ : SessionTable).find? y = if s.xid = y then some s else t.find? y := by
  by_cases h : s.xid = y
  · subst h
    simp only [find?] at hnone
    simp [find?, hnone]
  · simp [find?, h]

end SessionTable

namespace Env

/-- The ids the generator gives in the next `m` draws are in no use: no session is stored and
no request logged under the xid made from one, and no stored branch has one as its id. -/
def FreshIds (c : Config) (m : Nat) (env : Env) : Prop :=
  m ≤ counterLimit ∧ ∀ j < m,
    env.stored (formatXid c.address (env.ids.skip j).next.1) = none ∧
      ¬ env.Logged (formatXid c.address (env.ids.skip j).next.1) ∧
      ∀ x g, env.stored x = some g → (env.ids.skip j).next.1 ∉ g.branchIds

/-- Outside the transactions `R`, the phase-two requests about the branches of one transaction
all go one way, and its stored session has a status on that side. -/
def Directed (R : String → Prop) (env : Env) : Prop :=
  ∀ x, ¬ R x → ∀ (d : Direction) bid, env.Sent d.action x bid →
    (∀ g, env.stored x = some g → d.side g.status = true) ∧
      ∀ (d' : Direction) bid', env.Sent d'.action x bid' → d' = d

/-- What the coordinator keeps between its steps, with `m` ids left to draw, outside the
transactions `R` whose outcome was reported. -/
structure Agrees (c : Config) (m : Nat) (R : String → Prop) (env : Env) : Prop where
  quiet : ∃ t lt, env.Quiet t lt
  sound : ∀ x g, env.stored x = some g → g.Sound
  fresh : env.FreshIds c m
  directed : env.Directed R

variable {c : Config} {m : Nat} {R : String → Prop} {env : Env} {t : SessionTable}
  {lt : LockTable}

/-- A request sent about a branch of `x` joins those sent before. -/
theorem sent_withCalls {p : Participants} {a : Action} {x : String} {bid : Nat}
    {st : BranchStatus} (hcalls : p.calls = env.participants.calls ++ [.branch a x bid st])
    (a' : Action) (y : String) (bid' : Nat) :
    Sent { env with participants := p } a' y bid' ↔
      env.Sent a' y bid' ∨ (a' = a ∧ y = x ∧ bid' = bid) := by
  simp only [Sent, hcalls, List.mem_append, List.mem_singleton, Call.branch.injEq]
  constructor
  · rintro ⟨st', h | ⟨rfl, rfl, rfl, -⟩⟩
    · exact .inl ⟨st', h⟩
    · exact .inr ⟨rfl, rfl, rfl⟩
  · rintro (⟨st', h⟩ | ⟨rfl, rfl, rfl⟩)
    · exact ⟨st', .inl h⟩
    · exact ⟨st, .inr ⟨rfl, rfl, rfl, rfl⟩⟩

/-- A change that keeps the stored sessions, the id generator and the requests sent, and keeps
the stores quiet, keeps the agreement. -/
theorem Agrees.of_frame (h : env.Agrees c m R) {env' : Env} (hq : ∃ t lt, env'.Quiet t lt)
    (hstored : ∀ x, env'.stored x = env.stored x) (hids : env'.ids = env.ids)
    (hsent : ∀ a x bid, env'.Sent a x bid ↔ env.Sent a x bid) : env'.Agrees c m R := by
  have hlogged : ∀ x, env'.Logged x ↔ env.Logged x := fun x => by simp only [Logged, hsent]
  refine ⟨hq, fun x g hg => h.sound x g ((hstored x) ▸ hg), ⟨h.fresh.1, fun j hj => ?_⟩,
    fun x hx d bid hs => ?_⟩
  · obtain ⟨hnone, hnlog, hbr⟩ := h.fresh.2 j hj
    rw [hids, hstored, hlogged]
    exact ⟨hnone, hnlog, fun x g hg => hbr x g ((hstored x) ▸ hg)⟩
  · obtain ⟨hside, hagree⟩ := h.directed x hx d bid ((hsent _ _ _).1 hs)
    exact ⟨fun g hg => hside g ((hstored x) ▸ hg),
      fun d' bid' hs' => hagree d' bid' ((hsent _ _ _).1 hs')⟩

theorem Agrees.frame (h : env.Agrees c m R) {env' : Env} (hf : env.Frame env') :
    env'.Agrees c m R :=
  let ⟨t, _, hq⟩ := h.quiet
  h.of_frame ⟨t, hf.quiet hq⟩ hf.stored hf.ids hf.sent

/-- The agreement holds with fewer ids left to draw and more transactions set apart. -/
theorem Agrees.mono (h : env.Agrees c m R) {m' : Nat} {R' : String → Prop} (hm : m' ≤ m)
    (hR : ∀ x, R x → R' x) : env.Agrees c m' R' :=
  ⟨h.quiet, h.sound, ⟨Nat.le_trans hm h.fresh.1, fun j hj => h.fresh.2 j (by omega)⟩,
    fun x hx => h.directed x fun hr => hx (hR x hr)⟩

/-- A change of the session table that adds no session, gives no session a branch id but its
own ones and ids of no use, keeps every session sound, and keeps every transaction whose
requests went one way on its side, keeps the agreement. -/
theorem Agrees.withTable (h : env.Agrees c m R) (hq : env.Quiet t lt) {t' : SessionTable}
    (hsound : ∀ x g', t'.find? x = some g' → g'.Sound)
    (hkeep : ∀ x g', t'.find? x = some g' → ∃ g, t.find? x = some g ∧
      ∀ id ∈ g'.branchIds, id ∈ g.branchIds ∨ ∀ j < m, id ≠ (env.ids.skip j).next.1)
    (hside : ∀ x, ¬ R x → ∀ (d : Direction) bid, env.Sent d.action x bid →
      ∀ g', t'.find? x = some g' → d.side g'.status = true) :
    Agrees c m R { env with sessions := .table t' } := by
  refine ⟨⟨t', lt, rfl, hq.locks, hq.faults⟩, hsound, ⟨h.fresh.1, fun j hj => ?_⟩,
    fun x hx d bid hs => ⟨hside x hx d bid hs, (h.directed x hx d bid hs).2⟩⟩
  obtain ⟨hnone, hnlog, hbr⟩ := h.fresh.2 j hj
  rw [hq.stored] at hnone
  refine ⟨?_, hnlog, fun x g' hg' hid => ?_⟩
  · show t'.find? _ = none
    cases ht' : t'.find? (formatXid c.address (env.ids.skip j).next.1) with
    | none => rfl
    | some g' =>
      obtain ⟨g, hg, -⟩ := hkeep _ g' ht'
      rw [hnone] at hg
      cases hg
  · obtain ⟨g, hg, hids⟩ := hkeep x g' hg'
    rcases hids _ hid with hid | hnot
    · exact hbr x g (hq.stored x ▸ hg) hid
    · exact hnot j hj rfl

/-- Putting a session in place of the one stored under its xid keeps the agreement when the
session is sound, holds only the stored session's branch ids and ids of no use, and is on the
side of its transaction's requests. -/
theorem Agrees.put (h : env.Agrees c m R) (hq : env.Quiet t lt) {s g : GlobalSession}
    (hg : t.find? s.xid = some g) (hsound : s.Sound)
    (hids : ∀ id ∈ s.branchIds, id ∈ g.branchIds ∨ ∀ j < m, id ≠ (env.ids.skip j).next.1)
    (hside : ¬ R s.xid → ∀ (d : Direction) bid, env.Sent d.action s.xid bid →
      d.side s.status = true) :
    Agrees c m R { env with sessions := .table (t.put s) } := by
  have hfind := SessionTable.find?_put hg
  refine h.withTable hq (fun y g' hg' => ?_) (fun y g' hg' => ?_) (fun y hy d bid hs g' hg' => ?_)
  all_goals rw [hfind] at hg'
  · split at hg'
    · cases hg'
      exact hsound
    · exact h.sound y g' (hq.stored _ ▸ hg')
  · split at hg'
    · rename_i hxy
      cases hg'
      exact ⟨g, hxy ▸ hg, hids⟩
    · exact ⟨g', hg', fun id hid => .inl hid⟩
  · split at hg'
    · rename_i hxy
      subst hxy
      cases hg'
      exact hside hy d bid hs
    · exact (h.directed y hy d bid hs).1 g' (hq.stored _ ▸ hg')

/-- Writing a session back keeps the agreement when its status is on the side of its
transaction's requests. -/
theorem Agrees.update (h : env.Agrees c m R) (hq : env.Quiet t lt) {s s' : GlobalSession}
    {t' : SessionTable} (hu : t.update s = .ok (s', t'))
    (hside : ¬ R s.xid → ∀ (d : Direction) bid, env.Sent d.action s.xid bid →
      d.side s.status = true) :
    Agrees c m R { env with sessions := .table t' } := by
  obtain ⟨g, hg, rfl, rfl⟩ := SessionTable.update_eq_ok hu
  have hgxid : g.xid = s.xid := (SessionTable.find?_eq_some hg).2
  -- the session goes back with the stored branches
  exact h.put hq hg ((h.sound s.xid g (hq.stored _ ▸ hg)).withBranches hgxid.symm)
    (fun _ hid => .inl hid) hside

theorem Agrees.remove (h : env.Agrees c m R) (hq : env.Quiet t lt) (x : String) :
    Agrees c m R { env with sessions := .table (t.remove x) } := by
  refine h.withTable hq (fun y g' hg' => ?_) (fun y g' hg' => ?_) (fun y hy d bid hs g' hg' => ?_)
  all_goals
    rw [SessionTable.find?_remove_eq] at hg'
    split at hg'
    · cases hg'
  · exact h.sound y g' (hq.stored _ ▸ hg')
  · exact ⟨g', hg', fun id hid => .inl hid⟩
  · exact (h.directed y hy d bid hs).1 g' (hq.stored _ ▸ hg')

theorem Agrees.removeBranch (h : env.Agrees c m R) (hq : env.Quiet t lt) (x : String)
    (id : Nat) : Agrees c m R { env with sessions := .table (t.removeBranch x id) } := by
  cases hg : t.find? x with
  | none =>
    -- nothing is stored under `x`: the table stays
    have ht : t.removeBranch x id = t := by rw [SessionTable.removeBranch, hg]
    rw [ht]
    exact h.withTable hq (fun y g' hg' => h.sound y g' (hq.stored _ ▸ hg'))
      (fun y g' hg' => ⟨g', hg', fun _ hid => .inl hid⟩)
      (fun y hy d bid hs g' hg' => (h.directed y hy d bid hs).1 g' (hq.stored _ ▸ hg'))
  | some g =>
    have hfind := SessionTable.find?_removeBranch hg id
    refine h.withTable hq (fun y g' hg' => ?_) (fun y g' hg' => ?_)
      (fun y hy d bid hs g' hg' => ?_)
    all_goals rw [hfind] at hg'
    · split at hg'
      · cases hg'
        exact (h.sound x g (hq.stored _ ▸ hg)).removeBranch id
      · exact h.sound y g' (hq.stored _ ▸ hg')
    · split at hg'
      · rename_i hxy
        subst hxy
        cases hg'
        refine ⟨g, hg, fun i hi => .inl ?_⟩
        rw [GlobalSession.branchIds_removeBranch] at hi
        exact List.mem_of_mem_erase hi
      · exact ⟨g', hg', fun id hid => .inl hid⟩
    · split at hg'
      · rename_i hxy
        subst hxy
        cases hg'
        exact (h.directed _ hy d bid hs).1 g (hq.stored _ ▸ hg)
      · exact (h.directed y hy d bid hs).1 g' (hq.stored _ ▸ hg')

/-- Replacing a branch by one of the same session with a well-formed lock key keeps the
agreement. -/
theorem Agrees.updateBranch (h : env.Agrees c m R) (hq : env.Quiet t lt) {b : Branch}
    {t' : SessionTable} (hu : t.updateBranch b = .ok t')
    (hls : ∃ ls, LockManager.collect b = .ok ls) :
    Agrees c m R { env with sessions := .table t' } := by
  obtain ⟨g, c', hg, -, rfl⟩ := SessionTable.updateBranch_eq_ok hu
  have hgxid : g.xid = b.xid := (SessionTable.find?_eq_some hg).2
  have hstored : env.stored b.xid = some g := hq.stored _ ▸ hg
  -- the session keeps its status and its branch ids
  refine h.put hq (s := g.replaceBranch b) (hgxid ▸ hg)
    ((h.sound b.xid g hstored).replaceBranch hgxid.symm hls) (fun i hi => .inl ?_)
    fun hR d bid hs => (h.directed _ hR d bid hs).1 g (hgxid ▸ hstored)
  rwa [GlobalSession.branchIds_replaceBranch] at hi

/-- Registering a branch with a fresh id and a well-formed lock key keeps the agreement. -/
theorem Agrees.addBranch (h : env.Agrees c m R) (hq : env.Quiet t lt) {b : Branch}
    {t' : SessionTable} (hu : t.addBranch b = .ok t')
    (hfresh : ∀ x g, env.stored x = some g → b.branchId ∉ g.branchIds)
    (hahead : ∀ j < m, b.branchId ≠ (env.ids.skip j).next.1)
    (hls : ∃ ls, LockManager.collect b = .ok ls) :
    Agrees c m R { env with sessions := .table t' } := by
  obtain ⟨g, hg, -, rfl⟩ := SessionTable.addBranch_eq_ok hu
  have hgxid : g.xid = b.xid := (SessionTable.find?_eq_some hg).2
  have hstored : env.stored b.xid = some g := hq.stored _ ▸ hg
  -- the session keeps its status; the one id it gains is of no use
  refine h.put hq (s := g.addBranch b) (hgxid ▸ hg)
    ((h.sound b.xid g hstored).addBranch (hfresh _ g hstored) hgxid.symm hls) (fun i hi => ?_)
    fun hR d bid hs => (h.directed _ hR d bid hs).1 g (hgxid ▸ hstored)
  rw [GlobalSession.branchIds_addBranch, List.mem_append, List.mem_singleton] at hi
  rcases hi with hi | rfl
  · exact .inl hi
  · exact .inr hahead

/-- Beginning a session under an xid of no use keeps the agreement. -/
theorem Agrees.add (h : env.Agrees c m R) (hq : env.Quiet t lt) {s : GlobalSession}
    {t' : SessionTable} (hu : t.add s = .ok t') (hb : s.branches = [])
    (hlog : ¬ env.Logged s.xid)
    (hahead : ∀ j < m, s.xid ≠ formatXid c.address (env.ids.skip j).next.1) :
    Agrees c m R { env with sessions := .table t' } := by
  obtain ⟨hnone, rfl⟩ := SessionTable.add_eq_ok hu
  have hfind := SessionTable.find?_append hnone
  have hsound : s.Sound := ⟨by simp [GlobalSession.branchIds, hb], by simp [hb]⟩
  refine ⟨⟨_, lt, rfl, hq.locks, hq.faults⟩, fun y g' hg' => ?_, ⟨h.fresh.1, fun j hj => ?_⟩,
    fun y hy d bid hs => ⟨fun g' hg' => ?_, (h.directed y hy d bid hs).2⟩⟩
  · change (⟨t.sessions ++ [s]⟩ : SessionTable).find? y = some g' at hg'
    rw [hfind] at hg'
    split at hg'
    · cases hg'
      exact hsound
    · exact h.sound y g' (hq.stored _ ▸ hg')
  · obtain ⟨hnone', hnlog, hbr⟩ := h.fresh.2 j hj
    refine ⟨?_, hnlog, fun y g' hg' => ?_⟩
    · change (⟨t.sessions ++ [s]⟩ : SessionTable).find? _ = none
      rw [hfind, if_neg (hahead j hj)]
      exact hq.stored _ ▸ hnone'
    · change (⟨t.sessions ++ [s]⟩ : SessionTable).find? y = some g' at hg'
      rw [hfind] at hg'
      split at hg'
      · cases hg'
        simp [GlobalSession.branchIds, hb]
      · exact hbr y g' (hq.stored _ ▸ hg')
  · change (⟨t.sessions ++ [s]⟩ : SessionTable).find? y = some g' at hg'
    rw [hfind] at hg'
    split at hg'
    · rename_i hxy
      subst hxy
      exact (hlog ⟨_, _, hs⟩).elim
    · exact (h.directed y hy d bid hs).1 g' (hq.stored _ ▸ hg')

/-- Drawing an id keeps the agreement with one id less to draw; the id drawn is of no use, and
differs from the ids drawn after it. -/
theorem Agrees.draw (h : env.Agrees c m R) (hm : 0 < m) :
    Agrees c (m - 1) R { env with ids := env.ids.next.2 } ∧
      env.stored (formatXid c.address env.ids.next.1) = none ∧
      ¬ env.Logged (formatXid c.address env.ids.next.1) ∧
      (∀ x g, env.stored x = some g → env.ids.next.1 ∉ g.branchIds) ∧
      ∀ j < m - 1, env.ids.next.1 ≠ (env.ids.next.2.skip j).next.1 := by
  obtain ⟨hle, hf⟩ := h.fresh
  have h0 := hf 0 hm
  rw [← IdGenerator.next_fst_eq_skip_zero] at h0
  obtain ⟨t, lt, hq⟩ := h.quiet
  refine ⟨⟨⟨t, lt, hq.of_eq rfl rfl rfl⟩, h.sound, ⟨by omega, fun j hj => ?_⟩, h.directed⟩, h0.1,
    h0.2.1, h0.2.2,
    fun j hj heq => ?_⟩
  · show env.stored _ = none ∧ ¬ env.Logged _ ∧ ∀ x g, env.stored x = some g → _
    rw [IdGenerator.skip_next_snd]
    exact hf (j + 1) (by omega)
  · rw [IdGenerator.next_fst_eq_skip_zero, IdGenerator.skip_next_snd] at heq
    have := IdGenerator.skip_next_fst_injective env.ids (by omega) (by omega) heq
    omega

/-- Sending a request about a branch of a stored session keeps the agreement, when a phase-two
request is sent while the session's status is bound to its direction. -/
theorem Agrees.request (h : env.Agrees c m R) {p : Participants} {a : Action} {x : String}
    {bid : Nat} {st : BranchStatus} {g : GlobalSession}
    (hcalls : p.calls = env.participants.calls ++ [.branch a x bid st])
    (hg : env.stored x = some g)
    (hbound : ∀ d : Direction, a = d.action → ¬ R x → d.bound g.status = true) :
    Agrees c m R { env with participants := p } := by
  have hsent := sent_withCalls hcalls
  obtain ⟨hle, hf⟩ := h.fresh
  obtain ⟨t, lt, hq⟩ := h.quiet
  refine ⟨⟨t, lt, hq.of_eq rfl rfl rfl⟩, h.sound, ⟨hle, fun j hj => ?_⟩, fun y hy d bid' hs => ?_⟩
  · obtain ⟨hnone, hnlog, hbr⟩ := hf j hj
    refine ⟨hnone, fun ⟨a', bid'', hs⟩ => ?_, hbr⟩
    rcases (hsent _ _ _).1 hs with hs | ⟨-, rfl, -⟩
    · exact hnlog ⟨a', bid'', hs⟩
    · rw [hnone] at hg
      cases hg
  · -- a request of the step's direction goes the way of the status it is sent in
    have hnew : ∀ (d : Direction) bid', ¬ env.Sent d.action y bid' →
        Sent { env with participants := p } d.action y bid' → y = x ∧ d.bound g.status = true :=
      fun d bid' hold hs => by
        rcases (hsent _ _ _).1 hs with hs | ⟨had, rfl, -⟩
        · exact (hold hs).elim
        · exact ⟨rfl, hbound d had.symm hy⟩
    by_cases hold : env.Sent d.action y bid'
    · obtain ⟨hside, hagree⟩ := h.directed y hy d bid' hold
      refine ⟨hside, fun d' bid'' hs' => ?_⟩
      by_cases hold' : env.Sent d'.action y bid''
      · exact hagree d' bid'' hold'
      · obtain ⟨rfl, hb⟩ := hnew d' bid'' hold' hs'
        exact (Direction.eq_of_bound_of_side hb (hside g hg)).symm
    · obtain ⟨rfl, hb⟩ := hnew d bid' hold hs
      refine ⟨fun g' hg' => ?_, fun d' bid'' hs' => ?_⟩
      · change env.stored y = some g' at hg'
        rw [hg] at hg'
        cases hg'
        exact Direction.side_of_bound hb
      · by_cases hold' : env.Sent d'.action y bid''
        · exact Direction.eq_of_bound_of_side hb
            ((h.directed y hy d' bid'' hold').1 g hg)
        · exact (Direction.eq_of_bound_of_side (hnew d' bid'' hold' hs').2
            (Direction.side_of_bound hb)).symm

/-! ## What each step guarantees -/

/-- A request about a branch keeps the stored sessions; a phase-two one is allowed when the
session is stored in a status bound to its direction, holds the branch, and the branch is
removed next if its participant answers with success. -/
theorem stepAgrees_request {p : Participants} {a : Action} {x : String} {bid : Nat}
    {st : BranchStatus} (hcalls : p.calls = env.participants.calls ++ [.branch a x bid st])
    {rest : List (Env × Env)}
    (hsent : ∀ d : Direction, a = d.action → ∃ g, env.stored x = some g ∧
      d.bound g.status = true ∧ bid ∈ g.branchIds ∧ (env.AnswersDone d x bid → Removes x bid rest)) :
    StepAgrees env { env with participants := p } rest := by
  refine ⟨.inr ⟨_, hcalls⟩, fun d y bid' ⟨st', hs⟩ => ?_, fun y _ hpast => ⟨hpast, fun _ h => h⟩⟩
  · change p.calls = _ at hs
    rw [hcalls] at hs
    obtain ⟨ha, rfl, rfl, -⟩ := Call.branch.inj (List.cons.inj (List.append_cancel_left hs)).1
    exact hsent d ha

/-! ## What each change of the session table guarantees -/

/-- A change of the session table guarantees the step when every transaction that requests
were sent about, and that is past `begin`, stays past `begin` and gains no branch id. -/
theorem stepAgrees_withTable (hq : env.Quiet t lt) {t' : SessionTable} (l : List (Env × Env))
    (hkeep : ∀ x, env.Logged x → (∀ g, t.find? x = some g → g.status ≠ .begin) →
      ∀ g', t'.find? x = some g' →
        g'.status ≠ .begin ∧ ∃ g, t.find? x = some g ∧ ∀ id ∈ g'.branchIds, id ∈ g.branchIds) :
    StepAgrees env { env with sessions := .table t' } l := by
  refine ⟨.inl rfl, fun d x bid ⟨st, hs⟩ => ?_, fun x hx hpast => ?_⟩
  · simp at hs
  · have hpast' : ∀ g, t.find? x = some g → g.status ≠ .begin :=
      fun g hg => hpast g (hq.stored x ▸ hg)
    refine ⟨fun g' hg' => (hkeep x hx hpast' g' hg').1, fun bid hbid ⟨g', hg', hid⟩ => ?_⟩
    obtain ⟨-, g, hg, hids⟩ := hkeep x hx hpast' g' hg'
    exact hbid ⟨g, hq.stored x ▸ hg, hids bid hid⟩

/-- Putting a session in place of the one stored under its xid is allowed when, for a
transaction some request was sent about and whose session is past `begin`, the session stays
past `begin` and gains no branch. -/
theorem stepAgrees_put (hq : env.Quiet t lt) {s g : GlobalSession} (hg : t.find? s.xid = some g)
    (l : List (Env × Env))
    (hkeep : env.Logged s.xid → g.status ≠ .begin →
      s.status ≠ .begin ∧ ∀ id ∈ s.branchIds, id ∈ g.branchIds) :
    StepAgrees env { env with sessions := .table (t.put s) } l := by
  refine stepAgrees_withTable hq l fun y hy hpast g' hg' => ?_
  rw [SessionTable.find?_put hg] at hg'
  split at hg'
  · rename_i hxy
    subst hxy
    cases hg'
    obtain ⟨hne, hids⟩ := hkeep hy (hpast g hg)
    exact ⟨hne, g, hg, hids⟩
  · exact ⟨hpast g' hg', g', hg', fun _ hid => hid⟩

theorem stepAgrees_update (hq : env.Quiet t lt) {s s' : GlobalSession} {t' : SessionTable}
    (hu : t.update s = .ok (s', t')) (hs : s.status ≠ .begin) (l : List (Env × Env)) :
    StepAgrees env { env with sessions := .table t' } l := by
  obtain ⟨g, hg, rfl, rfl⟩ := SessionTable.update_eq_ok hu
  exact stepAgrees_put hq (s := { s with branches := g.branches }) hg l
    fun _ _ => ⟨hs, fun _ hid => hid⟩

theorem stepAgrees_remove (hq : env.Quiet t lt) (x : String) (l : List (Env × Env)) :
    StepAgrees env { env with sessions := .table (t.remove x) } l := by
  refine stepAgrees_withTable hq l fun y _ hpast g' hg' => ?_
  rw [SessionTable.find?_remove_eq] at hg'
  split at hg'
  · cases hg'
  · exact ⟨hpast g' hg', g', hg', fun _ hid => hid⟩

theorem stepAgrees_removeBranch (hq : env.Quiet t lt) (x : String) (id : Nat)
    (l : List (Env × Env)) :
    StepAgrees env { env with sessions := .table (t.removeBranch x id) } l := by
  refine stepAgrees_withTable hq l fun y _ hpast g' hg' => ?_
  cases hg : t.find? x with
  | none =>
    rw [SessionTable.removeBranch, hg] at hg'
    exact ⟨hpast g' hg', g', hg', fun _ hid => hid⟩
  | some g =>
    rw [SessionTable.find?_removeBranch hg] at hg'
    split at hg'
    · rename_i hxy
      subst hxy
      cases hg'
      refine ⟨hpast g hg, g, hg, fun i hi => ?_⟩
      rw [GlobalSession.branchIds_removeBranch] at hi
      exact List.mem_of_mem_erase hi
    · exact ⟨hpast g' hg', g', hg', fun _ hid => hid⟩

theorem stepAgrees_updateBranch (hq : env.Quiet t lt) {b : Branch} {t' : SessionTable}
    (hu : t.updateBranch b = .ok t') (l : List (Env × Env)) :
    StepAgrees env { env with sessions := .table t' } l := by
  obtain ⟨g, c', hg, -, rfl⟩ := SessionTable.updateBranch_eq_ok hu
  have hgxid : g.xid = b.xid := (SessionTable.find?_eq_some hg).2
  refine stepAgrees_put hq (s := g.replaceBranch b) (g := g) (hgxid ▸ hg) l
    fun _ hpast => ⟨hpast, fun i hi => ?_⟩
  rwa [GlobalSession.branchIds_replaceBranch] at hi

/-- Registering a branch changes a session still in `begin` only. -/
theorem stepAgrees_addBranch (hq : env.Quiet t lt) {b : Branch} {t' : SessionTable}
    (hu : t.addBranch b = .ok t') (l : List (Env × Env)) :
    StepAgrees env { env with sessions := .table t' } l := by
  obtain ⟨g, hg, hbegin, rfl⟩ := SessionTable.addBranch_eq_ok hu
  have hgxid : g.xid = b.xid := (SessionTable.find?_eq_some hg).2
  exact stepAgrees_put hq (s := g.addBranch b) (g := g) (hgxid ▸ hg) l
    fun _ hpast => (hpast hbegin).elim

/-- Beginning a session under an xid that no request was sent about changes no other
session. -/
theorem stepAgrees_add (hq : env.Quiet t lt) {s : GlobalSession} {t' : SessionTable}
    (hu : t.add s = .ok t') (hlog : ¬ env.Logged s.xid) (l : List (Env × Env)) :
    StepAgrees env { env with sessions := .table t' } l := by
  obtain ⟨hnone, rfl⟩ := SessionTable.add_eq_ok hu
  refine stepAgrees_withTable hq l fun y hy hpast g' hg' => ?_
  rw [SessionTable.find?_append hnone] at hg'
  split at hg'
  · rename_i hxy
    subst hxy
    exact (hlog hy).elim
  · exact ⟨hpast g' hg', g', hg', fun _ hid => hid⟩

end Env

end GlobalTxn
