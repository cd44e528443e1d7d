import GlobalTxn.Proofs.Calls

/-! # Stored statuses are known, and a transit fails only off the state machine

No session is ever stored in status `unknown`: sessions begin in `begin`, a transit never
targets `unknown`, and a global report sets only the statuses it names.  The invariant is
`Env.KnownStatuses`; every session-store call keeps it, and a read returns sessions whose
status is known.

A coordinator computation is `CoordM.Legal` when each of its steps keeps the invariant and it
never fails with an illegal transition.  This module gives the session-store calls and the
status changes of one session (`transit`, `transitAndPersist`, `suspend`, removing branches
and sessions) in that form: a transit is legal exactly when the state machine has its edge.
-/

namespace GlobalTxn

open Steps

namespace GlobalStatus

@[simp]
theorem canTransitTo_unknown (s : GlobalStatus) : s.canTransitTo .unknown = false := by
  cases s <;> rfl

theorem ne_unknown_of_canTransitTo {s t : GlobalStatus} (h : s.canTransitTo t = true) :
    t ≠ .unknown := by
  rintro rfl
  simp at h

end GlobalStatus

namespace CoordError

/-- A failure caused by an attempt to move a session along an edge the state machine lacks. -/
def IsIllegalTransition (e : CoordError) : Prop :=
  ∃ t : IllegalTransition, e = .ofTransition t

theorem not_isIllegalTransition {e : CoordError} (h : ∀ m, e ≠ .internal m) :
    ¬ e.IsIllegalTransition :=
  fun ⟨_, ht⟩ => h _ ht

theorem not_isIllegalTransition_ofLock (l : LockError) : ¬ (ofLock l).IsIllegalTransition :=
  not_isIllegalTransition fun _ => by cases l <;> simp [ofLock]

end CoordError

namespace SessionTable

/-- No stored session is in status `unknown`. -/
def StatusesKnown (t : SessionTable) : Prop := ∀ g ∈ t.sessions, g.status ≠ .unknown

variable {t : SessionTable}

theorem StatusesKnown.put (ht : t.StatusesKnown) {s : GlobalSession}
    (hs : s.status ≠ .unknown) : (t.put s).StatusesKnown := by
  intro g hg
  obtain ⟨x, hx, rfl⟩ := List.mem_map.1 hg
  split
  · exact hs
  · exact ht x hx

theorem StatusesKnown.find? (ht : t.StatusesKnown) {xid : String} :
    ∀ g ∈ t.find? xid, g.status ≠ .unknown :=
  fun _ hg => ht _ (List.mem_of_find?_eq_some hg)

/-- A branch change of a stored session keeps its status. -/
theorem StatusesKnown.put_stored (ht : t.StatusesKnown) {xid : String} {stored : GlobalSession}
    (hstored : t.find? xid = some stored) {s : GlobalSession} (hs : s.status = stored.status) :
    (t.put s).StatusesKnown :=
  ht.put (hs ▸ ht.find? _ hstored)

variable {J : SessionTable → Prop}

theorem keeps_add {s : GlobalSession} (hs : s.status ≠ .unknown) :
    (atomic (store.add s).run).Keeps StatusesKnown (Outcome (fun _ => True) fun _ => True) :=
  keeps_change fun t ht => by
    unfold add
    split
    · trivial
    · refine ⟨fun g hg => ?_, trivial⟩
      rcases List.mem_append.1 hg with hg | hg
      · exact ht g hg
      · exact List.mem_singleton.1 hg ▸ hs

theorem keeps_update {s : GlobalSession} (hs : s.status ≠ .unknown) :
    (atomic (store.update s).run).Keeps StatusesKnown
      (Outcome (fun _ => True) fun s' => s'.status = s.status) :=
  keeps_change fun t ht => by
    unfold update
    split
    · exact ⟨ht.put hs, rfl⟩
    · trivial

theorem keeps_remove (xid : String) :
    (atomic (store.remove xid).run).Keeps StatusesKnown (Outcome (fun _ => True) fun _ => True) :=
  keeps_atomic_modify fun _ ht g hg => ht g (List.mem_filter.1 hg).1

theorem keeps_addBranch (b : Branch) :
    (atomic (store.addBranch b).run).Keeps StatusesKnown
      (Outcome (fun _ => True) fun _ => True) :=
  keeps_change fun t ht => by
    unfold addBranch
    split
    · rename_i stored hstored
      split
      · exact ⟨ht.put_stored hstored rfl, trivial⟩
      · trivial
    · trivial

theorem keeps_updateBranch (b : Branch) :
    (atomic (store.updateBranch b).run).Keeps StatusesKnown
      (Outcome (fun _ => True) fun _ => True) :=
  keeps_change fun t ht => by
    unfold updateBranch
    split
    · rename_i stored hstored
      split
      · exact ⟨ht.put_stored hstored rfl, trivial⟩
      · trivial
    · trivial

theorem keeps_removeBranch (xid : String) (branchId : Nat) :
    (atomic (store.removeBranch xid branchId).run).Keeps StatusesKnown
      (Outcome (fun _ => True) fun _ => True) :=
  keeps_atomic_modify fun t ht => by
    unfold removeBranch
    split
    · rename_i stored hstored
      exact ht.put_stored hstored rfl
    · exact ht

theorem keeps_find? (xid : String) :
    (atomic (store.find? xid).run).Keeps StatusesKnown
      (Outcome (fun _ => True) fun r => ∀ g ∈ r, g.status ≠ .unknown) :=
  keeps_atomic_bind (keeps_atomic_get fun _ ht => ht) fun _ ht => keeps_atomic_pure _ ht.find?

theorem keeps_findBy (statuses : List GlobalStatus) :
    (atomic (store.findBy statuses).run).Keeps StatusesKnown
      (Outcome (fun _ => True) fun _ => True) :=
  keeps_atomic_bind (keeps_atomic_get fun _ ht => ht) fun _ _ => keeps_atomic_pure _ trivial

end SessionTable

namespace Env

/-- Sessions are kept in a table, and none of them is in status `unknown`. -/
def KnownStatuses (env : Env) : Prop :=
  SessionBacking.InTable SessionTable.StatusesKnown env.sessions

end Env

namespace CoordM

variable {α : Type}

/-- Each step of `m` keeps every stored status known, `m` never fails with an illegal
transition, and it ends with a success `ok` admits. -/
def Legal (ok : α → Prop) (m : CoordM α) : Prop :=
  m.run.Keeps Env.KnownStatuses (Outcome (fun e => ¬ e.IsIllegalTransition) ok)

variable {ok : α → Prop} {m : CoordM α}

/-- A computation that changes no session and fails only in ways `err` admits is legal when
no failure `err` admits is an illegal transition. -/
theorem Legal.of_frame {err : CoordError → Prop}
    (h : m.run.Keeps (fun env => SessionBacking.InTable SessionTable.StatusesKnown env.sessions)
      (Outcome err ok))
    (herr : ∀ e, err e → ¬ e.IsIllegalTransition) : Legal ok m :=
  h.mono fun _ => Outcome.mono herr fun _ h => h

theorem Legal.frame
    (h : ∀ err : CoordError → Prop, m.run.Keeps
      (fun env => SessionBacking.InTable SessionTable.StatusesKnown env.sessions)
      (Outcome err ok)) : Legal ok m :=
  h _

theorem Legal.mono {Q : α → Prop} (h : Legal ok m) (hQ : ∀ a, ok a → Q a) : Legal Q m :=
  Steps.Keeps.mono (fun _ => Outcome.mono (fun _ h => h) hQ) h

theorem legal_pure (a : α) (h : ok a) : Legal ok (pure a) := h

theorem legal_throw (e : CoordError) (h : ∀ m, e ≠ .internal m) : Legal ok (throw e) :=
  CoordError.not_isIllegalTransition h

/-- A failure that is no illegal transition ends the computation: nothing after it runs. -/
theorem legal_throw_bind {β : Type} (e : CoordError) (h : ∀ m, e ≠ .internal m) (f : α → CoordM β)
    {Q : β → Prop} : Legal Q (throw e >>= f) :=
  CoordError.not_isIllegalTransition h

theorem legal_bind {β : Type} {P : α → Prop} {f : α → CoordM β} {Q : β → Prop}
    (hm : Legal P m) (hf : ∀ a, P a → Legal Q (f a)) : Legal Q (m >>= f) :=
  keeps_bind hm hf

theorem legal_locking {m : ExceptT LockError (Steps Env) α}
    (hm : m.run.Keeps (fun env => SessionBacking.InTable SessionTable.StatusesKnown env.sessions)
      (Outcome (fun _ => True) fun _ => True)) : Legal (fun _ => True) (locking m) :=
  Legal.of_frame (keeps_locking _ hm) fun _ ⟨l, hl⟩ =>
    hl ▸ CoordError.not_isIllegalTransition_ofLock l

theorem legal_storeWith {wrap : StoreError → CoordError} {m : ExceptT StoreError (Steps Env) α}
    (hwrap : ∀ e m, wrap e ≠ .internal m)
    (hm : m.run.Keeps Env.KnownStatuses (Outcome (fun _ => True) ok)) :
    Legal ok (storeWith wrap m) :=
  keeps_adapt (hm.mono fun _ => Outcome.mono
    (fun e _ => CoordError.not_isIllegalTransition (hwrap e)) fun _ h => h)

theorem legal_store {m : ExceptT StoreError (Steps Env) α}
    (hm : m.run.Keeps Env.KnownStatuses (Outcome (fun _ => True) ok)) : Legal ok (store m) :=
  legal_storeWith (fun _ _ => nofun) hm

theorem legal_storeResult {m : ExceptT StoreError (Steps Env) α} {P : α → Prop}
    (hm : m.run.Keeps Env.KnownStatuses (Outcome (fun _ => True) P)) :
    Legal (fun _ => True) (storeResult m) :=
  keeps_lift (hm.mono fun _ _ => trivial)

/-! ## Session-store calls -/

theorem legal_find? (xid : String) :
    Legal (fun r => ∀ g ∈ r, g.status ≠ .unknown) (store (sessionStore.find? xid)) :=
  legal_store (keeps_sessionRead (SessionTable.keeps_find? xid))

theorem legal_load (xid : String) : Legal (fun s => s.status ≠ .unknown) (load xid) := by
  unfold load
  refine legal_bind (legal_find? xid) fun r hr => ?_
  split
  · exact legal_pure _ (hr _ rfl)
  · exact legal_throw _ fun _ => by nofun

theorem legal_update {s : GlobalSession} (hs : s.status ≠ .unknown) :
    Legal (fun s' => s'.status = s.status) (store (sessionStore.update s)) :=
  legal_store (keeps_sessionWrite (SessionTable.keeps_update hs))

theorem legal_remove (xid : String) : Legal (fun _ => True) (store (sessionStore.remove xid)) :=
  legal_store (keeps_sessionWrite (SessionTable.keeps_remove xid))

theorem legal_updateBranch (b : Branch) :
    Legal (fun _ => True) (store (sessionStore.updateBranch b)) :=
  legal_store (keeps_sessionWrite (SessionTable.keeps_updateBranch b))

/-! ## Status changes of one session -/

theorem legal_transit {s : GlobalSession} {target : GlobalStatus}
    (h : s.status.canTransitTo target = true) :
    Legal (fun s' => s'.status = target) (transit s target) := by
  unfold transit
  refine legal_bind (Legal.frame fun _ => keeps_now _) fun _ _ => ?_
  unfold GlobalSession.transit
  rw [if_pos h]
  exact legal_pure _ rfl

theorem legal_transitAndPersist {s : GlobalSession} {target : GlobalStatus}
    (h : s.status.canTransitTo target = true) :
    Legal (fun s' => s'.status = target) (transitAndPersist s target) :=
  legal_bind (legal_transit h) fun _ hs' =>
    (legal_update (hs' ▸ GlobalStatus.ne_unknown_of_canTransitTo h)).mono fun _ h => h.trans hs'

/-- Removing a branch keeps the status of the session copy. -/
theorem legal_removeBranch (s : GlobalSession) (b : Branch) (unlock : Bool) :
    Legal (fun s' => s'.status = s.status) (removeBranch s b unlock) := by
  unfold removeBranch
  dsimp only
  have hrest : Legal (fun s' => s'.status = s.status)
      (store (sessionStore.removeBranch s.xid b.branchId) >>= fun _ =>
        pure (s.removeBranch b.branchId)) :=
    legal_bind (legal_store (keeps_sessionWrite (SessionTable.keeps_removeBranch _ _)))
      fun _ _ => legal_pure _ rfl
  split
  · exact legal_bind (legal_locking (LockManager.keeps_releaseBranch _ b)) fun _ _ => hrest
  · exact hrest

theorem legal_endSession (s : GlobalSession) : Legal (fun _ => True) (endSession s) :=
  legal_bind (legal_locking (LockManager.keeps_releaseSession _ s)) fun _ _ => legal_remove s.xid

/-- Where a drive stops, the session moves along the edge to `status`. -/
theorem legal_suspend {s : GlobalSession} (b : Branch) (reported : Option BranchStatus)
    {status : GlobalStatus} (h : s.status.canTransitTo status = true) :
    Legal (fun _ => True) (suspend s b reported status) := by
  unfold suspend
  dsimp only
  -- the status change after the reported status is recorded
  have hrest : Legal (fun _ => True) (do
      let s ← transit s status
      let _ ← store (sessionStore.update s)
      pure status) :=
    legal_bind (legal_transit h) fun _ hs' =>
      legal_bind (legal_update (hs' ▸ GlobalStatus.ne_unknown_of_canTransitTo h)) fun _ _ =>
        legal_pure _ trivial
  split
  · split
    · exact legal_bind (legal_updateBranch _) fun _ _ => hrest
    · exact hrest
  · exact hrest

end CoordM

end GlobalTxn
