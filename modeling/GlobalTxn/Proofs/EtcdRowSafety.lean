import GlobalTxn.Proofs.EtcdRevisions
import GlobalTxn.Proofs.EtcdLocks
import GlobalTxn.Etcd.Sessions

/-! # Held rows change only by going

The lock store keeps a held row under `root` as a key attached to no lease, and puts a row only
in a transaction that compares the row's creation revision with 0, that is, only where the row
is free.  The session store writes only keys of its own, which are no row's.  So every request
that a call of either store sends (`Locks.Safe`) leaves each held row as it was or deletes it
(`Locks.Safe.serve`): among any steps of any number of such calls, a held row keeps its version
until it goes.

* `Locks.planAcquire_spec` and `Locks.planRelease_spec` say what the plans of the lock store's
  transactions compare and write;
* `Locks.sends_sessions_of` with `Locks.sessionRequests_safe_spares`, and `Locks.sends_locks`,
  say that every call of the two stores sends only such requests; those of the session store
  delete no row either (`Locks.Spares.serve`).
-/

namespace GlobalTxn.Etcd

namespace Locks

/-- A key space whose held rows under `root` are attached to no lease. -/
structure Kept (root : String) (s : KeySpace) : Prop where
  sane : s.Sane
  lease : ∀ r kv, s.find? (key root r) = some kv → kv.lease = 0

/-- From `s` to `s'`, each held row under `root` stays as it was or goes. -/
def KeepsRows (root : String) (s s' : KeySpace) : Prop :=
  ∀ r kv, s.find? (key root r) = some kv →
    s'.find? (key root r) = some kv ∨ s'.find? (key root r) = none

/-- A request that writes rows under `root` only as the lock store does: a row is put only
where a comparison makes sure it is free, and attached to no lease. -/
def Safe (root : String) : (β : Type) → Request β → Prop
  | _, .put k _ _ => ∀ r, k ≠ key root r
  | _, .txn cs ws => ∀ k v lease, Write.put k v lease ∈ ws →
      (∀ r, k ≠ key root r) ∨ (⟨k, .createRevision, 0⟩ ∈ cs ∧ lease = 0)
  | _, _ => True

/-- A step of a client of the stores: the server serves a request that writes rows as the lock
store does. -/
def SafeStep (root : String) (s s' : KeySpace) : Prop :=
  ∃ (now : Nat) (β : Type) (req : Request β), Safe root β req ∧ s' = (s.serve now req).2

/-- A request that deletes no row by its key. -/
def Spares (root : String) : (β : Type) → Request β → Prop
  | _, .delete k => ∀ r, k ≠ key root r
  | _, .txn _ ws => ∀ k, Write.delete k ∈ ws → ∀ r, k ≠ key root r
  | _, _ => True

variable {codec : Wire.Codec LockHolder} {root : String} {s t t' : KeySpace}

theorem SafeStep.served (h : SafeStep root s t) : Served s t := by
  obtain ⟨now, β, req, -, rfl⟩ := h
  exact ⟨now, β, req, rfl⟩

/-! ## One step -/

/-- What one change of the keys does to the rows: each row left was there before or is
attached to no lease, and each row there before stays or goes. -/
def RowStep (root : String) (t t' : KeySpace) : Prop :=
  (∀ r kv, t'.find? (key root r) = some kv → t.find? (key root r) = some kv ∨ kv.lease = 0) ∧
    KeepsRows root t t'

theorem RowStep.of_find? (h : ∀ r, t'.find? (key root r) = t.find? (key root r) ∨
    t'.find? (key root r) = none) : RowStep root t t' := by
  refine ⟨fun r kv hkv => ?_, fun r kv hkv => ?_⟩
  · rcases h r with h | h
    · exact .inl (h ▸ hkv)
    · rw [h] at hkv
      cases hkv
  · rcases h r with h | h
    · exact .inl (h.trans hkv)
    · exact .inr h

theorem RowStep.of_kvs (h : t'.kvs = t.kvs) : RowStep root t t' :=
  .of_find? fun r => .inl (by simp only [KeySpace.find?, h])

/-- A committed transaction of a safe request keeps the rows: a row it puts was free, and is
put attached to no lease. -/
theorem RowStep.applyWrites (hs : t.Sane) {cs : List Compare} {ws : List Write}
    (hsafe : Safe root Bool (.txn cs ws)) (hholds : ∀ c ∈ cs, t.holds c = true) :
    RowStep root t (t.applyWrites ws) := by
  have hfind : ∀ k, (t.applyWrites ws).find? k =
      (ws.foldl (KeySpace.applyWrite (t.revision + 1)) (t.kvs, false)).1.find? (·.key == k) := by
    intro k
    simp only [KeySpace.find?, KeySpace.kvs_applyWrites]
  refine ⟨fun r kv hkv => ?_, fun r kv hkv => ?_⟩
  · rw [hfind] at hkv
    rcases find?_foldl_applyWrite_some ws t.kvs false hkv with h | ⟨v, lease, hput, -, hl⟩
    · exact .inl h
    · rcases hsafe _ v lease hput with hne | ⟨-, h0⟩
      · exact absurd rfl (hne r)
      · exact .inr (hl.trans h0)
  · -- a row there before had no put: the put would have found it taken
    have hnoput : ∀ v lease, Write.put (key root r) v lease ∉ ws := by
      intro v lease hput
      rcases hsafe _ v lease hput with hne | ⟨hc, -⟩
      · exact hne r rfl
      · rw [hs.find?_of_holds_create (hholds _ hc)] at hkv
        cases hkv
    rw [hfind]
    exact find?_foldl_applyWrite_of_not_put ws t.kvs false hnoput |>.imp (·.trans hkv) id

/-- Every safe request keeps the rows: each row stays as it was or goes, and the rows left are
attached to no lease. -/
theorem Safe.serve (hk : Kept root s) {β : Type} {req : Request β} (hreq : Safe root β req)
    (now : Nat) : Kept root (s.serve now req).2 ∧ KeepsRows root s (s.serve now req).2 := by
  -- expiry keeps every row, as rows are attached to no lease
  have hexp : ∀ r, (s.expire now).find? (key root r) = s.find? (key root r) :=
    fun r => KeySpace.find?_expire hk.sane.leases (hk.lease r)
  obtain ⟨hse, -⟩ := hk.sane.expire now
  suffices h : RowStep root (s.expire now) (s.serve now req).2 by
    refine ⟨⟨(hk.sane.serve now req).1, fun r kv hkv => ?_⟩, fun r kv hkv => ?_⟩
    · rcases h.1 r kv hkv with h' | h'
      · exact hk.lease r kv ((hexp r).symm.trans h')
      · exact h'
    · exact h.2 r kv ((hexp r).trans hkv)
  cases req with
  | range r => exact .of_kvs rfl
  | snapshot keys => exact .of_kvs rfl
  | put k value lease =>
    simp only [KeySpace.serve]
    split
    · exact .of_find? fun r => .inl (find?_write_other _ _ _ _ _ _ (Ne.symm (hreq r)))
    · exact .of_kvs rfl
  | delete k =>
    simp only [KeySpace.serve, KeySpace.delete]
    split
    · refine .of_find? fun r => ?_
      by_cases hr : key root r = k
      · right
        show (erase (s.expire now).kvs k).find? (·.key == key root r) = none
        rw [hr]
        exact KeySpace.find?_erase _ _
      · exact .inl (find?_erase_other _ hr)
    · exact .of_kvs rfl
  | txn cs ws =>
    rcases KeySpace.serve_txn s now cs ws with ⟨-, hholds, hafter⟩ | ⟨-, hkvs⟩
    · rw [hafter]
      exact .applyWrites hse hreq hholds
    · exact .of_kvs hkvs
  | grant ttl =>
    simp only [KeySpace.serve]
    split
    · exact .of_kvs rfl
    · exact .of_kvs rfl
  | revoke id =>
    simp only [KeySpace.serve]
    split
    · unfold KeySpace.dropLeases
      split
      · exact .of_find? fun r => find?_filter_of_nodup hse.stored.nodup _ _
      · exact .of_kvs rfl
    · exact .of_kvs rfl
  | keepAlive id =>
    simp only [KeySpace.serve, KeySpace.keepAlive]
    split
    · exact .of_kvs rfl
    · exact .of_kvs rfl
  | authenticate user password => exact .of_kvs rfl

theorem SafeStep.keeps (h : SafeStep root s t) (hk : Kept root s) :
    Kept root t ∧ KeepsRows root s t := by
  obtain ⟨now, β, req, hreq, rfl⟩ := h
  exact Safe.serve hk hreq now

theorem find?_ne_none_of_kvs {k : String} {kv : KeyValue} (h : t'.kvs = t.kvs)
    (he : t.find? k = some kv) : t'.find? k ≠ none := by
  simp only [KeySpace.find?, h] at he ⊢
  simp [he]

/-- A safe request that spares the rows keeps every row as it was: rows are attached to no
lease, so neither expiry nor an ended lease takes one, and nothing else deletes one. -/
theorem Spares.serve (hk : Kept root s) {β : Type} {req : Request β} (hreq : Safe root β req)
    (hspare : Spares root β req) (now : Nat) {r : String} {kv : KeyValue}
    (hkv : s.find? (key root r) = some kv) : (s.serve now req).2.find? (key root r) = some kv := by
  have he : (s.expire now).find? (key root r) = some kv :=
    (KeySpace.find?_expire hk.sane.leases (hk.lease r)).trans hkv
  refine ((Safe.serve hk hreq now).2 r kv hkv).resolve_right ?_
  cases req with
  | range _ => exact find?_ne_none_of_kvs rfl he
  | snapshot _ => exact find?_ne_none_of_kvs rfl he
  | put k value lease =>
    simp only [KeySpace.serve]
    split
    · show (write _ _ k value lease).find? (·.key == key root r) ≠ none
      rw [find?_write_other _ _ _ _ _ _ (Ne.symm (hreq r))]
      exact find?_ne_none_of_kvs rfl he
    · exact find?_ne_none_of_kvs rfl he
  | delete k =>
    simp only [KeySpace.serve, KeySpace.delete]
    split
    · show (erase (s.expire now).kvs k).find? (·.key == key root r) ≠ none
      rw [find?_erase_other _ (Ne.symm (hspare r))]
      exact find?_ne_none_of_kvs rfl he
    · exact find?_ne_none_of_kvs rfl he
  | txn cs ws =>
    rcases KeySpace.serve_txn s now cs ws with ⟨-, -, hafter⟩ | ⟨-, hkvs⟩
    · rw [hafter]
      exact KeySpace.find?_applyWrites_ne_none he fun hd => hspare _ hd r rfl
    · exact find?_ne_none_of_kvs hkvs he
  | grant ttl =>
    simp only [KeySpace.serve]
    split
    · exact find?_ne_none_of_kvs rfl he
    · exact find?_ne_none_of_kvs rfl he
  | revoke id =>
    simp only [KeySpace.serve]
    split
    · -- the lease that ends is a lease of the server, so its id is not 0
      rename_i l hl
      have hid : id ≠ 0 := by
        have hmem := List.mem_of_find?_eq_some hl
        have hlid : l.id = id := by simpa using List.find?_some hl
        exact hlid ▸ (hk.sane.expire now).1.leases l hmem
      rw [KeySpace.find?_dropLeases fun kv' hkv' => by
        rw [he] at hkv'
        cases hkv'
        simp [(hk.lease r kv hkv), Ne.symm hid]]
      simp [he]
    · exact find?_ne_none_of_kvs rfl he
  | keepAlive id =>
    simp only [KeySpace.serve, KeySpace.keepAlive]
    split
    · exact find?_ne_none_of_kvs rfl he
    · exact find?_ne_none_of_kvs rfl he
  | authenticate user password => exact find?_ne_none_of_kvs rfl he

/-- Along steps of clients of the stores, the rows stay attached to no lease, and each step
keeps them. -/
theorem keeps_of_chain {tr : List Turn} (h : Turn.Chain s tr)
    (hsafe : ∀ t ∈ tr, SafeStep root t.before t.after) (hs : Kept root s) :
    (∀ t ∈ tr, Kept root t.before ∧ KeepsRows root t.before t.after) ∧
      Kept root (Turn.last s tr) := by
  have hkept := h.keeps (Kept root) (fun t ht hx => ((hsafe t ht).keeps hx).1) hs
  exact ⟨fun t ht => ⟨hkept.1 t ht, ((hsafe t ht).keeps (hkept.1 t ht)).2⟩, hkept.2⟩

/-! ## Keys of sessions and rows -/

/-- A session's key is no row's key. -/
theorem sessions_key_ne (root xid r : String) : Sessions.key root xid ≠ key root r := by
  intro h
  have := congrArg String.toList h
  simp [Sessions.key, Sessions.dir, key] at this

/-! ## The plans of the lock store's transactions -/

/-- What locking rows plans, given what was read for each: the rows read as free are the rows
newly locked, each compared as free and put with its holder, attached to no lease; each row read
as held is held by the same transaction, and compared at the revision read. -/
structure AcquirePlan (codec : Wire.Codec LockHolder) (root : String) (pairs : List (RowLock × Option KeyValue))
    (cs : List Compare) (ws : List Write) (ls : List RowLock) : Prop where
  writes : ws = ls.map fun l => .put (key root l.rowKey) (codec.encode l.holder) 0
  fresh : ∀ l ∈ ls, (⟨key root l.rowKey, .createRevision, 0⟩ : Compare) ∈ cs ∧ (l, none) ∈ pairs
  free : ∀ l, (l, none) ∈ pairs → l ∈ ls
  held : ∀ l kv, (l, some kv) ∈ pairs →
    (∃ h, decode codec kv = .ok h ∧ h.xid = l.xid) ∧
      (⟨key root l.rowKey, .modRevision, kv.modRevision⟩ : Compare) ∈ cs

theorem planAcquire_spec : ∀ {pairs : List (RowLock × Option KeyValue)} {cs : List Compare}
    {ws : List Write} {ls : List RowLock},
    planAcquire codec root pairs = .ok (some (cs, ws, ls)) → AcquirePlan codec root pairs cs ws ls
  | [], cs, ws, ls, h => by
    cases h
    exact ⟨rfl, fun _ h => (List.not_mem_nil h).elim, fun _ h => (List.not_mem_nil h).elim,
      fun _ _ h => (List.not_mem_nil h).elim⟩
  | (l, some kv) :: rest, cs, ws, ls, h => by
    simp only [planAcquire] at h
    cases hdec : decode codec kv with
    | error e => simp [hdec, bind, Except.bind] at h
    | ok hl =>
      by_cases hx : hl.xid = l.xid
      · cases hrest : planAcquire codec root rest with
        | error e => simp [hdec, hx, hrest, bind, Except.bind] at h
        | ok o =>
          rcases o with _ | ⟨cs', ws', ls'⟩
          · simp [hdec, hx, hrest, bind, Except.bind, pure, Except.pure] at h
          · simp only [hdec, hx, hrest, bne_self_eq_false, bind, Except.bind, pure, Except.pure,
              Bool.false_eq_true, if_false, Except.ok.injEq, Option.some.injEq, Prod.mk.injEq] at h
            obtain ⟨rfl, rfl, rfl⟩ := h
            have ih := planAcquire_spec hrest
            refine ⟨ih.writes, fun l' hl' => ?_, fun l' hl' => ?_, fun l' kv' hl' => ?_⟩
            · obtain ⟨hc, hp⟩ := ih.fresh l' hl'
              exact ⟨List.mem_cons_of_mem _ hc, List.mem_cons_of_mem _ hp⟩
            · rcases List.mem_cons.1 hl' with he | hl'
              · cases he
              · exact ih.free l' hl'
            · rcases List.mem_cons.1 hl' with he | hl'
              · cases he
                exact ⟨⟨hl, hdec, hx⟩, List.mem_cons_self⟩
              · obtain ⟨hh, hc⟩ := ih.held l' kv' hl'
                exact ⟨hh, List.mem_cons_of_mem _ hc⟩
      · simp [hdec, hx, bind, Except.bind, pure, Except.pure] at h
  | (l, none) :: rest, cs, ws, ls, h => by
    simp only [planAcquire] at h
    cases hrest : planAcquire codec root rest with
    | error e => simp [hrest, bind, Except.bind] at h
    | ok o =>
      rcases o with _ | ⟨cs', ws', ls'⟩
      · simp [hrest, bind, Except.bind, pure, Except.pure] at h
      · simp only [hrest, bind, Except.bind, pure, Except.pure, Except.ok.injEq, Option.some.injEq,
          Prod.mk.injEq] at h
        obtain ⟨rfl, rfl, rfl⟩ := h
        have ih := planAcquire_spec hrest
        refine ⟨by rw [ih.writes]; rfl, fun l' hl' => ?_, fun l' hl' => ?_, fun l' kv' hl' => ?_⟩
        · rcases List.mem_cons.1 hl' with rfl | hl'
          · exact ⟨List.mem_cons_self, List.mem_cons_self⟩
          · obtain ⟨hc, hp⟩ := ih.fresh l' hl'
            exact ⟨List.mem_cons_of_mem _ hc, List.mem_cons_of_mem _ hp⟩
        · rcases List.mem_cons.1 hl' with he | hl'
          · cases he
            exact List.mem_cons_self
          · exact List.mem_cons_of_mem _ (ih.free l' hl')
        · rcases List.mem_cons.1 hl' with he | hl'
          · cases he
          · obtain ⟨hh, hc⟩ := ih.held l' kv' hl'
            exact ⟨hh, List.mem_cons_of_mem _ hc⟩

/-- The transaction that locks rows is safe. -/
theorem AcquirePlan.safe {pairs : List (RowLock × Option KeyValue)} {cs : List Compare}
    {ws : List Write} {ls : List RowLock} (h : AcquirePlan codec root pairs cs ws ls) :
    Safe root Bool (.txn cs ws) := by
  intro k v lease hput
  rw [h.writes] at hput
  obtain ⟨l, hl, he⟩ := List.mem_map.1 hput
  cases he
  exact .inr ⟨(h.fresh l hl).1, rfl⟩

/-- What unlocking rows plans, given what was read for each: a delete of each row read as held
by the releasing branch, compared at the revision read, and nothing else. -/
structure ReleasePlan (codec : Wire.Codec LockHolder) (root : String) (pairs : List (RowLock × Option KeyValue))
    (cs : List Compare) (ws : List Write) : Prop where
  deletes : ∀ w ∈ ws, ∃ l kv h, (l, some kv) ∈ pairs ∧ w = .delete (key root l.rowKey) ∧
    decode codec kv = .ok h ∧ l.isHeldByBranch h = true ∧
    (⟨key root l.rowKey, .modRevision, kv.modRevision⟩ : Compare) ∈ cs
  held : ∀ l kv h, (l, some kv) ∈ pairs → decode codec kv = .ok h → l.isHeldByBranch h = true →
    Write.delete (key root l.rowKey) ∈ ws ∧
      (⟨key root l.rowKey, .modRevision, kv.modRevision⟩ : Compare) ∈ cs

theorem planRelease_spec : ∀ {pairs : List (RowLock × Option KeyValue)} {cs : List Compare}
    {ws : List Write}, planRelease codec root pairs = .ok (cs, ws) → ReleasePlan codec root pairs cs ws
  | [], cs, ws, h => by
    cases h
    exact ⟨fun _ h => (List.not_mem_nil h).elim, fun _ _ _ h => (List.not_mem_nil h).elim⟩
  | (l, none) :: rest, cs, ws, h => by
    have ih := planRelease_spec (show planRelease codec root rest = .ok (cs, ws) from h)
    refine ⟨fun w hw => ?_, fun l' kv' h' hl' hdec hheld => ?_⟩
    · obtain ⟨l', kv', h', hp, hrest⟩ := ih.deletes w hw
      exact ⟨l', kv', h', List.mem_cons_of_mem _ hp, hrest⟩
    · rcases List.mem_cons.1 hl' with he | hl'
      · cases he
      · exact ih.held l' kv' h' hl' hdec hheld
  | (l, some kv) :: rest, cs, ws, h => by
    simp only [planRelease] at h
    cases hdec : decode codec kv with
    | error e => simp [hdec, bind, Except.bind] at h
    | ok hl =>
      cases hrest : planRelease codec root rest with
      | error e => simp [hdec, hrest, bind, Except.bind] at h
      | ok p =>
        obtain ⟨cs', ws'⟩ := p
        have ih := planRelease_spec hrest
        by_cases hb : l.isHeldByBranch hl = true
        · simp only [hdec, hrest, hb, bind, Except.bind, pure, Except.pure, if_true,
            Except.ok.injEq, Prod.mk.injEq] at h
          obtain ⟨rfl, rfl⟩ := h
          refine ⟨fun w hw => ?_, fun l' kv' h' hl' hdec' hheld => ?_⟩
          · rcases List.mem_cons.1 hw with rfl | hw
            · exact ⟨l, kv, hl, List.mem_cons_self, rfl, hdec, hb, List.mem_cons_self⟩
            · obtain ⟨l', kv', h', hp, hrest⟩ := ih.deletes w hw
              obtain ⟨hw', hd, hh, hc⟩ := hrest
              exact ⟨l', kv', h', List.mem_cons_of_mem _ hp, hw', hd, hh, List.mem_cons_of_mem _ hc⟩
          · rcases List.mem_cons.1 hl' with he | hl'
            · cases he
              exact ⟨List.mem_cons_self, List.mem_cons_self⟩
            · obtain ⟨hw, hc⟩ := ih.held l' kv' h' hl' hdec' hheld
              exact ⟨List.mem_cons_of_mem _ hw, List.mem_cons_of_mem _ hc⟩
        · simp only [hdec, hrest, hb, bind, Except.bind, pure, Except.pure, Bool.false_eq_true,
            if_false, Except.ok.injEq, Prod.mk.injEq] at h
          obtain ⟨rfl, rfl⟩ := h
          refine ⟨fun w hw => ?_, fun l' kv' h' hl' hdec' hheld => ?_⟩
          · obtain ⟨l', kv', h', hp, hrest⟩ := ih.deletes w hw
            exact ⟨l', kv', h', List.mem_cons_of_mem _ hp, hrest⟩
          · rcases List.mem_cons.1 hl' with he | hl'
            · cases he
              rw [hdec] at hdec'
              cases hdec'
              exact absurd hheld hb
            · exact ih.held l' kv' h' hl' hdec' hheld

/-- The transaction that unlocks rows puts nothing. -/
theorem ReleasePlan.put_not_mem {pairs : List (RowLock × Option KeyValue)} {cs : List Compare}
    {ws : List Write} (h : ReleasePlan codec root pairs cs ws) (k : String) (v : List UInt8)
    (lease : Nat) : Write.put k v lease ∉ ws := by
  intro hput
  obtain ⟨l, kv, hl, -, he, -⟩ := h.deletes _ hput
  cases he

/-- The transaction that unlocks rows is safe, as it puts nothing. -/
theorem ReleasePlan.safe {pairs : List (RowLock × Option KeyValue)} {cs : List Compare}
    {ws : List Write} (h : ReleasePlan codec root pairs cs ws) : Safe root Bool (.txn cs ws) :=
  fun k v lease hput => absurd hput (h.put_not_mem k v lease)

/-! ## What the stores send -/

section Sends

open Client

/-- Kinds of request that take in all that the session store sends: reads, the transaction
that writes a session back, and the delete of a session. -/
structure SessionRequests (root : String) (P : (β : Type) → Request β → Prop) : Prop where
  range : ∀ r, P (List KeyValue) (.range r)
  txn : ∀ xid cs v, P Bool (.txn cs [.put (Sessions.key root xid) v 0])
  delete : ∀ xid, P Nat (.delete (Sessions.key root xid))

section Sessions

variable {codec : Wire.Codec SessionRecord} {P : (β : Type) → Request β → Prop}

theorem sends_sessions_read (hP : SessionRequests root P) (xid : String) :
    Sends P (Sessions.read codec root xid).run := by
  unfold Sessions.read
  refine Sends.exceptT_bind (Sends.ask _ (hP.range _)) fun kvs => ?_
  split
  · exact .pure _
  · exact Sends.exceptT_bind (Sends.liftExcept_run _) fun _ => .pure _

theorem sends_sessions_modify (hP : SessionRequests root P) (xid : String) (missingOk : Bool)
    (f : GlobalSession → Except StoreError GlobalSession) :
    ∀ n, Sends P (Sessions.modify.attempt codec root xid missingOk f n).run
  | 0 => .pure _
  | n + 1 => by
    unfold Sessions.modify.attempt
    refine Sends.exceptT_bind (sends_sessions_read hP xid) fun x => ?_
    rcases x with _ | ⟨rev, stored⟩
    · by_cases hm : missingOk = true
      · simp only [hm, if_true]
        exact .pure _
      · simp only [hm, if_false, Bool.false_eq_true]
        exact .pure _
    · refine Sends.exceptT_bind (Sends.liftExcept_run _) fun g =>
        Sends.exceptT_bind (Sends.ask _ (hP.txn xid _ _)) fun b => ?_
      cases b with
      | true => exact .pure _
      | false => exact sends_sessions_modify hP xid missingOk f n

/-- Every call of the session store sends only requests of a kind that takes in its reads, its
transactions and its deletes. -/
theorem sends_sessions_of (hP : SessionRequests root P) :
    (∀ g, Sends P ((Sessions.store codec root).add g).run) ∧
    (∀ g, Sends P ((Sessions.store codec root).update g).run) ∧
    (∀ xid, Sends P ((Sessions.store codec root).remove xid).run) ∧
    (∀ b, Sends P ((Sessions.store codec root).addBranch b).run) ∧
    (∀ b, Sends P ((Sessions.store codec root).updateBranch b).run) ∧
    (∀ xid branchId, Sends P ((Sessions.store codec root).removeBranch xid branchId).run) ∧
    (∀ xid, Sends P ((Sessions.store codec root).find? xid).run) ∧
    (∀ statuses, Sends P ((Sessions.store codec root).findBy statuses).run) := by
  refine ⟨fun g => ?_, fun g => ?_, fun xid => ?_, fun b => ?_, fun b => ?_, fun xid bid => ?_,
    fun xid => ?_, fun sts => ?_⟩
  · refine Sends.exceptT_bind (Sends.ask _ (hP.txn g.xid _ _)) fun ok => ?_
    cases ok <;> exact .pure _
  · refine Sends.exceptT_bind (sends_sessions_modify hP g.xid false _ _) fun x => ?_
    cases x <;> exact .pure _
  · exact Sends.exceptT_bind (Sends.ask _ (hP.delete xid)) fun _ => .pure _
  · exact Sends.exceptT_bind (sends_sessions_modify hP b.xid false _ _) fun _ => .pure _
  · exact Sends.exceptT_bind (sends_sessions_modify hP b.xid false _ _) fun _ => .pure _
  · exact Sends.exceptT_bind (sends_sessions_modify hP xid true _ _) fun _ => .pure _
  · exact Sends.exceptT_bind (sends_sessions_read hP xid) fun _ => .pure _
  · exact Sends.exceptT_bind (Sends.ask _ (hP.range _)) fun _ => .pure _

end Sessions

/-- What the session store sends is safe, and spares the rows: it writes only keys of its
own. -/
theorem sessionRequests_safe_spares (root : String) :
    SessionRequests root fun β req => Safe root β req ∧ Spares root β req where
  range _ := ⟨trivial, trivial⟩
  txn xid _ _ := by
    refine ⟨fun k v lease hput => ?_, fun k hdel => ?_⟩
    · rw [List.mem_singleton] at hput
      cases hput
      exact .inl (sessions_key_ne root xid)
    · rw [List.mem_singleton] at hdel
      cases hdel
  delete xid := ⟨trivial, sessions_key_ne root xid⟩

theorem sends_read_chunks (chunks : List (List String)) (acc : List (Option KeyValue)) :
    Sends (Safe root) (chunks.foldlM (fun acc chunk => do
      pure (acc ++ (← request (.snapshot chunk)))) acc : LocksM _).run := by
  induction chunks generalizing acc with
  | nil => exact .pure _
  | cons c cs ih =>
    rw [List.foldlM_cons]
    exact Sends.exceptT_bind (Sends.exceptT_bind (Sends.ask _ trivial) fun _ => .pure _) ih

theorem sends_read (keys : List String) : Sends (Safe root) (read keys).run :=
  sends_read_chunks _ _

theorem sends_acquireChunk (chunk : List RowLock) :
    ∀ n, Sends (Safe root) (acquireChunk.attempt codec root chunk n).run
  | 0 => .pure _
  | n + 1 => by
    unfold acquireChunk.attempt
    refine Sends.exceptT_bind (sends_read _) fun stored => Sends.liftExcept_bind fun p hp => ?_
    rcases p with _ | ⟨cs, ws, locked⟩
    · exact .pure _
    · by_cases hw : ws.isEmpty = true
      · simp only [hw, if_true]
        exact .pure _
      · simp only [hw, if_false, Bool.false_eq_true]
        refine Sends.exceptT_bind (Sends.ask _ (planAcquire_spec hp).safe) fun b => ?_
        cases b with
        | true => exact .pure _
        | false => exact sends_acquireChunk chunk n

theorem sends_releaseChunk (chunk : List RowLock) :
    ∀ n, Sends (Safe root) (releaseChunk.attempt codec root chunk n).run
  | 0 => .pure _
  | n + 1 => by
    unfold releaseChunk.attempt
    refine Sends.exceptT_bind (sends_read _) fun stored => Sends.liftExcept_bind fun p hp => ?_
    obtain ⟨cs, ws⟩ := p
    by_cases hw : ws.isEmpty = true
    · simp only [hw, if_true]
      exact .pure _
    · simp only [hw, if_false, Bool.false_eq_true]
      refine Sends.exceptT_bind (Sends.ask _ (planRelease_spec hp).safe) fun b => ?_
      cases b with
      | true => exact .pure _
      | false => exact sends_releaseChunk chunk n

theorem sends_release (locks : List RowLock) : Sends (Safe root) (release codec root locks).run := by
  unfold release
  induction chunksOf maxTxnOps locks with
  | nil => exact .pure _
  | cons c cs ih =>
    show Sends _ (releaseChunk codec root c >>= fun _ => cs.forM (releaseChunk codec root)).run
    exact Sends.exceptT_bind (sends_releaseChunk c _) fun _ => ih

theorem sends_acquire_go :
    ∀ (chunks : List (List RowLock)) (locked : List RowLock),
      Sends (Safe root) (acquire.go codec root chunks locked).run
  | [], _ => .pure _
  | c :: rest, locked => by
    unfold acquire.go
    refine Sends.exceptT_bind (Sends.exceptT_lift (sends_acquireChunk c _)) fun r => ?_
    rcases r with e | _ | rows
    · exact Sends.exceptT_bind (Sends.exceptT_lift (sends_release locked)) fun _ => .pure _
    · exact Sends.exceptT_bind (sends_release locked) fun _ => .pure _
    · exact sends_acquire_go rest (locked ++ rows)

/-- Every call of the lock store sends only safe requests. -/
theorem sends_locks (codec : Wire.Codec LockHolder) (root : String) :
    (∀ locks, Sends (Safe root) ((store codec root).acquire locks).run) ∧
    (∀ locks, Sends (Safe root) ((store codec root).release locks).run) ∧
    (∀ rowKey, Sends (Safe root) ((store codec root).owner? rowKey).run) := by
  refine ⟨fun locks => sends_acquire_go _ _, sends_release, fun rowKey => ?_⟩
  refine Sends.exceptT_bind (Sends.ask _ trivial) fun kvs => ?_
  split
  · exact .pure _
  · exact Sends.exceptT_bind (Sends.liftExcept_run _) fun _ => .pure _

end Sends

end Locks

end GlobalTxn.Etcd
