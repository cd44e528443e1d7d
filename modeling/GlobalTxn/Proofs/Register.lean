import GlobalTxn.Proofs.RunAlone
import GlobalTxn.Proofs.EtcdLocks

/-! # Registering a branch: all or nothing

A registration enlists a branch into a session in `begin`: it draws a branch id, locks the
branch's rows, all or none, and appends the branch to the stored session.  If the session
store refuses the branch, the rows are released again.  A session already committing or
rolling back accepts only a registration it has seen, and answers that branch's id.

Run alone on tables, a registration that succeeds appends exactly its branch and locks exactly
the rows of its lock key that were free; one that answers an earlier branch changes nothing;
one that fails leaves the session table as it was, and every row lock with it but one kind:
rows held before under the very branch id the registration drew.  The store's refusal releases
the branch's rows by that id, and a row already held under it goes too
(`LockTable.owner?_release_acquire`).

Main statements: `CoordM.register_all_or_nothing` and the refutation of the stronger
statement, `CoordM.register_failure_frees_row_of_reused_id`.
-/

namespace GlobalTxn

/-! ## The rows of a lock key -/

namespace RowLock

/-- Every row a lock key names is a row of the owner. -/
theorem addTableRows_ofOwner {o : LockOwner} {key table : String} :
    ∀ {pks : List (List Char)} {acc r : List RowLock},
      addTableRows o key table pks acc = .ok r →
      (∀ l ∈ acc, l = ofOwner o l.tableName l.pk) → ∀ l ∈ r, l = ofOwner o l.tableName l.pk
  | [], _, _, h, hacc => by
    cases h
    exact hacc
  | pk :: pks, acc, r, h, hacc => by
    unfold addTableRows at h
    split at h
    · cases h
    · dsimp only at h
      split at h
      · exact addTableRows_ofOwner h hacc
      · refine addTableRows_ofOwner h fun l hl => ?_
        rcases List.mem_append.1 hl with hl | hl
        · exact hacc l hl
        · rw [List.mem_singleton] at hl
          subst hl
          rfl

theorem addSegments_ofOwner {o : LockOwner} {key : String} :
    ∀ {segs : List (List Char)} {acc r : List RowLock},
      addSegments o key segs acc = .ok r →
      (∀ l ∈ acc, l = ofOwner o l.tableName l.pk) → ∀ l ∈ r, l = ofOwner o l.tableName l.pk
  | [], _, _, h, hacc => by
    cases h
    exact hacc
  | seg :: segs, acc, r, h, hacc => by
    unfold addSegments at h
    split at h
    · cases h
    · split at h
      · cases h
      · cases hrows : addTableRows o key _ _ acc with
        | error e =>
          rw [hrows] at h
          cases h
        | ok acc' =>
          rw [hrows] at h
          exact addSegments_ofOwner h (addTableRows_ofOwner hrows hacc)

/-- The rows of a lock key are held for its owner. -/
theorem holder_of_expand {o : LockOwner} {key : String} {ls : List RowLock}
    (h : expand o key = .ok ls) : ∀ l ∈ ls, l.holder = ⟨o.xid, o.transactionId, o.branchId⟩ := by
  intro l hl
  rw [addSegments_ofOwner h nofun l hl]
  rfl

theorem addTableRows_error {o : LockOwner} {key table : String} :
    ∀ {pks : List (List Char)} {acc : List RowLock} {e : LockError},
      addTableRows o key table pks acc = .error e → ∃ p, e = .invalidKey key p
  | [], _, _, h => by cases h
  | pk :: pks, acc, e, h => by
    unfold addTableRows at h
    split at h
    · cases h
      exact ⟨_, rfl⟩
    · dsimp only at h
      split at h
      · exact addTableRows_error h
      · exact addTableRows_error h

theorem addSegments_error {o : LockOwner} {key : String} :
    ∀ {segs : List (List Char)} {acc : List RowLock} {e : LockError},
      addSegments o key segs acc = .error e → ∃ p, e = .invalidKey key p
  | [], _, _, h => by cases h
  | seg :: segs, acc, e, h => by
    unfold addSegments at h
    split at h
    · cases h
      exact ⟨_, rfl⟩
    · split at h
      · cases h
        exact ⟨_, rfl⟩
      · cases hrows : addTableRows o key _ _ acc with
        | error e' =>
          rw [hrows] at h
          cases h
          exact addTableRows_error hrows
        | ok acc' =>
          rw [hrows] at h
          exact addSegments_error h

/-- A lock key is refused only for breaking its grammar. -/
theorem expand_error {o : LockOwner} {key : String} {e : LockError} (h : expand o key = .error e) :
    ∃ p, e = .invalidKey key p :=
  addSegments_error h

end RowLock

namespace LockManager

/-- The rows a branch takes are held for it. -/
theorem holder_of_collect {b : Branch} {ls : List RowLock} (h : collect b = .ok ls) :
    ∀ l ∈ ls, l.holder = ⟨b.xid, b.transactionId, b.branchId⟩ := by
  unfold collect at h
  split at h
  · exact RowLock.holder_of_expand h
  · cases h
    nofun

/-- A branch's rows are refused only for a lock key that breaks the grammar. -/
theorem collect_error {b : Branch} {e : LockError} (h : collect b = .error e) :
    ∃ p, e = .invalidKey b.lockKey p := by
  unfold collect at h
  split at h
  · exact RowLock.expand_error h
  · cases h

end LockManager

/-! ## Acquiring and releasing again -/

namespace LockTable

variable {lt : LockTable} {ls : List RowLock} {h : LockHolder}

/-- Acquiring rows all held for one branch: each row that was free is held for it, and every
other row keeps its holder. -/
theorem owner?_acquire_of_holders (hh : ∀ l ∈ ls, l.holder = h) (hacq : (lt.acquire ls).1 = true)
    (k : String) :
    (lt.acquire ls).2.owner? k =
      if k ∈ ls.map (·.rowKey) ∧ lt.owner? k = none then some h else lt.owner? k := by
  have hfold : (lt.acquire ls).2 = ls.foldl insertIfAbsent lt := by
    unfold acquire at hacq ⊢
    split
    · rw [if_pos ‹_›] at hacq
      cases hacq
    · rfl
  rw [hfold, owner?_foldl_insertIfAbsent]
  cases hown : lt.owner? k with
  | some h' => simp
  | none =>
    cases hfind : ls.find? (·.rowKey == k) with
    | none =>
      have hk : k ∉ ls.map (·.rowKey) := by
        simp only [List.mem_map, not_exists, not_and]
        intro l hl hlk
        exact absurd hfind (List.find?_isSome.2 ⟨l, hl, by simp [hlk]⟩ |> Option.isSome_iff_ne_none.1)
      simp [hk]
    | some l =>
      have hl := List.mem_of_find?_eq_some hfind
      have hk : l.rowKey = k := by simpa using List.find?_some hfind
      rw [if_pos ⟨List.mem_map.2 ⟨l, hl, hk⟩, rfl⟩, Option.none_or, Option.map_some, hh l hl]

/-- A release of rows all held for one branch frees the row `k` from the holder `h'` exactly
when it names `k` and `h'` is that branch. -/
theorem any_heldByBranch_iff (hh : ∀ l ∈ ls, l.holder = h) (k : String) (h' : LockHolder) :
    (ls.any fun l => l.rowKey == k && l.isHeldByBranch h') = true ↔
      k ∈ ls.map (·.rowKey) ∧ h'.xid = h.xid ∧ h'.branchId = h.branchId := by
  simp only [List.any_eq_true, Bool.and_eq_true, beq_iff_eq, List.mem_map]
  constructor
  · rintro ⟨l, hl, hk, hb⟩
    have hlh := hh l hl
    simp only [RowLock.isHeldByBranch, RowLock.holder, Bool.and_eq_true, beq_iff_eq] at hb hlh
    subst hlh
    exact ⟨⟨l, hl, hk⟩, hb⟩
  · rintro ⟨⟨l, hl, hk⟩, hx, hb⟩
    have hlh := hh l hl
    subst hlh
    exact ⟨l, hl, hk, by simp [RowLock.isHeldByBranch, RowLock.holder, hx, hb]⟩

/-- Acquiring rows all held for one branch and releasing them again frees, besides the rows
just locked, only rows held before for that same branch. -/
theorem owner?_release_acquire (hh : ∀ l ∈ ls, l.holder = h) (hacq : (lt.acquire ls).1 = true)
    (k : String) :
    ((lt.acquire ls).2.release ls).owner? k = lt.owner? k ∨
      ((lt.acquire ls).2.release ls).owner? k = none ∧
        ∃ h', lt.owner? k = some h' ∧ h'.xid = h.xid ∧ h'.branchId = h.branchId := by
  rw [owner?_release, owner?_acquire_of_holders hh hacq]
  have hheld := any_heldByBranch_iff hh k
  by_cases hk : k ∈ ls.map (·.rowKey)
  · cases hown : lt.owner? k with
    | none =>
      -- a row locked by the acquisition is freed again
      left
      have hany := (hheld h).2 ⟨hk, rfl, rfl⟩
      rw [if_pos ⟨hk, rfl⟩, Option.filter_some_neg (by simp [hany])]
    | some h' =>
      rw [if_neg (fun hc => Option.some_ne_none _ hc.2)]
      by_cases hb : h'.xid = h.xid ∧ h'.branchId = h.branchId
      · -- a row held before for the same branch is freed too
        right
        have hany := (hheld h').2 ⟨hk, hb⟩
        rw [Option.filter_some_neg (by simp [hany])]
        exact ⟨rfl, h', rfl, hb⟩
      · left
        have hany : (ls.any fun l => l.rowKey == k && l.isHeldByBranch h') = false :=
          Bool.eq_false_iff.2 fun hany => hb ((hheld h').1 hany).2
        rw [Option.filter_some_pos (by simp [hany])]
  · left
    have hnone (h' : LockHolder) : (ls.any fun l => l.rowKey == k && l.isHeldByBranch h') = false :=
      Bool.eq_false_iff.2 fun hany => hk ((hheld h').1 hany).1
    rw [if_neg (fun hc => hk hc.1)]
    cases lt.owner? k with
    | none => rfl
    | some h' => rw [Option.filter_some_pos (by simp [hnone])]

end LockTable

/-! ## A registration run alone -/

/-- What a registration of a branch of type `bt` for resource `res` and client `cli`, with
data `data` and lock key `key`, into transaction `x`, run from `env` on the session table `t` and
the lock table `lt`, may leave: result `r`, session table `t'` and lock table `lt'`. -/
structure Registered (env : Env) (t : SessionTable) (lt : LockTable) (bt : BranchType)
    (res cli x data key : String) (r : Except CoordError Nat) (t' : SessionTable)
    (lt' : LockTable) : Prop where
  /-- Into a session in `begin`, exactly the new branch is appended, with the answered id, and
  exactly the rows of its key that were free are locked for it. -/
  appended : ∀ id g, r = .ok id → t.find? x = some g → g.status = .begin →
    let b : Branch := ⟨g.xid, g.transactionId, id, g.transactionServiceGroup, res, cli, bt,
      .registered, key, data, env.clock.now⟩
    t'.find? x = some (g.addBranch b) ∧ (∀ y, y ≠ x → t'.find? y = t.find? y) ∧
    ∃ ls, LockManager.collect b = .ok ls ∧ ∀ k, lt'.owner? k =
      if k ∈ ls.map (·.rowKey) ∧ lt.owner? k = none then some ⟨x, g.transactionId, id⟩
      else lt.owner? k
  /-- Into a session committing or rolling back, the answer is the first branch registered
  the same way, and nothing changes. -/
  seen : ∀ id g, r = .ok id → t.find? x = some g →
    (g.status = .committing ∨ g.status = .rollbacking) →
    (g.branches.find? (·.isSameRegistration bt res cli key)).map (·.branchId) = some id ∧
      t' = t ∧ lt' = lt
  /-- A failure leaves the sessions as they were, and every row lock but those held before for
  the branch id just drawn; it is one of five failures. -/
  failed : ∀ e, r = .error e → t' = t ∧
    (∀ k, lt'.owner? k = lt.owner? k ∨
      lt'.owner? k = none ∧ ∃ h, lt.owner? k = some h ∧ h.xid = x ∧ h.branchId = env.ids.next.1) ∧
    (e = .globalNotFound x ∨ (∃ st, e = .invalidStatus x st .branchRegister) ∨
      e = .lockConflict x key ∨ (∃ p, e = CoordError.ofLock (.invalidKey key p)) ∨
      ∃ se, e = .store se)

namespace Registered

variable {env : Env} {t : SessionTable} {lt : LockTable} {bt : BranchType}
  {res cli x data key : String}

/-- A failure that changes neither table. -/
theorem of_error {e : CoordError}
    (he : e = .globalNotFound x ∨ (∃ st, e = .invalidStatus x st .branchRegister) ∨
      e = .lockConflict x key ∨ (∃ p, e = CoordError.ofLock (.invalidKey key p)) ∨
      ∃ se, e = .store se) :
    Registered env t lt bt res cli x data key (.error e) t lt where
  appended := nofun
  seen := nofun
  failed := fun _ hr => by
    cases hr
    exact ⟨rfl, fun _ => .inl rfl, he⟩

/-- The answer for a registration seen before, into a session no longer in `begin`. -/
theorem of_seen {g : GlobalSession} {b : Branch} (hg : t.find? x = some g)
    (hf : g.branches.find? (·.isSameRegistration bt res cli key) = some b)
    (hst : g.status ≠ .begin) :
    Registered env t lt bt res cli x data key (.ok b.branchId) t lt where
  appended := fun _ g' _ hg' hbegin => by
    rw [hg, Option.some.injEq] at hg'
    subst hg'
    exact absurd hbegin hst
  seen := fun id g' hr hg' _ => by
    rw [hg, Option.some.injEq] at hg'
    subst hg'
    cases hr
    exact ⟨by rw [hf]; rfl, rfl, rfl⟩
  failed := nofun

section Appended

variable {g : GlobalSession} {b : Branch} {ls : List RowLock}

/-- The rows of the branch a registration builds are locked for its transaction and its drawn
id. -/
theorem holder_of_collect (hg : t.find? x = some g)
    (hb : ⟨g.xid, g.transactionId, env.ids.next.1, g.transactionServiceGroup, res, cli, bt,
      .registered, key, data, env.clock.now⟩ = b)
    (hls : LockManager.collect b = .ok ls) :
    ∀ l ∈ ls, l.holder = ⟨x, g.transactionId, env.ids.next.1⟩ := by
  rw [← (SessionTable.find?_eq_some hg).2]
  simpa [← hb] using LockManager.holder_of_collect hls

/-- The answer for a branch appended to a session in `begin` once its rows are locked. -/
theorem of_appended (hg : t.find? x = some g) (hst : g.status = .begin)
    (hb : ⟨g.xid, g.transactionId, env.ids.next.1, g.transactionServiceGroup, res, cli, bt,
      .registered, key, data, env.clock.now⟩ = b)
    (hls : LockManager.collect b = .ok ls) (hacq : (lt.acquire ls).1 = true) :
    Registered env t lt bt res cli x data key (.ok env.ids.next.1) (t.put (g.addBranch b))
      (lt.acquire ls).2 where
  appended := fun _ g' hr hg' _ => by
    rw [hg, Option.some.injEq] at hg'
    subst hg'
    cases hr
    simp only [hb]
    have hx : (g.addBranch b).xid = x := (SessionTable.find?_eq_some hg).2
    have hself : t.find? (g.addBranch b).xid = some g := hx ▸ hg
    refine ⟨hx ▸ SessionTable.find?_put_self hself, fun y hy => ?_, ls, hls, fun k => ?_⟩
    · exact SessionTable.find?_put_of_ne (hx ▸ hy.symm)
    · exact LockTable.owner?_acquire_of_holders (holder_of_collect hg hb hls) hacq k
  seen := fun _ g' _ hg' hdec => by
    rw [hg, Option.some.injEq] at hg'
    subst hg'
    rw [hst] at hdec
    rcases hdec with hdec | hdec <;> cases hdec
  failed := nofun

/-- The answer when the store refuses a branch whose rows were locked: they are released by
the branch's id. -/
theorem of_refused (hg : t.find? x = some g)
    (hb : ⟨g.xid, g.transactionId, env.ids.next.1, g.transactionServiceGroup, res, cli, bt,
      .registered, key, data, env.clock.now⟩ = b)
    (hls : LockManager.collect b = .ok ls) (hacq : (lt.acquire ls).1 = true) (se : StoreError) :
    Registered env t lt bt res cli x data key (.error (.store se)) t
      ((lt.acquire ls).2.release ls) where
  appended := nofun
  seen := nofun
  failed := fun _ he => by
    cases he
    refine ⟨rfl, fun k => ?_, .inr (.inr (.inr (.inr ⟨_, rfl⟩)))⟩
    exact LockTable.owner?_release_acquire (holder_of_collect hg hb hls) hacq k

end Appended

end Registered

namespace CoordM

variable {env env' : Env} {t : SessionTable} {lt : LockTable}

/-- A registration run alone on tables, with session calls that may fail, leaves tables again
and does what `Registered` says: it appends exactly its branch and locks exactly the free rows
of its key, or answers an earlier branch and changes nothing, or fails changing no session and
no row lock but one held before under the id it drew. -/
theorem register_all_or_nothing (h : env.At t lt) (bt : BranchType) (res cli x data key : String)
    {r : Except CoordError Nat}
    (hrun : Steps.run (register bt res cli x data key).run env = (r, env')) :
    ∃ t' lt', env'.At t' lt' ∧ Registered env t lt bt res cli x data key r t' lt' := by
  unfold register at hrun
  rw [Steps.run_exceptT_bind, run_load h.sessions] at hrun
  by_cases hr : 0 < env.faults.sessionReads
  · -- the session cannot be read
    rw [if_pos hr] at hrun
    cases hrun
    exact ⟨t, lt, h.spendRead, .of_error (.inr (.inr (.inr (.inr ⟨_, rfl⟩))))⟩
  · rw [if_neg hr] at hrun
    cases hg : t.find? x with
    | none =>
      rw [hg] at hrun
      cases hrun
      exact ⟨t, lt, h, .of_error (.inl rfl)⟩
    | some g =>
      rw [hg] at hrun
      dsimp only at hrun
      split at hrun
      · -- begin: an id is drawn, and the rows are locked before the store takes the branch
        rename_i hst
        rw [Steps.run_bind_ok (run_nextId env), Steps.run_bind_ok (run_now _)] at hrun
        dsimp only at hrun
        generalize hb : (⟨g.xid, g.transactionId, env.ids.next.1, g.transactionServiceGroup, res,
          cli, bt, .registered, key, data, env.clock.now⟩ : Branch) = b at hrun
        have h₁ : ({ env with ids := env.ids.next.2 }).At t lt := h.withIds _
        rw [Steps.run_exceptT_bind, locking, Steps.run_exceptT_adapt, run_acquireBranch h₁] at hrun
        cases hls : LockManager.collect b with
        | error le =>
          rw [hls] at hrun
          cases hrun
          obtain ⟨p, rfl⟩ := LockManager.collect_error hls
          refine ⟨t, lt, h₁, .of_error (.inr (.inr (.inr (.inl ⟨p, ?_⟩))))⟩
          rw [← hb]
        | ok ls =>
          rw [hls] at hrun
          dsimp only [Except.mapError] at hrun
          set env₂ : Env := { env with ids := env.ids.next.2, locks := .table (lt.acquire ls).2 }
          have h₂ : env₂.At t (lt.acquire ls).2 := h₁.withLocks _
          cases hacq : (lt.acquire ls).1 with
          | false =>
            -- a row is held by another transaction: nothing is locked
            rw [hacq] at hrun
            simp only [Bool.false_eq_true, if_false] at hrun
            rw [Steps.run_bind_error rfl] at hrun
            obtain ⟨rfl, rfl⟩ := Prod.mk.inj hrun
            refine ⟨t, _, h₂, ?_⟩
            rw [LockTable.acquire_eq_of_fst_eq_false hacq]
            exact .of_error (.inr (.inr (.inl rfl)))
          | true =>
            rw [hacq, if_pos rfl, Steps.run_exceptT_bind, run_storeResult_addBranch h₂.sessions] at hrun
            by_cases hw : 0 < env.faults.sessionWrites
            · -- the store refuses the branch: its rows are released again
              rw [if_pos hw] at hrun
              dsimp only at hrun
              have hrel : Steps.run (lockingResult (LockManager.releaseBranch lockStore b)).run
                  env₂.spendWrite = (.ok (.ok ()),
                    { env₂.spendWrite with locks := .table ((lt.acquire ls).2.release ls) }) := by
                rw [lockingResult, Steps.run_exceptT_lift, run_releaseBranch h₂.spendWrite, hls]
              rw [Steps.run_bind_ok hrel] at hrun
              obtain ⟨rfl, rfl⟩ := Prod.mk.inj hrun
              exact ⟨t, _, h₂.spendWrite.withLocks _, .of_refused hg hb hls hacq _⟩
            · -- the store takes the branch
              rw [if_neg hw] at hrun
              have hgb : t.find? b.xid = some g := by
                rw [← hb]
                exact SessionTable.find?_self hg
              rw [SessionTable.addBranch_of_begin hgb hst] at hrun
              obtain ⟨rfl, rfl⟩ := Prod.mk.inj hrun
              exact ⟨_, _, h₂.withSessions _, .of_appended hg hst hb hls hacq⟩
      · -- committing: only a registration seen before is answered
        rename_i hst
        cases hf : g.branches.find? (·.isSameRegistration bt res cli key) with
        | some b =>
          rw [hf] at hrun
          cases hrun
          exact ⟨t, lt, h, .of_seen hg hf (by rw [hst]; decide)⟩
        | none =>
          rw [hf, Steps.run_bind_error rfl] at hrun
          cases hrun
          exact ⟨t, lt, h, .of_error (.inr (.inl ⟨_, rfl⟩))⟩
      · -- rolling back, likewise
        rename_i hst
        cases hf : g.branches.find? (·.isSameRegistration bt res cli key) with
        | some b =>
          rw [hf] at hrun
          cases hrun
          exact ⟨t, lt, h, .of_seen hg hf (by rw [hst]; decide)⟩
        | none =>
          rw [hf, Steps.run_bind_error rfl] at hrun
          cases hrun
          exact ⟨t, lt, h, .of_error (.inr (.inl ⟨_, rfl⟩))⟩
      · -- any other status refuses the registration
        rw [Steps.run_bind_error rfl] at hrun
        cases hrun
        exact ⟨t, lt, h, .of_error (.inr (.inl ⟨_, rfl⟩))⟩

/-- A registration into a session just begun. -/
theorem register_all_or_nothing_after_begin :
    let g : GlobalSession := ⟨"x", 1, "app", "g", "tx", .begin, ⟨0⟩, 0, 0, "", []⟩
    let env : Env := { clock := ⟨0⟩, ids := ⟨0, 1⟩, sessions := .table ⟨[g]⟩ }
    let run := Steps.run (register .at "db" "cli" "x" "" "t:1").run env
    ∃ t' lt', run.2.At t' lt' ∧ Registered env ⟨[g]⟩ {} .at "db" "cli" "x" "" "t:1" run.1 t' lt' := by
  intro g env run
  exact register_all_or_nothing ⟨rfl, rfl, rfl, rfl⟩ _ _ _ _ _ _ (Prod.eta _).symm

/-- A failed registration need not leave the row locks as they were.  A generator seeded anew
draws the id of a branch registered before; that branch's row is already held under the drawn
id, so the registration takes it as its own, and when the store then refuses the branch the
release by that id frees the row. -/
theorem register_failure_frees_row_of_reused_id :
    let env := { runEvents {} [.op (.begin "app" "group" "tx" 60000),
      .op (.register .at "db" "cli" (formatXid ({} : Config).address 1) "" "t:1")]
      { clock := ⟨0⟩, ids := ⟨0, 0⟩ } with ids := ⟨0, 1⟩, faults := { sessionWrites := 1 } }
    let run := Steps.run (register .at "db" "cli" (formatXid ({} : Config).address 1) "" "t:1").run env
    run.1 = .error (.store (.internal "injected store write failure")) ∧
      env.lockRows = [("db^^^t^^^1", ⟨formatXid ({} : Config).address 1, 1, 2⟩)] ∧
      run.2.lockRows = [] := by
  decide

end CoordM

end GlobalTxn
