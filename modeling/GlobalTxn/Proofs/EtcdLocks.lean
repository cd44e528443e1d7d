import Mathlib
import GlobalTxn.Proofs.EtcdServer
import GlobalTxn.Proofs.RecordRoundTrip
import GlobalTxn.Proofs.LockRows
import GlobalTxn.Etcd.Locks

/-! # Row locks kept in etcd behave as a lock table

An etcd server mirrors a lock table under `root` (`Etcd.Locks.Mirrors`) when every row the
table holds is the key of that row, holding the record of its holder and attached to no lease,
and no other row has a key; no conflict is injected and no lease has id 0, as the store is the
only writer of its keys.  From a mirror, every call of the etcd-backed lock store answers what
the table answers and leaves a mirror of the table the call leaves:

* reading the holder of a row (`run_owner?`);
* releasing rows, chunk after chunk (`run_release`): each chunk deletes, in one transaction,
  the rows held by the branches releasing them, which is what releasing them one after the
  other does (`LockTable.owner?_release`);
* acquiring rows with distinct keys (`run_acquire`): chunk after chunk locks its free rows in
  one transaction, and a chunk that finds a row of another transaction gives up after the rows
  of the earlier chunks are released again, so that the table is left as it was.
-/

universe u

namespace GlobalTxn

/-! ## Acquiring on a table, row by row -/

namespace LockTable

/-- A row held before keeps its holder; a free row gets the first holder the locks name. -/
theorem owner?_insertIfAbsent (t : LockTable) (l : RowLock) (k : String) :
    (t.insertIfAbsent l).owner? k =
      (t.owner? k).or (if l.rowKey = k then some l.holder else none) := by
  unfold insertIfAbsent
  split
  · rename_i h hown
    by_cases hk : l.rowKey = k
    · subst hk
      simp [hown]
    · simp [hk]
  · rename_i hown
    by_cases hk : l.rowKey = k
    · subst hk
      simp [owner?, List.find?_append, show t.rows.find? (·.1 == l.rowKey) = none by
        simpa [owner?] using hown]
    · simp only [owner?, List.find?_append, hk, if_false]
      cases t.rows.find? (·.1 == k) <;> simp [hk]

/-- Acquiring rows one after the other gives each free row the first holder its locks name. -/
theorem owner?_foldl_insertIfAbsent (t : LockTable) (ls : List RowLock) (k : String) :
    (ls.foldl insertIfAbsent t).owner? k =
      (t.owner? k).or ((ls.find? (·.rowKey == k)).map (·.holder)) := by
  induction ls generalizing t with
  | nil => simp
  | cons l ls ih =>
    rw [List.foldl_cons, ih, owner?_insertIfAbsent, Option.or_assoc]
    by_cases hk : l.rowKey = k <;> simp [hk]

/-- Locks conflict with a table when one of their rows is held by another transaction. -/
theorem any_conflicts_eq_true_iff {t : LockTable} {locks : List RowLock} :
    locks.any t.conflicts = true ↔ ∃ l ∈ locks, ∃ h, t.owner? l.rowKey = some h ∧ h.xid ≠ l.xid := by
  simp only [List.any_eq_true]
  refine exists_congr fun l => and_congr_right fun _ => ?_
  unfold conflicts
  cases t.owner? l.rowKey <;> simp

/-- Acquiring leaves the rows that no lock names as they were. -/
theorem owner?_foldl_insertIfAbsent_of_not_mem (t : LockTable) {ls : List RowLock} {k : String}
    (hk : k ∉ ls.map (·.rowKey)) : (ls.foldl insertIfAbsent t).owner? k = t.owner? k := by
  have hnone : ls.find? (·.rowKey == k) = none := by
    rw [List.find?_eq_none]
    intro l hl he
    exact hk (List.mem_map.2 ⟨l, hl, beq_iff_eq.1 he⟩)
  rw [owner?_foldl_insertIfAbsent, hnone]
  cases t.owner? k <;> rfl

/-- Releasing the rows that acquiring newly locked gives every row its holder from before. -/
theorem owner?_release_newlyLocked (t : LockTable) (ls : List RowLock) (k : String) :
    ((ls.foldl insertIfAbsent t).release (ls.filter fun l => (t.owner? l.rowKey).isNone)).owner? k =
      t.owner? k := by
  rw [owner?_release, owner?_foldl_insertIfAbsent]
  cases hown : t.owner? k with
  | some h =>
    -- a row held before is no newly locked row
    have hnot : ((ls.filter fun l => (t.owner? l.rowKey).isNone).any
        fun l => l.rowKey == k && l.isHeldByBranch h) = false := by
      rw [Bool.eq_false_iff]
      intro hany
      obtain ⟨l, hl, hlk⟩ := List.any_eq_true.1 hany
      have hk : l.rowKey = k := by simp_all
      simp [hk, hown] at hl
    simp only [Option.some_or, Option.filter_some, hnot, Bool.not_false, if_true]
  | none =>
    cases hfind : ls.find? (·.rowKey == k) with
    | none => rfl
    | some l =>
      -- the row's first lock locked it, and releases it
      have hk : l.rowKey = k := by simpa using List.find?_some hfind
      have hnew : l ∈ ls.filter fun l => (t.owner? l.rowKey).isNone := by
        simp [List.mem_of_find?_eq_some hfind, hk, hown]
      have hany : ((ls.filter fun l => (t.owner? l.rowKey).isNone).any
          fun l' => l'.rowKey == k && l'.isHeldByBranch l.holder) = true :=
        List.any_eq_true.2 ⟨l, hnew, by simp [hk, RowLock.isHeldByBranch, RowLock.holder]⟩
      simp only [Option.none_or, Option.map_some, Option.filter_some, hany, Bool.not_true,
        Bool.false_eq_true, if_false]

end LockTable

/-- Every row key fits before the chunks of it. -/
theorem flatten_chunksOf {α : Type} {n : Nat} (hn : 0 < n) (xs : List α) :
    (chunksOf n xs).flatten = xs := by
  fun_induction chunksOf n xs with
  | case1 xs h ih => simp [ih]
  | case2 xs h =>
    have : xs = [] := by
      by_contra hne
      exact h ⟨hn, hne⟩
    simp [this]

theorem mem_of_mem_chunksOf {α : Type} {n : Nat} (hn : 0 < n) {xs c : List α} {x : α}
    (hc : c ∈ chunksOf n xs) (hx : x ∈ c) : x ∈ xs := by
  rw [← flatten_chunksOf hn xs]
  exact List.mem_flatten.2 ⟨c, hc, hx⟩

namespace Etcd.Locks

/-! ## Mirrors of a lock table -/

/-- An etcd server keeps the rows of a lock table under `root`, written with `codec`: each row's
key holds the record of its holder, attached to no lease, exactly when the table holds the row;
every holder's record is read back; no conflict is injected, and no lease has id 0. -/
structure Mirrors (codec : Wire.Codec LockHolder) (root : String) (t : LockTable) (s : KeySpace) :
    Prop where
  rows : ∀ k, (s.find? (key root k)).map (fun kv => (kv.value, kv.lease)) =
    (t.owner? k).map fun h => (codec.encode h, 0)
  holders : ∀ k h, t.owner? k = some h → codec.ReadsBack h
  conflicts : s.conflicts = 0
  leases : ∀ l ∈ s.leases, l.id ≠ 0

variable {codec : Wire.Codec LockHolder} {root : String} {t : LockTable} {s : KeySpace}
  {now : Nat}

/-- A server without keys mirrors the empty table. -/
theorem Mirrors.empty (codec : Wire.Codec LockHolder) (root : String) :
    Mirrors codec root {} {} where
  rows _ := rfl
  holders _ _ h := by simp [LockTable.owner?] at h
  conflicts := rfl
  leases _ h := (List.not_mem_nil h).elim

/-- A mirror depends only on which rows the table holds, and for whom. -/
theorem Mirrors.congr {t' : LockTable} (hm : Mirrors codec root t s)
    (h : ∀ k, t.owner? k = t'.owner? k) :
    Mirrors codec root t' s where
  rows k := h k ▸ hm.rows k
  holders k := h k ▸ hm.holders k
  conflicts := hm.conflicts
  leases := hm.leases

/-- The key of a held row is attached to no lease. -/
theorem Mirrors.lease_eq_zero (hm : Mirrors codec root t s) {k : String} {kv : KeyValue}
    (hkv : s.find? (key root k) = some kv) : kv.lease = 0 := by
  have := hm.rows k
  rw [hkv] at this
  cases hown : t.owner? k with
  | none => simp [hown] at this
  | some h =>
    simp only [hown, Option.map_some, Option.some.injEq, Prod.mk.injEq] at this
    exact this.2

/-- Expiry keeps every row's key, as none is attached to a lease. -/
theorem Mirrors.find?_expire (hm : Mirrors codec root t s) (k : String) :
    (s.expire now).find? (key root k) = s.find? (key root k) :=
  KeySpace.find?_expire hm.leases fun _ hkv => hm.lease_eq_zero hkv

theorem Mirrors.expire (hm : Mirrors codec root t s) : Mirrors codec root t (s.expire now) where
  rows k := hm.find?_expire k ▸ hm.rows k
  holders := hm.holders
  conflicts := by rw [KeySpace.conflicts_expire]; exact hm.conflicts
  leases l hl := hm.leases l (KeySpace.leases_expire l hl)

/-- A held row's key is read back as its holder; a free row has no key. -/
theorem Mirrors.decode_find? (hm : Mirrors codec root t s) {k : String} {kv : KeyValue}
    (hkv : s.find? (key root k) = some kv) : ∃ h, t.owner? k = some h ∧ decode codec kv = .ok h := by
  have hrow := hm.rows k
  rw [hkv] at hrow
  cases hown : t.owner? k with
  | none => simp [hown] at hrow
  | some h =>
    simp only [hown, Option.map_some, Option.some.injEq, Prod.mk.injEq] at hrow
    have hback : codec.decode (codec.encode h) = .ok h := hm.holders k h hown
    refine ⟨h, rfl, ?_⟩
    simp [decode, hrow.1, hback]

theorem Mirrors.find?_eq_none_iff (hm : Mirrors codec root t s) (k : String) :
    s.find? (key root k) = none ↔ t.owner? k = none := by
  have hrow := hm.rows k
  constructor
  · intro h
    rw [h] at hrow
    simpa using hrow.symm
  · intro h
    rw [h] at hrow
    simpa using hrow

/-! ## Reading rows -/

@[simp] theorem run_request {β : Type} (req : Request β) :
    Client.run now (request req).run s =
      ((s.serve now req).1.mapError fun e => .internal e.text, (s.serve now req).2) := rfl

/-- The holder of a row is read as the table has it. -/
theorem run_owner? (hm : Mirrors codec root t s) (k : String) :
    Client.run now (owner? codec root k).run s = (.ok (t.owner? k), s.expire now) := by
  simp only [owner?, Client.run_exceptT_bind, run_request, KeySpace.serve]
  simp only [Except.mapError, KeySpace.head?_range_one, hm.find?_expire]
  cases hkv : s.find? (key root k) with
  | none =>
    rw [(hm.find?_eq_none_iff k).1 hkv]
    rfl
  | some kv =>
    obtain ⟨h, hown, hdec⟩ := hm.decode_find? hkv
    simp only [Client.run_exceptT_bind, Client.run_liftExcept, hdec, hown]
    rfl

/-- Reading rows in chunks of snapshots gives the rows as they were, chunk after chunk. -/
theorem run_read_chunks (chunks : List (List String))
    (hkeys : ∀ c ∈ chunks, ∀ x ∈ c, ∃ k, x = key root k) (acc : List (Option KeyValue)) (hm : Mirrors codec root t s) :
    ∃ s', Client.run now (chunks.foldlM (fun acc chunk => do
        pure (acc ++ (← request (.snapshot chunk)))) acc : LocksM _).run s =
        (.ok (acc ++ chunks.flatten.map s.find?), s') ∧
      Mirrors codec root t s' ∧ ∀ k, s'.find? (key root k) = s.find? (key root k) := by
  induction chunks generalizing acc s with
  | nil => exact ⟨s, by simp; rfl, hm, fun _ => rfl⟩
  | cons c cs ih =>
    -- one snapshot, after which the server has only expired leases
    have hsnap : c.map (s.expire now).find? = c.map s.find? := by
      refine List.map_congr_left fun x hx => ?_
      obtain ⟨k, rfl⟩ := hkeys c List.mem_cons_self x hx
      exact hm.find?_expire k
    obtain ⟨s', hrun, hm', hkeep⟩ := ih (fun c' hc' => hkeys c' (List.mem_cons_of_mem c hc'))
      (acc ++ c.map s.find?) (show Mirrors codec root t (s.expire now) from hm.expire)
    refine ⟨s', ?_, hm', fun k => (hkeep k).trans (hm.find?_expire k)⟩
    simp only [List.foldlM_cons, Client.run_exceptT_bind, run_request, KeySpace.serve,
      Except.mapError, hsnap, Client.run_exceptT_pure]
    rw [hrun]
    congr 2
    have hrest : cs.flatten.map (s.expire now).find? = cs.flatten.map s.find? := by
      refine List.map_congr_left fun x hx => ?_
      obtain ⟨c', hc', hxc⟩ := List.mem_flatten.1 hx
      obtain ⟨k, rfl⟩ := hkeys c' (List.mem_cons_of_mem c hc') x hxc
      exact hm.find?_expire k
    simp [hrest]

/-- Reading the rows of locks gives the rows as they were. -/
theorem run_read (now : Nat) (hm : Mirrors codec root t s) (locks : List RowLock) :
    ∃ s', Client.run now (read (locks.map fun l => key root l.rowKey)).run s =
        (.ok (locks.map fun l => s.find? (key root l.rowKey)), s') ∧
      Mirrors codec root t s' ∧ ∀ k, s'.find? (key root k) = s.find? (key root k) := by
  have hpos : 0 < maxTxnOps := by decide
  obtain ⟨s', hrun, hm', hkeep⟩ := run_read_chunks
    (chunksOf maxTxnOps (locks.map fun l => key root l.rowKey))
    (fun c hc x hx => by
      obtain ⟨l, -, rfl⟩ := List.mem_map.1 (mem_of_mem_chunksOf hpos hc hx)
      exact ⟨l.rowKey, rfl⟩) [] hm
  refine ⟨s', ?_, hm', hkeep⟩
  rw [read, hrun, flatten_chunksOf hpos, List.map_map]
  rfl

/-! ## Locking a chunk -/

/-- A comparison reads only its own key. -/
theorem holds_congr {s' : KeySpace} {c : Compare} (h : s'.find? c.key = s.find? c.key) :
    s'.holds c = s.holds c := by
  simp only [KeySpace.holds, h]

/-- What locking rows plans, given the rows as stored: nothing if a row is held by another
transaction; otherwise comparisons that hold, and a put for each free row, whose locks are the
rows newly locked. -/
theorem planAcquire_eq (hm : Mirrors codec root t s) (locks : List RowLock) :
    ∃ cs, (∀ c ∈ cs, ∃ k, c.key = key root k ∧ s.holds c = true) ∧
      planAcquire codec root (locks.zip (locks.map fun l => s.find? (key root l.rowKey))) =
        .ok (if locks.any t.conflicts then none else
          some (cs, (locks.filter fun l => (t.owner? l.rowKey).isNone).map
              (fun l => .put (key root l.rowKey) (codec.encode l.holder) 0),
            locks.filter fun l => (t.owner? l.rowKey).isNone)) := by
  induction locks with
  | nil => exact ⟨[], by simp, rfl⟩
  | cons l ls ih =>
    obtain ⟨cs, hcs, hplan⟩ := ih
    cases hkv : s.find? (key root l.rowKey) with
    | none =>
      -- a free row: compared as absent, and put
      have hown : t.owner? l.rowKey = none := (hm.find?_eq_none_iff _).1 hkv
      have hfree : t.conflicts l = false := by simp [LockTable.conflicts, hown]
      refine ⟨⟨key root l.rowKey, .createRevision, 0⟩ :: cs, ?_, ?_⟩
      · simp only [List.mem_cons, forall_eq_or_imp]
        exact ⟨⟨l.rowKey, rfl, by simp [KeySpace.holds, hkv]⟩, hcs⟩
      · cases hc : ls.any t.conflicts <;>
          simp [List.zip_cons_cons, planAcquire, hkv, hplan, hc, hfree, hown, bind, Except.bind,
            pure, Except.pure]
    | some kv =>
      obtain ⟨h, hown, hdec⟩ := hm.decode_find? hkv
      by_cases hx : h.xid = l.xid
      · -- a row held by the same transaction: compared as read, and left alone
        have hfree : t.conflicts l = false := by simp [LockTable.conflicts, hown, hx]
        refine ⟨⟨key root l.rowKey, .modRevision, kv.modRevision⟩ :: cs, ?_, ?_⟩
        · simp only [List.mem_cons, forall_eq_or_imp]
          exact ⟨⟨l.rowKey, rfl, by simp [KeySpace.holds, hkv]⟩, hcs⟩
        · cases hc : ls.any t.conflicts <;>
            simp [List.zip_cons_cons, planAcquire, hkv, hdec, hx, hplan, hc, hfree, hown, bind,
              Except.bind, pure, Except.pure]
      · -- a row held by another transaction: the plan gives up
        have hconf : t.conflicts l = true := by simp [LockTable.conflicts, hown, hx]
        refine ⟨[], by simp, ?_⟩
        simp [List.zip_cons_cons, planAcquire, hkv, hdec, hx, hconf, bind, Except.bind, pure,
          Except.pure]

theorem key_inj {a b : String} : key root a = key root b ↔ a = b :=
  String.append_right_inj _

/-- Puts of the rows of locks with distinct rows, attached to no lease: each locked row's key
holds its holder's record, and every other row's key is as it was. -/
theorem find?_foldl_puts (rev : Nat) (ls : List RowLock) (hnodup : (ls.map (·.rowKey)).Nodup)
    (kvs : List KeyValue) (c : Bool) (k : String) :
    (((ls.map fun l => Write.put (key root l.rowKey) (codec.encode l.holder) 0).foldl
        (KeySpace.applyWrite rev) (kvs, c)).1.find? (·.key == key root k)).map
        (fun kv => (kv.value, kv.lease)) =
      match ls.find? (·.rowKey == k) with
      | some l => some (codec.encode l.holder, 0)
      | none => (kvs.find? (·.key == key root k)).map fun kv => (kv.value, kv.lease) := by
  induction ls generalizing kvs c with
  | nil => rfl
  | cons l ls ih =>
    rw [List.map_cons, List.foldl_cons]
    rw [List.map_cons, List.nodup_cons] at hnodup
    rw [show KeySpace.applyWrite rev (kvs, c) (.put (key root l.rowKey) (codec.encode l.holder) 0) =
      (write kvs rev (key root l.rowKey) (codec.encode l.holder) 0, true) from rfl, ih hnodup.2]
    by_cases hk : l.rowKey = k
    · subst hk
      -- the row is put once, by its own lock
      have hrest : ls.find? (·.rowKey == l.rowKey) = none := by
        rw [List.find?_eq_none]
        intro l' hl' he
        exact hnodup.1 ((beq_iff_eq.1 he) ▸ List.mem_map_of_mem hl')
      simp [hrest, find?_write]
    · have hkey : key root k ≠ key root l.rowKey := fun he => hk (key_inj.1 he).symm
      simp only [List.find?_cons, show (l.rowKey == k) = false by simpa using hk]
      cases ls.find? (·.rowKey == k) with
      | some l' => rfl
      | none => simp [find?_write_other _ _ _ _ _ _ hkey]

/-- Locking the free rows of locks with distinct rows, none of them held by another
transaction, mirrors the table that acquires the locks. -/
theorem Mirrors.acquire (hm : Mirrors codec root t s) {locks : List RowLock}
    (hback : ∀ l ∈ locks, codec.ReadsBack l.holder) {s' : KeySpace}
    (hrows : ∀ k, (s'.find? (key root k)).map (fun kv => (kv.value, kv.lease)) =
      match (locks.filter fun l => (t.owner? l.rowKey).isNone).find? (·.rowKey == k) with
      | some l => some (codec.encode l.holder, 0)
      | none => (s.find? (key root k)).map fun kv => (kv.value, kv.lease))
    (hconflicts : s'.conflicts = 0) (hleases : ∀ l ∈ s'.leases, l.id ≠ 0) :
    Mirrors codec root (locks.foldl LockTable.insertIfAbsent t) s' where
  rows k := by
    rw [hrows, LockTable.owner?_foldl_insertIfAbsent]
    cases hown : t.owner? k with
    | some h =>
      -- a held row is no free row
      have hnone : (locks.filter fun l => (t.owner? l.rowKey).isNone).find? (·.rowKey == k) =
          none := by
        rw [List.find?_eq_none]
        intro l hl hk
        have hk : l.rowKey = k := by simpa using hk
        simp [hk, hown] at hl
      rw [hnone, hm.rows k, hown]
      rfl
    | none =>
      -- a free row is locked by its first lock, if any
      have hsame : (locks.filter fun l => (t.owner? l.rowKey).isNone).find? (·.rowKey == k) =
          locks.find? (·.rowKey == k) := by
        rw [List.find?_filter]
        congr 1
        funext l
        by_cases hk : l.rowKey = k
        · simp [hk, hown]
        · simp [hk]
      rw [hsame]
      cases hl : locks.find? (·.rowKey == k) with
      | some l => rfl
      | none => rw [hm.rows k, hown]; rfl
  holders k h hown := by
    rw [LockTable.owner?_foldl_insertIfAbsent] at hown
    cases hold : t.owner? k with
    | some h' =>
      rw [hold] at hown
      obtain rfl : h' = h := by simpa using hown
      exact hm.holders k h' hold
    | none =>
      rw [hold] at hown
      obtain ⟨l, hl, rfl⟩ := Option.map_eq_some_iff.1 (by simpa using hown)
      exact hback l (List.mem_of_find?_eq_some hl)
  conflicts := hconflicts
  leases := hleases

/-- One try at locking a chunk of rows with distinct keys: with a row held by another
transaction nothing is locked; otherwise the free rows are locked in one transaction, which
holds as no other writer came in between. -/
theorem run_acquireChunk_attempt (now n : Nat) (hm : Mirrors codec root t s) {locks : List RowLock}
    (hnodup : (locks.map (·.rowKey)).Nodup) (hback : ∀ l ∈ locks, codec.ReadsBack l.holder) :
    ∃ s', Client.run now (acquireChunk.attempt codec root locks (n + 1)).run s =
        (.ok (if locks.any t.conflicts then none else
          some (locks.filter fun l => (t.owner? l.rowKey).isNone)), s') ∧
      Mirrors codec root (if locks.any t.conflicts then t else locks.foldl LockTable.insertIfAbsent t)
        s' := by
  obtain ⟨s1, hread, hm1, hkeep1⟩ := run_read now hm locks
  obtain ⟨cs, hcs, hplan⟩ := planAcquire_eq hm locks
  simp only [acquireChunk.attempt, Client.run_exceptT_bind, hread, Client.run_liftExcept, hplan]
  cases hconf : locks.any t.conflicts with
  | true => exact ⟨s1, rfl, by simpa using hm1⟩
  | false =>
    simp only [Bool.false_eq_true, if_false]
    -- the free rows of the chunk, whose puts are its writes
    have hfresh : ((locks.filter fun l => (t.owner? l.rowKey).isNone).map (·.rowKey)).Nodup :=
      hnodup.sublist (List.filter_sublist.map _)
    by_cases hempty : (locks.filter fun l => (t.owner? l.rowKey).isNone) = []
    · refine ⟨s1, by simp [hempty]; rfl, ?_⟩
      refine hm.acquire hback (fun k => ?_) hm1.conflicts hm1.leases
      rw [hempty, hkeep1]
      rfl
    · -- the transaction reads the chunk's rows as they were read, so its comparisons hold
      have hm2 : Mirrors codec root t (s1.expire now) := hm1.expire
      have hholds : ∀ c ∈ cs, (s1.expire now).holds c = true := by
        intro c hc
        obtain ⟨k, hck, hc⟩ := hcs c hc
        have hsame : (s1.expire now).holds c = s.holds c :=
          holds_congr (by rw [hck, hm1.find?_expire, hkeep1])
        rw [hsame]
        exact hc
      let writes := (locks.filter fun l => (t.owner? l.rowKey).isNone).map
        fun l => Write.put (key root l.rowKey) (codec.encode l.holder) 0
      have hwrites : writes.isEmpty = false := by simpa [writes] using hempty
      have hlive : (s1.expire now).leasesLive writes = true :=
        KeySpace.leasesLive_of_lease_zero _ fun w hw _ _ _ hput => by
          obtain ⟨l, -, rfl⟩ := List.mem_map.1 hw
          cases hput
          rfl
      refine ⟨(s1.expire now).applyWrites writes, ?_, ?_⟩
      · simp only [writes] at hwrites hlive
        simp only [hwrites, Bool.false_eq_true, if_false, Client.run_exceptT_bind, run_request,
          KeySpace.serve, KeySpace.txn_of_holds hm2.conflicts hholds, hlive]
        rfl
      · refine hm.acquire hback (fun k => ?_) (by simpa using hm2.conflicts)
          (by simpa using hm2.leases)
        show (List.find? _ ((s1.expire now).applyWrites writes).kvs).map _ = _
        rw [KeySpace.kvs_applyWrites, find?_foldl_puts _ _ hfresh]
        cases (locks.filter fun l => (t.owner? l.rowKey).isNone).find? (·.rowKey == k) with
        | some l => rfl
        | none => exact congrArg (Option.map _) ((hm1.find?_expire k).trans (hkeep1 k))

/-! ## Unlocking -/

/-- What unlocking rows plans, given the rows as stored: comparisons that hold, and a delete of
each row held by the branch that releases it. -/
theorem planRelease_eq (hm : Mirrors codec root t s) (locks : List RowLock) :
    ∃ cs, (∀ c ∈ cs, ∃ k, c.key = key root k ∧ s.holds c = true) ∧
      planRelease codec root (locks.zip (locks.map fun l => s.find? (key root l.rowKey))) =
        .ok (cs, (locks.filter fun l => (t.owner? l.rowKey).any l.isHeldByBranch).map
          fun l => .delete (key root l.rowKey)) := by
  induction locks with
  | nil => exact ⟨[], by simp, rfl⟩
  | cons l ls ih =>
    obtain ⟨cs, hcs, hplan⟩ := ih
    cases hkv : s.find? (key root l.rowKey) with
    | none =>
      -- a free row is left alone
      have hown : t.owner? l.rowKey = none := (hm.find?_eq_none_iff _).1 hkv
      exact ⟨cs, hcs, by simp [List.zip_cons_cons, planRelease, hkv, hplan, hown]⟩
    | some kv =>
      obtain ⟨h, hown, hdec⟩ := hm.decode_find? hkv
      by_cases hb : l.isHeldByBranch h = true
      · -- a row held by the releasing branch: compared as read, and deleted
        refine ⟨⟨key root l.rowKey, .modRevision, kv.modRevision⟩ :: cs, ?_, ?_⟩
        · simp only [List.mem_cons, forall_eq_or_imp]
          exact ⟨⟨l.rowKey, rfl, by simp [KeySpace.holds, hkv]⟩, hcs⟩
        · simp [List.zip_cons_cons, planRelease, hkv, hdec, hplan, hown, hb, bind, Except.bind,
            pure, Except.pure]
      · exact ⟨cs, hcs, by simp [List.zip_cons_cons, planRelease, hkv, hdec, hplan, hown, hb,
          bind, Except.bind, pure, Except.pure]⟩

/-- Deletes of the rows of locks: each such row's key is gone, and every other row's key is
as it was. -/
theorem find?_foldl_deletes (rev : Nat) (ls : List RowLock) (p : List KeyValue × Bool)
    (k : String) :
    ((ls.map fun l => Write.delete (key root l.rowKey)).foldl (KeySpace.applyWrite rev) p).1.find?
        (·.key == key root k) =
      if ls.any (·.rowKey == k) then none else p.1.find? (·.key == key root k) := by
  induction ls generalizing p with
  | nil => rfl
  | cons l ls ih =>
    rw [List.map_cons, List.foldl_cons, ih, find?_applyWrite_delete]
    by_cases hk : l.rowKey = k
    · simp [hk]
    · have hkey : key root k ≠ key root l.rowKey := fun he => hk (key_inj.1 he).symm
      simp [hk, hkey]

/-- Deleting the rows that the releasing branches hold mirrors the table that releases the
locks. -/
theorem Mirrors.release (hm : Mirrors codec root t s) (ls : List RowLock) {s' : KeySpace}
    (hrows : ∀ k, s'.find? (key root k) =
      if (ls.filter fun l => (t.owner? l.rowKey).any l.isHeldByBranch).any (·.rowKey == k) then
        none
      else s.find? (key root k))
    (hconflicts : s'.conflicts = 0) (hleases : ∀ l ∈ s'.leases, l.id ≠ 0) :
    Mirrors codec root (t.release ls) s' where
  rows k := by
    rw [hrows, LockTable.owner?_release]
    cases hown : t.owner? k with
    | none =>
      have hfree := (hm.find?_eq_none_iff k).2 hown
      simp [hfree]
    | some h =>
      -- a lock of the row deletes it exactly when the row's holder is its branch
      have hany : (ls.filter fun l => (t.owner? l.rowKey).any l.isHeldByBranch).any
          (·.rowKey == k) = ls.any fun l => l.rowKey == k && l.isHeldByBranch h := by
        rw [List.any_filter]
        congr 1
        funext l
        by_cases hk : l.rowKey = k
        · subst hk
          simp [hown, Bool.and_comm]
        · have hk' : (l.rowKey == k) = false := by simpa using hk
          simp [hk']
      have hview : (s.find? (key root k)).map (fun kv => (kv.value, kv.lease)) =
          some (codec.encode h, 0) := by
        rw [hm.rows k, hown]
        rfl
      rw [hany]
      cases hb : ls.any fun l => l.rowKey == k && l.isHeldByBranch h
      · simp only [Bool.false_eq_true, if_false, hview, Option.filter_some, hb, Bool.not_false,
          if_true, Option.map_some]
      · simp only [if_true, Option.map_none, Option.filter_some, hb, Bool.not_true,
          Bool.false_eq_true, if_false]
  holders k h hown := hm.holders k h (LockTable.owner?_release_eq_some.1 hown).1
  conflicts := hconflicts
  leases := hleases

/-- One try at unlocking a chunk of rows: the rows the releasing branches hold are deleted in
one transaction, which holds as no other writer came in between. -/
theorem run_releaseChunk_attempt (now n : Nat) (hm : Mirrors codec root t s) (locks : List RowLock) :
    ∃ s', Client.run now (releaseChunk.attempt codec root locks (n + 1)).run s = (.ok (), s') ∧
      Mirrors codec root (t.release locks) s' := by
  obtain ⟨s1, hread, hm1, hkeep1⟩ := run_read now hm locks
  obtain ⟨cs, hcs, hplan⟩ := planRelease_eq hm locks
  simp only [releaseChunk.attempt, Client.run_exceptT_bind, hread, Client.run_liftExcept, hplan]
  let held := locks.filter fun l => (t.owner? l.rowKey).any l.isHeldByBranch
  by_cases hempty : held = []
  · simp only [held] at hempty
    refine ⟨s1, by rw [hempty]; rfl, ?_⟩
    refine hm.release locks (fun k => ?_) hm1.conflicts hm1.leases
    rw [hempty, hkeep1]
    rfl
  · -- the transaction reads the rows as they were read, so its comparisons hold
    have hm2 : Mirrors codec root t (s1.expire now) := hm1.expire
    have hholds : ∀ c ∈ cs, (s1.expire now).holds c = true := by
      intro c hc
      obtain ⟨k, hck, hc⟩ := hcs c hc
      have hsame : (s1.expire now).holds c = s.holds c :=
        holds_congr (by rw [hck, hm1.find?_expire, hkeep1])
      rw [hsame]
      exact hc
    let deletes := held.map fun l => Write.delete (key root l.rowKey)
    have hdeletes : deletes.isEmpty = false := by simpa [deletes] using hempty
    have hlive : (s1.expire now).leasesLive deletes = true :=
      KeySpace.leasesLive_of_lease_zero _ fun w hw _ _ _ hput => by
        obtain ⟨l, -, rfl⟩ := List.mem_map.1 hw
        cases hput
    refine ⟨(s1.expire now).applyWrites deletes, ?_, ?_⟩
    · simp only [deletes, held] at hdeletes hlive
      simp only [hdeletes, Bool.false_eq_true, if_false, Client.run_exceptT_bind, run_request,
        KeySpace.serve, KeySpace.txn_of_holds hm2.conflicts hholds, hlive]
      rfl
    · refine hm.release locks (fun k => ?_) (by simpa using hm2.conflicts)
        (by simpa using hm2.leases)
      show List.find? _ ((s1.expire now).applyWrites deletes).kvs = _
      rw [KeySpace.kvs_applyWrites, find?_foldl_deletes]
      split
      · rfl
      · exact (hm1.find?_expire k).trans (hkeep1 k)

/-- Unlocking rows chunk after chunk mirrors the table that releases them all. -/
theorem run_release_chunks (now : Nat) (chunks : List (List RowLock)) (hm : Mirrors codec root t s) :
    ∃ s', Client.run now (chunks.forM (releaseChunk codec root)).run s = (.ok (), s') ∧
      Mirrors codec root (t.release chunks.flatten) s' := by
  induction chunks generalizing t s with
  | nil => exact ⟨s, rfl, hm⟩
  | cons c cs ih =>
    obtain ⟨s1, hrun1, hm1⟩ := run_releaseChunk_attempt now (maxAttempts - 1) hm c
    obtain ⟨s2, hrun2, hm2⟩ := ih hm1
    refine ⟨s2, ?_, ?_⟩
    · simp only [List.forM, Client.run_exceptT_bind,
        show releaseChunk codec root c = releaseChunk.attempt codec root c (maxAttempts - 1 + 1) from rfl, hrun1]
      exact hrun2
    · rw [List.flatten_cons, LockTable.release, List.foldl_append]
      exact hm2

/-- Unlocking rows mirrors the table that releases them. -/
theorem run_release (now : Nat) (hm : Mirrors codec root t s) (locks : List RowLock) :
    ∃ s', Client.run now (release codec root locks).run s = (.ok (), s') ∧
      Mirrors codec root (t.release locks) s' := by
  have hrun := run_release_chunks now (chunksOf maxTxnOps locks) hm
  rwa [flatten_chunksOf (by decide)] at hrun

/-! ## Locking all rows or none -/

/-- Acquiring after rows that acquire without a conflict decides as the rows after them. -/
theorem LockTable.acquire_append_of_any_eq_false {t : LockTable} {done : List RowLock}
    (hdone : done.any t.conflicts = false) (rest : List RowLock) :
    t.acquire (done ++ rest) =
      if rest.any t.conflicts then (false, t) else (true, (done ++ rest).foldl LockTable.insertIfAbsent t) := by
  simp [LockTable.acquire, List.any_append, hdone]

/-- Locking the chunks left after the rows `done`, which `t₀` acquires without a conflict and
whose newly locked rows the server holds, finishes what acquiring all rows on `t₀` does: when a
later chunk meets a row of another transaction, unlocking the newly locked rows gives `t₀` back. -/
theorem run_acquire_go (now : Nat) (t₀ : LockTable) (chunks : List (List RowLock))
    (done : List RowLock) (hm : Mirrors codec root (done.foldl LockTable.insertIfAbsent t₀) s)
    (hnodup : ((done ++ chunks.flatten).map (·.rowKey)).Nodup)
    (hback : ∀ l ∈ chunks.flatten, codec.ReadsBack l.holder) (hdone : done.any t₀.conflicts = false) :
    ∃ s', Client.run now (acquire.go codec root chunks
          (done.filter fun l => (t₀.owner? l.rowKey).isNone)).run s =
        (.ok (t₀.acquire (done ++ chunks.flatten)).1, s') ∧
      Mirrors codec root (t₀.acquire (done ++ chunks.flatten)).2 s' := by
  induction chunks generalizing done s with
  | nil => exact ⟨s, by simp [LockTable.acquire, hdone]; rfl, by simpa [LockTable.acquire, hdone] using hm⟩
  | cons c cs ih =>
    rw [List.flatten_cons] at hnodup hback
    rw [List.flatten_cons]
    -- the chunk's rows are named by no earlier chunk, so they are as in `t₀`
    have hdisj : ∀ l ∈ c, l.rowKey ∉ done.map (·.rowKey) := by
      intro l hl hmem
      rw [List.map_append, List.nodup_append] at hnodup
      exact hnodup.2.2 _ hmem _ (List.mem_map_of_mem (List.mem_append_left _ hl)) rfl
    have hsame : ∀ l ∈ c, (done.foldl LockTable.insertIfAbsent t₀).owner? l.rowKey =
        t₀.owner? l.rowKey := fun l hl =>
      LockTable.owner?_foldl_insertIfAbsent_of_not_mem t₀ (hdisj l hl)
    have hconflicts : c.any (done.foldl LockTable.insertIfAbsent t₀).conflicts = c.any t₀.conflicts := by
      rw [Bool.eq_iff_iff, List.any_eq_true, List.any_eq_true]
      exact exists_congr fun l => and_congr_right fun hl => by
        simp only [LockTable.conflicts, hsame l hl]
    have hfresh : (c.filter fun l => ((done.foldl LockTable.insertIfAbsent t₀).owner? l.rowKey).isNone) =
        c.filter fun l => (t₀.owner? l.rowKey).isNone :=
      List.filter_congr fun l hl => by rw [hsame l hl]
    have hc : (c.map (·.rowKey)).Nodup :=
      hnodup.sublist (((List.sublist_append_left c _).trans (List.sublist_append_right done _)).map _)
    obtain ⟨s1, hrun1, hm1⟩ := run_acquireChunk_attempt now (maxAttempts - 1) hm hc
      fun l hl => hback l (List.mem_append_left _ hl)
    rw [hconflicts, hfresh] at hrun1
    rw [hconflicts] at hm1
    have hchunk : Client.run now (acquireChunk codec root c).run s = _ := hrun1
    simp only [acquire.go, Client.run_exceptT_bind, Client.run_exceptT_lift, hchunk]
    cases hc : c.any t₀.conflicts with
    | true =>
      -- a row of another transaction: the newly locked rows are unlocked again
      obtain ⟨s2, hrun2, hm2⟩ := run_release now (show Mirrors codec root _ s1 by simpa [hc] using hm1)
        (done.filter fun l => (t₀.owner? l.rowKey).isNone)
      rw [LockTable.acquire_append_of_any_eq_false hdone]
      refine ⟨s2, ?_, ?_⟩
      · simp only [hc, if_true, Client.run_exceptT_bind, hrun2, List.any_append]
        rfl
      · simpa [List.any_append, hc] using
          hm2.congr (LockTable.owner?_release_newlyLocked t₀ done)
    | false =>
      have hm1' : Mirrors codec root ((done ++ c).foldl LockTable.insertIfAbsent t₀) s1 := by
        rw [List.foldl_append]
        simpa [hc] using hm1
      obtain ⟨s2, hrun2, hm2⟩ := ih (done ++ c) hm1' (by rwa [List.append_assoc])
        (fun l hl => hback l (List.mem_append_right _ hl)) (by simp [List.any_append, hdone, hc])
      rw [List.append_assoc] at hrun2 hm2
      refine ⟨s2, ?_, hm2⟩
      simp only [Bool.false_eq_true, if_false, ← List.filter_append]
      exact hrun2

/-- Acquiring rows with distinct keys answers as the table does, and mirrors the table it
leaves. -/
theorem run_acquire (now : Nat) (hm : Mirrors codec root t s) {locks : List RowLock}
    (hnodup : (locks.map (·.rowKey)).Nodup) (hback : ∀ l ∈ locks, codec.ReadsBack l.holder) :
    ∃ s', Client.run now (acquire codec root locks).run s = (.ok (t.acquire locks).1, s') ∧
      Mirrors codec root (t.acquire locks).2 s' := by
  have hflat := flatten_chunksOf (show 0 < maxTxnOps by decide) locks
  obtain ⟨s', hrun, hm'⟩ := run_acquire_go now t (chunksOf maxTxnOps locks) [] hm
    (by rwa [List.nil_append, hflat]) (by rwa [hflat]) rfl
  rw [List.nil_append, hflat] at hrun hm'
  exact ⟨s', hrun, hm'⟩

end Etcd.Locks

/-! ## Sequences of calls -/

/-- A call of a lock store. -/
inductive LockCall where
  | acquire (locks : List RowLock)
  | release (locks : List RowLock)
  | owner? (rowKey : String)

/-- What a lock store answers to a call. -/
inductive LockAnswer where
  | acquired (ok : Bool)
  | released
  | owner (holder : Option LockHolder)
  deriving DecidableEq

namespace LockCall

/-- Asks a lock store a call. -/
def perform {m : Type → Type u} [Monad m] (store : LockStore m) : LockCall → m LockAnswer
  | .acquire locks => LockAnswer.acquired <$> store.acquire locks
  | .release locks => (fun _ => LockAnswer.released) <$> store.release locks
  | .owner? rowKey => LockAnswer.owner <$> store.owner? rowKey

/-- A call as the coordinator makes it: an acquire names distinct rows, whose holders `codec` is
meant to write. -/
def Valid (codec : Wire.Codec LockHolder) : LockCall → Prop
  | .acquire locks => (locks.map (·.rowKey)).Nodup ∧ ∀ l ∈ locks, codec.fits l.holder
  | .release _ => True
  | .owner? _ => True

end LockCall

namespace Etcd.Locks

variable {codec : Wire.Codec LockHolder} {root : String} {t : LockTable} {s : KeySpace}

/-- Each call answers as the table answers it, and mirrors the table it leaves. -/
theorem run_perform (now : Nat) (hcodec : codec.RoundTrips) {c : LockCall} (hc : c.Valid codec)
    (hm : Mirrors codec root t s) :
    ∃ s', Client.run now (c.perform (store codec root) : LocksM LockAnswer).run s =
        (((c.perform LockTable.store : LockTableM LockAnswer).run.run t).1, s') ∧
      Mirrors codec root ((c.perform LockTable.store : LockTableM LockAnswer).run.run t).2 s' := by
  cases c with
  | acquire locks =>
    obtain ⟨s', hrun, hm'⟩ := run_acquire now hm hc.1 fun l hl => hcodec _ (hc.2 l hl)
    exact ⟨s', by simp only [LockCall.perform, store, Client.run_exceptT_map, hrun]; rfl, hm'⟩
  | release locks =>
    obtain ⟨s', hrun, hm'⟩ := run_release now hm locks
    exact ⟨s', by simp only [LockCall.perform, store, Client.run_exceptT_map, hrun]; rfl, hm'⟩
  | owner? k =>
    exact ⟨s.expire now, by
      simp only [LockCall.perform, store, Client.run_exceptT_map, run_owner? hm k]; rfl, hm.expire⟩

/-- The etcd lock store under `root`, alone on a server that mirrors a lock table, refines the
table.  A sequence of calls answers as the table answers it and leaves a mirror of the table it
leaves.  Acquiring rows with distinct keys answers `false` exactly when one of them is held by
another transaction, and then leaves every row as it was; otherwise each free row gets the
holder of its first lock and held rows keep their holders.  Releasing frees exactly the rows
held by a releasing branch. -/
theorem store_refines_lockTable (now : Nat) (hcodec : codec.RoundTrips)
    (hm : Mirrors codec root t s) :
    (∀ calls : List LockCall, (∀ c ∈ calls, c.Valid codec) →
      ∃ s', Client.run now (calls.mapM (·.perform (store codec root)) : LocksM _).run s =
          (((calls.mapM (·.perform LockTable.store) : LockTableM _).run.run t).1, s') ∧
        Mirrors codec root
          ((calls.mapM (·.perform LockTable.store) : LockTableM _).run.run t).2 s') ∧
    (∀ locks : List RowLock, (locks.map (·.rowKey)).Nodup → (∀ l ∈ locks, codec.fits l.holder) →
      ∃ ok s', Client.run now (acquire codec root locks).run s = (.ok ok, s') ∧
        (ok = false ↔ ∃ l ∈ locks, ∃ h, t.owner? l.rowKey = some h ∧ h.xid ≠ l.xid) ∧
        ∃ t', Mirrors codec root t' s' ∧ ∀ k, t'.owner? k =
          if ok then (t.owner? k).or ((locks.find? (·.rowKey == k)).map (·.holder))
          else t.owner? k) ∧
    (∀ locks : List RowLock,
      ∃ s', Client.run now (release codec root locks).run s = (.ok (), s') ∧
        ∃ t', Mirrors codec root t' s' ∧ ∀ k, t'.owner? k =
          (t.owner? k).filter fun h => !locks.any fun l => l.rowKey == k && l.isHeldByBranch h) := by
  refine ⟨fun calls hcalls => ?_, fun locks hnodup hfits => ?_, fun locks => ?_⟩
  · exact Client.run_mapM_of_step now (Mirrors codec root) (LockCall.Valid codec) _ _
      (fun _ hc _ _ hm => run_perform now hcodec hc hm) calls hcalls t s hm
  · obtain ⟨s', hrun, hm'⟩ := run_acquire now hm hnodup fun l hl => hcodec _ (hfits l hl)
    refine ⟨_, s', hrun, ?_, _, hm', fun k => ?_⟩
    · rw [← LockTable.any_conflicts_eq_true_iff]
      cases hc : locks.any t.conflicts <;> simp [LockTable.acquire, hc]
    · cases hc : locks.any t.conflicts <;>
        simp [LockTable.acquire, hc, LockTable.owner?_foldl_insertIfAbsent]
  · obtain ⟨s', hrun, hm'⟩ := run_release now hm locks
    exact ⟨s', hrun, _, hm', LockTable.owner?_release t locks⟩

/-- From a server without keys, locking a row and asking for its holder answers the holder,
with holders kept in the Protobuf wire format. -/
theorem store_refines_lockTable_acquire_then_owner :
    LockHolder.codec.RoundTrips ∧ Mirrors LockHolder.codec "root" {} {} ∧
      ∃ s', Client.run 0 ([LockCall.acquire [⟨"tc:1", 1, 2, "db", "t", "7"⟩],
          LockCall.owner? "db^^^t^^^7"].mapM (·.perform (store LockHolder.codec "root")) :
            LocksM _).run {} =
        (.ok [.acquired true, .owner (some ⟨"tc:1", 1, 2⟩)], s') := by
  have hm := Mirrors.empty LockHolder.codec "root"
  have hvalid : ∀ c ∈ [LockCall.acquire [⟨"tc:1", 1, 2, "db", "t", "7"⟩],
      LockCall.owner? "db^^^t^^^7"], c.Valid LockHolder.codec := by
    intro c hc
    simp only [List.mem_cons, List.not_mem_nil, or_false] at hc
    rcases hc with rfl | rfl
    · exact ⟨by decide, fun l hl => by
        simp only [List.mem_singleton] at hl
        subst hl
        show LockHolder.Fits _
        exact ⟨by decide, by decide, by decide⟩⟩
    · trivial
  obtain ⟨s', hrun, -⟩ :=
    (store_refines_lockTable 0 LockHolder.codec_roundTrips hm).1 _ hvalid
  exact ⟨LockHolder.codec_roundTrips, hm, s', hrun.trans rfl⟩

end Etcd.Locks

end GlobalTxn
