import GlobalTxn.Proofs.Recovery
import GlobalTxn.Proofs.LockKeyGrammar

/-! # The rows of stored sessions stay held

Every row a branch of a stored session names should be held for the session's transaction, as
long as the session's status keeps row locks (`Env.RowsCovered`); then no row is named by two
transactions that both keep row locks (`Env.RowsApart`).  Row locks are re-entrant per
transaction and a row keeps its first holder, so this fails when two branches of one session
name a row: finishing the first one frees the row the second still names.

`SessionTable.Covers A t lt` is what the coordinator keeps where it can: every stored session is
covered (`GlobalSession.Covered`), that is its status keeps row locks, each row its branches name
is held for its transaction, its branches name pairwise disjoint rows, and each of these rows was
asked for by its transaction in `A`, the rows the registrations of a run named.  A registration
whose rows its transaction never asked for before adds a branch apart from the others.

Each change of the tables that the coordinator makes keeps the invariant under the conditions
it makes it: a session without branches stored (`Covers.add`), a status that keeps row locks
persisted (`Covers.put_status`), a branch replaced by one with the same rows
(`Covers.replaceBranch`), a branch removed once its rows are released
(`Covers.removeBranch_release`), a session removed once its rows are released
(`Covers.remove_release`), a branch appended with its rows just acquired
(`Covers.addBranch_acquire`), and rows acquired (`Covers.of_extends`).

From the invariant, a coordinator restarted over the session store with an empty lock table
locks every stored row again without a conflict (`Env.Covered.recover_without_conflicts`).
-/

namespace GlobalTxn

namespace LockTable

variable {lt : LockTable} {ls : List RowLock}

/-- Acquiring gives no row held another holder, whether it succeeds or not. -/
theorem extends_acquire (lt : LockTable) (ls : List RowLock) : lt.Extends (lt.acquire ls).2 := by
  unfold acquire
  split
  · exact Extends.refl lt
  · exact extends_foldl_insertIfAbsent lt ls

/-- Locks of one transaction acquired together: each of their rows is then held for it. -/
theorem held_of_acquire {x : String} (hacq : (lt.acquire ls).1 = true)
    (hlx : ∀ l ∈ ls, l.xid = x) :
    ∀ l ∈ ls, ∃ h, (lt.acquire ls).2.owner? l.rowKey = some h ∧ h.xid = x := by
  -- the acquisition met no conflict, so it gave every free row of `ls` its holder
  have hnc : ls.any lt.conflicts = false := by
    unfold acquire at hacq
    split at hacq
    · cases hacq
    · exact Bool.eq_false_iff.2 ‹_›
  have hfold : (lt.acquire ls).2 = ls.foldl insertIfAbsent lt := by simp [acquire, hnc]
  intro l hl
  obtain ⟨h, hown, hx⟩ := held_of_foldl_insertIfAbsent hnc
    (fun l hl l' hl' _ => by rw [hlx l hl, hlx l' hl']) l hl
  exact ⟨h, hfold ▸ hown, hx.trans (hlx l hl)⟩

end LockTable

namespace Branch

/-- The keys of the rows a branch takes; none for a lock key that breaks the grammar. -/
def rowKeys (b : Branch) : List String := b.rowLocks.map RowLock.rowKey

theorem rowKeys_of_collect {b : Branch} {ls : List RowLock} (h : LockManager.collect b = .ok ls) :
    b.rowKeys = ls.map RowLock.rowKey := by
  rw [rowKeys, rowLocks_of_collect h]

end Branch

namespace GlobalSession

/-- The rows of session `g` are held for its transaction in `lt`, and its transaction asked for
them in `A`: every branch belongs to the session and has a lock key that parses; the status keeps
row locks; every row a branch names is held for the session's transaction; no two branches name
one row; and the transaction asked for every row its branches name. -/
structure Covered (A : List (String × String)) (lt : LockTable) (g : GlobalSession) : Prop where
  branches : ∀ b ∈ g.branches, b.xid = g.xid ∧ ∃ ls, LockManager.collect b = .ok ls
  holding : g.status.holdsRowLocks = true
  held : ∀ b ∈ g.branches, ∀ k ∈ b.rowKeys, ∃ h, lt.owner? k = some h ∧ h.xid = g.xid
  apart : (g.branches.map Branch.rowKeys).Pairwise List.Disjoint
  asked : ∀ b ∈ g.branches, ∀ k ∈ b.rowKeys, (g.xid, k) ∈ A

variable {g s : GlobalSession} {b c : Branch} {id : Nat}

/-- A branch left once the first branch with an id is removed names none of the rows of the
branch removed, when the session's branches name disjoint rows. -/
theorem disjoint_of_mem_removeBranch
    (hapart : (g.branches.map Branch.rowKeys).Pairwise List.Disjoint)
    (hb : g.findBranch? id = some b) (hc : c ∈ (g.removeBranch id).branches) :
    c.rowKeys.Disjoint b.rowKeys := by
  obtain ⟨a, l₁, l₂, hl₁, ha, hsplit, herase⟩ :=
    List.exists_of_eraseP (List.mem_of_find?_eq_some hb) (List.find?_some hb)
  -- the branch removed is the first one with the id, which is `b`
  have hab : a = b := by
    have hfind : g.branches.find? (·.branchId == id) = some a := by
      rw [hsplit, List.find?_append, List.find?_eq_none.2 hl₁, Option.none_or,
        List.find?_cons_of_pos (p := fun x : Branch => x.branchId == id) ha]
    exact Option.some.inj (hfind.symm.trans hb)
  subst hab
  have hc' : c ∈ l₁ ++ l₂ := herase ▸ hc
  rw [hsplit, List.map_append, List.map_cons, List.pairwise_append, List.pairwise_cons] at hapart
  rcases List.mem_append.1 hc' with hc₁ | hc₂
  · exact hapart.2.2 _ (List.mem_map_of_mem hc₁) _ List.mem_cons_self
  · exact (hapart.2.1.1 _ (List.mem_map_of_mem hc₂)).symm

/-- Replacing the first branch with an id by one whose rows are those of the branch replaced
keeps the rows of every branch. -/
theorem map_rowKeys_replaceBranch (hc : g.findBranch? b.branchId = some c)
    (hkeys : b.rowKeys = c.rowKeys) :
    (g.replaceBranch b).branches.map Branch.rowKeys = g.branches.map Branch.rowKeys := by
  obtain ⟨xid, tid, app, group, name, status, timeout, begin, upd, data, bs⟩ := g
  simp only [replaceBranch, findBranch?] at hc ⊢
  induction bs with
  | nil => rfl
  | cons a bs ih =>
    simp only [replaceBranch.replaceFirst]
    split
    · rename_i ha
      rw [List.find?_cons_of_pos (p := fun x : Branch => x.branchId == b.branchId) ha] at hc
      cases hc
      rw [List.map_cons, List.map_cons, hkeys]
    · rename_i ha
      rw [List.find?_cons_of_neg (p := fun x : Branch => x.branchId == b.branchId) ha] at hc
      rw [List.map_cons, List.map_cons, ih hc]

namespace Covered

variable {A A' : List (String × String)} {lt lt' : LockTable}

/-- More rows asked for keep a session covered. -/
theorem mono (h : g.Covered A lt) (hA : ∀ p ∈ A, p ∈ A') : g.Covered A' lt :=
  { h with asked := fun b hb k hk => hA _ (h.asked b hb k hk) }

/-- A lock table that keeps every holder keeps a session covered. -/
theorem of_extends (h : g.Covered A lt) (hext : lt.Extends lt') : g.Covered A lt' :=
  { h with held := fun b hb k hk => (h.held b hb k hk).imp fun _ hh => ⟨hext _ _ hh.1, hh.2⟩ }

/-- A release keeps a session covered when no lock released is both of the session's
transaction and on a row one of its branches names. -/
theorem release (h : g.Covered A lt) {ls : List RowLock}
    (hls : ∀ l ∈ ls, ∀ b ∈ g.branches, l.rowKey ∈ b.rowKeys → l.xid ≠ g.xid) :
    g.Covered A (lt.release ls) := by
  refine { h with held := fun b hb k hk => ?_ }
  obtain ⟨h', hown, hx⟩ := h.held b hb k hk
  refine ⟨h', LockTable.owner?_release_eq_some.2 ⟨hown, fun l hl hkey => ?_⟩, hx⟩
  -- the holder is of the session's transaction, the lock of another one
  have hne : h'.xid ≠ l.xid := hx ▸ (hls l hl b hb (hkey ▸ hk)).symm
  simp [RowLock.isHeldByBranch, hne]

/-- A release of locks of other transactions keeps a session covered. -/
theorem release_other (h : g.Covered A lt) {ls : List RowLock} (hls : ∀ l ∈ ls, l.xid ≠ g.xid) :
    g.Covered A (lt.release ls) :=
  h.release fun l hl _ _ _ => hls l hl

/-- A session keeps being covered under another status that keeps row locks, with the same
branches. -/
theorem of_branches (h : g.Covered A lt) (hx : s.xid = g.xid) (hb : s.branches = g.branches)
    (hs : s.status.holdsRowLocks = true) : s.Covered A lt where
  branches b hb' := by rw [hx]; exact h.branches b (hb ▸ hb')
  holding := hs
  held b hb' k hk := by rw [hx]; exact h.held b (hb ▸ hb') k hk
  apart := by rw [hb]; exact h.apart
  asked b hb' k hk := by rw [hx]; exact h.asked b (hb ▸ hb') k hk

/-- Removing the first branch with an id once its rows are released keeps a session covered:
the rows of the branches left are not the rows released. -/
theorem removeBranch (h : g.Covered A lt) (hb : g.findBranch? id = some b) {ls : List RowLock}
    (hls : LockManager.collect b = .ok ls) : (g.removeBranch id).Covered A (lt.release ls) where
  branches c hc := h.branches c (List.mem_of_mem_eraseP hc)
  holding := h.holding
  held c hc k hk := by
    obtain ⟨h', hown, hx⟩ := h.held c (List.mem_of_mem_eraseP hc) k hk
    refine ⟨h', LockTable.owner?_release_eq_some.2 ⟨hown, fun l hl hkey => ?_⟩, hx⟩
    -- every lock released is on a row of `b`, which no branch left names
    have hlb : k ∈ b.rowKeys := by
      rw [Branch.rowKeys_of_collect hls]
      exact List.mem_map.2 ⟨l, hl, hkey⟩
    exact absurd hlb (disjoint_of_mem_removeBranch h.apart hb hc hk)
  apart := h.apart.sublist (List.eraseP_sublist.map _)
  asked c hc := h.asked c (List.mem_of_mem_eraseP hc)

/-- Replacing the first branch with an id by one with the same row locks keeps a session
covered. -/
theorem replaceBranch (h : g.Covered A lt) (hc : g.findBranch? b.branchId = some c)
    (hx : b.xid = g.xid) (hcollect : LockManager.collect b = LockManager.collect c) :
    (g.replaceBranch b).Covered A lt := by
  have hkeys : b.rowKeys = c.rowKeys := by simp only [Branch.rowKeys, Branch.rowLocks, hcollect]
  have hcmem : c ∈ g.branches := List.mem_of_find?_eq_some hc
  -- a branch after replacing is `b` or was there before; `b` names the rows `c` named
  have hmem : ∀ b' ∈ (g.replaceBranch b).branches, b' ∈ g.branches ∨ b' = b := fun b' hb' =>
    GlobalSession.mem_replaceBranch hb'
  refine ⟨fun b' hb' => ?_, h.holding, fun b' hb' k hk => ?_, ?_, fun b' hb' k hk => ?_⟩
  · rcases hmem b' hb' with hb' | rfl
    · exact h.branches b' hb'
    · exact ⟨hx, hcollect ▸ (h.branches c hcmem).2⟩
  · rcases hmem b' hb' with hb' | rfl
    · exact h.held b' hb' k hk
    · exact h.held c hcmem k (hkeys ▸ hk)
  · rw [show (g.replaceBranch b).branches.map Branch.rowKeys = g.branches.map Branch.rowKeys from
      map_rowKeys_replaceBranch hc hkeys]
    exact h.apart
  · rcases hmem b' hb' with hb' | rfl
    · exact h.asked b' hb' k hk
    · exact h.asked c hcmem k (hkeys ▸ hk)

/-- A branch of the session whose rows are held for its transaction, and none of which its
transaction asked for before, may be appended; the rows it names are then among those asked
for. -/
theorem addBranch (h : g.Covered A lt) (hx : b.xid = g.xid) {ls : List RowLock}
    (hls : LockManager.collect b = .ok ls)
    (hheld : ∀ k ∈ b.rowKeys, ∃ h, lt.owner? k = some h ∧ h.xid = g.xid)
    (hfresh : ∀ k ∈ b.rowKeys, (g.xid, k) ∉ A) (hA : ∀ p ∈ A, p ∈ A')
    (hasked : ∀ k ∈ b.rowKeys, (g.xid, k) ∈ A') : (g.addBranch b).Covered A' lt := by
  have hmem : ∀ b' ∈ (g.addBranch b).branches, b' ∈ g.branches ∨ b' = b := fun b' hb' =>
    (List.mem_append.1 hb').imp_right List.mem_singleton.1
  refine ⟨fun b' hb' => ?_, h.holding, fun b' hb' k hk => ?_, ?_, fun b' hb' k hk => ?_⟩
  · rcases hmem b' hb' with hb' | rfl
    · exact h.branches b' hb'
    · exact ⟨hx, ls, hls⟩
  · rcases hmem b' hb' with hb' | rfl
    · exact h.held b' hb' k hk
    · exact hheld k hk
  · -- the new branch's rows were not asked for, every other branch's were
    show ((g.branches ++ [b]).map Branch.rowKeys).Pairwise List.Disjoint
    rw [List.map_append, List.pairwise_append]
    refine ⟨h.apart, List.pairwise_singleton _ _, fun ks hks ks' hks' k hk hk' => ?_⟩
    obtain ⟨b', hb', rfl⟩ := List.mem_map.1 hks
    rw [List.map_singleton, List.mem_singleton] at hks'
    subst hks'
    exact hfresh k hk' (h.asked b' hb' k hk)
  · rcases hmem b' hb' with hb' | rfl
    · exact hA _ (h.asked b' hb' k hk)
    · exact hasked k hk

end Covered

end GlobalSession

namespace SessionTable

/-- Every stored session is covered in `lt` with the rows asked for in `A`, and no two stored
sessions share an xid. -/
structure Covers (A : List (String × String)) (t : SessionTable) (lt : LockTable) : Prop where
  xids : (t.sessions.map (·.xid)).Nodup
  sessions : ∀ g ∈ t.sessions, g.Covered A lt

theorem covers_empty (A : List (String × String)) : ({} : SessionTable).Covers A {} where
  xids := List.nodup_nil
  sessions := nofun

variable {A A' : List (String × String)} {t : SessionTable} {lt lt' : LockTable}
  {x : String} {g s : GlobalSession}

/-- A session after replacing is the new one, or one of another xid that was there before. -/
theorem mem_put_iff_ne (h : g ∈ (t.put s).sessions) : g = s ∨ g ∈ t.sessions ∧ g.xid ≠ s.xid := by
  obtain ⟨a, ha, rfl⟩ := List.mem_map.1 h
  split
  · exact .inl rfl
  · rename_i hne
    exact .inr ⟨ha, by simpa using hne⟩

namespace Covers

theorem mono (h : t.Covers A lt) (hA : ∀ p ∈ A, p ∈ A') : t.Covers A' lt :=
  ⟨h.xids, fun g hg => (h.sessions g hg).mono hA⟩

/-- A lock table that keeps every holder keeps the sessions covered: rows acquired. -/
theorem of_extends (h : t.Covers A lt) (hext : lt.Extends lt') : t.Covers A lt' :=
  ⟨h.xids, fun g hg => (h.sessions g hg).of_extends hext⟩

/-- The stored session of an xid. -/
theorem covered_of_find? (h : t.Covers A lt) (hg : t.find? x = some g) : g.Covered A lt :=
  h.sessions g (find?_eq_some hg).1

/-- Replacing the stored session under `s.xid` by `s`, with the lock table `lt'`, keeps the
sessions covered when `s` and every other session are covered in `lt'`. -/
theorem put (h : t.Covers A lt) (hother : ∀ g ∈ t.sessions, g.xid ≠ s.xid → g.Covered A lt')
    (hs : s.Covered A lt') : (t.put s).Covers A lt' where
  xids := by rw [xids_put]; exact h.xids
  sessions g hg := by
    rcases mem_put_iff_ne hg with rfl | ⟨hg, hne⟩
    · exact hs
    · exact hother g hg hne

/-- Removing the session of `x`, with the lock table `lt'`, keeps the sessions covered when every
other session is covered in `lt'`. -/
theorem remove (h : t.Covers A lt) (hother : ∀ g ∈ t.sessions, g.xid ≠ x → g.Covered A lt') :
    (t.remove x).Covers A lt' where
  xids := h.xids.sublist (List.filter_sublist.map _)
  sessions g hg := by
    obtain ⟨hg, hne⟩ := List.mem_filter.1 hg
    exact hother g hg (by simpa using hne)

/-- A new session without branches, in a status that keeps row locks, may be stored under a
free xid. -/
theorem add (h : t.Covers A lt) (hnone : t.find? s.xid = none) (hb : s.branches = [])
    (hs : s.status.holdsRowLocks = true) : (⟨t.sessions ++ [s]⟩ : SessionTable).Covers A lt := by
  have hfresh : s.xid ∉ t.sessions.map (·.xid) := by
    intro hmem
    obtain ⟨g, hg, hgx⟩ := List.mem_map.1 hmem
    have := List.find?_eq_none.1 hnone g hg
    simp [hgx] at this
  refine ⟨?_, fun g hg => ?_⟩
  · rw [List.map_append, List.nodup_append]
    refine ⟨h.xids, by simp, fun a ha b hb hab => ?_⟩
    rw [List.map_singleton, List.mem_singleton] at hb
    exact hfresh (hb ▸ hab ▸ ha)
  · rcases List.mem_append.1 hg with hg | hg
    · exact h.sessions g hg
    · rw [List.mem_singleton.1 hg]
      refine ⟨?_, hs, ?_, ?_, ?_⟩ <;> simp [hb]

/-- The stored session may take another status that keeps row locks, keeping its branches. -/
theorem put_status (h : t.Covers A lt) (hg : t.find? s.xid = some g) (hb : s.branches = g.branches)
    (hs : s.status.holdsRowLocks = true) : (t.put s).Covers A lt :=
  h.put (fun g' hg' _ => h.sessions g' hg')
    ((h.covered_of_find? hg).of_branches (find?_eq_some hg).2.symm hb hs)

/-- The first branch with an id may be removed once its rows are released. -/
theorem removeBranch_release (h : t.Covers A lt) (hg : t.find? x = some g) {id : Nat} {b : Branch}
    (hb : g.findBranch? id = some b) {ls : List RowLock} (hls : LockManager.collect b = .ok ls) :
    (t.removeBranch x id).Covers A (lt.release ls) := by
  obtain ⟨hmem, hx⟩ := find?_eq_some hg
  have hcov := h.sessions g hmem
  -- the locks released are of `x`'s transaction
  have hlx : ∀ l ∈ ls, l.xid = x := fun l hl => by
    rw [(LockManager.ownedBy_collect hls l hl).1,
      (hcov.branches b (List.mem_of_find?_eq_some hb)).1, hx]
  rw [removeBranch_eq hg]
  exact h.put (fun g' hg' hne => (h.sessions g' hg').release_other fun l hl => by
      rw [hlx l hl, ← hx]
      exact hne.symm)
    (hcov.removeBranch hb hls)

/-- A session may be removed once the rows of its transaction are released. -/
theorem remove_release (h : t.Covers A lt) {ls : List RowLock} (hls : ∀ l ∈ ls, l.xid = x) :
    (t.remove x).Covers A (lt.release ls) :=
  h.remove fun g hg hne => (h.sessions g hg).release_other fun l hl => by
    rw [hls l hl]
    exact hne.symm

/-- A stored branch may be replaced by one with the same row locks. -/
theorem replaceBranch (h : t.Covers A lt) {b c : Branch} (hg : t.find? b.xid = some g)
    (hc : g.findBranch? b.branchId = some c)
    (hcollect : LockManager.collect b = LockManager.collect c) :
    (t.put (g.replaceBranch b)).Covers A lt := by
  obtain ⟨hmem, hx⟩ := find?_eq_some hg
  exact h.put (fun g' hg' _ => h.sessions g' hg')
    ((h.sessions g hmem).replaceBranch hc hx.symm hcollect)

/-- A branch of a stored session, whose rows were just acquired all together and none of which
its transaction asked for before, may be appended; the rows it names are then among those asked
for. -/
theorem addBranch_acquire (h : t.Covers A lt) {b : Branch} (hg : t.find? b.xid = some g)
    {ls : List RowLock} (hls : LockManager.collect b = .ok ls) (hacq : (lt.acquire ls).1 = true)
    (hfresh : ∀ k ∈ b.rowKeys, (b.xid, k) ∉ A) (hA : ∀ p ∈ A, p ∈ A')
    (hasked : ∀ k ∈ b.rowKeys, (b.xid, k) ∈ A') :
    (t.put (g.addBranch b)).Covers A' (lt.acquire ls).2 := by
  obtain ⟨hmem, hx⟩ := find?_eq_some hg
  have hext := lt.extends_acquire ls
  -- the rows of the branch are of its transaction, and now held for it
  have hheld := LockTable.held_of_acquire hacq fun l hl => (LockManager.ownedBy_collect hls l hl).1
  refine (h.mono hA).put (fun g' hg' _ => ((h.sessions g' hg').mono hA).of_extends hext)
    (((h.sessions g hmem).of_extends hext).addBranch hx.symm hls (fun k hk => ?_)
      (fun k hk => hx ▸ hfresh k hk) hA fun k hk => hx ▸ hasked k hk)
  rw [Branch.rowKeys_of_collect hls] at hk
  obtain ⟨l, hl, rfl⟩ := List.mem_map.1 hk
  obtain ⟨h', hown, hx'⟩ := hheld l hl
  exact ⟨h', hown, hx'.trans hx.symm⟩

end Covers

end SessionTable

/-! ## The rows registrations ask for -/

namespace Op

/-- The rows a registration asks to lock, each once, as its transaction's xid and the row's key:
the rows its lock key names, when the branch type takes row locks and the key parses.  A row's
key depends on the resource, the table and the primary key only, as the lock query of the
coordinator reads it too. -/
def asks : Op → List (String × String)
  | register t res _ x _ key =>
    match RowLock.expand ⟨x, 0, 0, res⟩ key with
    | .ok ls => if t.holdsRowLocks then (ls.map fun l => (x, l.rowKey)).dedup else []
    | .error _ => []
  | _ => []

/-- A branch asks for the rows it takes, whatever its id. -/
theorem mem_asks_register {b : Branch} {ls : List RowLock} (hls : LockManager.collect b = .ok ls)
    (cl d : String) {k : String} (hk : k ∈ b.rowKeys) :
    (b.xid, k) ∈ (register b.branchType b.resourceId cl b.xid d b.lockKey).asks := by
  rw [Branch.rowKeys_of_collect hls] at hk
  obtain ⟨l, hl, rfl⟩ := List.mem_map.1 hk
  unfold LockManager.collect at hls
  split at hls
  · rename_i hholds
    have htype : b.branchType.holdsRowLocks = true := by
      simp only [Branch.holdsRowLocks, Bool.and_eq_true] at hholds
      exact hholds.1
    -- both expansions read the key by its grammar, and give the same rows
    rw [RowLock.expand_eq] at hls
    dsimp only [asks]
    rw [RowLock.expand_eq]
    split at hls
    · cases hls
    · cases hls
      obtain ⟨r, hr, rfl⟩ := List.mem_map.1 hl
      simp only [htype, if_true]
      exact List.mem_dedup.2
        (List.mem_map.2 ⟨RowLock.ofRow ⟨b.xid, 0, 0, b.resourceId⟩ r, List.mem_map_of_mem hr, rfl⟩)
  · cases hls
    cases hl

end Op

/-- The rows an event asks for: those of a registration. -/
def Event.asks : Event → List (String × String)
  | .op o => o.asks
  | _ => []

/-! ## Coverage of the stored sessions -/

namespace Env

/-- Every row named by a branch of a stored session whose status keeps row locks is held for
that session's transaction. -/
def RowsCovered (env : Env) : Prop :=
  ∀ x g, env.stored x = some g → g.status.holdsRowLocks = true →
    ∀ b ∈ g.branches, ∀ ls, LockManager.collect b = .ok ls →
      ∀ l ∈ ls, ∃ h, (l.rowKey, h) ∈ env.lockRows ∧ h.xid = x

/-- No row is named by branches of two stored sessions of different transactions whose statuses
both keep row locks. -/
def RowsApart (env : Env) : Prop :=
  ∀ x y gx gy, x ≠ y → env.stored x = some gx → env.stored y = some gy →
    gx.status.holdsRowLocks = true → gy.status.holdsRowLocks = true →
    ∀ bx ∈ gx.branches, ∀ bY ∈ gy.branches, ∀ ls, LockManager.collect bx = .ok ls →
      ∀ ls', LockManager.collect bY = .ok ls' → ∀ l ∈ ls, ∀ l' ∈ ls', l.rowKey ≠ l'.rowKey

/-- A row that a branch of a lock-holding session names, and that no holder of the session's
transaction holds, breaks the coverage. -/
theorem not_rowsCovered_of_free {env : Env} {x : String} {g : GlobalSession} {b : Branch}
    {l : RowLock} (hx : env.stored x = some g) (hg : g.status.holdsRowLocks = true)
    (hb : b ∈ g.branches) (hl : LockManager.collect b = .ok [l])
    (hfree : ∀ p ∈ env.lockRows, p.1 = l.rowKey → p.2.xid ≠ x) : ¬ env.RowsCovered := by
  intro hcov
  obtain ⟨h, hmem, hxid⟩ := hcov x g hx hg b hb [l] hl l (List.mem_singleton_self l)
  exact hfree _ hmem rfl hxid

/-- The stores are quiet, and their tables cover the rows of every stored session with the rows
asked for in `A`. -/
def Covered (A : List (String × String)) (env : Env) : Prop :=
  ∃ t lt, env.Quiet t lt ∧ t.Covers A lt

variable {A : List (String × String)} {env : Env} {t : SessionTable} {lt : LockTable}

theorem Quiet.covered (h : env.Quiet t lt) (hcov : t.Covers A lt) : env.Covered A :=
  ⟨t, lt, h, hcov⟩


/-- In a covered state, the row a stored branch names is held for its session's transaction. -/
theorem Covered.owner? (h : env.Covered A) {x : String} {g : GlobalSession}
    (hg : env.stored x = some g) {b : Branch} (hb : b ∈ g.branches) {ls : List RowLock}
    (hls : LockManager.collect b = .ok ls) {l : RowLock} (hl : l ∈ ls) :
    ∃ t lt, env.Quiet t lt ∧ ∃ h, lt.owner? l.rowKey = some h ∧ h.xid = x := by
  obtain ⟨t, lt, hq, hcov⟩ := h
  rw [hq.stored] at hg
  have hk : l.rowKey ∈ b.rowKeys := by
    rw [Branch.rowKeys_of_collect hls]
    exact List.mem_map_of_mem hl
  obtain ⟨h, hown, hx⟩ := (hcov.covered_of_find? hg).held b hb _ hk
  exact ⟨t, lt, hq, h, hown, hx.trans (SessionTable.find?_eq_some hg).2⟩

theorem Covered.rowsCovered (h : env.Covered A) : env.RowsCovered := by
  intro x g hg _ b hb ls hls l hl
  obtain ⟨t, lt, hq, h', hown, hx⟩ := h.owner? hg hb hls hl
  exact ⟨h', hq.at.lockRows ▸ LockTable.mem_of_owner?_eq_some hown, hx⟩

/-- A row held for one transaction is held for no other: two stored sessions of different
transactions name no common row. -/
theorem Covered.rowsApart (h : env.Covered A) : env.RowsApart := by
  intro x y gx gy hxy hgx hgy _ _ bx hbx bY hbY ls hls ls' hls' l hl l' hl' hkey
  obtain ⟨t, lt, hq, hx, hownx, hxx⟩ := h.owner? hgx hbx hls hl
  obtain ⟨t', lt', hq', hy, howny, hyy⟩ := h.owner? hgy hbY hls' hl'
  have hlt : lt' = lt := LockBacking.table.inj (hq'.locks.symm.trans hq.locks)
  subst hlt
  rw [hkey, howny] at hownx
  cases hownx
  exact hxy (hxx.symm.trans hyy)

end Env

/-! ## Recovery over covered sessions -/

namespace LockTable

/-- A restore refuses no list when every row already held is held for the transaction of each
lock on it, and the lists give each row one transaction.  By induction on the lists: the rows a
list adds are held for its locks' transaction, which is that of every later lock on them. -/
theorem restore_fst_eq_zero : ∀ (t : LockTable) (L : List (List RowLock)),
    (∀ ls ∈ L, ∀ l ∈ ls, ∀ ls' ∈ L, ∀ l' ∈ ls', l.rowKey = l'.rowKey → l.xid = l'.xid) →
    (∀ ls ∈ L, ∀ l ∈ ls, ∀ h, t.owner? l.rowKey = some h → h.xid = l.xid) →
    (t.restore L).1 = 0
  | _, [], _, _ => rfl
  | t, ls :: rest, hone, hheld => by
    have hnc : ls.any t.conflicts = false := by
      rw [List.any_eq_false]
      intro l hl hc
      obtain ⟨l', hl', h, hown, hx⟩ := any_conflicts_eq_true_iff.1 (List.any_eq_true.2 ⟨l, hl, hc⟩)
      exact hx (hheld ls List.mem_cons_self l' hl' h hown)
    rw [restore_cons, if_neg (by simp [hnc])]
    refine restore_fst_eq_zero _ rest (fun ls₁ h₁ l h₁' ls₂ h₂ l' h₂' hk =>
      hone ls₁ (List.mem_cons_of_mem _ h₁) l h₁' ls₂ (List.mem_cons_of_mem _ h₂) l' h₂' hk)
      fun ls' hls' l hl h hown => ?_
    rw [owner?_foldl_insertIfAbsent] at hown
    cases hold : t.owner? l.rowKey with
    | some h' =>
      rw [hold] at hown
      cases hown
      exact hheld ls' (List.mem_cons_of_mem _ hls') l hl h hold
    | none =>
      -- a row the list adds gets the holder of the list's first lock on it
      rw [hold, Option.none_or] at hown
      obtain ⟨l', hl', rfl⟩ := Option.map_eq_some_iff.1 hown
      have hkey : l'.rowKey = l.rowKey := by simpa using List.find?_some hl'
      exact hone ls List.mem_cons_self l' (List.mem_of_find?_eq_some hl') ls'
        (List.mem_cons_of_mem _ hls') l hl hkey

end LockTable

namespace Env

variable {A : List (String × String)} {env : Env}

/-- A coordinator restarted over the session store of a covered state, with an empty lock
table, recovers without a lock conflict: the stored sessions give each row one transaction. -/
theorem Covered.recover_without_conflicts (h : env.Covered A) :
    ∃ r, (Steps.run CoordM.recover.run { env with locks := .table {} }).1 = .ok r ∧
      r.lockConflicts = 0 := by
  obtain ⟨t, lt, hq, hcov⟩ := h
  have hq' : ({ env with locks := .table {} } : Env).Quiet t {} := ⟨hq.sessions, rfl, hq.faults⟩
  refine ⟨_, congrArg Prod.fst (CoordM.run_recover hq' fun g hg b hb =>
    ((hcov.sessions g hg).branches b hb).2), ?_⟩
  -- every row lock asked for is of a stored session, and held for its transaction
  have hrows : ∀ ls ∈ CoordM.recoveryRows (t.findBy GlobalStatus.all), ∀ l ∈ ls,
      ∃ h, lt.owner? l.rowKey = some h ∧ h.xid = l.xid := by
    intro ls hls l hl
    obtain ⟨g, hg, hgls⟩ := List.mem_flatMap.1 hls
    obtain ⟨b, hb, rfl⟩ := List.mem_map.1 hgls
    have hgt := SessionTable.mem_findBy (List.mem_filter.1 hg).1
    have hcg := hcov.sessions g hgt
    obtain ⟨hbx, ls', hls'⟩ := hcg.branches b hb
    rw [Branch.rowLocks_of_collect hls'] at hl
    obtain ⟨h, hown, hx⟩ := hcg.held b hb l.rowKey
      (by rw [Branch.rowKeys_of_collect hls']; exact List.mem_map_of_mem hl)
    exact ⟨h, hown, by rw [hx, (LockManager.ownedBy_collect hls' l hl).1, hbx]⟩
  refine LockTable.restore_fst_eq_zero {} _ (fun ls hls l hl ls' hls' l' hl' hk => ?_) nofun
  obtain ⟨h, hown, hx⟩ := hrows ls hls l hl
  obtain ⟨h', hown', hx'⟩ := hrows ls' hls' l' hl'
  rw [hk, hown'] at hown
  cases hown
  exact hx.symm.trans hx'

end Env

end GlobalTxn
