import GlobalTxn.Proofs.LockRows
import GlobalTxn.Store.Sessions

/-! # Held rows are accounted for by the stored sessions

A row lock must not outlive the branch it was taken for.  `SessionTable.Accounts t lt` says
that the lock table `lt` holds no row the session table `t` does not account for: every held
row is named, for its holder's branch, by a branch of the stored session of the holder's
transaction (`Branch.Names`), and that session's status keeps row locks.  Two more facts come
with it, as every change of the tables relies on them: xids and row keys are unique, and every
stored branch belongs to its session and has a well-formed lock key.

Each change of the tables that the coordinator makes keeps the property, under the conditions
under which the coordinator makes it:

* releasing rows (`Accounts.release`), and acquiring the rows of a stored branch of a session
  that keeps row locks (`Accounts.acquire_stored`);
* storing a new session without branches (`Accounts.add`), and removing a session whose
  transaction holds no rows (`Accounts.remove`);
* replacing a stored session (`Accounts.put`): keeping its branches and giving it a status
  that keeps row locks, or any status once its transaction holds no rows
  (`Accounts.put_status`); appending a branch together with its rows
  (`Accounts.addBranch_acquire`); replacing a branch by one with the same row locks
  (`Accounts.replaceBranch`); removing the first branch with an id after releasing its rows
  (`Accounts.removeBranch_release`).

Releasing the rows of every branch of a stored session frees every row of its transaction
(`Accounts.release_session`).
-/

namespace GlobalTxn

namespace Branch

/-- Branch `b` names the row `p.1` for the holder `p.2`: it is the holder's branch, and one of
its row locks is on that row. -/
def Names (b : Branch) (p : String × LockHolder) : Prop :=
  b.xid = p.2.xid ∧ b.branchId = p.2.branchId ∧
    ∃ ls, LockManager.collect b = .ok ls ∧ ∃ l ∈ ls, l.rowKey = p.1

/-- Each row lock of a branch names its row for the lock's holder. -/
theorem names_of_collect {b : Branch} {ls : List RowLock} (hls : LockManager.collect b = .ok ls)
    {l : RowLock} (hl : l ∈ ls) : b.Names (l.rowKey, l.holder) := by
  obtain ⟨hx, hid⟩ := LockManager.ownedBy_collect hls l hl
  exact ⟨hx.symm, hid.symm, ls, hls, l, hl, rfl⟩

/-- A release of locks that include every row lock of `b` frees every row `b` names. -/
theorem Names.not_mem_release {b : Branch} {p : String × LockHolder} (hn : b.Names p)
    {t : LockTable} (ht : t.KeysUnique) {ls : List RowLock}
    (hsub : ∀ lb, LockManager.collect b = .ok lb → ∀ l ∈ lb, l ∈ ls) :
    p ∉ (t.release ls).rows := by
  intro hp
  obtain ⟨hx, hid, lb, hlb, l, hl, hkey⟩ := hn
  have hfree := ((LockTable.mem_release_iff ht).1 hp).2 l (hsub lb hlb l hl) hkey
  obtain ⟨hlx, hlid⟩ := LockManager.ownedBy_collect hlb l hl
  simp [RowLock.isHeldByBranch, hlx, hlid, hx, hid] at hfree

end Branch

namespace LockManager

/-- The row locks of a session are those of its branches, one branch after another. -/
theorem mem_flatMapM_collect :
    ∀ {bs : List Branch} {ls : List RowLock}, bs.flatMapM collect = .ok ls →
      ∀ b ∈ bs, ∀ lb, collect b = .ok lb → ∀ l ∈ lb, l ∈ ls
  | [], _, _, _, hb, _, _, _, _ => nomatch hb
  | b' :: bs, ls, h, b, hb, lb, hlb, l, hl => by
    rw [List.flatMapM_cons] at h
    cases hb' : collect b' with
    | error e => rw [hb'] at h; cases h
    | ok lb' =>
      cases hrest : bs.flatMapM collect with
      | error e => rw [hb', hrest] at h; cases h
      | ok lr =>
        rw [hb', hrest] at h
        cases h
        rcases List.mem_cons.1 hb with rfl | hb
        · rw [hb'] at hlb
          cases hlb
          exact List.mem_append_left _ hl
        · exact List.mem_append_right _ (mem_flatMapM_collect hrest b hb lb hlb l hl)

/-- The row locks of a session are found when those of each of its branches are. -/
theorem flatMapM_collect_ok :
    ∀ {bs : List Branch}, (∀ b ∈ bs, ∃ ls, collect b = .ok ls) →
      ∃ ls, bs.flatMapM collect = .ok ls
  | [], _ => ⟨[], rfl⟩
  | b :: bs, h => by
    obtain ⟨lb, hlb⟩ := h b List.mem_cons_self
    obtain ⟨lr, hlr⟩ := flatMapM_collect_ok fun b' hb' => h b' (List.mem_cons_of_mem b hb')
    exact ⟨lb ++ lr, by rw [List.flatMapM_cons, hlb, hlr]; rfl⟩

end LockManager

namespace GlobalSession

variable {s : GlobalSession} {b c : Branch} {id : Nat}

theorem mem_removeBranch (hc : c ∈ (s.removeBranch id).branches) : c ∈ s.branches :=
  List.mem_of_mem_eraseP hc

/-- Removing the first branch with an id keeps every other branch. -/
theorem mem_removeBranch_of_ne (hb : s.findBranch? id = some b) (hc : c ∈ s.branches)
    (hne : c ≠ b) : c ∈ (s.removeBranch id).branches := by
  obtain ⟨xid, tid, app, group, name, status, timeout, begin, upd, data, bs⟩ := s
  simp only [findBranch?, removeBranch] at hb hc ⊢
  induction bs with
  | nil => cases hc
  | cons a bs ih =>
    by_cases ha : a.branchId = id
    · rw [List.find?_cons_of_pos (by simpa using ha)] at hb
      cases hb
      rw [List.eraseP_cons_of_pos (by simpa using ha)]
      exact (List.mem_cons.1 hc).resolve_left hne
    · rw [List.find?_cons_of_neg (by simpa using ha)] at hb
      rw [List.eraseP_cons_of_neg (by simpa using ha)]
      rcases List.mem_cons.1 hc with rfl | hc
      · exact List.mem_cons_self
      · exact List.mem_cons_of_mem a (ih hb hc)

/-- A branch after replacing is the new branch or was there before. -/
theorem mem_replaceBranch (hc : c ∈ (s.replaceBranch b).branches) : c ∈ s.branches ∨ c = b := by
  obtain ⟨xid, tid, app, group, name, status, timeout, begin, upd, data, bs⟩ := s
  simp only [replaceBranch] at hc ⊢
  induction bs with
  | nil => cases hc
  | cons a bs ih =>
    simp only [replaceBranch.replaceFirst] at hc
    split at hc
    · rcases List.mem_cons.1 hc with rfl | hc
      · exact .inr rfl
      · exact .inl (List.mem_cons_of_mem a hc)
    · rcases List.mem_cons.1 hc with rfl | hc
      · exact .inl List.mem_cons_self
      · exact (ih hc).imp_left (List.mem_cons_of_mem a)

/-- Replacing keeps every branch but the first one with the new branch's id. -/
theorem mem_replaceBranch_of_mem (hc : c ∈ s.branches) :
    c ∈ (s.replaceBranch b).branches ∨ s.findBranch? b.branchId = some c := by
  obtain ⟨xid, tid, app, group, name, status, timeout, begin, upd, data, bs⟩ := s
  simp only [replaceBranch, findBranch?] at hc ⊢
  induction bs with
  | nil => cases hc
  | cons a bs ih =>
    simp only [replaceBranch.replaceFirst]
    split
    · rename_i ha
      rcases List.mem_cons.1 hc with rfl | hc
      · exact .inr (List.find?_cons_of_pos ha)
      · exact .inl (List.mem_cons_of_mem b hc)
    · rename_i ha
      rw [List.find?_cons_of_neg (p := fun x : Branch => x.branchId == b.branchId) ha]
      rcases List.mem_cons.1 hc with rfl | hc
      · exact .inl List.mem_cons_self
      · exact (ih hc).imp_left (List.mem_cons_of_mem a)

/-- Replacing puts the new branch in place of the first one with its id, if there is one. -/
theorem mem_replaceBranch_self (hc : s.findBranch? b.branchId = some c) :
    b ∈ (s.replaceBranch b).branches := by
  obtain ⟨xid, tid, app, group, name, status, timeout, begin, upd, data, bs⟩ := s
  simp only [replaceBranch, findBranch?] at hc ⊢
  induction bs with
  | nil => cases hc
  | cons a bs ih =>
    simp only [replaceBranch.replaceFirst]
    split
    · exact List.mem_cons_self
    · rename_i ha
      rw [List.find?_cons_of_neg (p := fun x : Branch => x.branchId == b.branchId) ha] at hc
      exact List.mem_cons_of_mem a (ih hc)

end GlobalSession

namespace SessionTable

variable {t : SessionTable} {x y : String} {g s : GlobalSession}

theorem find?_eq_some (h : t.find? x = some g) : g ∈ t.sessions ∧ g.xid = x :=
  ⟨List.mem_of_find?_eq_some h, by simpa using List.find?_some h⟩

/-- A session found is found under its own xid. -/
theorem find?_self (h : t.find? x = some g) : t.find? g.xid = some g := by
  rw [(find?_eq_some h).2]
  exact h

theorem mem_findBy {ss : List GlobalStatus} (h : g ∈ t.findBy ss) : g ∈ t.sessions :=
  (List.mem_filter.1 (List.mem_mergeSort.1 h)).1

/-- With unique xids, a stored session is the one found under its xid. -/
theorem find?_of_mem (hx : (t.sessions.map (·.xid)).Nodup) (hg : g ∈ t.sessions) :
    t.find? g.xid = some g :=
  find?_key_of_nodup hx hg

theorem find?_put_of_ne (hx : s.xid ≠ x) : (t.put s).find? x = t.find? x := by
  obtain ⟨gs⟩ := t
  simp only [put, find?]
  induction gs with
  | nil => rfl
  | cons g gs ih =>
    rw [List.map_cons, List.find?_cons, List.find?_cons, ih]
    by_cases hg : g.xid = s.xid
    · -- the session replaced has `s`'s xid, which is not `x`
      rw [if_pos (beq_iff_eq.2 hg), hg, beq_eq_false_iff_ne.2 hx]
    · rw [if_neg (by simpa using hg)]

theorem find?_put_self (hg : t.find? s.xid = some g) : (t.put s).find? s.xid = some s := by
  obtain ⟨gs⟩ := t
  simp only [put, find?] at hg ⊢
  induction gs with
  | nil => cases hg
  | cons g' gs ih =>
    rw [List.map_cons, List.find?_cons]
    by_cases hg' : g'.xid = s.xid
    · rw [if_pos (beq_iff_eq.2 hg'), beq_self_eq_true]
    · rw [List.find?_cons, beq_eq_false_iff_ne.2 hg'] at hg
      rw [if_neg (by simpa using hg'), beq_eq_false_iff_ne.2 hg']
      exact ih hg

/-- Replacing a stored session changes what is found under its xid only. -/
theorem find?_put (hg : t.find? s.xid = some g) (y : String) :
    (t.put s).find? y = if s.xid = y then some s else t.find? y := by
  split
  · rename_i h
    subst h
    exact find?_put_self hg
  · exact find?_put_of_ne ‹_›

theorem mem_put (h : g ∈ (t.put s).sessions) : g ∈ t.sessions ∨ g = s := by
  obtain ⟨a, ha, rfl⟩ := List.mem_map.1 h
  split
  · exact .inr rfl
  · exact .inl ha

@[simp]
theorem xids_put : (t.put s).sessions.map (·.xid) = t.sessions.map (·.xid) := by
  simp only [put, List.map_map]
  congr 1
  funext a
  simp only [Function.comp_apply]
  split
  · rename_i h
    exact (beq_iff_eq.1 h).symm
  · rfl

/-- Removing a branch replaces the stored session by the one without it. -/
theorem removeBranch_eq {id : Nat} (hg : t.find? x = some g) :
    t.removeBranch x id = t.put (g.removeBranch id) := by
  rw [removeBranch, hg]

/-- Replacing the stored session of an xid by itself changes nothing, as xids are unique. -/
theorem put_of_find? (hx : (t.sessions.map (·.xid)).Nodup) (hg : t.find? s.xid = some s) :
    t.put s = t := by
  obtain ⟨gs⟩ := t
  simp only [put, SessionTable.mk.injEq]
  refine (List.map_congr_left (g := id) fun g hg' => ?_).trans (List.map_id gs)
  split
  · rename_i he
    -- `g` is found under its xid, which is `s`'s
    have hfound : (⟨gs⟩ : SessionTable).find? g.xid = some g := find?_of_mem hx hg'
    rw [beq_iff_eq.1 he, hg] at hfound
    exact Option.some.inj hfound
  · rfl

theorem find?_remove_of_ne (hx : x ≠ y) : (t.remove x).find? y = t.find? y := by
  simp only [remove, find?, List.find?_filter]
  congr 1
  funext a
  by_cases ha : a.xid = y
  · simp [ha, Ne.symm hx]
  · simp [ha]

theorem add_eq_ok {t' : SessionTable} (h : t.add s = .ok t') :
    t.find? s.xid = none ∧ t' = ⟨t.sessions ++ [s]⟩ := by
  unfold add at h
  split at h
  · cases h
  · cases h
    exact ⟨‹_›, rfl⟩

theorem update_eq_ok {s' : GlobalSession} {t' : SessionTable} (h : t.update s = .ok (s', t')) :
    ∃ g, t.find? s.xid = some g ∧ s' = { s with branches := g.branches } ∧ t' = t.put s' := by
  unfold update at h
  split at h
  · cases h
    exact ⟨_, ‹_›, rfl, rfl⟩
  · cases h

theorem addBranch_eq_ok {b : Branch} {t' : SessionTable} (h : t.addBranch b = .ok t') :
    ∃ g, t.find? b.xid = some g ∧ g.status = .begin ∧ t' = t.put (g.addBranch b) := by
  unfold addBranch at h
  split at h
  · split at h
    · cases h
      exact ⟨_, ‹_›, ‹_›, rfl⟩
    · cases h
  · cases h

/-- A session in `begin` takes a branch of its own. -/
theorem addBranch_of_begin {b : Branch} (hg : t.find? b.xid = some g) (hbegin : g.status = .begin) :
    t.addBranch b = .ok (t.put (g.addBranch b)) := by
  simp [addBranch, hg, hbegin]

theorem updateBranch_eq_ok {b : Branch} {t' : SessionTable} (h : t.updateBranch b = .ok t') :
    ∃ g c, t.find? b.xid = some g ∧ g.findBranch? b.branchId = some c ∧
      t' = t.put (g.replaceBranch b) := by
  unfold updateBranch at h
  split at h
  · split at h
    · cases h
      exact ⟨_, _, ‹_›, ‹_›, rfl⟩
    · cases h
  · cases h

/-- Every held row is accounted for by the stored sessions, and the tables are well formed. -/
structure Accounts (t : SessionTable) (lt : LockTable) : Prop where
  /-- No two stored sessions share an xid. -/
  xids : (t.sessions.map (·.xid)).Nodup
  /-- Every stored branch belongs to its session and has a well-formed lock key. -/
  branches : ∀ g ∈ t.sessions, ∀ b ∈ g.branches,
    b.xid = g.xid ∧ ∃ ls, LockManager.collect b = .ok ls
  /-- No row is held twice. -/
  keys : lt.KeysUnique
  /-- Every held row is named by a branch of the stored session of its holder's transaction. -/
  named : ∀ p ∈ lt.rows, ∃ g, t.find? p.2.xid = some g ∧ ∃ b ∈ g.branches, b.Names p
  /-- The session of every held row keeps row locks. -/
  holding : ∀ p ∈ lt.rows, ∀ g, t.find? p.2.xid = some g → g.status.holdsRowLocks = true

theorem accounts_empty : (({} : SessionTable)).Accounts {} where
  xids := List.nodup_nil
  branches := nofun
  keys := List.nodup_nil
  named := nofun
  holding := nofun

namespace Accounts

variable {lt : LockTable}

theorem of_subset (h : t.Accounts lt) {lt' : LockTable} (hk : lt'.KeysUnique)
    (hsub : ∀ p ∈ lt'.rows, p ∈ lt.rows) : t.Accounts lt' where
  xids := h.xids
  branches := h.branches
  keys := hk
  named p hp := h.named p (hsub p hp)
  holding p hp := h.holding p (hsub p hp)

theorem release (h : t.Accounts lt) (ls : List RowLock) : t.Accounts (lt.release ls) :=
  h.of_subset (h.keys.release ls) fun _ hp => (LockTable.rows_release_sublist lt ls).subset hp

/-- A stored session whose status keeps no row locks has no rows held. -/
theorem no_rows (h : t.Accounts lt) (hg : t.find? x = some g)
    (hs : g.status.holdsRowLocks = false) : ∀ p ∈ lt.rows, p.2.xid ≠ x := by
  intro p hp hx
  have := h.holding p hp g (hx ▸ hg)
  rw [hs] at this
  cases this

/-- Releasing the row locks of every branch of a stored session frees every row of its
transaction. -/
theorem release_session (h : t.Accounts lt) (hg : t.find? x = some g) {ls : List RowLock}
    (hls : g.branches.flatMapM LockManager.collect = .ok ls) :
    ∀ p ∈ (lt.release ls).rows, p.2.xid ≠ x := by
  intro p hp hx
  obtain ⟨g', hg', b, hb, hn⟩ := h.named p ((LockTable.rows_release_sublist lt ls).subset hp)
  rw [hx, hg] at hg'
  cases hg'
  exact hn.not_mem_release h.keys (LockManager.mem_flatMapM_collect hls b hb) hp

/-- The row locks of a stored session are found. -/
theorem collect_session (h : t.Accounts lt) (hg : g ∈ t.sessions) :
    ∃ ls, g.branches.flatMapM LockManager.collect = .ok ls :=
  LockManager.flatMapM_collect_ok fun b hb => (h.branches g hg b hb).2

/-- Replacing the stored session under `s.xid` by `s` keeps the rows accounted for, when the
rows of other transactions were held before and `s` accounts for the rows of its own. -/
theorem put (h : t.Accounts lt) (hg : t.find? s.xid = some g) {lt' : LockTable}
    (hk : lt'.KeysUnique)
    (hbranches : ∀ b ∈ s.branches, b.xid = s.xid ∧ ∃ ls, LockManager.collect b = .ok ls)
    (hother : ∀ p ∈ lt'.rows, p.2.xid ≠ s.xid → p ∈ lt.rows)
    (hnamed : ∀ p ∈ lt'.rows, p.2.xid = s.xid → ∃ b ∈ s.branches, b.Names p)
    (hhold : ∀ p ∈ lt'.rows, p.2.xid = s.xid → s.status.holdsRowLocks = true) :
    (t.put s).Accounts lt' where
  xids := by rw [xids_put]; exact h.xids
  branches g' hg' := by
    rcases mem_put hg' with hg' | rfl
    · exact h.branches g' hg'
    · exact hbranches
  keys := hk
  named p hp := by
    by_cases hx : p.2.xid = s.xid
    · exact ⟨s, hx ▸ find?_put_self hg, hnamed p hp hx⟩
    · rw [find?_put_of_ne (Ne.symm hx)]
      exact h.named p (hother p hp hx)
  holding p hp g' hg' := by
    rw [find?_put hg] at hg'
    split at hg'
    · cases hg'
      exact hhold p hp (Eq.symm ‹_›)
    · exact h.holding p (hother p hp (Ne.symm ‹_›)) g' hg'

/-- A stored session may take any status while keeping its branches: one that keeps row locks,
or any once its transaction holds no rows. -/
theorem put_status (h : t.Accounts lt) (hg : t.find? s.xid = some g)
    (hb : s.branches = g.branches)
    (hs : s.status.holdsRowLocks = true ∨ ∀ p ∈ lt.rows, p.2.xid ≠ s.xid) :
    (t.put s).Accounts lt := by
  obtain ⟨hmem, hx⟩ := find?_eq_some hg
  refine h.put hg h.keys (fun b hb' => ?_) (fun p hp _ => hp) (fun p hp hpx => ?_)
    (fun p hp hpx => hs.resolve_right fun hno => hno p hp hpx)
  · rw [hb] at hb'
    exact hx ▸ h.branches g hmem b hb'
  · obtain ⟨g', hg', b, hb', hn⟩ := h.named p hp
    rw [hpx, hg] at hg'
    cases hg'
    exact ⟨b, hb ▸ hb', hn⟩

/-- A stored session may take any status, keeping its branches, when the row locks of all its
branches are released. -/
theorem put_release (h : t.Accounts lt) (hg : t.find? s.xid = some g)
    (hb : s.branches = g.branches) {ls : List RowLock}
    (hls : s.branches.flatMapM LockManager.collect = .ok ls) : (t.put s).Accounts (lt.release ls) :=
  (h.release ls).put_status hg hb (.inr (h.release_session hg (hb ▸ hls)))

/-- A new session without branches may be stored under a free xid. -/
theorem add (h : t.Accounts lt) (hnone : t.find? s.xid = none) (hb : s.branches = []) :
    (⟨t.sessions ++ [s]⟩ : SessionTable).Accounts lt := by
  -- what was found before is found in the longer table
  have hfind : ∀ {y g}, t.find? y = some g →
      (⟨t.sessions ++ [s]⟩ : SessionTable).find? y = some g := by
    intro y g hy
    simp only [find?, List.find?_append] at hy ⊢
    rw [hy]
    rfl
  have hfresh : s.xid ∉ t.sessions.map (·.xid) := by
    intro hmem
    obtain ⟨g, hg, hgx⟩ := List.mem_map.1 hmem
    have := List.find?_eq_none.1 hnone g hg
    simp [hgx] at this
  refine ⟨?_, fun g hg b hb' => ?_, h.keys, fun p hp => ?_, fun p hp g hg => ?_⟩
  · rw [List.map_append, List.nodup_append]
    refine ⟨h.xids, by simp, fun a ha b hb hab => ?_⟩
    rw [List.map_singleton, List.mem_singleton] at hb
    exact hfresh (hb ▸ hab ▸ ha)
  · rcases List.mem_append.1 hg with hg | hg
    · exact h.branches g hg b hb'
    · rw [List.mem_singleton.1 hg, hb] at hb'
      cases hb'
  · obtain ⟨g, hg, rest⟩ := h.named p hp
    exact ⟨g, hfind hg, rest⟩
  · obtain ⟨g', hg', -⟩ := h.named p hp
    rw [hfind hg'] at hg
    cases hg
    exact h.holding p hp _ hg'

/-- A session may be removed once its transaction holds no rows. -/
theorem remove (h : t.Accounts lt) (hx : ∀ p ∈ lt.rows, p.2.xid ≠ x) :
    (t.remove x).Accounts lt where
  xids := h.xids.sublist (List.filter_sublist.map _)
  branches g hg := h.branches g (List.mem_filter.1 hg).1
  keys := h.keys
  named p hp := by
    rw [find?_remove_of_ne (Ne.symm (hx p hp))]
    exact h.named p hp
  holding p hp g hg := by
    rw [find?_remove_of_ne (Ne.symm (hx p hp))] at hg
    exact h.holding p hp g hg

/-- The first branch with an id may be removed once its rows are released: a row of its
transaction still held is named by another branch. -/
theorem removeBranch_release (h : t.Accounts lt) (hg : t.find? x = some g) {id : Nat}
    {b : Branch} (hb : g.findBranch? id = some b) {ls : List RowLock}
    (hls : LockManager.collect b = .ok ls) :
    (t.removeBranch x id).Accounts (lt.release ls) := by
  obtain ⟨hmem, hx⟩ := find?_eq_some hg
  have hsub : ∀ p ∈ (lt.release ls).rows, p ∈ lt.rows := fun p hp =>
    (LockTable.rows_release_sublist lt ls).subset hp
  have hg' : t.find? (g.removeBranch id).xid = some g := hx ▸ hg
  rw [removeBranch, hg]
  refine h.put hg' (h.keys.release ls) (fun b' hb' => ?_) (fun p hp _ => hsub p hp)
    (fun p hp hpx => ?_) (fun p hp hpx => ?_)
  · exact h.branches g hmem b' (GlobalSession.mem_removeBranch hb')
  · obtain ⟨g', hg'', b', hb', hn⟩ := h.named p (hsub p hp)
    rw [hpx, hg'] at hg''
    cases hg''
    refine ⟨b', GlobalSession.mem_removeBranch_of_ne hb hb' fun he => ?_, hn⟩
    -- the branch removed names no row left: its rows are released
    subst he
    exact hn.not_mem_release h.keys (fun lb hlb l hl => by rw [hls] at hlb; cases hlb; exact hl) hp
  · exact h.holding p (hsub p hp) g (hpx ▸ hg')

/-- A stored branch may be replaced by one with the same row locks. -/
theorem replaceBranch (h : t.Accounts lt) {b c : Branch} (hg : t.find? b.xid = some g)
    (hc : g.findBranch? b.branchId = some c)
    (hcollect : LockManager.collect b = LockManager.collect c) :
    (t.put (g.replaceBranch b)).Accounts lt := by
  obtain ⟨hmem, hx⟩ := find?_eq_some hg
  have hcmem : c ∈ g.branches := List.mem_of_find?_eq_some hc
  have hcid : c.branchId = b.branchId := by simpa using List.find?_some hc
  have hcx : c.xid = g.xid := (h.branches g hmem c hcmem).1
  have hg' : t.find? (g.replaceBranch b).xid = some g := hx.symm ▸ hg
  refine h.put hg' h.keys (fun b' hb' => ?_) (fun p hp _ => hp) (fun p hp hpx => ?_)
    (fun p hp hpx => h.holding p hp g (hpx ▸ hg'))
  · rcases GlobalSession.mem_replaceBranch hb' with hb' | rfl
    · exact h.branches g hmem b' hb'
    · exact ⟨hx.symm, hcollect ▸ (h.branches g hmem c hcmem).2⟩
  · obtain ⟨g', hg'', b', hb', hn⟩ := h.named p hp
    rw [hpx, hg'] at hg''
    cases hg''
    rcases GlobalSession.mem_replaceBranch_of_mem (b := b) hb' with hb' | hfirst
    · exact ⟨b', hb', hn⟩
    · -- the branch replaced names the row, and so does its replacement
      rw [hc] at hfirst
      cases hfirst
      obtain ⟨hnx, hnid, rest⟩ := hn
      exact ⟨b, GlobalSession.mem_replaceBranch_self hc, hx.symm.trans (hcx.symm.trans hnx),
        hcid ▸ hnid, hcollect ▸ rest⟩

/-- A branch of a session in `begin` may be appended together with its rows. -/
theorem addBranch_acquire (h : t.Accounts lt) {b : Branch} (hg : t.find? b.xid = some g)
    (hs : g.status = .begin) {ls : List RowLock} (hls : LockManager.collect b = .ok ls) :
    (t.put (g.addBranch b)).Accounts (lt.acquire ls).2 := by
  obtain ⟨hmem, hx⟩ := find?_eq_some hg
  have hg' : t.find? (g.addBranch b).xid = some g := hx.symm ▸ hg
  -- the session keeps its status, `begin`, which keeps row locks
  have hhold : (g.addBranch b).status.holdsRowLocks = true := by
    rw [show (g.addBranch b).status = g.status from rfl, hs]
    rfl
  refine h.put hg' (h.keys.acquire ls) (fun b' hb' => ?_) (fun p hp hpx => ?_)
    (fun p hp hpx => ?_) (fun _ _ _ => hhold)
  · rcases List.mem_append.1 hb' with hb' | hb'
    · exact h.branches g hmem b' hb'
    · rw [List.mem_singleton.1 hb']
      exact ⟨hx.symm, ls, hls⟩
  · rcases LockTable.mem_acquire h.keys hp with hp | ⟨l, hl, rfl⟩
    · exact hp
    · exact absurd ((LockManager.ownedBy_collect hls l hl).1.trans hx.symm) hpx
  · rcases LockTable.mem_acquire h.keys hp with hp | ⟨l, hl, rfl⟩
    · obtain ⟨g', hg'', b', hb', hn⟩ := h.named p hp
      rw [hpx, hg'] at hg''
      cases hg''
      exact ⟨b', List.mem_append_left _ hb', hn⟩
    · exact ⟨b, List.mem_append_right _ List.mem_cons_self, Branch.names_of_collect hls hl⟩

/-- The rows of a stored branch of a session that keeps row locks may be acquired. -/
theorem acquire_stored (h : t.Accounts lt) (hg : g ∈ t.sessions)
    (hs : g.status.holdsRowLocks = true) {b : Branch} (hb : b ∈ g.branches) {ls : List RowLock}
    (hls : LockManager.collect b = .ok ls) : t.Accounts (lt.acquire ls).2 := by
  have hfind : t.find? b.xid = some g := (h.branches g hg b hb).1 ▸ find?_of_mem h.xids hg
  refine ⟨h.xids, h.branches, h.keys.acquire ls, fun p hp => ?_, fun p hp g' hg' => ?_⟩
  · rcases LockTable.mem_acquire h.keys hp with hp | ⟨l, hl, rfl⟩
    · exact h.named p hp
    · have hlx := (LockManager.ownedBy_collect hls l hl).1
      exact ⟨g, by show t.find? l.xid = some g; rw [hlx]; exact hfind, b, hb,
        Branch.names_of_collect hls hl⟩
  · rcases LockTable.mem_acquire h.keys hp with hp | ⟨l, hl, rfl⟩
    · exact h.holding p hp g' hg'
    · have hlx := (LockManager.ownedBy_collect hls l hl).1
      rw [show (l.rowKey, l.holder).2.xid = b.xid from hlx, hfind] at hg'
      cases hg'
      exact hs

end Accounts

end SessionTable

end GlobalTxn
