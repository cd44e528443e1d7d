import GlobalTxn.Lock.Manager

/-! # Held rows of a lock table

Facts about the rows a lock table holds, and about the row locks of a branch:

* the row locks of a branch are taken for that branch (`LockManager.ownedBy_collect`);
* a release frees exactly the rows one of its locks names for the holder's branch
  (`LockTable.owner?_release`, and `LockTable.mem_release_iff` on a table whose keys are
  unique);
* acquiring adds only rows of its locks, each to its own branch, and keeps keys unique
  (`LockTable.mem_acquire`); releasing the same locks afterwards frees every row it added
  (`LockTable.mem_release_acquire`).
-/

namespace GlobalTxn

/-- In a list whose keys are unique, the first element with an element's key is that element. -/
theorem find?_key_of_nodup {α κ : Type} [BEq κ] [LawfulBEq κ] {key : α → κ} :
    ∀ {l : List α}, (l.map key).Nodup → ∀ {a}, a ∈ l → l.find? (key · == key a) = some a
  | [], _, _, ha => nomatch ha
  | b :: rest, hnodup, a, ha => by
    rw [List.map_cons, List.nodup_cons] at hnodup
    rcases List.mem_cons.1 ha with rfl | ha
    · simp
    · have hne : key b ≠ key a := fun he => hnodup.1 (he ▸ List.mem_map_of_mem ha)
      rw [List.find?_cons_of_neg (by simpa using hne)]
      exact find?_key_of_nodup hnodup.2 ha

namespace RowLock

/-- The rows expanded so far belong to the owner `o`. -/
def OwnedBy (o : LockOwner) (ls : List RowLock) : Prop :=
  ∀ l ∈ ls, l.xid = o.xid ∧ l.branchId = o.branchId

theorem ownedBy_addTableRows {o : LockOwner} {key table : String} :
    ∀ {pks : List (List Char)} {acc r : List RowLock},
      addTableRows o key table pks acc = .ok r → OwnedBy o acc → OwnedBy o r
  | [], _, _, h, hacc => by
    cases h
    exact hacc
  | pk :: pks, acc, r, h, hacc => by
    unfold addTableRows at h
    split at h
    · cases h
    · dsimp only at h
      split at h
      · exact ownedBy_addTableRows h hacc
      · refine ownedBy_addTableRows h fun l hl => ?_
        rcases List.mem_append.1 hl with hl | hl
        · exact hacc l hl
        · rw [List.mem_singleton] at hl
          subst hl
          exact ⟨rfl, rfl⟩

theorem ownedBy_addSegments {o : LockOwner} {key : String} :
    ∀ {segs : List (List Char)} {acc r : List RowLock},
      addSegments o key segs acc = .ok r → OwnedBy o acc → OwnedBy o r
  | [], _, _, h, hacc => by
    cases h
    exact hacc
  | seg :: segs, acc, r, h, hacc => by
    unfold addSegments at h
    split at h
    · cases h
    · split at h
      · cases h
      · cases hrows : addTableRows o key _ _ acc with
        | error e =>
          rw [hrows] at h
          cases h
        | ok acc' =>
          rw [hrows] at h
          exact ownedBy_addSegments h (ownedBy_addTableRows hrows hacc)

theorem ownedBy_expand {o : LockOwner} {key : String} {ls : List RowLock}
    (h : expand o key = .ok ls) : OwnedBy o ls :=
  ownedBy_addSegments h nofun

end RowLock

namespace LockTable

/-- Dropping every entry of a row frees it. -/
theorem owner?_filter_ne (t : LockTable) (key : String) :
    ({ rows := t.rows.filter (·.1 != key) } : LockTable).owner? key = none := by
  simp only [owner?, Option.map_eq_none_iff, List.find?_eq_none, List.mem_filter]
  intro p hp
  simpa using hp.2

theorem owner?_releaseOne_self (t : LockTable) (l : RowLock) :
    (t.releaseOne l).owner? l.rowKey = (t.owner? l.rowKey).filter fun h => !l.isHeldByBranch h := by
  unfold releaseOne
  split
  · rename_i h hown
    rw [hown]
    split
    · rename_i hb
      rw [owner?_filter_ne, Option.filter_some_neg (by simp [hb])]
    · rename_i hb
      rw [Option.filter_some_pos (by simpa using hb)]
      exact hown
  · rename_i hown
    rw [hown]
    rfl

/-- A release frees a row exactly when one of its locks names the row for the holder's branch;
by induction on the locks, each of which touches its own row only. -/
theorem owner?_release (t : LockTable) (ls : List RowLock) (key : String) :
    (t.release ls).owner? key =
      (t.owner? key).filter fun h => !ls.any fun l => l.rowKey == key && l.isHeldByBranch h := by
  induction ls generalizing t with
  | nil =>
    show t.owner? key = _
    cases t.owner? key <;> rfl
  | cons l ls ih =>
    show (release (t.releaseOne l) ls).owner? key = _
    rw [ih]
    by_cases hk : key = l.rowKey
    · subst hk
      rw [owner?_releaseOne_self, Option.filter_filter]
      congr 1
      funext h
      simp [Bool.and_comm]
    · rw [owner?_releaseOne_other t l key hk]
      congr 1
      funext h
      simp [Ne.symm hk]

/-- A row held by `h` survives the release of `ls` unless a lock of `ls` names it for `h`'s
branch. -/
theorem owner?_release_eq_some {t : LockTable} {ls : List RowLock} {key : String} {h : LockHolder} :
    (t.release ls).owner? key = some h ↔
      t.owner? key = some h ∧ ∀ l ∈ ls, l.rowKey = key → l.isHeldByBranch h = false := by
  rw [owner?_release, Option.filter_eq_some_iff]
  simp


/-- Each row key is held at most once, as acquiring keeps it. -/
def KeysUnique (t : LockTable) : Prop := (t.rows.map Prod.fst).Nodup

theorem mem_of_owner?_eq_some {t : LockTable} {key : String} {h : LockHolder}
    (hown : t.owner? key = some h) : (key, h) ∈ t.rows := by
  obtain ⟨p, hp, rfl⟩ := Option.map_eq_some_iff.1 hown
  have hkey : p.1 = key := by simpa using List.find?_some hp
  rw [← hkey]
  exact List.mem_of_find?_eq_some hp


theorem owner?_of_mem {t : LockTable} (ht : t.KeysUnique) {p : String × LockHolder}
    (hp : p ∈ t.rows) : t.owner? p.1 = some p.2 := by
  simp [owner?, find?_key_of_nodup ht hp]

theorem rows_releaseOne_sublist (t : LockTable) (l : RowLock) :
    (t.releaseOne l).rows.Sublist t.rows := by
  unfold releaseOne
  split
  · split
    · exact List.filter_sublist
    · exact List.Sublist.refl _
  · exact List.Sublist.refl _

theorem rows_release_sublist (t : LockTable) (ls : List RowLock) :
    (t.release ls).rows.Sublist t.rows := by
  induction ls generalizing t with
  | nil => exact List.Sublist.refl _
  | cons l ls ih => exact (ih (t.releaseOne l)).trans (rows_releaseOne_sublist t l)

theorem KeysUnique.release {t : LockTable} (ht : t.KeysUnique) (ls : List RowLock) :
    (t.release ls).KeysUnique :=
  ht.sublist ((rows_release_sublist t ls).map _)

/-- On a table whose keys are unique, a row stays held across a release exactly when no lock
released names it for the holder's branch. -/
theorem mem_release_iff {t : LockTable} (ht : t.KeysUnique) {ls : List RowLock}
    {p : String × LockHolder} :
    p ∈ (t.release ls).rows ↔
      p ∈ t.rows ∧ ∀ l ∈ ls, l.rowKey = p.1 → l.isHeldByBranch p.2 = false := by
  constructor
  · intro hp
    have hown := owner?_of_mem (ht.release ls) hp
    exact ⟨(rows_release_sublist t ls).subset hp, (owner?_release_eq_some.1 hown).2⟩
  · rintro ⟨hp, hkeep⟩
    exact mem_of_owner?_eq_some (owner?_release_eq_some.2 ⟨owner?_of_mem ht hp, hkeep⟩)

theorem mem_insertIfAbsent {t : LockTable} {l : RowLock} {p : String × LockHolder}
    (hp : p ∈ (t.insertIfAbsent l).rows) : p ∈ t.rows ∨ p = (l.rowKey, l.holder) := by
  unfold insertIfAbsent at hp
  split at hp
  · exact .inl hp
  · rcases List.mem_append.1 hp with hp | hp
    · exact .inl hp
    · exact .inr (List.mem_singleton.1 hp)

theorem KeysUnique.insertIfAbsent {t : LockTable} (ht : t.KeysUnique) (l : RowLock) :
    (t.insertIfAbsent l).KeysUnique := by
  unfold LockTable.insertIfAbsent
  split
  · exact ht
  · rename_i hnone
    -- the row was free, so its key is new
    have hfresh : l.rowKey ∉ t.rows.map Prod.fst := by
      intro hk
      obtain ⟨p, hp, hpk⟩ := List.mem_map.1 hk
      have := owner?_of_mem ht hp
      rw [hpk, hnone] at this
      cases this
    show ((t.rows ++ [(l.rowKey, l.holder)]).map Prod.fst).Nodup
    rw [List.map_append, List.nodup_append]
    refine ⟨ht, by simp, fun a ha b hb hab => ?_⟩
    rw [List.map_singleton, List.mem_singleton] at hb
    rw [hab, hb] at ha
    exact hfresh ha

theorem foldl_insertIfAbsent (ls : List RowLock) :
    ∀ (t : LockTable), t.KeysUnique →
      (ls.foldl insertIfAbsent t).KeysUnique ∧
        ∀ p ∈ (ls.foldl insertIfAbsent t).rows,
          p ∈ t.rows ∨ ∃ l ∈ ls, p = (l.rowKey, l.holder) := by
  induction ls with
  | nil => exact fun t ht => ⟨ht, fun p hp => .inl hp⟩
  | cons l ls ih =>
    intro t ht
    obtain ⟨hkeys, hmem⟩ := ih (t.insertIfAbsent l) (ht.insertIfAbsent l)
    refine ⟨hkeys, fun p hp => ?_⟩
    rcases hmem p hp with hp | ⟨l', hl', rfl⟩
    · rcases mem_insertIfAbsent hp with hp | rfl
      · exact .inl hp
      · exact .inr ⟨l, List.mem_cons_self, rfl⟩
    · exact .inr ⟨l', List.mem_cons_of_mem l hl', rfl⟩

theorem KeysUnique.acquire {t : LockTable} (ht : t.KeysUnique) (ls : List RowLock) :
    (t.acquire ls).2.KeysUnique := by
  unfold LockTable.acquire
  split
  · exact ht
  · exact (foldl_insertIfAbsent ls t ht).1

/-- An acquisition that fails changes nothing. -/
theorem acquire_eq_of_fst_eq_false {t : LockTable} {ls : List RowLock}
    (h : (t.acquire ls).1 = false) : (t.acquire ls).2 = t := by
  unfold LockTable.acquire at h ⊢
  split
  · rfl
  · rw [if_neg ‹_›] at h
    cases h

/-- Acquiring adds only rows of its locks, each held for the lock's own branch. -/
theorem mem_acquire {t : LockTable} (ht : t.KeysUnique) {ls : List RowLock}
    {p : String × LockHolder} (hp : p ∈ (t.acquire ls).2.rows) :
    p ∈ t.rows ∨ ∃ l ∈ ls, p = (l.rowKey, l.holder) := by
  unfold LockTable.acquire at hp
  split at hp
  · exact .inl hp
  · exact (foldl_insertIfAbsent ls t ht).2 p hp

/-- Releasing the locks just acquired frees every row the acquisition added. -/
theorem mem_release_acquire {t : LockTable} (ht : t.KeysUnique) {ls : List RowLock}
    {p : String × LockHolder} (hp : p ∈ ((t.acquire ls).2.release ls).rows) : p ∈ t.rows := by
  obtain ⟨hp, hkeep⟩ := (mem_release_iff (ht.acquire ls)).1 hp
  rcases mem_acquire ht hp with hp | ⟨l, hl, rfl⟩
  · exact hp
  · have := hkeep l hl rfl
    simp [RowLock.isHeldByBranch, RowLock.holder] at this

end LockTable

namespace LockManager

/-- The row locks of a branch are taken for that branch. -/
theorem ownedBy_collect {b : Branch} {ls : List RowLock} (h : collect b = .ok ls) :
    ∀ l ∈ ls, l.xid = b.xid ∧ l.branchId = b.branchId := by
  unfold collect at h
  split at h
  · exact RowLock.ownedBy_expand h
  · cases h
    nofun

end LockManager

end GlobalTxn
