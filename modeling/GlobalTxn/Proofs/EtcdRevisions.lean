import GlobalTxn.Proofs.EtcdRuns

/-! # Revisions of an etcd key space

Every change to a key space gives the keys it writes a revision of last change above the
revision the space had: a key read twice with the same revision of last change is the same
version of that key, whatever happened in between.  This is what optimistic concurrency over
etcd rests on: a transaction that compares the revision a key had when it was read commits
only on the version read.

* A space as a server keeps it (`KeySpace.Sane`) stores each key once, created and last
  changed at revisions from 1 up to the space's own, and no lease has id 0; every request
  keeps it so (`KeySpace.Sane.serve`).
* Each request moves the space forward (`KeySpace.Moves`): the revision does not go back, and
  each key stays as it was, goes, or is written after the old revision (`KeySpace.Sane.serve`).
* Hence a version is told by its revision of last change (`KeySpace.Stamps`), and a version
  that is gone never comes back (`KeySpace.Lost`), over any steps of any clients
  (`Turn.Chain.moves`).
-/

namespace GlobalTxn.Etcd

/-! ## Stored keys -/

/-- Stored keys as of revision `rev`: each key once, each created and last changed at a
revision from 1 up to `rev`. -/
structure Stored (rev : Nat) (kvs : List KeyValue) : Prop where
  nodup : (kvs.map (·.key)).Nodup
  revisions : ∀ kv ∈ kvs, 0 < kv.createRevision ∧ 0 < kv.modRevision ∧ kv.modRevision ≤ rev

/-- From `kvs` to `kvs'`, each key stays as it was, goes, or is written after revision
`rev`. -/
def Moved (rev : Nat) (kvs kvs' : List KeyValue) : Prop :=
  ∀ k, kvs'.find? (·.key == k) = kvs.find? (·.key == k) ∨ kvs'.find? (·.key == k) = none ∨
    ∃ kv, kvs'.find? (·.key == k) = some kv ∧ rev < kv.modRevision

variable {rev rev' : Nat} {kvs kvs' kvs'' : List KeyValue}

theorem Moved.refl (rev : Nat) (kvs : List KeyValue) : Moved rev kvs kvs := fun _ => .inl rfl

theorem Moved.trans (h₁ : Moved rev kvs kvs') (h₂ : Moved rev' kvs' kvs'') (hr : rev ≤ rev') :
    Moved rev kvs kvs'' := by
  intro k
  rcases h₂ k with h | h | ⟨kv, h, hlt⟩
  · rw [h]
    exact h₁ k
  · exact .inr (.inl h)
  · exact .inr (.inr ⟨kv, h, by omega⟩)

/-- A write gives its key a version last changed at the write's revision. -/
theorem find?_write_self (kvs : List KeyValue) (rev : Nat) (key : String) (value : List UInt8)
    (lease : Nat) :
    ∃ kv, (write kvs rev key value lease).find? (·.key == key) = some kv ∧ kv.value = value ∧
      kv.lease = lease ∧ kv.modRevision = rev := by
  unfold write
  split
  · rename_i kv hkv
    have hk : kv.key = key := by simpa using List.find?_some hkv
    refine ⟨{ kv with value, modRevision := rev, version := kv.version + 1, lease }, ?_, rfl, rfl,
      rfl⟩
    rw [List.find?_map]
    have hkeep : ((fun x : KeyValue => x.key == key) ∘ fun x =>
        if x.key == key then
          { kv with value, modRevision := rev, version := kv.version + 1, lease } else x) =
        (·.key == key) := by
      funext x
      by_cases hx : x.key = key <;> simp [hx, hk]
    rw [hkeep, hkv]
    simp [hk]
  · rename_i hnone
    exact ⟨⟨key, value, rev, rev, 1, lease⟩, by rw [List.find?_append, hnone]; simp, rfl, rfl,
      rfl⟩

theorem find?_erase_other (kvs : List KeyValue) {key other : String} (h : other ≠ key) :
    (erase kvs key).find? (·.key == other) = kvs.find? (·.key == other) := by
  simp only [erase, List.find?_filter]
  congr 1
  funext kv
  by_cases hk : kv.key = other
  · simp [hk, h]
  · simp [hk]

namespace Stored

theorem mono (h : Stored rev kvs) (hr : rev ≤ rev') : Stored rev' kvs :=
  ⟨h.nodup, fun kv hkv => by
    obtain ⟨h₁, h₂, h₃⟩ := h.revisions kv hkv
    exact ⟨h₁, h₂, h₃.trans hr⟩⟩

theorem sublist (h : Stored rev kvs) (hs : kvs'.Sublist kvs) : Stored rev kvs' :=
  ⟨h.nodup.sublist (hs.map _), fun kv hkv => h.revisions kv (hs.subset hkv)⟩

theorem filter (h : Stored rev kvs) (p : KeyValue → Bool) : Stored rev (kvs.filter p) :=
  h.sublist List.filter_sublist

/-- A write at a later revision keeps the keys stored, once each. -/
theorem write (h : Stored rev kvs) (hr : rev ≤ rev') (hpos : 0 < rev') (key : String)
    (value : List UInt8) (lease : Nat) : Stored rev' (Etcd.write kvs rev' key value lease) := by
  unfold Etcd.write
  split
  · rename_i kv hkv
    have hk : kv.key = key := by simpa using List.find?_some hkv
    have hcreate := (h.revisions kv (List.mem_of_find?_eq_some hkv)).1
    refine ⟨?_, ?_⟩
    · -- the written key keeps its place, and the others are untouched
      have hkeys : ((kvs.map fun x =>
          if x.key == key then
            { kv with value, modRevision := rev', version := kv.version + 1, lease } else x).map
            (·.key)) = kvs.map (·.key) := by
        rw [List.map_map]
        refine List.map_congr_left fun x _ => ?_
        by_cases hx : x.key = key <;> simp [hx, hk]
      rw [hkeys]
      exact h.nodup
    · intro x hx
      obtain ⟨y, hy, rfl⟩ := List.mem_map.1 hx
      have hrev := h.revisions y hy
      by_cases hyk : y.key = key
      · simp only [hyk, beq_self_eq_true, if_true]
        exact ⟨hcreate, hpos, le_refl _⟩
      · simp only [hyk, beq_iff_eq, if_false]
        exact ⟨hrev.1, hrev.2.1, hrev.2.2.trans hr⟩
  · rename_i hnone
    have hfresh : key ∉ kvs.map (·.key) := by
      intro hmem
      obtain ⟨x, hx, hxk⟩ := List.mem_map.1 hmem
      exact (List.find?_eq_none.1 hnone) x hx (by simp [hxk])
    refine ⟨?_, ?_⟩
    · rw [List.map_append, List.nodup_append]
      refine ⟨h.nodup, List.nodup_singleton _, ?_⟩
      intro a ha b hb
      rw [List.map_singleton, List.mem_singleton] at hb
      intro hab
      rw [hab, hb] at ha
      exact hfresh ha
    · intro x hx
      rcases List.mem_append.1 hx with hx | hx
      · obtain ⟨h₁, h₂, h₃⟩ := h.revisions x hx
        exact ⟨h₁, h₂, h₃.trans hr⟩
      · rw [List.mem_singleton] at hx
        subst hx
        exact ⟨hpos, hpos, le_refl _⟩

end Stored

theorem moved_write (hr : rev < rev') (kvs : List KeyValue) (key : String) (value : List UInt8)
    (lease : Nat) : Moved rev kvs (write kvs rev' key value lease) := by
  intro k
  by_cases hk : k = key
  · subst hk
    obtain ⟨kv, hkv, -, -, hmod⟩ := find?_write_self kvs rev' k value lease
    exact .inr (.inr ⟨kv, hkv, hmod ▸ hr⟩)
  · exact .inl (find?_write_other kvs rev' key k value lease hk)

theorem moved_erase (rev : Nat) (kvs : List KeyValue) (key : String) :
    Moved rev kvs (erase kvs key) := by
  intro k
  by_cases hk : k = key
  · subst hk
    exact .inr (.inl (KeySpace.find?_erase kvs k))
  · exact .inl (find?_erase_other kvs hk)

/-- Dropping keys from a list that stores each key once leaves each key as it was, or takes it
away. -/
theorem find?_filter_of_nodup (hnd : (kvs.map (·.key)).Nodup) (p : KeyValue → Bool) (k : String) :
    (kvs.filter p).find? (·.key == k) = kvs.find? (·.key == k) ∨
      (kvs.filter p).find? (·.key == k) = none := by
  induction kvs with
  | nil => exact .inl rfl
  | cons a l ih =>
    rw [List.map_cons, List.nodup_cons] at hnd
    by_cases hak : a.key = k
    · -- `a` is the only entry of `k`
      have hrest : (l.filter p).find? (·.key == k) = none := by
        rw [List.find?_eq_none]
        intro x hx hxk
        exact hnd.1 (hak ▸ (beq_iff_eq.1 hxk) ▸ List.mem_map_of_mem (List.mem_of_mem_filter hx))
      by_cases hp : p a = true
      · exact .inl (by simp [hp, hak])
      · exact .inr (by simp [hp, hrest])
    · have hne : (a.key == k) = false := by simpa using hak
      by_cases hp : p a = true
      · simpa [List.filter_cons, hp, hne] using ih hnd.2
      · simpa [List.filter_cons, hp, hne] using ih hnd.2

theorem moved_filter (rev : Nat) (hnd : (kvs.map (·.key)).Nodup) (p : KeyValue → Bool) :
    Moved rev kvs (kvs.filter p) := by
  intro k
  rcases find?_filter_of_nodup hnd p k with h | h
  · exact .inl h
  · exact .inr (.inl h)

/-- The writes of a transaction keep the keys stored, and write each key they change after any
earlier revision. -/
theorem foldl_applyWrite (h : Stored rev' kvs) (hr : rev < rev') (hpos : 0 < rev')
    (ws : List Write) (c : Bool) :
    Stored rev' (ws.foldl (KeySpace.applyWrite rev') (kvs, c)).1 ∧
      Moved rev kvs (ws.foldl (KeySpace.applyWrite rev') (kvs, c)).1 := by
  induction ws generalizing kvs c with
  | nil => exact ⟨h, Moved.refl _ _⟩
  | cons w ws ih =>
    rw [List.foldl_cons]
    cases w with
    | put key value lease =>
      obtain ⟨hs, hm⟩ := ih (h.write (le_refl _) hpos key value lease) true
      exact ⟨hs, (moved_write hr kvs key value lease).trans hm (le_refl _)⟩
    | delete key =>
      simp only [KeySpace.applyWrite]
      split
      · obtain ⟨hs, hm⟩ := ih (h.filter _) true
        exact ⟨hs, (moved_erase rev kvs key).trans hm (le_refl _)⟩
      · exact ih h c

/-! ## Key spaces -/

namespace KeySpace

/-- A key space as a server keeps it: its keys are stored as of its revision, and every lease
id, like the next one, is above 0. -/
structure Sane (s : KeySpace) : Prop where
  stored : Stored s.revision s.kvs
  nextLease : 0 < s.nextLease
  leases : ∀ l ∈ s.leases, l.id ≠ 0

/-- From `s` to `s'` the revision does not go back, and each key stays as it was, goes, or is
written after `s`'s revision. -/
structure Moves (s s' : KeySpace) : Prop where
  revision : s.revision ≤ s'.revision
  keys : Moved s.revision s.kvs s'.kvs

variable {s s' s'' : KeySpace} {now : Nat}

theorem sane_empty : ({} : KeySpace).Sane :=
  ⟨⟨List.nodup_nil, fun _ h => (List.not_mem_nil h).elim⟩, Nat.one_pos,
    fun _ h => (List.not_mem_nil h).elim⟩

theorem Moves.refl (s : KeySpace) : s.Moves s := ⟨le_refl _, Moved.refl _ _⟩

theorem Moves.trans (h₁ : s.Moves s') (h₂ : s'.Moves s'') : s.Moves s'' :=
  ⟨h₁.revision.trans h₂.revision, h₁.keys.trans h₂.keys h₁.revision⟩

/-- A change that leaves revision and keys is no move at all. -/
theorem Moves.of_eq (hr : s'.revision = s.revision) (hk : s'.kvs = s.kvs) : s.Moves s' :=
  ⟨hr.ge, hk ▸ Moved.refl _ _⟩

namespace Sane

theorem dropLeases (hs : s.Sane) (ids : List Nat) :
    (s.dropLeases ids).Sane ∧ s.Moves (s.dropLeases ids) := by
  have hleases : ∀ l ∈ s.leases.filter (fun l => !ids.contains l.id), l.id ≠ 0 :=
    fun l hl => hs.leases l (List.mem_of_mem_filter hl)
  unfold KeySpace.dropLeases
  split
  · exact ⟨⟨(hs.stored.filter _).mono (Nat.le_succ _), hs.nextLease, hleases⟩,
      ⟨Nat.le_succ _, moved_filter _ hs.stored.nodup _⟩⟩
  · exact ⟨⟨hs.stored, hs.nextLease, hleases⟩, Moves.of_eq rfl rfl⟩

theorem expire (hs : s.Sane) (now : Nat) : (s.expire now).Sane ∧ s.Moves (s.expire now) := by
  unfold KeySpace.expire
  split
  · exact ⟨hs, Moves.refl s⟩
  · exact hs.dropLeases _

theorem put (hs : s.Sane) (key : String) (value : List UInt8) (lease : Nat) :
    (s.put key value lease).Sane ∧ s.Moves (s.put key value lease) :=
  ⟨⟨hs.stored.write (Nat.le_succ _) (Nat.succ_pos _) key value lease, hs.nextLease, hs.leases⟩,
    ⟨Nat.le_succ _, moved_write (Nat.lt_succ_self _) _ key value lease⟩⟩

theorem delete (hs : s.Sane) (key : String) : (s.delete key).2.Sane ∧ s.Moves (s.delete key).2 := by
  unfold KeySpace.delete
  split
  · exact ⟨⟨(hs.stored.filter _).mono (Nat.le_succ _), hs.nextLease, hs.leases⟩,
      ⟨Nat.le_succ _, moved_erase _ _ key⟩⟩
  · exact ⟨hs, Moves.refl s⟩

theorem applyWrites (hs : s.Sane) (ws : List Write) :
    (s.applyWrites ws).Sane ∧ s.Moves (s.applyWrites ws) := by
  obtain ⟨hstored, hmoved⟩ := foldl_applyWrite (hs.stored.mono (Nat.le_succ _))
    (Nat.lt_succ_self s.revision) (Nat.succ_pos _) ws false
  unfold KeySpace.applyWrites
  generalize ws.foldl (applyWrite (s.revision + 1)) (s.kvs, false) = p at hstored hmoved
  obtain ⟨kvs, changed⟩ := p
  cases changed with
  | true => exact ⟨⟨hstored, hs.nextLease, hs.leases⟩, ⟨Nat.le_succ _, hmoved⟩⟩
  | false => exact ⟨hs, Moves.refl s⟩

theorem txn (hs : s.Sane) (cs : List Compare) (ws : List Write) :
    (s.txn cs ws).2.Sane ∧ s.Moves (s.txn cs ws).2 := by
  unfold KeySpace.txn
  split
  · exact ⟨⟨hs.stored, hs.nextLease, hs.leases⟩, Moves.of_eq rfl rfl⟩
  · split
    · exact hs.applyWrites ws
    · exact ⟨hs, Moves.refl s⟩

theorem grant (hs : s.Sane) (ttl now : Nat) :
    (s.grant ttl now).2.Sane ∧ s.Moves (s.grant ttl now).2 := by
  refine ⟨⟨hs.stored, Nat.succ_pos _, ?_⟩, Moves.of_eq rfl rfl⟩
  intro l hl
  rcases List.mem_append.1 hl with hl | hl
  · exact hs.leases l hl
  · rw [List.mem_singleton] at hl
    subst hl
    exact Nat.pos_iff_ne_zero.1 hs.nextLease

theorem keepAlive (hs : s.Sane) (id now : Nat) :
    (s.keepAlive id now).2.Sane ∧ s.Moves (s.keepAlive id now).2 := by
  unfold KeySpace.keepAlive
  split
  · refine ⟨⟨hs.stored, hs.nextLease, ?_⟩, Moves.of_eq rfl rfl⟩
    intro l hl
    obtain ⟨x, hx, rfl⟩ := List.mem_map.1 hl
    split
    · exact hs.leases x hx
    · exact hs.leases x hx
  · exact ⟨hs, Moves.refl s⟩

/-- Every request keeps a key space as a server keeps it, and moves it forward. -/
theorem serve (hs : s.Sane) (now : Nat) {β : Type} (req : Request β) :
    (s.serve now req).2.Sane ∧ s.Moves (s.serve now req).2 := by
  obtain ⟨he, hme⟩ := hs.expire now
  -- after expiry, each request changes the space by one of the moves above
  suffices h : (s.serve now req).2.Sane ∧ (s.expire now).Moves (s.serve now req).2 from
    ⟨h.1, hme.trans h.2⟩
  cases req with
  | range r => exact ⟨he, Moves.refl _⟩
  | snapshot keys => exact ⟨he, Moves.refl _⟩
  | put key value lease =>
    simp only [KeySpace.serve]
    split
    · exact he.put key value lease
    · exact ⟨he, Moves.refl _⟩
  | delete key => exact he.delete key
  | txn compares writes =>
    simp only [KeySpace.serve]
    split
    · exact ⟨he, Moves.refl _⟩
    · exact he.txn compares writes
  | grant ttl =>
    simp only [KeySpace.serve]
    split
    · exact ⟨he, Moves.refl _⟩
    · exact he.grant _ now
  | revoke id =>
    simp only [KeySpace.serve]
    split
    · exact he.dropLeases [id]
    · exact ⟨he, Moves.refl _⟩
  | keepAlive id => exact he.keepAlive id now
  | authenticate user password => exact ⟨he, Moves.refl _⟩

end Sane

/-! ## Versions of a key -/

variable {k : String} {kv : KeyValue}

/-- In `s`, version `kv` of key `k` is told by its revision of last change: a version of `k`
with that revision is `kv`. -/
def Stamps (s : KeySpace) (k : String) (kv : KeyValue) : Prop :=
  kv.modRevision ≤ s.revision ∧
    ∀ kv', s.find? k = some kv' → kv'.modRevision = kv.modRevision → kv' = kv

/-- In `s`, version `kv` of key `k` is gone. -/
def Lost (s : KeySpace) (k : String) (kv : KeyValue) : Prop :=
  kv.modRevision ≤ s.revision ∧ s.find? k ≠ some kv

/-- Expiry only takes keys away. -/
theorem Sane.find?_of_expire (hs : s.Sane) (h : (s.expire now).find? k = some kv) :
    s.find? k = some kv := by
  unfold KeySpace.expire at h
  split at h
  · exact h
  · unfold KeySpace.dropLeases at h
    split at h
    · rcases find?_filter_of_nodup hs.stored.nodup _ k with h' | h'
      · exact h'.symm.trans h
      · exact absurd (h'.symm.trans h) (by simp)
    · exact h

/-- A stored version is told by its revision of last change. -/
theorem Sane.stamps (hs : s.Sane) (h : s.find? k = some kv) : s.Stamps k kv := by
  refine ⟨(hs.stored.revisions kv (List.mem_of_find?_eq_some h)).2.2, ?_⟩
  intro kv' h' _
  exact Option.some.inj (h'.symm.trans h)

theorem Moves.find? (hm : s.Moves s') (k : String) :
    s'.find? k = s.find? k ∨ s'.find? k = none ∨
      ∃ kv, s'.find? k = some kv ∧ s.revision < kv.modRevision :=
  hm.keys k

theorem Stamps.moves (h : s.Stamps k kv) (hm : s.Moves s') : s'.Stamps k kv := by
  refine ⟨h.1.trans hm.revision, ?_⟩
  intro kv' h' hmod
  rcases hm.find? k with hk | hk | ⟨kv'', hk, hlt⟩
  · exact h.2 kv' (hk ▸ h') hmod
  · exact absurd (h'.symm.trans hk) (Option.some_ne_none _)
  · -- a version written since has a later revision of last change
    have : kv'' = kv' := Option.some.inj (hk.symm.trans h')
    subst this
    exact absurd (hmod ▸ hlt) (not_lt.2 h.1)

theorem Lost.moves (h : s.Lost k kv) (hm : s.Moves s') : s'.Lost k kv := by
  refine ⟨h.1.trans hm.revision, ?_⟩
  intro h'
  rcases hm.find? k with hk | hk | ⟨kv'', hk, hlt⟩
  · exact h.2 (hk ▸ h')
  · exact absurd (h'.symm.trans hk) (Option.some_ne_none _)
  · have : kv'' = kv := Option.some.inj (hk.symm.trans h')
    subst this
    exact absurd hlt (not_lt.2 h.1)

/-- A comparison of the revision of last change with a revision above 0 holds only on a
version of the key with that revision. -/
theorem find?_of_holds_modRevision {r : Nat} (h : s.holds ⟨k, .modRevision, r⟩ = true)
    (hr : 0 < r) : ∃ kv, s.find? k = some kv ∧ kv.modRevision = r := by
  simp only [holds] at h
  cases hk : s.find? k with
  | none => simp [hk] at h; omega
  | some kv => exact ⟨kv, rfl, by simpa [hk] using h⟩

/-- A comparison of the creation revision with 0 holds only where the key is absent. -/
theorem Sane.find?_of_holds_create (hs : s.Sane) (h : s.holds ⟨k, .createRevision, 0⟩ = true) :
    s.find? k = none := by
  simp only [holds] at h
  cases hk : s.find? k with
  | none => rfl
  | some kv =>
    have := (hs.stored.revisions kv (List.mem_of_find?_eq_some hk)).1
    simp [hk] at h
    omega

end KeySpace

/-! ## Transactions -/

/-- A step that wrote nothing: its keys are what expiry alone leaves. -/
def Turn.Unwritten (t : Turn) : Prop :=
  ∃ now, t.after.kvs = (t.before.expire now).kvs

/-- A step that wrote nothing leaves no version that was not there before it. -/
theorem Turn.Unwritten.find?_of_after {t : Turn} (h : t.Unwritten) (hs : t.before.Sane)
    {k : String} {kv : KeyValue} (hkv : t.after.find? k = some kv) :
    t.before.find? k = some kv := by
  obtain ⟨now, hkvs⟩ := h
  exact hs.find?_of_expire (show (t.before.expire now).find? k = some kv by
    simpa only [KeySpace.find?, hkvs] using hkv)

/-- A transaction either commits, when its comparisons all hold after expiry, and applies its
writes; or it answers otherwise and writes nothing. -/
theorem KeySpace.serve_txn (s : KeySpace) (now : Nat) (cs : List Compare) (ws : List Write) :
    ((s.serve now (.txn cs ws)).1 = .ok true ∧ (∀ c ∈ cs, (s.expire now).holds c = true) ∧
        (s.serve now (.txn cs ws)).2 = (s.expire now).applyWrites ws) ∨
      ((s.serve now (.txn cs ws)).1 ≠ .ok true ∧
        (s.serve now (.txn cs ws)).2.kvs = (s.expire now).kvs) := by
  simp only [KeySpace.serve]
  generalize s.expire now = t
  unfold KeySpace.txn
  by_cases hc : (!cs.isEmpty && decide (t.conflicts > 0)) = true
  · exact .inr (by simp [hc])
  · by_cases hh : cs.all t.holds = true
    · by_cases hl : t.leasesLive ws = true
      · exact .inl ⟨by simp [hc, hh, hl], fun c hc' => List.all_eq_true.1 hh c hc',
          by simp [hc, hh, hl]⟩
      · exact .inr (by simp [hc, hh, hl])
    · exact .inr (by simp [hc, hh])

/-! ### What the writes of a transaction leave at one key -/

section Writes

variable {rev : Nat} {k : String}

/-- A version left at a key after the writes was there before, or a put of the writes made
it. -/
theorem find?_foldl_applyWrite_some (ws : List Write) (kvs : List KeyValue) (c : Bool)
    {kv : KeyValue}
    (h : (ws.foldl (KeySpace.applyWrite rev) (kvs, c)).1.find? (·.key == k) = some kv) :
    kvs.find? (·.key == k) = some kv ∨
      ∃ v lease, Write.put k v lease ∈ ws ∧ kv.value = v ∧ kv.lease = lease := by
  induction ws generalizing kvs c with
  | nil => exact .inl h
  | cons w ws ih =>
    rw [List.foldl_cons] at h
    rcases ih _ _ h with h₁ | ⟨v, lease, hput, hv, hl⟩
    · cases w with
      | put key value lease =>
        by_cases hk : k = key
        · subst hk
          have hw := find?_write kvs rev k value lease
          have h₂ : (write kvs rev k value lease).find? (·.key == k) = some kv := h₁
          simp only [h₂, Option.map_some, Option.some.injEq, Prod.mk.injEq] at hw
          exact .inr ⟨value, lease, List.mem_cons_self, hw.1, hw.2⟩
        · exact .inl ((find?_write_other kvs rev key k value lease hk).symm.trans h₁)
      | delete key =>
        have h₂ := (find?_applyWrite_delete rev (kvs, c) key k).symm.trans h₁
        split at h₂
        · cases h₂
        · exact .inl h₂
    · exact .inr ⟨v, lease, List.mem_cons_of_mem w hput, hv, hl⟩

/-- Writes that put nothing at a key leave it as it was, or delete it. -/
theorem find?_foldl_applyWrite_of_not_put (ws : List Write) (kvs : List KeyValue) (c : Bool)
    (h : ∀ v lease, Write.put k v lease ∉ ws) :
    (ws.foldl (KeySpace.applyWrite rev) (kvs, c)).1.find? (·.key == k) = kvs.find? (·.key == k) ∨
      (ws.foldl (KeySpace.applyWrite rev) (kvs, c)).1.find? (·.key == k) = none := by
  induction ws generalizing kvs c with
  | nil => exact .inl rfl
  | cons w ws ih =>
    rw [List.foldl_cons]
    have hrest : ∀ v lease, Write.put k v lease ∉ ws :=
      fun v lease hm => h v lease (List.mem_cons_of_mem w hm)
    -- the first write leaves the key as it was, or deletes it
    have hfirst : (KeySpace.applyWrite rev (kvs, c) w).1.find? (·.key == k) =
        kvs.find? (·.key == k) ∨
          (KeySpace.applyWrite rev (kvs, c) w).1.find? (·.key == k) = none := by
      cases w with
      | put key value lease =>
        have hk : k ≠ key := by
          rintro rfl
          exact h value lease List.mem_cons_self
        exact .inl (find?_write_other kvs rev key k value lease hk)
      | delete key =>
        rw [find?_applyWrite_delete]
        split
        · exact .inr rfl
        · exact .inl rfl
    rcases ih _ _ hrest with h₁ | h₁
    · rw [h₁]
      exact hfirst
    · exact .inr h₁

/-- Writes that put a key, or find it there, and never delete it leave a version of it. -/
theorem find?_foldl_applyWrite_isSome (ws : List Write) (kvs : List KeyValue) (c : Bool)
    (h : (kvs.find? (·.key == k)).isSome ∨ ∃ v lease, Write.put k v lease ∈ ws)
    (hdel : Write.delete k ∉ ws) :
    ((ws.foldl (KeySpace.applyWrite rev) (kvs, c)).1.find? (·.key == k)).isSome := by
  induction ws generalizing kvs c with
  | nil =>
    rcases h with h | ⟨v, lease, hm⟩
    · exact h
    · exact (List.not_mem_nil hm).elim
  | cons w ws ih =>
    rw [List.foldl_cons]
    refine ih _ _ ?_ (fun hm => hdel (List.mem_cons_of_mem w hm))
    cases w with
    | put key value lease =>
      by_cases hk : k = key
      · subst hk
        have hw := find?_write kvs rev k value lease
        left
        show ((write kvs rev k value lease).find? (·.key == k)).isSome = true
        cases hf : (write kvs rev k value lease).find? (·.key == k) with
        | none => rw [hf] at hw; cases hw
        | some _ => rfl
      · rcases h with h | ⟨v, l, hm⟩
        · left
          simpa [KeySpace.applyWrite, find?_write_other kvs rev key k value lease hk] using h
        · rcases List.mem_cons.1 hm with he | hm
          · cases he
            exact absurd rfl hk
          · exact .inr ⟨v, l, hm⟩
    | delete key =>
      have hk : k ≠ key := by
        rintro rfl
        exact hdel List.mem_cons_self
      rcases h with h | ⟨v, l, hm⟩
      · left
        have h₂ := find?_applyWrite_delete rev (kvs, c) key k
        rw [if_neg hk] at h₂
        show ((KeySpace.applyWrite rev (kvs, c) (.delete key)).1.find? (·.key == k)).isSome = true
        rw [h₂]
        exact h
      · rcases List.mem_cons.1 hm with he | hm
        · cases he
        · exact .inr ⟨v, l, hm⟩

/-- Writes that delete a key and put nothing there leave it deleted. -/
theorem find?_foldl_applyWrite_of_delete (ws : List Write) (kvs : List KeyValue) (c : Bool)
    (hdel : Write.delete k ∈ ws) (h : ∀ v lease, Write.put k v lease ∉ ws) :
    (ws.foldl (KeySpace.applyWrite rev) (kvs, c)).1.find? (·.key == k) = none := by
  induction ws generalizing kvs c with
  | nil => exact (List.not_mem_nil hdel).elim
  | cons w ws ih =>
    rw [List.foldl_cons]
    have hrest : ∀ v lease, Write.put k v lease ∉ ws :=
      fun v lease hm => h v lease (List.mem_cons_of_mem w hm)
    rcases List.mem_cons.1 hdel with rfl | hdel
    · -- the key goes here, and nothing puts it back
      have hgone := find?_applyWrite_delete rev (kvs, c) k k
      rw [if_pos rfl] at hgone
      rcases find?_foldl_applyWrite_of_not_put ws _ _ hrest with h₁ | h₁
      · exact h₁.trans hgone
      · exact h₁
    · exact ih _ _ hdel hrest

/-- Writes that do not delete a key keep it. -/
theorem KeySpace.find?_applyWrites_ne_none {e : KeySpace} {ws : List Write} {k : String}
    {kv : KeyValue} (he : e.find? k = some kv) (hdel : Write.delete k ∉ ws) :
    (e.applyWrites ws).find? k ≠ none := by
  have hsome : ((ws.foldl (KeySpace.applyWrite (e.revision + 1)) (e.kvs, false)).1.find?
      (·.key == k)).isSome :=
    find?_foldl_applyWrite_isSome ws e.kvs false
      (.inl (by show (e.find? k).isSome = true; rw [he]; rfl)) hdel
  simp only [KeySpace.find?, KeySpace.kvs_applyWrites]
  exact Option.isSome_iff_ne_none.1 hsome

end Writes

/-! ## Along runs -/

/-- A step of some client: the server serves one of its requests, at some clock reading. -/
def Served (s s' : KeySpace) : Prop :=
  ∃ (now : Nat) (β : Type) (req : Request β), s' = (s.serve now req).2

theorem Served.sane {s s' : KeySpace} (h : Served s s') (hs : s.Sane) : s'.Sane ∧ s.Moves s' := by
  obtain ⟨now, β, req, rfl⟩ := h
  exact hs.serve now req

theorem Turn.Step.served {other : KeySpace → KeySpace → Prop}
    (hother : ∀ s s', other s s' → Served s s') {t : Turn} (h : Turn.Step other t) :
    Served t.before t.after := by
  unfold Turn.Step at h
  split at h
  · obtain ⟨now, β, req, h⟩ := h
    exact ⟨now, β, req, h⟩
  · exact hother _ _ h

/-- Steps served one after the other keep a key space as a server keeps it, and move it
forward. -/
theorem Turn.Chain.moves {s : KeySpace} {tr : List Turn} (h : Turn.Chain s tr)
    (hserved : ∀ t ∈ tr, Served t.before t.after) (hs : s.Sane) :
    (∀ t ∈ tr, t.before.Sane ∧ s.Moves t.before) ∧
      (Turn.last s tr).Sane ∧ s.Moves (Turn.last s tr) := by
  have := h.keeps (fun x => x.Sane ∧ s.Moves x)
    (fun t ht hx => by
      obtain ⟨hsane, hmove⟩ := (hserved t ht).sane hx.1
      exact ⟨hsane, hx.2.trans hmove⟩)
    ⟨hs, KeySpace.Moves.refl s⟩
  exact this

theorem Client.Run.served {other : KeySpace → KeySpace → Prop} {α : Type} {c : Client α}
    {s : KeySpace} {tr : List Turn} {a : α} (hother : ∀ s s', other s s' → Served s s')
    (h : Client.Run other c s tr a) : ∀ t ∈ tr, Served t.before t.after :=
  fun t ht => (h.step t ht).served hother

/-- A run among clients whose steps serve requests keeps a key space as a server keeps it, and
moves it forward. -/
theorem Client.Run.moves {other : KeySpace → KeySpace → Prop} {α : Type} {c : Client α}
    {s : KeySpace} {tr : List Turn} {a : α} (hother : ∀ s s', other s s' → Served s s')
    (h : Client.Run other c s tr a) (hs : s.Sane) :
    (∀ t ∈ tr, t.before.Sane ∧ s.Moves t.before) ∧
      (Turn.last s tr).Sane ∧ s.Moves (Turn.last s tr) :=
  h.chain.moves (h.served hother) hs

end GlobalTxn.Etcd
