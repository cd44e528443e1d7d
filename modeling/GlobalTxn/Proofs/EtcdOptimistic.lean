import GlobalTxn.Proofs.EtcdRowHolding

/-! # Optimistic concurrency over etcd

The etcd-backed stores take no lock of their own: a change reads what it changes, and commits
in a transaction whose comparisons make sure that nothing it read changed since.  Here this is
shown to be enough, among any interleaving of the steps of other calls of the stores
(`Client.Run`), by what each store's calls guarantee to the others:

- `Locks.acquire_go_done`: what locking chunk after chunk did, by its answer;
- `Locks.acquire_holds_rows`: an acquire that answers `true` left every row of its list held by
  its transaction, seen at a step of its own, and the row keeps that version until it is
  deleted;
- `Locks.acquire_false_leaves_no_row`: an acquire that answers `false` leaves no version of a
  row that it created;
- `stores_commit_optimistically`: the two stores together, with what each of their calls sends.
-/

namespace GlobalTxn.Etcd

/-- Along `tr`, key `k` keeps version `kv` until a step removes it. -/
def Turn.KeepsUntilGone (k : String) (kv : KeyValue) : List Turn → Prop
  | [] => True
  | t :: tr => t.after.find? k = none ∨ (t.after.find? k = some kv ∧ Turn.KeepsUntilGone k kv tr)

namespace Locks

variable {codec : Wire.Codec LockHolder} {root : String} {s : KeySpace} {tr : List Turn}

theorem kept_empty : Kept root {} :=
  ⟨KeySpace.sane_empty, fun _ _ h => by simp [KeySpace.find?] at h⟩

/-- Among clients of the stores, a held row keeps its version until a step deletes it: no
client puts a row that is held, and expiry never takes one. -/
theorem keepsUntilGone_of_chain {r : String} {kv : KeyValue} :
    ∀ {s : KeySpace} {tr : List Turn}, Turn.Chain s tr →
      (∀ t ∈ tr, SafeStep root t.before t.after) → Kept root s →
      s.find? (key root r) = some kv → Turn.KeepsUntilGone (key root r) kv tr
  | _, [], _, _, _, _ => trivial
  | s, t :: tr, h, hsafe, hk, hkv => by
    obtain ⟨rfl, htr⟩ := h
    obtain ⟨hk', hkeeps⟩ := (hsafe t List.mem_cons_self).keeps hk
    rcases hkeeps r kv hkv with hsome | hnone
    · exact .inr ⟨hsome, keepsUntilGone_of_chain htr
        (fun u hu => hsafe u (List.mem_cons_of_mem _ hu)) hk' hsome⟩
    · exact .inl hnone

/-- A lock's own record names its branch. -/
theorem isHeldByBranch_holder (l : RowLock) : l.isHeldByBranch l.holder = true := by
  simp [RowLock.isHeldByBranch, RowLock.holder]

/-- A version created at a step of the run is no newer than the run's end. -/
theorem modRevision_le_of_creates {t : Turn} {k : String} {kv : KeyValue} (ht : t ∈ tr)
    (hc : t.Creates k kv) (h : Turn.Chain s tr) (hserved : ∀ u ∈ tr, Served u.before u.after)
    (hs : s.Sane) : kv.modRevision ≤ (Turn.last s tr).revision := by
  obtain ⟨pre, post, htr⟩ := List.append_of_mem ht
  obtain ⟨hsane, hmoves⟩ := h.moves_to_last htr hserved hs
  exact ((hsane.stamps hc.1).moves hmoves).1

/-- Every version that own steps of `tr` created, of rows that `locked` names, is gone at the
end once `locked` is released. -/
theorem lost_of_released {locked rows : List RowLock} {rev : Nat} {t' : KeySpace}
    (hc : CreatesOnly codec root tr rows) (hsub : rows ⊆ locked)
    (hrev : ∀ t ∈ tr, ∀ k kv, t.Creates k kv → kv.modRevision ≤ rev)
    (hrel : Released codec root locked rev t') :
    ∀ t ∈ tr, t.own = true → ∀ k kv, t.Creates k kv → t'.Lost k kv := by
  intro t ht hown k kv hcr
  obtain ⟨l, hl, rfl, hdec⟩ := hc t ht hown k kv hcr
  exact hrel l (hsub hl) kv l.holder (hrev t ht _ kv hcr) hdec (isHeldByBranch_holder l)

/-- Steps that created nothing leave nothing to be lost. -/
theorem lost_of_creates_nil (hc : CreatesOnly codec root tr []) (t' : KeySpace) :
    ∀ t ∈ tr, t.own = true → ∀ k kv, t.Creates k kv → t'.Lost k kv := by
  intro t ht hown k kv hcr
  obtain ⟨l, hl, -⟩ := hc t ht hown k kv hcr
  exact absurd hl List.not_mem_nil

/-- What locking chunk after chunk did, among clients of the stores.  It deleted rows only
where a lock named their holding branch, by unlocking again.  If it answered `true`, each row
of each chunk was held for the chunk at a step of its own.  If it answered `false`, the rows
locked before were unlocked, and every version that it created is gone. -/
theorem acquire_go_done :
    ∀ (chunks : List (List RowLock)) (locked : List RowLock) {s : KeySpace} {tr : List Turn}
      {r : Except LockError Bool},
      (∀ c ∈ chunks, ∀ l ∈ c, codec.ReadsBack l.holder) → Kept root s →
      Client.Run (SafeStep root) (acquire.go codec root chunks locked).run s tr r →
      DeletesNamed codec root (locked ++ chunks.flatten) tr ∧
      (r = .ok true → ∀ c ∈ chunks, ∀ l ∈ c,
        ∃ kv, Turn.Seen tr (key root l.rowKey) (some kv) ∧ HeldForChunk codec c l kv) ∧
      (r = .ok false → Released codec root locked s.revision (Turn.last s tr) ∧
        ∀ t ∈ tr, t.own = true → ∀ k kv, t.Creates k kv → (Turn.last s tr).Lost k kv)
  | [], locked, s, tr, r, _, _, h => by
    obtain ⟨rfl, rfl⟩ := Client.Run.of_pure h
    exact ⟨fun _ ht => (List.not_mem_nil ht).elim, fun _ _ hc => (List.not_mem_nil hc).elim,
      (fun h => by cases h)⟩
  | chunk :: rest, locked, s, tr, r, hback, hk, h => by
    unfold acquire.go at h
    obtain ⟨tr₁, tr₂, r₁, hl₁, rfl, hrest⟩ := Client.Run.exceptT_bind h
    obtain ⟨a, h₁, rfl⟩ := Client.Run.exceptT_lift hl₁
    rcases hrest with ⟨a', ha, h₂⟩ | ⟨e, he, -, -⟩
    swap
    · cases he
    cases ha
    have hdone := acquireChunk_attempt_done (hback chunk List.mem_cons_self) maxAttempts hk h₁
    have hserved₁ : ∀ u ∈ tr₁, Served u.before u.after :=
      fun u hu => (safeSteps_of_run (sends_acquireChunk chunk _) h₁ u hu).served
    have hk₁ : Kept root (Turn.last s tr₁) :=
      (keeps_of_chain h₁.chain (safeSteps_of_run (sends_acquireChunk chunk _) h₁) hk).2
    have hrev₁ : s.revision ≤ (Turn.last s tr₁).revision :=
      (h₁.chain.moves hserved₁ hk.sane).2.2.revision
    have hlocked : locked ⊆ locked ++ (chunk :: rest).flatten := List.subset_append_left _ _
    rcases a with e | _ | rows
    · -- the chunk failed: the rows locked so far are unlocked, and the failure is answered
      obtain ⟨-, hd₁⟩ := hdone
      dsimp only at h₂
      obtain ⟨tr₃, tr₄, r₃, hl₃, rfl, hrest₃⟩ := Client.Run.exceptT_bind h₂
      obtain ⟨u, h₃, rfl⟩ := Client.Run.exceptT_lift hl₃
      obtain ⟨-, hd₃, -⟩ := release_done hk₁ h₃
      rcases hrest₃ with ⟨_, -, h₄⟩ | ⟨_, he, -, -⟩
      · obtain ⟨rfl, rfl⟩ := Client.Run.of_pure h₄
        exact ⟨(hd₁.mono (List.nil_subset _)).append (by simpa using hd₃.mono hlocked),
          (fun h => by cases h), (fun h => by cases h)⟩
      · cases he
    · -- a row is held by another transaction: the rows locked so far are unlocked
      obtain ⟨hc₁, hd₁⟩ := hdone
      dsimp only at h₂
      obtain ⟨tr₃, tr₄, r₃, h₃, rfl, hrest₃⟩ := Client.Run.exceptT_bind h₂
      obtain ⟨hc₃, hd₃, hr₃⟩ := release_done hk₁ h₃
      have hdel := (hd₁.mono (List.nil_subset _)).append (hd₃.mono hlocked)
      rcases hrest₃ with ⟨u, rfl, h₄⟩ | ⟨_, rfl, rfl, rfl⟩
      · obtain ⟨rfl, rfl⟩ := Client.Run.of_pure h₄
        refine ⟨by simpa using hdel, (fun h => by cases h), fun _ => ⟨?_, ?_⟩⟩
        · simpa [Turn.last_append] using (hr₃ rfl).mono hrev₁ (List.Subset.refl _)
        · simpa using lost_of_creates_nil (hc₁.append hc₃) _
      · exact ⟨by simpa using hdel, (fun h => by cases h), (fun h => by cases h)⟩
    · -- the chunk is locked: the rest goes on with its rows counted as locked
      obtain ⟨hsub, hc₁, hd₁, hheld₁⟩ := hdone
      obtain ⟨hd₂, htrue₂, hfalse₂⟩ := acquire_go_done rest (locked ++ rows)
        (fun c hc => hback c (List.mem_cons_of_mem _ hc)) hk₁ h₂
      have hsub₂ : locked ++ rows ++ rest.flatten ⊆ locked ++ (chunk :: rest).flatten := by
        intro l hl
        simp only [List.mem_append, List.flatten_cons] at hl ⊢
        rcases hl with (hl | hl) | hl
        · exact .inl hl
        · exact .inr (.inl (hsub hl))
        · exact .inr (.inr hl)
      refine ⟨(hd₁.mono (List.nil_subset _)).append (hd₂.mono hsub₂), fun hr c hc l hl => ?_,
        fun hr => ?_⟩
      · rcases List.mem_cons.1 hc with rfl | hc
        · obtain ⟨kv, hseen, hheld⟩ := hheld₁ l hl
          exact ⟨kv, hseen.append_right tr₂, hheld⟩
        · obtain ⟨kv, hseen, hheld⟩ := htrue₂ hr c hc l hl
          exact ⟨kv, hseen.append_left tr₁, hheld⟩
      · -- the versions this chunk created go when the rows locked are unlocked
        obtain ⟨hrel₂, hlost₂⟩ := hfalse₂ hr
        have hlost₁ := lost_of_released hc₁ (List.subset_append_right _ _)
          (fun t ht k kv hcr => modRevision_le_of_creates ht hcr h₁.chain hserved₁ hk.sane) hrel₂
        rw [Turn.last_append]
        refine ⟨hrel₂.mono hrev₁ (List.subset_append_left _ _), fun t ht => ?_⟩
        rcases List.mem_append.1 ht with ht | ht
        · exact hlost₁ t ht
        · exact hlost₂ t ht

/-- An acquire by transaction `xid` that answers `true`, among clients of the stores, left every
row of its list held by `xid`: at a step of its own the row has a version whose holder is of
`xid`, and from then on, whatever clients of the stores do after it, the row keeps that version
until a step deletes it. -/
theorem acquire_holds_rows {locks : List RowLock} {xid : String}
    (hlocks : ∀ l ∈ locks, l.xid = xid ∧ codec.ReadsBack l.holder) (hk : Kept root s)
    (h : Client.Run (SafeStep root) (acquire codec root locks).run s tr (.ok true)) :
    ∀ l ∈ locks, ∃ pre t post kv g, tr = pre ++ t :: post ∧ t.own = true ∧
      t.after.find? (key root l.rowKey) = some kv ∧ decode codec kv = .ok g ∧ g.xid = xid ∧
      ∀ more, Turn.Chain (Turn.last s tr) more → (∀ u ∈ more, SafeStep root u.before u.after) →
        Turn.KeepsUntilGone (key root l.rowKey) kv (post ++ more) := by
  intro l hl
  have hpos : 0 < maxTxnOps := by decide
  obtain ⟨-, htrue, -⟩ := acquire_go_done (chunksOf maxTxnOps locks) []
    (fun c hc l hl => (hlocks l (mem_of_mem_chunksOf hpos hc hl)).2) hk h
  -- the chunk that covers the row saw it held for a lock of the chunk on it
  obtain ⟨c, hc, hlc⟩ := List.mem_flatten.1 ((flatten_chunksOf hpos locks).symm ▸ hl)
  obtain ⟨kv, ⟨pre, t, post, rfl, hown, hkv⟩, g, hdec, l', hl', -, hxid⟩ := htrue rfl c hc l hlc
  refine ⟨pre, t, post, kv, g, rfl, hown, hkv, hdec,
    hxid.trans (hlocks l' (mem_of_mem_chunksOf hpos hc hl')).1, fun more hmore hsafe' => ?_⟩
  -- from that step on, every step is a step of a client of the stores
  have hsafe := safeSteps_of_run (sends_acquire_go _ []) h
  have hkt : Kept root t.after :=
    ((hsafe t (by simp)).keeps ((keeps_of_chain h.chain hsafe hk).1 t (by simp)).1).1
  obtain ⟨-, -, hpost⟩ := h.chain.of_append
  rw [Turn.last_append, Turn.last_cons] at hmore
  refine keepsUntilGone_of_chain (hpost.append hmore) (fun u hu => ?_) hkt hkv
  rcases List.mem_append.1 hu with hu | hu
  · exact hsafe u (by simp [hu])
  · exact hsafe' u hu

/-- An acquire that answers `false`, among clients of the stores, leaves no version of a row
that it created: the rows it locked are unlocked again before it answers, and a version once
gone never comes back. -/
theorem acquire_false_leaves_no_row {locks : List RowLock}
    (hback : ∀ l ∈ locks, codec.ReadsBack l.holder) (hk : Kept root s)
    (h : Client.Run (SafeStep root) (acquire codec root locks).run s tr (.ok false)) :
    ∀ t ∈ tr, t.own = true → ∀ k kv, t.Creates k kv → (Turn.last s tr).Lost k kv :=
  ((acquire_go_done (chunksOf maxTxnOps locks) []
    (fun _ hc l hl => hback l (mem_of_mem_chunksOf (by decide) hc hl)) hk h).2.2 rfl).2

/-- An acquire deletes a row only where one of its locks names the row's holding branch: it
deletes only in unlocking rows it locked. -/
theorem acquire_deletes_only_named_rows {locks : List RowLock} {r : Except LockError Bool}
    (hback : ∀ l ∈ locks, codec.ReadsBack l.holder) (hk : Kept root s)
    (h : Client.Run (SafeStep root) (acquire codec root locks).run s tr r) :
    DeletesNamed codec root locks tr := by
  have hpos : 0 < maxTxnOps := by decide
  have := (acquire_go_done (chunksOf maxTxnOps locks) []
    (fun _ hc l hl => hback l (mem_of_mem_chunksOf hpos hc hl)) hk h).1
  rwa [List.nil_append, flatten_chunksOf hpos] at this

end Locks

/-- Optimistic concurrency over etcd, among any interleaving of the steps of other calls of the
stores.

Every call of either store sends only requests that write rows as the lock store does, so the
steps of other calls are of that kind, which is all that the statements on the lock store
assume of them; those of the session store moreover keep every row as it was.  A change of a
session that succeeded committed its record on the very version
it read, and one that failed wrote nothing, whatever the server served in between.  An acquire
by `xid` that answers `true` left each row of its list held by `xid` from a step of its own on,
until a step deletes it; one that answers `false` leaves no version of a row that it created.
An acquire or a release deletes a row only where one of its locks names the row's holding
branch, and a release that answers frees every version that such a branch held. -/
theorem stores_commit_optimistically (records : Wire.Codec SessionRecord)
    (holders : Wire.Codec LockHolder) (hholders : holders.RoundTrips) :
    (∀ root, let P := fun β req => Locks.Safe root β req ∧ Locks.Spares root β req
      ((∀ g, Client.Sends P ((Sessions.store records root).add g).run) ∧
        (∀ g, Client.Sends P ((Sessions.store records root).update g).run) ∧
        (∀ xid, Client.Sends P ((Sessions.store records root).remove xid).run) ∧
        (∀ b, Client.Sends P ((Sessions.store records root).addBranch b).run) ∧
        (∀ b, Client.Sends P ((Sessions.store records root).updateBranch b).run) ∧
        (∀ xid branchId,
          Client.Sends P ((Sessions.store records root).removeBranch xid branchId).run) ∧
        (∀ xid, Client.Sends P ((Sessions.store records root).find? xid).run) ∧
        (∀ statuses, Client.Sends P ((Sessions.store records root).findBy statuses).run)) ∧
      ((∀ locks, Client.Sends (Locks.Safe root) ((Locks.store holders root).acquire locks).run) ∧
        (∀ locks, Client.Sends (Locks.Safe root) ((Locks.store holders root).release locks).run) ∧
        (∀ rowKey,
          Client.Sends (Locks.Safe root) ((Locks.store holders root).owner? rowKey).run))) ∧
    (∀ root (s : KeySpace) now β (req : Request β), Locks.Kept root s → Locks.Safe root β req →
      Locks.Spares root β req → ∀ r kv, s.find? (Locks.key root r) = some kv →
        (s.serve now req).2.find? (Locks.key root r) = some kv) ∧
    (∀ root xid missingOk f (s : KeySpace) tr r, s.Sane →
      Client.Run Served (Sessions.modify records root xid missingOk f).run s tr r →
      Sessions.Serializes records root xid f tr r) ∧
    (∀ root (locks : List RowLock) xid (s : KeySpace) tr,
      (∀ l ∈ locks, l.xid = xid ∧ holders.fits l.holder) → Locks.Kept root s →
      Client.Run (Locks.SafeStep root) ((Locks.store holders root).acquire locks).run s tr
        (.ok true) →
      ∀ l ∈ locks, ∃ pre t post kv g, tr = pre ++ t :: post ∧ t.own = true ∧
        t.after.find? (Locks.key root l.rowKey) = some kv ∧ Locks.decode holders kv = .ok g ∧
        g.xid = xid ∧
        ∀ more, Turn.Chain (Turn.last s tr) more →
          (∀ u ∈ more, Locks.SafeStep root u.before u.after) →
          Turn.KeepsUntilGone (Locks.key root l.rowKey) kv (post ++ more)) ∧
    (∀ root (locks : List RowLock) (s : KeySpace) tr,
      (∀ l ∈ locks, holders.fits l.holder) → Locks.Kept root s →
      Client.Run (Locks.SafeStep root) ((Locks.store holders root).acquire locks).run s tr
        (.ok false) →
      ∀ t ∈ tr, t.own = true → ∀ k kv, t.Creates k kv → (Turn.last s tr).Lost k kv) ∧
    (∀ root (locks : List RowLock) (s : KeySpace) tr r,
      (∀ l ∈ locks, holders.fits l.holder) → Locks.Kept root s →
      Client.Run (Locks.SafeStep root) ((Locks.store holders root).acquire locks).run s tr r →
      Locks.DeletesNamed holders root locks tr) ∧
    (∀ root (locks : List RowLock) (s : KeySpace) tr r, Locks.Kept root s →
      Client.Run (Locks.SafeStep root) ((Locks.store holders root).release locks).run s tr r →
      Locks.DeletesNamed holders root locks tr ∧
        (r = .ok () → Locks.Released holders root locks s.revision (Turn.last s tr))) := by
  refine ⟨fun root => ⟨Locks.sends_sessions_of (Locks.sessionRequests_safe_spares root),
      Locks.sends_locks holders root⟩,
    fun _ _ now _ _ hk hreq hspare _ _ hkv => Locks.Spares.serve hk hreq hspare now hkv,
    fun root xid missingOk f _ _ _ hs h => Sessions.modify_commits_on_version_read records root
      xid missingOk f hs h,
    fun _ _ _ _ _ hlocks hk h => Locks.acquire_holds_rows
      (fun l hl => ⟨(hlocks l hl).1, hholders _ (hlocks l hl).2⟩) hk h,
    fun _ _ _ _ hfits hk h => Locks.acquire_false_leaves_no_row
      (fun l hl => hholders _ (hfits l hl)) hk h,
    fun _ _ _ _ _ hfits hk h => Locks.acquire_deletes_only_named_rows
      (fun l hl => hholders _ (hfits l hl)) hk h,
    fun _ _ _ _ _ hk h => ?_⟩
  obtain ⟨-, hd, hr⟩ := Locks.release_done hk h
  exact ⟨hd, hr⟩

/-- Run alone from an empty key space, an acquire of one row by `tc:1` answers `true` and leaves
the row held by `tc:1`; a later acquire of the same row by `tc:2` answers `false`. -/
theorem stores_commit_optimistically_one_row :
    (∃ tr kv g, Client.Run (Locks.SafeStep "root")
        ((Locks.store LockHolder.codec "root").acquire [⟨"tc:1", 1, 2, "db", "t", "7"⟩]).run {} tr
          (.ok true) ∧
      Turn.Seen tr (Locks.key "root" (RowLock.rowKey ⟨"tc:1", 1, 2, "db", "t", "7"⟩)) (some kv) ∧
      Locks.decode LockHolder.codec kv = .ok g ∧ g.xid = "tc:1") ∧
    (∃ s tr, Locks.Kept "root" s ∧ Client.Run (Locks.SafeStep "root")
        ((Locks.store LockHolder.codec "root").acquire [⟨"tc:2", 3, 4, "db", "t", "7"⟩]).run s tr
          (.ok false) ∧
      ∀ t ∈ tr, t.own = true → ∀ k kv, t.Creates k kv → (Turn.last s tr).Lost k kv) := by
  have hopt := stores_commit_optimistically SessionRecord.codec LockHolder.codec
    LockHolder.codec_roundTrips
  have hrun₁ := @Client.Run.alone (Locks.SafeStep "root") _ 0
    ((Locks.store LockHolder.codec "root").acquire [⟨"tc:1", 1, 2, "db", "t", "7"⟩]).run {}
  obtain ⟨tr₁, h₁, hlast₁⟩ := hrun₁
  have hr₁ : (Client.run 0 ((Locks.store LockHolder.codec "root").acquire
      [⟨"tc:1", 1, 2, "db", "t", "7"⟩]).run {}).1 = .ok true := by decide +kernel
  rw [hr₁] at h₁
  constructor
  · obtain ⟨pre, t, post, kv, g, rfl, hown, hkv, hdec, hxid, -⟩ :=
      hopt.2.2.2.1 "root" _ "tc:1" {} _
        (fun l hl => by
          rw [List.mem_singleton] at hl
          subst hl
          exact ⟨rfl, show LockHolder.Fits _ from ⟨by decide, by decide, by decide⟩⟩)
        Locks.kept_empty h₁ _ List.mem_cons_self
    exact ⟨_, kv, g, h₁, ⟨pre, t, post, rfl, hown, hkv⟩, hdec, hxid⟩
  · -- the row is held after the first acquire, so the second finds it held by `tc:1`
    have hk₁ := (Locks.keeps_of_chain h₁.chain
      (Locks.safeSteps_of_run ((Locks.sends_locks LockHolder.codec "root").1 _) h₁)
      Locks.kept_empty).2
    rw [hlast₁] at hk₁
    obtain ⟨tr₂, h₂, -⟩ := @Client.Run.alone (Locks.SafeStep "root") _ 0
      ((Locks.store LockHolder.codec "root").acquire [⟨"tc:2", 3, 4, "db", "t", "7"⟩]).run
      (Client.run 0 ((Locks.store LockHolder.codec "root").acquire
        [⟨"tc:1", 1, 2, "db", "t", "7"⟩]).run {}).2
    have hr₂ : (Client.run 0 ((Locks.store LockHolder.codec "root").acquire
          [⟨"tc:2", 3, 4, "db", "t", "7"⟩]).run
        (Client.run 0 ((Locks.store LockHolder.codec "root").acquire
          [⟨"tc:1", 1, 2, "db", "t", "7"⟩]).run {}).2).1 = .ok false := by decide +kernel
    rw [hr₂] at h₂
    refine ⟨_, tr₂, hk₁, h₂, hopt.2.2.2.2.1 "root" _ _ tr₂ (fun l hl => ?_) hk₁ h₂⟩
    rw [List.mem_singleton] at hl
    subst hl
    show LockHolder.Fits _
    exact ⟨by decide, by decide, by decide⟩

end GlobalTxn.Etcd
