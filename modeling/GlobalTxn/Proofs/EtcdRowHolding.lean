import GlobalTxn.Proofs.EtcdRowSafety
import GlobalTxn.Proofs.EtcdSerialChanges

/-! # Locking and unlocking one chunk among concurrent calls

The lock store locks the rows of a call chunk after chunk.  To lock a chunk it reads the rows,
then commits a transaction that compares each row read as held at the revision read and each
row read as free with creation revision 0, and puts the free rows; to unlock a chunk it reads
the rows and deletes, comparing the revision read, those that the lock's branch holds.  Among
any steps of any number of calls of the two stores (`Locks.SafeStep`):

* a try of locking a chunk deletes no row, creates only records of the rows it answers, and if
  it locked the chunk, each row of the chunk was held for the chunk at a step of its own
  (`Locks.acquireChunk_attempt_done`);
* a try of unlocking a chunk creates nothing, deletes a row only where a lock of the chunk
  names the row's holding branch, and if it answered, every version such a branch held when it
  began is gone (`Locks.releaseChunk_attempt_done`, and `Locks.release_done` over all chunks).

Each rests on the revision of last change telling versions apart (`KeySpace.Stamps`), and on
held rows changing only by going (`Locks.Safe.serve`).  One try is cut into its reads and plan
(`Locks.run_read_plan_among`) and its transaction (`Locks.run_txn_among`).
-/

namespace GlobalTxn.Etcd

/-- A step that leaves version `kv` at key `k`, which was not there before it. -/
def Turn.Creates (t : Turn) (k : String) (kv : KeyValue) : Prop :=
  t.after.find? k = some kv ∧ t.before.find? k ≠ some kv

/-- Some own step of `tr` leaves key `k` at `o`. -/
def Turn.Seen (tr : List Turn) (k : String) (o : Option KeyValue) : Prop :=
  ∃ pre t post, tr = pre ++ t :: post ∧ t.own = true ∧ t.after.find? k = o

namespace Turn

variable {tr tr' : List Turn} {k : String} {o : Option KeyValue} {t : Turn} {kv : KeyValue}

theorem Seen.append_left (h : Seen tr k o) (tr' : List Turn) : Seen (tr' ++ tr) k o := by
  obtain ⟨pre, t, post, rfl, hown, hk⟩ := h
  exact ⟨tr' ++ pre, t, post, by simp, hown, hk⟩

theorem Seen.append_right (h : Seen tr k o) (tr' : List Turn) : Seen (tr ++ tr') k o := by
  obtain ⟨pre, t, post, rfl, hown, hk⟩ := h
  exact ⟨pre, t, post ++ tr', by simp, hown, hk⟩

theorem Unwritten.not_creates (h : t.Unwritten) (hs : t.before.Sane) : ¬ t.Creates k kv :=
  fun hc => hc.2 (h.find?_of_after hs hc.1)

/-- A step that applies writes after expiry creates a version only by a put of the writes. -/
theorem Creates.of_applyWrites {now : Nat} {ws : List Write} (hs : t.before.Sane)
    (hafter : t.after = (t.before.expire now).applyWrites ws) (hc : t.Creates k kv) :
    ∃ v lease, Write.put k v lease ∈ ws ∧ kv.value = v := by
  have hkv : ((ws.foldl (KeySpace.applyWrite ((t.before.expire now).revision + 1))
      ((t.before.expire now).kvs, false)).1.find? (·.key == k)) = some kv := by
    have := hc.1
    rwa [hafter, KeySpace.find?, KeySpace.kvs_applyWrites] at this
  rcases find?_foldl_applyWrite_some ws _ false hkv with h | ⟨v, lease, hput, hv, -⟩
  · exact absurd (hs.find?_of_expire h) hc.2
  · exact ⟨v, lease, hput, hv⟩

end Turn

/-- Between two steps of a chain of served steps, the key space moves forward. -/
theorem Turn.Chain.moves_between {s : KeySpace} {tr pre mid post : List Turn} {t t' : Turn}
    (htr : tr = pre ++ t :: (mid ++ t' :: post)) (h : Turn.Chain s tr)
    (hserved : ∀ u ∈ tr, Served u.before u.after) (hs : s.Sane) :
    t.after.Sane ∧ t.after.Moves t'.before := by
  subst htr
  obtain ⟨-, htail⟩ := h.of_append
  obtain ⟨ht, hrest⟩ := htail
  obtain ⟨hmid, ht'⟩ := hrest.of_append
  have hbefore := ((h.moves hserved hs).1 t (by simp)).1
  have hafter := ((hserved t (by simp)).sane hbefore).1
  obtain ⟨-, -, hmoves⟩ := hmid.moves (fun u hu => hserved u (by simp [hu])) hafter
  exact ⟨hafter, ht'.1 ▸ hmoves⟩

/-- After a step of a chain of served steps, the key space moves forward to the chain's end. -/
theorem Turn.Chain.moves_to_last {s : KeySpace} {tr pre post : List Turn} {t : Turn}
    (htr : tr = pre ++ t :: post) (h : Turn.Chain s tr)
    (hserved : ∀ u ∈ tr, Served u.before u.after) (hs : s.Sane) :
    t.after.Sane ∧ t.after.Moves (Turn.last s tr) := by
  subst htr
  have hbefore := (h.moves hserved hs).1 t (by simp)
  have hafter := ((hserved t (by simp)).sane hbefore.1).1
  obtain ⟨-, -, hpost⟩ := h.of_append
  obtain ⟨-, -, hmoves⟩ := hpost.moves (fun u hu => hserved u (by simp [hu])) hafter
  rw [Turn.last_append]
  exact ⟨hafter, hmoves⟩

namespace Locks

variable {codec : Wire.Codec LockHolder} {root : String} {other : KeySpace → KeySpace → Prop}
  {s : KeySpace} {tr : List Turn}

/-- A request of the lock store waits for steps of others and is served in one step of its
own. -/
theorem run_request_among {β : Type} {req : Request β} {r : Except LockError β}
    (h : Client.Run other (request req).run s tr r) :
    ∃ pre now, (∀ t ∈ pre, t.own = false) ∧
      tr = pre ++ [⟨Turn.last s pre, ((Turn.last s pre).serve now req).2, true⟩] ∧
      r = ((Turn.last s pre).serve now req).1.mapError fun e => .internal e.text := by
  obtain ⟨pre, now, -, hpre, rfl, rfl⟩ := Client.Run.ask h
  exact ⟨pre, now, fun t ht => (hpre t ht).1, rfl, rfl⟩

/-- A transaction of the lock store, and the rest of the conversation: after steps of others,
one step of its own either commits the writes on the key space after expiry, every comparison
holding, and the conversation goes on with `true`; or it writes nothing, and the conversation
goes on with `false` or ends with a failure. -/
theorem run_txn_among {α : Type} {cs : List Compare} {ws : List Write} {f : Bool → LocksM α}
    {r : Except LockError α} (h : Client.Run other (request (.txn cs ws) >>= f).run s tr r) :
    ∃ pre cm now tr', (∀ t ∈ pre, t.own = false) ∧ tr = pre ++ cm :: tr' ∧ cm.own = true ∧
      cm.before = Turn.last s pre ∧ cm.after = (cm.before.serve now (.txn cs ws)).2 ∧
      (((∀ c ∈ cs, (cm.before.expire now).holds c = true) ∧
          cm.after = (cm.before.expire now).applyWrites ws ∧
          Client.Run other (f true).run cm.after tr' r) ∨
        (cm.Unwritten ∧ (Client.Run other (f false).run cm.after tr' r ∨
          (tr' = [] ∧ ∃ e, r = .error e)))) := by
  obtain ⟨tr₁, tr', r₁, h₁, rfl, hrest⟩ := Client.Run.exceptT_bind h
  obtain ⟨pre, now, hpre, rfl, rfl⟩ := run_request_among h₁
  refine ⟨pre, ⟨Turn.last s pre, ((Turn.last s pre).serve now (.txn cs ws)).2, true⟩, now, tr',
    hpre, by simp, rfl, rfl, rfl, ?_⟩
  rw [Turn.last_append] at hrest
  rcases KeySpace.serve_txn (Turn.last s pre) now cs ws with ⟨hok, hholds, hafter⟩ | ⟨hnot, hkvs⟩
  · refine .inl ⟨hholds, hafter, ?_⟩
    rcases hrest with ⟨b, hb, h₂⟩ | ⟨e, he, -, -⟩
    · rw [hok] at hb
      cases hb
      exact h₂
    · rw [hok] at he
      cases he
  · refine .inr ⟨⟨now, hkvs⟩, ?_⟩
    rcases hrest with ⟨b, hb, h₂⟩ | ⟨e, -, rfl, rfl⟩
    · cases b with
      | true => exact absurd (mapError_eq_ok.1 hb) hnot
      | false => exact .inl h₂
    · exact .inr ⟨rfl, e, rfl⟩

/-- Reading keys chunk after chunk writes nothing, and reads each key at a step of its own. -/
theorem run_read_chunks_among : ∀ (chunks : List (List String)) (acc : List (Option KeyValue))
    {s : KeySpace} {tr : List Turn} {r : Except LockError (List (Option KeyValue))},
    Client.Run other (chunks.foldlM (fun acc chunk => do
      pure (acc ++ (← request (.snapshot chunk)))) acc : LocksM _).run s tr r →
    (∀ t ∈ tr, t.own = true → t.Unwritten) ∧
      ∀ stored, r = .ok stored →
        ∃ rest, stored = acc ++ rest ∧ List.Forall₂ (Turn.Seen tr) chunks.flatten rest
  | [], acc, s, tr, r, h => by
    obtain ⟨rfl, rfl⟩ := Client.Run.of_pure h
    refine ⟨fun _ ht => (List.not_mem_nil ht).elim, fun stored hr => ?_⟩
    cases hr
    exact ⟨[], by simp, List.Forall₂.nil⟩
  | c :: cs, acc, s, tr, r, h => by
    rw [List.foldlM_cons] at h
    obtain ⟨tr₁, tr₂, r₁, h₁, rfl, hrest⟩ := Client.Run.exceptT_bind h
    obtain ⟨tr₃, tr₄, r₃, h₃, rfl, hrest₃⟩ := Client.Run.exceptT_bind h₁
    obtain ⟨pre, now, hpre, rfl, rfl⟩ := run_request_among h₃
    set t : Turn := ⟨Turn.last s pre, ((Turn.last s pre).serve now (.snapshot c)).2, true⟩
    -- the snapshot always answers, with the keys as they are after its step
    rcases hrest₃ with ⟨kvs, hkvs, h₄⟩ | ⟨e, he, -, -⟩
    swap
    · simp [KeySpace.serve, Except.mapError] at he
    simp only [KeySpace.serve, Except.mapError, Except.ok.injEq] at hkvs
    subst hkvs
    obtain ⟨rfl, rfl⟩ := Client.Run.of_pure h₄
    have hlast : Turn.last s (pre ++ [t] ++ []) = t.after := by
      rw [List.append_nil, Turn.last_append]
      rfl
    rcases hrest with ⟨acc', hacc', h₂⟩ | ⟨e, he, -, -⟩
    swap
    · cases he
    cases hacc'
    rw [hlast] at h₂
    obtain ⟨hunw₂, hseen₂⟩ := run_read_chunks_among cs _ h₂
    refine ⟨fun u hu hown => ?_, fun stored hr => ?_⟩
    · simp only [List.append_nil, List.mem_append, List.mem_singleton] at hu
      rcases hu with (hu | rfl) | hu
      · rw [(hpre u hu)] at hown
        cases hown
      · exact ⟨now, rfl⟩
      · exact hunw₂ u hu hown
    · obtain ⟨rest, rfl, hfa⟩ := hseen₂ stored hr
      refine ⟨c.map t.after.find? ++ rest, List.append_assoc _ _ _, ?_⟩
      rw [List.flatten_cons]
      refine List.rel_append ?_ (hfa.imp fun k o h => h.append_left _)
      -- each key of the chunk is read at the snapshot's own step
      rw [List.forall₂_map_right_iff, List.forall₂_same]
      exact fun k _ => ⟨pre, t, tr₂, by simp, rfl, rfl⟩

/-- Reading the rows of locks writes nothing, and reads each row at a step of its own. -/
theorem run_read_among {keys : List String} {r : Except LockError (List (Option KeyValue))}
    (h : Client.Run other (read keys).run s tr r) :
    (∀ t ∈ tr, t.own = true → t.Unwritten) ∧
      ∀ stored, r = .ok stored → List.Forall₂ (Turn.Seen tr) keys stored := by
  have hpos : 0 < maxTxnOps := by decide
  obtain ⟨hunw, hseen⟩ := run_read_chunks_among _ [] h
  refine ⟨hunw, fun stored hr => ?_⟩
  obtain ⟨rest, rfl, hfa⟩ := hseen stored hr
  rw [flatten_chunksOf hpos] at hfa
  simpa using hfa

/-- Reading the rows of a chunk and planning from what was read: the reads write nothing and
see each row at a step of their own; the conversation then goes on with the plan, or ends with
the failure of the read or of the plan. -/
theorem run_read_plan_among {α β : Type} {chunk : List RowLock}
    {plan : List (RowLock × Option KeyValue) → Except LockError β} {k : β → LocksM α}
    {r : Except LockError α}
    (h : Client.Run other (read (chunk.map fun l => key root l.rowKey) >>= fun stored =>
      liftExcept (plan (chunk.zip stored)) >>= k).run s tr r) :
    ∃ tr₁ tr₂, tr = tr₁ ++ tr₂ ∧ (∀ t ∈ tr₁, t.own = true → t.Unwritten) ∧
      ((∃ stored p, List.Forall₂ (fun l o => Turn.Seen tr₁ (key root l.rowKey) o) chunk stored ∧
          plan (chunk.zip stored) = .ok p ∧ Client.Run other (k p).run (Turn.last s tr₁) tr₂ r) ∨
        (tr₂ = [] ∧ ∃ e, r = .error e)) := by
  obtain ⟨tr₁, tr₂, r₁, h₁, rfl, hrest⟩ := Client.Run.exceptT_bind h
  obtain ⟨hunw₁, hseen₁⟩ := run_read_among h₁
  refine ⟨tr₁, tr₂, rfl, hunw₁, ?_⟩
  rcases hrest with ⟨stored, rfl, h₂⟩ | ⟨e, rfl, rfl, rfl⟩
  · obtain ⟨tr₃, tr₄, r₃, h₃, rfl, hrest₃⟩ := Client.Run.exceptT_bind h₂
    obtain ⟨rfl, rfl⟩ := Client.Run.liftExcept h₃
    rcases hrest₃ with ⟨p, hp, h₄⟩ | ⟨e, -, rfl, rfl⟩
    · exact .inl ⟨stored, p, List.forall₂_map_left_iff.1 (hseen₁ stored rfl), hp, by simpa using h₄⟩
    · exact .inr ⟨rfl, e, rfl⟩
  · exact .inr ⟨rfl, e, rfl⟩

/-- Every step of a run of a conversation that sends only safe requests, among clients of the
stores, is a step of a client of the stores. -/
theorem safeSteps_of_run {α : Type} {c : Client α} {a : α} (hc : Client.Sends (Safe root) c)
    (h : Client.Run (SafeStep root) c s tr a) : ∀ t ∈ tr, SafeStep root t.before t.after := by
  intro t ht
  by_cases hown : t.own = true
  · obtain ⟨now, β, req, hreq, hafter⟩ := Client.Run.own_sends hc h t ht hown
    exact ⟨now, β, req, hreq, hafter⟩
  · have := h.step t ht
    simpa [Turn.Step, hown] using this

variable (codec) in
/-- The versions of rows that own steps of `tr` created are the records of locks in `rows`. -/
def CreatesOnly (root : String) (tr : List Turn) (rows : List RowLock) : Prop :=
  ∀ t ∈ tr, t.own = true → ∀ k kv, t.Creates k kv →
    ∃ l ∈ rows, k = key root l.rowKey ∧ decode codec kv = .ok l.holder

theorem CreatesOnly.of_unwritten {rows : List RowLock} (hs : ∀ t ∈ tr, t.before.Sane)
    (h : ∀ t ∈ tr, t.own = true → t.Unwritten) : CreatesOnly codec root tr rows :=
  fun t ht hown _ _ hc => absurd hc ((h t ht hown).not_creates (hs t ht))

theorem CreatesOnly.append {tr' : List Turn} {rows : List RowLock} (h : CreatesOnly codec root tr rows)
    (h' : CreatesOnly codec root tr' rows) : CreatesOnly codec root (tr ++ tr') rows := by
  intro t ht
  rcases List.mem_append.1 ht with ht | ht
  · exact h t ht
  · exact h' t ht

theorem CreatesOnly.mono {rows rows' : List RowLock} (h : CreatesOnly codec root tr rows)
    (hsub : rows ⊆ rows') : CreatesOnly codec root tr rows' := by
  intro t ht hown k kv hc
  obtain ⟨l, hl, hk, hdec⟩ := h t ht hown k kv hc
  exact ⟨l, hsub hl, hk, hdec⟩

variable (codec) in
/-- Own steps of `tr` delete a row only where its holder is the branch of one of `locks`. -/
def DeletesNamed (root : String) (locks : List RowLock) (tr : List Turn) : Prop :=
  ∀ t ∈ tr, t.own = true → ∀ r kv, t.before.find? (key root r) = some kv →
    t.after.find? (key root r) = none →
    ∃ l ∈ locks, l.rowKey = r ∧ ∃ h, decode codec kv = .ok h ∧ l.isHeldByBranch h = true

/-- Steps that wrote nothing delete no row, as rows are attached to no lease. -/
theorem DeletesNamed.of_unwritten {locks : List RowLock} (hk : ∀ t ∈ tr, Kept root t.before)
    (h : ∀ t ∈ tr, t.own = true → t.Unwritten) : DeletesNamed codec root locks tr := by
  intro t ht hown r kv hbefore hafter
  obtain ⟨now, hkvs⟩ := h t ht hown
  have hexp : (t.before.expire now).find? (key root r) = t.before.find? (key root r) :=
    KeySpace.find?_expire (hk t ht).sane.leases ((hk t ht).lease r)
  have : t.after.find? (key root r) = t.before.find? (key root r) := by
    rw [← hexp]
    simp only [KeySpace.find?, hkvs]
  rw [this, hbefore] at hafter
  cases hafter

theorem DeletesNamed.append {locks : List RowLock} {tr' : List Turn}
    (h : DeletesNamed codec root locks tr) (h' : DeletesNamed codec root locks tr') :
    DeletesNamed codec root locks (tr ++ tr') := by
  intro t ht
  rcases List.mem_append.1 ht with ht | ht
  · exact h t ht
  · exact h' t ht

theorem DeletesNamed.mono {locks locks' : List RowLock} (h : DeletesNamed codec root locks tr)
    (hsub : locks ⊆ locks') : DeletesNamed codec root locks' tr := by
  intro t ht hown r kv hb ha
  obtain ⟨l, hl, hr, hh⟩ := h t ht hown r kv hb ha
  exact ⟨l, hsub hl, hr, hh⟩

/-- Each lock of a chunk has what was read for it among the pairs of the plan. -/
theorem exists_mem_zip_of_forall₂ {α β : Type} {R : α → β → Prop} :
    ∀ {xs : List α} {ys : List β}, List.Forall₂ R xs ys → ∀ {x : α}, x ∈ xs →
      ∃ y, (x, y) ∈ xs.zip ys ∧ R x y
  | _, _, .nil, _, hx => (List.not_mem_nil hx).elim
  | _, _, .cons (a := a) (b := b) hab hrest, x, hx => by
    rcases List.mem_cons.1 hx with rfl | hx
    · exact ⟨b, List.mem_cons_self, hab⟩
    · obtain ⟨y, hy, hxy⟩ := exists_mem_zip_of_forall₂ hrest hx
      exact ⟨y, List.mem_cons_of_mem _ hy, hxy⟩

/-- A version of a row read at a step of the run is still told by its revision of last change
when a later transaction compares it: every step between moved the key space forward. -/
theorem stamps_at_commit {s : KeySpace} {tr₁ pre rest : List Turn} {cm : Turn}
    {rk : String} {kv : KeyValue} (hseen : Turn.Seen tr₁ (key root rk) (some kv))
    (hchain : Turn.Chain s (tr₁ ++ (pre ++ cm :: rest)))
    (hserved : ∀ u ∈ tr₁ ++ (pre ++ cm :: rest), Served u.before u.after) (hs : s.Sane)
    (now : Nat) :
    (cm.before.expire now).Stamps (key root rk) kv ∧ 0 < kv.modRevision := by
  obtain ⟨preR, tR, postR, rfl, -, hkvR⟩ := hseen
  obtain ⟨hsaneR, hmoves⟩ := Turn.Chain.moves_between
    (show preR ++ tR :: postR ++ (pre ++ cm :: rest) = preR ++ tR :: ((postR ++ pre) ++ cm :: rest)
      by simp) hchain hserved hs
  have hsane : cm.before.Sane := by
    have := hchain.moves hserved hs
    exact (this.1 cm (by simp)).1
  exact ⟨((hsaneR.stamps hkvR).moves hmoves).moves (hsane.expire now).2,
    (hsaneR.stored.revisions kv (List.mem_of_find?_eq_some hkvR)).2.1⟩

/-- What a step after an own read sees of a version it read: gone, if it was not read. -/
theorem lost_after_seen {s : KeySpace} {tr pre post : List Turn} {t : Turn} {k : String}
    {kv : KeyValue} {o : Option KeyValue} (htr : tr = pre ++ t :: post) (hk : t.after.find? k = o)
    (ho : o ≠ some kv) (hchain : Turn.Chain s tr) (hserved : ∀ u ∈ tr, Served u.before u.after)
    (hs : s.Sane) (hrev : kv.modRevision ≤ s.revision) : (Turn.last s tr).Lost k kv := by
  obtain ⟨-, hmoves⟩ := hchain.moves_to_last htr hserved hs
  subst htr
  have hbefore := (hchain.moves hserved hs).1 t (by simp)
  have hlost : t.after.Lost k kv :=
    ⟨hrev.trans (hbefore.2.trans ((hserved t (by simp)).sane hbefore.1).2).revision,
      fun h => ho (hk ▸ h)⟩
  exact hlost.moves hmoves

/-! ## Locking a chunk -/

section Chunk

variable {chunk : List RowLock} {stored : List (Option KeyValue)} {cs : List Compare}
  {ws : List Write} {ls : List RowLock}

/-- A row's key holding the record of a lock's holder is read back as that holder. -/
theorem decode_of_value {kv : KeyValue} {l : RowLock} (hv : kv.value = codec.encode l.holder)
    (hback : codec.ReadsBack l.holder) : decode codec kv = .ok l.holder := by
  have hread : codec.decode (codec.encode l.holder) = .ok l.holder := hback
  simp [decode, hv, hread]

theorem AcquirePlan.mem_chunk (hplan : AcquirePlan codec root (chunk.zip stored) cs ws ls) :
    ls ⊆ chunk :=
  fun l hl => (List.of_mem_zip (hplan.fresh l hl).2).1

/-- A put of the plan is the record of a lock newly locked. -/
theorem AcquirePlan.put_mem (hplan : AcquirePlan codec root (chunk.zip stored) cs ws ls)
    {k : String} {v : List UInt8} {lease : Nat} (hput : Write.put k v lease ∈ ws) :
    ∃ l ∈ ls, k = key root l.rowKey ∧ v = codec.encode l.holder := by
  rw [hplan.writes] at hput
  obtain ⟨l, hl, he⟩ := List.mem_map.1 hput
  cases he
  exact ⟨l, hl, rfl, rfl⟩

variable (codec) in
/-- A row held by a holder of the transaction of a lock of `chunk` on the same row. -/
def HeldForChunk (chunk : List RowLock) (l : RowLock) (kv : KeyValue) : Prop :=
  ∃ h, decode codec kv = .ok h ∧ ∃ l' ∈ chunk, l'.rowKey = l.rowKey ∧ h.xid = l'.xid

/-- A committed transaction that locks rows leaves each row of the chunk held by the
transaction of a lock of the chunk on that row: a row read as held is compared at the version
read, which is still there and is not written; a row read as free is put with the record of a
lock of the chunk. -/
theorem AcquirePlan.commit_holds (hplan : AcquirePlan codec root (chunk.zip stored) cs ws ls)
    (hback : ∀ l ∈ chunk, codec.ReadsBack l.holder) {t : KeySpace} (hs : t.Sane)
    (hholds : ∀ c ∈ cs, t.holds c = true)
    (hstamps : ∀ l kv, (l, some kv) ∈ chunk.zip stored →
      t.Stamps (key root l.rowKey) kv ∧ 0 < kv.modRevision)
    {l : RowLock} {o : Option KeyValue} (hl : (l, o) ∈ chunk.zip stored) :
    ∃ kv, (t.applyWrites ws).find? (key root l.rowKey) = some kv ∧ HeldForChunk codec chunk l kv := by
  set k := key root l.rowKey
  have hfind : (t.applyWrites ws).find? k =
      (ws.foldl (KeySpace.applyWrite (t.revision + 1)) (t.kvs, false)).1.find? (·.key == k) := by
    simp only [KeySpace.find?, KeySpace.kvs_applyWrites]
  have hnodel : Write.delete k ∉ ws := by
    intro hdel
    rw [hplan.writes] at hdel
    obtain ⟨_, _, he⟩ := List.mem_map.1 hdel
    cases he
  -- a row the plan puts was free when the transaction committed
  have hfree : ∀ v lease, Write.put k v lease ∈ ws → t.find? k = none := by
    intro v lease hput
    obtain ⟨l', hl', hk, -⟩ := hplan.put_mem hput
    rw [hk]
    exact hs.find?_of_holds_create (hholds _ (hplan.fresh l' hl').1)
  have hsome : ((t.applyWrites ws).find? k).isSome := by
    rw [hfind]
    refine find?_foldl_applyWrite_isSome ws t.kvs false ?_ hnodel
    cases o with
    | none => exact .inr ⟨_, _, hplan.writes ▸ List.mem_map_of_mem (hplan.free l hl)⟩
    | some kv =>
      obtain ⟨-, hc⟩ := hplan.held l kv hl
      obtain ⟨kv', hkv', -⟩ := KeySpace.find?_of_holds_modRevision (hholds _ hc) (hstamps l kv hl).2
      left
      show (t.find? k).isSome = true
      rw [hkv']
      rfl
  obtain ⟨kv'', hkv''⟩ := Option.isSome_iff_exists.1 hsome
  rw [hfind] at hkv''
  rcases find?_foldl_applyWrite_some ws t.kvs false hkv'' with hold | ⟨v, lease, hput, hv, -⟩
  · -- the row kept its version: it was read as held, at that very version
    cases o with
    | none =>
      have := hfree _ _ (hplan.writes ▸ List.mem_map_of_mem (hplan.free l hl))
      exact absurd (hold.symm.trans this) (by simp)
    | some kv =>
      obtain ⟨⟨h, hdec, hxid⟩, hc⟩ := hplan.held l kv hl
      obtain ⟨kv', hkv', hmod⟩ :=
        KeySpace.find?_of_holds_modRevision (hholds _ hc) (hstamps l kv hl).2
      have hsame : kv' = kv := (hstamps l kv hl).1.2 kv' hkv' hmod
      have hkv : kv'' = kv := Option.some.inj (hold.symm.trans (hsame ▸ hkv'))
      subst hkv
      exact ⟨kv'', by rw [hfind]; exact hold ▸ hkv'',
        h, hdec, l, (List.of_mem_zip hl).1, rfl, hxid⟩
  · -- the row was put with the record of a lock of the chunk
    obtain ⟨l', hl', hk, rfl⟩ := hplan.put_mem hput
    have hl'c := hplan.mem_chunk hl'
    exact ⟨kv'', by rw [hfind]; exact hkv'', l'.holder, decode_of_value hv (hback l' hl'c), l',
      hl'c,
      (key_inj.1 hk).symm, rfl⟩

/-- A committed transaction that locks rows creates only records of the locks it locks. -/
theorem AcquirePlan.commit_creates (hplan : AcquirePlan codec root (chunk.zip stored) cs ws ls)
    (hback : ∀ l ∈ chunk, codec.ReadsBack l.holder) {t : Turn} {now : Nat} (hs : t.before.Sane)
    (hafter : t.after = (t.before.expire now).applyWrites ws) :
    CreatesOnly codec root [t] ls := by
  intro t' ht' _ k kv hc
  rw [List.mem_singleton] at ht'
  subst ht'
  obtain ⟨v, lease, hput, hv⟩ := hc.of_applyWrites hs hafter
  obtain ⟨l, hl, hk, rfl⟩ := hplan.put_mem hput
  exact ⟨l, hl, hk, decode_of_value hv (hback l (hplan.mem_chunk hl))⟩

/-- A committed transaction that locks rows deletes none: it only puts. -/
theorem AcquirePlan.commit_deletes_none (hplan : AcquirePlan codec root (chunk.zip stored) cs ws ls)
    {t : Turn} {now : Nat} (hk : Kept root t.before)
    (hafter : t.after = (t.before.expire now).applyWrites ws) :
    DeletesNamed codec root [] [t] := by
  intro t' ht' _ r kv hbefore hgone
  rw [List.mem_singleton] at ht'
  subst ht'
  have he : (t'.before.expire now).find? (key root r) = some kv :=
    (KeySpace.find?_expire hk.sane.leases (hk.lease r)).trans hbefore
  have hnodel : Write.delete (key root r) ∉ ws := by
    rw [hplan.writes]
    simp
  rw [hafter] at hgone
  exact absurd hgone (KeySpace.find?_applyWrites_ne_none he hnodel)

variable (codec) in
/-- What a try of locking a chunk did, by its answer: it deleted no row; a try that locked the
chunk created only records of the rows it answers, which are rows of the chunk, and left each
row of the chunk held for the chunk at a step of its own; any other try created nothing. -/
def ChunkDone (root : String) (chunk : List RowLock) (tr : List Turn) :
    Except LockError (Option (List RowLock)) → Prop
  | .ok (some rows) => rows ⊆ chunk ∧ CreatesOnly codec root tr rows ∧ DeletesNamed codec root [] tr ∧
      ∀ l ∈ chunk, ∃ kv, Turn.Seen tr (key root l.rowKey) (some kv) ∧ HeldForChunk codec chunk l kv
  | .ok none => CreatesOnly codec root tr [] ∧ DeletesNamed codec root [] tr
  | .error _ => CreatesOnly codec root tr [] ∧ DeletesNamed codec root [] tr

theorem ChunkDone.of_none {chunk : List RowLock}
    (h : CreatesOnly codec root tr [] ∧ DeletesNamed codec root [] tr) : ChunkDone codec root chunk tr (.ok none) :=
  h

theorem ChunkDone.of_error {chunk : List RowLock} {e : LockError}
    (h : CreatesOnly codec root tr [] ∧ DeletesNamed codec root [] tr) : ChunkDone codec root chunk tr (.error e) :=
  h

/-- Steps before a try that wrote nothing keep what the try did. -/
theorem ChunkDone.prepend {chunk : List RowLock} {pre : List Turn}
    {r : Except LockError (Option (List RowLock))}
    (hpre : CreatesOnly codec root pre [] ∧ DeletesNamed codec root [] pre)
    (h : ChunkDone codec root chunk tr r) : ChunkDone codec root chunk (pre ++ tr) r := by
  match r, h with
  | .ok (some rows), ⟨hsub, hc, hd, hheld⟩ =>
    refine ⟨hsub, (hpre.1.mono (List.nil_subset _)).append hc, hpre.2.append hd, fun l hl => ?_⟩
    obtain ⟨kv, hseen, hheld⟩ := hheld l hl
    exact ⟨kv, hseen.append_left pre, hheld⟩
  | .ok none, h => exact ⟨hpre.1.append h.1, hpre.2.append h.2⟩
  | .error _, h => exact ⟨hpre.1.append h.1, hpre.2.append h.2⟩

/-- Every try of locking a chunk, among clients of the stores, did what `ChunkDone` says. -/
theorem acquireChunk_attempt_done {chunk : List RowLock}
    (hback : ∀ l ∈ chunk, codec.ReadsBack l.holder) :
    ∀ (n : Nat) {s : KeySpace} {tr : List Turn} {r : Except LockError (Option (List RowLock))},
      Kept root s → Client.Run (SafeStep root) (acquireChunk.attempt codec root chunk n).run s tr r →
      ChunkDone codec root chunk tr r
  | 0, s, tr, r, _, h => by
    obtain ⟨rfl, rfl⟩ := Client.Run.of_pure h
    exact ⟨fun _ ht => (List.not_mem_nil ht).elim, fun _ ht => (List.not_mem_nil ht).elim⟩
  | n + 1, s, tr, r, hk, h => by
    have hsafe := safeSteps_of_run (sends_acquireChunk chunk (n + 1)) h
    obtain ⟨hkept, -⟩ := keeps_of_chain h.chain hsafe hk
    have hsane : ∀ t ∈ tr, t.before.Sane := fun t ht => (hkept t ht).1.sane
    unfold acquireChunk.attempt at h
    obtain ⟨tr₁, tr₂, rfl, hunw₁, hrest⟩ := run_read_plan_among h
    have hc₁ : CreatesOnly codec root tr₁ [] ∧ DeletesNamed codec root [] tr₁ :=
      ⟨.of_unwritten (fun t ht => hsane t (List.mem_append_left _ ht)) hunw₁,
        .of_unwritten (fun t ht => (hkept t (List.mem_append_left _ ht)).1) hunw₁⟩
    rcases hrest with ⟨stored, p, hfa, hp, h₄⟩ | ⟨rfl, e, rfl⟩
    swap
    · exact .of_error (by simpa using hc₁)
    rcases p with _ | ⟨cs, ws, ls⟩
    · -- a row is held by another transaction: nothing written
      obtain ⟨rfl, rfl⟩ := Client.Run.of_pure h₄
      exact .of_none (by simpa using hc₁)
    have hplan := planAcquire_spec hp
    dsimp only at h₄
    by_cases hw : ws.isEmpty = true
    · -- every row is held by the same transaction already: the read is where they are held
      rw [if_pos hw] at h₄
      obtain ⟨rfl, rfl⟩ := Client.Run.of_pure h₄
      have hls : ls = [] := by
        have hws := hplan.writes
        rw [List.isEmpty_iff.1 hw] at hws
        exact List.map_eq_nil_iff.1 hws.symm
      refine ⟨fun l hl => by simp [hls] at hl, by simpa using hc₁.1.mono (List.nil_subset _),
        by simpa using hc₁.2, fun l hl => ?_⟩
      obtain ⟨o, hmem, hseen⟩ := exists_mem_zip_of_forall₂ hfa hl
      cases o with
      | none => exact absurd (hplan.free l hmem) (by simp [hls])
      | some kv =>
        obtain ⟨⟨h, hdec, hxid⟩, -⟩ := hplan.held l kv hmem
        exact ⟨kv, by simpa using hseen, h, hdec, l, hl, rfl, hxid⟩
    rw [if_neg hw] at h₄
    obtain ⟨pre, cm, now, tr₆, hpre, rfl, hown, -, -, hcase⟩ := run_txn_among h₄
    have hcm : cm ∈ tr₁ ++ (pre ++ cm :: tr₆) := by simp
    have hcmb : cm.before.Sane := hsane cm hcm
    have hwait : CreatesOnly codec root pre [] ∧ DeletesNamed codec root [] pre := by
      refine ⟨fun t ht hown => ?_, fun t ht hown => ?_⟩ <;>
      · rw [hpre t ht] at hown
        cases hown
    rcases hcase with ⟨hholds, hafter, h₆⟩ | ⟨hunw, hnext⟩
    · -- committed: every row of the chunk is held by `X` after the commit
      obtain ⟨rfl, rfl⟩ := Client.Run.of_pure h₆
      refine ⟨hplan.mem_chunk, ?_, ?_, fun l hl => ?_⟩
      · exact (hc₁.1.mono (List.nil_subset _)).append ((hwait.1.mono (List.nil_subset _)).append
          (hplan.commit_creates hback hcmb hafter))
      · exact hc₁.2.append (hwait.2.append (hplan.commit_deletes_none (hkept cm hcm).1 hafter))
      · -- a version read is still there when the transaction compares it
        have hstamps : ∀ l kv, (l, some kv) ∈ chunk.zip stored →
            (cm.before.expire now).Stamps (key root l.rowKey) kv ∧ 0 < kv.modRevision :=
          fun l' kv' hm' => stamps_at_commit ((List.forall₂_iff_zip.1 hfa).2 hm') h.chain
            (fun u hu => (hsafe u hu).served) hk.sane now
        obtain ⟨o, hmem, -⟩ := exists_mem_zip_of_forall₂ hfa hl
        obtain ⟨kv, hfind, hheld⟩ :=
          hplan.commit_holds hback (hcmb.expire now).1 hholds hstamps hmem
        exact ⟨kv, ⟨tr₁ ++ pre, cm, [], by simp, hown, hafter ▸ hfind⟩, hheld⟩
    · -- not committed: nothing written; the chunk is tried again, or the try fails
      have hunw' : ∀ t ∈ [cm], t.own = true → t.Unwritten := fun t ht _ => by
        rw [List.mem_singleton.1 ht]
        exact hunw
      have hcmu : CreatesOnly codec root [cm] [] ∧ DeletesNamed codec root [] [cm] :=
        ⟨.of_unwritten (fun t ht => by rw [List.mem_singleton.1 ht]; exact hcmb) hunw',
          .of_unwritten (fun t ht => by rw [List.mem_singleton.1 ht]; exact (hkept cm hcm).1)
            hunw'⟩
      have hprefix : CreatesOnly codec root (tr₁ ++ (pre ++ [cm])) [] ∧
          DeletesNamed codec root [] (tr₁ ++ (pre ++ [cm])) :=
        ⟨hc₁.1.append (hwait.1.append hcmu.1), hc₁.2.append (hwait.2.append hcmu.2)⟩
      rcases hnext with h₆ | ⟨rfl, e, rfl⟩
      · have hk₆ : Kept root cm.after := ((hsafe cm hcm).keeps (hkept cm hcm).1).1
        have := (acquireChunk_attempt_done hback n hk₆ h₆).prepend hprefix
        simpa using this
      · exact .of_error (by simpa using hprefix)

end Chunk

/-! ## Unlocking a chunk -/

variable (codec) in
/-- In `t`, every version of a row of `locks` that the lock's branch held, as of revision
`rev`, is gone. -/
def Released (root : String) (locks : List RowLock) (rev : Nat) (t : KeySpace) : Prop :=
  ∀ l ∈ locks, ∀ kv h, kv.modRevision ≤ rev → decode codec kv = .ok h → l.isHeldByBranch h = true →
    t.Lost (key root l.rowKey) kv

section Release

variable {locks locks' : List RowLock} {tr' : List Turn}

theorem Released.moves {rev : Nat} {t t' : KeySpace} (h : Released codec root locks rev t)
    (hm : t.Moves t') : Released codec root locks rev t' :=
  fun l hl kv h' hrev hdec hb => (h l hl kv h' hrev hdec hb).moves hm

theorem Released.mono {rev rev' : Nat} {t : KeySpace} (h : Released codec root locks rev' t)
    (hr : rev ≤ rev') (hsub : locks' ⊆ locks) : Released codec root locks' rev t :=
  fun l hl kv h' hrev hdec hb => h l (hsub hl) kv h' (hrev.trans hr) hdec hb

theorem Released.append {rev : Nat} {t : KeySpace} (h : Released codec root locks rev t)
    (h' : Released codec root locks' rev t) : Released codec root (locks ++ locks') rev t := by
  intro l hl
  rcases List.mem_append.1 hl with hl | hl
  · exact h l hl
  · exact h' l hl

/-- A committed transaction that unlocks rows creates none: it only deletes. -/
theorem ReleasePlan.commit_creates_none {chunk : List RowLock} {stored : List (Option KeyValue)}
    {cs : List Compare} {ws : List Write} (hplan : ReleasePlan codec root (chunk.zip stored) cs ws)
    {t : Turn} {now : Nat} (hs : t.before.Sane)
    (hafter : t.after = (t.before.expire now).applyWrites ws) : CreatesOnly codec root [t] [] := by
  intro t' ht' _ k kv hc
  rw [List.mem_singleton] at ht'
  subst ht'
  obtain ⟨v, lease, hput, -⟩ := hc.of_applyWrites hs hafter
  exact absurd hput (hplan.put_not_mem _ _ _)

/-- A committed transaction that unlocks rows deletes a row only at the version read, held by
the branch of a lock of the chunk. -/
theorem ReleasePlan.commit_deletes {chunk : List RowLock} {stored : List (Option KeyValue)}
    {cs : List Compare} {ws : List Write} (hplan : ReleasePlan codec root (chunk.zip stored) cs ws)
    {t : Turn} {now : Nat} (hk : Kept root t.before)
    (hholds : ∀ c ∈ cs, (t.before.expire now).holds c = true)
    (hafter : t.after = (t.before.expire now).applyWrites ws)
    (hstamps : ∀ l kv, (l, some kv) ∈ chunk.zip stored →
      (t.before.expire now).Stamps (key root l.rowKey) kv ∧ 0 < kv.modRevision) :
    DeletesNamed codec root chunk [t] := by
  intro t' ht' _ r kv hbefore hgone
  rw [List.mem_singleton] at ht'
  subst ht'
  set e := t'.before.expire now
  have he : e.find? (key root r) = some kv :=
    (KeySpace.find?_expire hk.sane.leases (hk.lease r)).trans hbefore
  -- the row goes only by a delete of the plan
  have hdel : Write.delete (key root r) ∈ ws := by
    by_contra hdel
    rw [hafter] at hgone
    exact KeySpace.find?_applyWrites_ne_none he hdel hgone
  obtain ⟨l, kv₀, h, hmem, hw, hdec, hheld, hc⟩ := hplan.deletes _ hdel
  have hr : l.rowKey = r := key_inj.1 (Write.delete.inj hw).symm
  subst hr
  obtain ⟨kv', hkv', hmod⟩ :=
    KeySpace.find?_of_holds_modRevision (hholds _ hc) (hstamps l kv₀ hmem).2
  have hsame : kv' = kv₀ := (hstamps l kv₀ hmem).1.2 kv' hkv' hmod
  have : kv = kv₀ := Option.some.inj (he.symm.trans (hsame ▸ hkv'))
  subst this
  exact ⟨l, (List.of_mem_zip hmem).1, rfl, h, hdec, hheld⟩

/-- What a try of unlocking a chunk did, among clients of the stores: it created nothing, it
deleted rows only where a lock of the chunk names their holding branch, and if it answered, every
version such a branch held when it began is gone. -/
theorem releaseChunk_attempt_done {chunk : List RowLock} :
    ∀ (n : Nat) {s : KeySpace} {tr : List Turn} {r : Except LockError Unit},
      Kept root s → Client.Run (SafeStep root) (releaseChunk.attempt codec root chunk n).run s tr r →
      CreatesOnly codec root tr [] ∧ DeletesNamed codec root chunk tr ∧
        (r = .ok () → Released codec root chunk s.revision (Turn.last s tr))
  | 0, s, tr, r, _, h => by
    obtain ⟨rfl, rfl⟩ := Client.Run.of_pure h
    exact ⟨fun _ ht => (List.not_mem_nil ht).elim, fun _ ht => (List.not_mem_nil ht).elim,
      (fun h => by cases h)⟩
  | n + 1, s, tr, r, hk, h => by
    have hsafe := safeSteps_of_run (sends_releaseChunk chunk (n + 1)) h
    obtain ⟨hkept, -⟩ := keeps_of_chain h.chain hsafe hk
    have hserved : ∀ u ∈ tr, Served u.before u.after := fun u hu => (hsafe u hu).served
    obtain ⟨hmovesAll, -, hmovesLast⟩ := h.chain.moves hserved hk.sane
    unfold releaseChunk.attempt at h
    obtain ⟨tr₁, tr₂, rfl, hunw₁, hrest⟩ := run_read_plan_among h
    have hc₁ : CreatesOnly codec root tr₁ [] :=
      .of_unwritten (fun t ht => (hkept t (List.mem_append_left _ ht)).1.sane) hunw₁
    have hd₁ : DeletesNamed codec root chunk tr₁ :=
      .of_unwritten (fun t ht => (hkept t (List.mem_append_left _ ht)).1) hunw₁
    rcases hrest with ⟨stored, ⟨cs, ws⟩, hfa, hp, h₄⟩ | ⟨rfl, e, rfl⟩
    swap
    · exact ⟨by simpa using hc₁, by simpa using hd₁, (fun h => by cases h)⟩
    have hplan := planRelease_spec hp
    dsimp only at h₄
    -- a version still read is planned to go; a version not read is gone already
    have hread : ∀ l ∈ chunk, ∀ kv g, kv.modRevision ≤ s.revision → decode codec kv = .ok g →
        l.isHeldByBranch g = true →
        Write.delete (key root l.rowKey) ∈ ws ∨ ∃ pre t post, tr₁ = pre ++ t :: post ∧
          t.after.find? (key root l.rowKey) ≠ some kv := by
      intro l hl kv g hrev hdec hheld
      obtain ⟨o, hmem, pre, t, post, htr, -, hkt⟩ := exists_mem_zip_of_forall₂ hfa hl
      by_cases ho : o = some kv
      · subst ho
        exact .inl (hplan.held l kv g hmem hdec hheld).1
      · exact .inr ⟨pre, t, post, htr, hkt ▸ ho⟩
    by_cases hw : ws.isEmpty = true
    · -- nothing left to delete: every such version is gone already
      rw [if_pos hw] at h₄
      obtain ⟨rfl, rfl⟩ := Client.Run.of_pure h₄
      refine ⟨by simpa using hc₁, by simpa using hd₁, fun _ l hl kv g hrev hdec hheld => ?_⟩
      rcases hread l hl kv g hrev hdec hheld with hdel | ⟨pre, t, post, htr, hne⟩
      · rw [List.isEmpty_iff.1 hw] at hdel
        cases hdel
      · simpa using lost_after_seen htr rfl hne h.chain.of_append.1
          (fun u hu => hserved u (List.mem_append_left _ hu)) hk.sane hrev
    rw [if_neg hw] at h₄
    obtain ⟨pre, cm, now, tr₆, hpre, rfl, -, -, -, hcase⟩ := run_txn_among h₄
    have hcm : cm ∈ tr₁ ++ (pre ++ cm :: tr₆) := by simp
    have hwait : CreatesOnly codec root pre [] ∧ DeletesNamed codec root chunk pre := by
      refine ⟨fun t ht hown => ?_, fun t ht hown => ?_⟩ <;>
      · rw [hpre t ht] at hown
        cases hown
    have hlast : Turn.last s (tr₁ ++ (pre ++ [cm])) = cm.after := by
      rw [Turn.last_append, Turn.last_append]
      rfl
    rcases hcase with ⟨hholds, hafter, h₆⟩ | ⟨hunw, hnext⟩
    · -- committed: the planned rows go, at the versions read
      obtain ⟨rfl, rfl⟩ := Client.Run.of_pure h₆
      have hstamps : ∀ l kv, (l, some kv) ∈ chunk.zip stored →
          (cm.before.expire now).Stamps (key root l.rowKey) kv ∧ 0 < kv.modRevision :=
        fun l' kv' hm' => stamps_at_commit ((List.forall₂_iff_zip.1 hfa).2 hm') h.chain
          hserved hk.sane now
      refine ⟨hc₁.append (hwait.1.append (hplan.commit_creates_none (hkept cm hcm).1.sane hafter)),
        hd₁.append (hwait.2.append (hplan.commit_deletes (hkept cm hcm).1 hholds hafter hstamps)),
        fun _ l hl kv g hrev hdec hheld => ?_⟩
      rw [hlast]
      rcases hread l hl kv g hrev hdec hheld with hdel | ⟨preR, tR, postR, htr, hne⟩
      · -- deleted by the commit
        refine ⟨hrev.trans (hlast ▸ hmovesLast.revision), ?_⟩
        rw [hafter]
        simp only [KeySpace.find?, KeySpace.kvs_applyWrites]
        rw [find?_foldl_applyWrite_of_delete ws _ false hdel (hplan.put_not_mem _)]
        simp
      · -- gone when read, and never back
        have := lost_after_seen
          (show tr₁ ++ (pre ++ [cm]) = preR ++ tR :: (postR ++ (pre ++ [cm])) by simp [htr])
          rfl hne h.chain hserved hk.sane hrev
        rwa [hlast] at this
    · -- not committed: nothing written; the chunk is tried again, or the try fails
      have hunw' : ∀ t ∈ [cm], t.own = true → t.Unwritten := fun t ht _ => by
        rw [List.mem_singleton.1 ht]
        exact hunw
      have hkcm : ∀ t ∈ [cm], Kept root t.before := fun t ht => by
        rw [List.mem_singleton.1 ht]
        exact (hkept cm hcm).1
      have hprefix := hc₁.append (hwait.1.append
        (CreatesOnly.of_unwritten (fun t ht => (hkcm t ht).sane) hunw'))
      have hprefixd := hd₁.append (hwait.2.append (DeletesNamed.of_unwritten hkcm hunw'))
      rcases hnext with h₆ | ⟨rfl, e, rfl⟩
      · have hk₆ : Kept root cm.after := ((hsafe cm hcm).keeps (hkept cm hcm).1).1
        obtain ⟨hc₆, hd₆, hr₆⟩ := releaseChunk_attempt_done n hk₆ h₆
        have hrev : s.revision ≤ cm.after.revision :=
          (hmovesAll cm hcm).2.revision.trans
            ((hsafe cm hcm).served.sane (hkept cm hcm).1.sane).2.revision
        refine ⟨by simpa using hprefix.append hc₆, by simpa using hprefixd.append hd₆,
          fun hr => ?_⟩
        have := (hr₆ hr).mono hrev (List.Subset.refl _)
        simpa [Turn.last_append, hlast] using this
      · exact ⟨by simpa using hprefix, by simpa using hprefixd, (fun h => by cases h)⟩

/-- What unlocking chunk after chunk did: it created nothing, deleted only rows named by a lock
of a chunk, and if it answered, every version held by their branches when it began is gone. -/
theorem release_chunks_done :
    ∀ (chunks : List (List RowLock)) {s : KeySpace} {tr : List Turn} {r : Except LockError Unit},
      Kept root s → Client.Run (SafeStep root) (chunks.forM (releaseChunk codec root)).run s tr r →
      CreatesOnly codec root tr [] ∧ DeletesNamed codec root chunks.flatten tr ∧
        (r = .ok () → Released codec root chunks.flatten s.revision (Turn.last s tr))
  | [], s, tr, r, _, h => by
    obtain ⟨rfl, rfl⟩ := Client.Run.of_pure h
    exact ⟨fun _ ht => (List.not_mem_nil ht).elim, fun _ ht => (List.not_mem_nil ht).elim,
      fun _ _ hl => (List.not_mem_nil hl).elim⟩
  | c :: cs, s, tr, r, hk, h => by
    change Client.Run _ (releaseChunk codec root c >>= fun _ => cs.forM (releaseChunk codec root)).run s tr r
      at h
    obtain ⟨tr₁, tr₂, r₁, h₁, rfl, hrest⟩ := Client.Run.exceptT_bind h
    obtain ⟨hc₁, hd₁, hr₁⟩ := releaseChunk_attempt_done maxAttempts hk h₁
    have hsub₁ : c ⊆ (c :: cs).flatten := fun l hl => by simp [hl]
    rcases hrest with ⟨u, rfl, h₂⟩ | ⟨e, rfl, rfl, rfl⟩
    · have hk₂ := (keeps_of_chain h₁.chain (safeSteps_of_run (sends_releaseChunk c _) h₁) hk).2
      obtain ⟨hc₂, hd₂, hr₂⟩ := release_chunks_done cs hk₂ h₂
      have hsub₂ : cs.flatten ⊆ (c :: cs).flatten := fun l hl => by simp [hl]
      refine ⟨hc₁.append hc₂, (hd₁.mono hsub₁).append (hd₂.mono hsub₂), fun hr => ?_⟩
      -- the first chunk's versions stay gone while the others are unlocked
      have hm₂ := (h₂.moves (fun _ _ hx => hx.served) hk₂.sane).2.2
      have hrev := (h₁.moves (fun _ _ hx => hx.served) hk.sane).2.2.revision
      rw [Turn.last_append, List.flatten_cons]
      exact ((hr₁ rfl).moves hm₂).append ((hr₂ hr).mono hrev (List.Subset.refl _))
    · exact ⟨by simpa using hc₁, by simpa using hd₁.mono hsub₁, (fun h => by cases h)⟩

/-- What unlocking rows did, among clients of the stores: it created nothing, deleted a row
only where a lock of the list names its holding branch, and if it answered, every version that
such a branch held when it began is gone. -/
theorem release_done {locks : List RowLock} {s : KeySpace} {tr : List Turn}
    {r : Except LockError Unit} (hk : Kept root s)
    (h : Client.Run (SafeStep root) (release codec root locks).run s tr r) :
    CreatesOnly codec root tr [] ∧ DeletesNamed codec root locks tr ∧
      (r = .ok () → Released codec root locks s.revision (Turn.last s tr)) := by
  have := release_chunks_done (chunksOf maxTxnOps locks) hk h
  rwa [flatten_chunksOf (by decide)] at this

end Release

end Locks

end GlobalTxn.Etcd
