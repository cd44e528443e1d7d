import GlobalTxn.Proofs.EtcdRevisions
import GlobalTxn.Etcd.Sessions

/-! # Changes of a stored session serialize

A change of a stored session (`Sessions.modify`) reads the session's record, changes the session,
and writes the record back in a transaction that compares the revision of last change it read;
when another writer came in between, it starts over.  Among any steps of any number of other
clients, whatever requests they send:

* a change that succeeds read one version of the record, and its one write commits the changed
  session on exactly that version (`Sessions.modify_commits_on_version_read`);
* every other step of its own wrote nothing, and a change that fails, or finds no session, wrote
  nothing at all.

So each successful change of a session's record follows the version it read: the changes of
one record take effect one after the other, in the order of their commits, and none overwrites
another.  The argument is that a version is told by its revision of last change
(`KeySpace.Stamps`).
-/

namespace GlobalTxn.Etcd

/-- A step that commits `value` on version `kv` of key `k`: at the step's clock reading, after
expiry, `k` is at version `kv`, and the step puts `value` on it, attached to no lease. -/
def Turn.Commits (t : Turn) (k : String) (kv : KeyValue) (value : List UInt8) : Prop :=
  ∃ now, (t.before.expire now).find? k = some kv ∧
    t.after = (t.before.expire now).applyWrites [.put k value 0]

theorem mapError_eq_ok {ε ε' α : Type} {f : ε → ε'} {x : Except ε α} {a : α} :
    x.mapError f = .ok a ↔ x = .ok a := by
  cases x <;> simp [Except.mapError]

namespace Sessions

variable (codec : Wire.Codec SessionRecord) {other : KeySpace → KeySpace → Prop} {s : KeySpace}
  {tr : List Turn}

/-- What a change of session `xid` did over the steps `tr`, by its answer: a change that
succeeded read a version of the record, from which `f` made the session it answered, and
committed that session on the same version in a later step; every other step of its own wrote
nothing.  A change that answered otherwise wrote nothing. -/
def Serializes (root xid : String) (f : GlobalSession → Except StoreError GlobalSession)
    (tr : List Turn) : Except StoreError (Option GlobalSession) → Prop
  | .ok (some g) => ∃ pre rd mid cm post kv stored,
      tr = pre ++ rd :: mid ++ cm :: post ∧ rd.own = true ∧ cm.own = true ∧
      rd.after.find? (key root xid) = some kv ∧ decode codec kv = .ok stored ∧ f stored = .ok g ∧
      cm.Commits (key root xid) kv (encode codec g) ∧
      ∀ t ∈ pre ++ mid ++ post, t.own = true → t.Unwritten
  | .ok none => ∀ t ∈ tr, t.own = true → t.Unwritten
  | .error _ => ∀ t ∈ tr, t.own = true → t.Unwritten

variable {codec}

theorem serializes_none {root xid : String} {f : GlobalSession → Except StoreError GlobalSession}
    (h : ∀ t ∈ tr, t.own = true → t.Unwritten) : Serializes codec root xid f tr (.ok none) := h

theorem serializes_error {root xid : String} {f : GlobalSession → Except StoreError GlobalSession}
    {e : StoreError} (h : ∀ t ∈ tr, t.own = true → t.Unwritten) :
    Serializes codec root xid f tr (.error e) := h

/-- Steps of its own that wrote nothing, before a change, keep what the change did. -/
theorem Serializes.prepend {root xid : String} {f : GlobalSession → Except StoreError GlobalSession}
    {r : Except StoreError (Option GlobalSession)} (pre : List Turn)
    (hpre : ∀ t ∈ pre, t.own = true → t.Unwritten) (h : Serializes codec root xid f tr r) :
    Serializes codec root xid f (pre ++ tr) r := by
  match r, h with
  | .ok (some g), ⟨pre', rd, mid, cm, post, kv, stored, htr, hrd, hcm, hkv, hdec, hf, hcommit,
      hrest⟩ =>
    refine ⟨pre ++ pre', rd, mid, cm, post, kv, stored, by simp [htr], hrd, hcm, hkv, hdec, hf,
      hcommit, ?_⟩
    intro t ht hown
    simp only [List.append_assoc, List.mem_append] at ht
    rcases ht with ht | ht | ht | ht
    · exact hpre t ht hown
    · exact hrest t (by simp [ht]) hown
    · exact hrest t (by simp [ht]) hown
    · exact hrest t (by simp [ht]) hown
  | .ok none, h =>
    intro t ht hown
    rcases List.mem_append.1 ht with ht | ht
    · exact hpre t ht hown
    · exact h t ht hown
  | .error _, h =>
    intro t ht hown
    rcases List.mem_append.1 ht with ht | ht
    · exact hpre t ht hown
    · exact h t ht hown

/-- Reading a session's record waits for steps of others and reads the record in one step of
its own, which writes nothing. -/
theorem run_read {root xid : String} {r : Except StoreError (Option (Nat × GlobalSession))}
    (h : Client.Run other (read codec root xid).run s tr r) :
    ∃ pre rd, tr = pre ++ [rd] ∧ (∀ t ∈ pre, t.own = false) ∧ rd.own = true ∧ rd.Unwritten ∧
      ∀ rev stored, r = .ok (some (rev, stored)) →
        ∃ kv, rd.after.find? (key root xid) = some kv ∧ kv.modRevision = rev ∧
          decode codec kv = .ok stored := by
  unfold read at h
  obtain ⟨tr₁, tr₂, r₁, h₁, rfl, hrest⟩ := Client.Run.exceptT_bind h
  obtain ⟨pre, now, -, hpre, rfl, rfl⟩ := Client.Run.ask h₁
  set t := Turn.last s pre
  have hlast : Turn.last s (pre ++ [⟨t, (t.serve now (.range (.one (key root xid)))).2, true⟩]) =
      t.expire now := by
    rw [Turn.last_append]
    rfl
  -- the read always succeeds; only the decoding of the record follows it, in no step
  rcases hrest with ⟨kvs, hkvs, h₂⟩ | ⟨e, he, -, -⟩
  swap
  · simp [KeySpace.serve, Except.mapError] at he
  simp only [KeySpace.serve, Except.mapError, Except.ok.injEq] at hkvs
  subst hkvs
  rw [hlast, KeySpace.head?_range_one] at h₂
  have hend : tr₂ = [] ∧ ∀ rev stored, r = .ok (some (rev, stored)) →
      ∃ kv, (t.expire now).find? (key root xid) = some kv ∧ kv.modRevision = rev ∧
        decode codec kv = .ok stored := by
    cases hk : (t.expire now).find? (key root xid) with
    | none =>
      rw [hk] at h₂
      obtain ⟨rfl, rfl⟩ := Client.Run.of_pure h₂
      exact ⟨rfl, (fun _ _ h => by cases h)⟩
    | some kv =>
      rw [hk] at h₂
      obtain ⟨tr₃, tr₄, r₃, h₃, rfl, hrest₃⟩ := Client.Run.exceptT_bind h₂
      obtain ⟨rfl, rfl⟩ := Client.Run.liftExcept h₃
      rcases hrest₃ with ⟨g, hg, h₄⟩ | ⟨e, -, rfl, rfl⟩
      · obtain ⟨rfl, rfl⟩ := Client.Run.of_pure h₄
        refine ⟨rfl, fun rev stored hr => ?_⟩
        cases hr
        exact ⟨kv, rfl, rfl, hg⟩
      · exact ⟨rfl, (fun _ _ h => by cases h)⟩
  obtain ⟨rfl, hsome⟩ := hend
  exact ⟨pre, ⟨t, (t.serve now (.range (.one (key root xid)))).2, true⟩, List.append_nil _,
    fun t ht => (hpre t ht).1, rfl, ⟨now, rfl⟩, hsome⟩

/-- A request of the session store waits for steps of others and is served in one step of its
own. -/
theorem run_request {β : Type} {req : Request β} {r : Except StoreError β}
    (h : Client.Run other (request req).run s tr r) :
    ∃ pre now, (∀ t ∈ pre, t.own = false) ∧
      tr = pre ++ [⟨Turn.last s pre, ((Turn.last s pre).serve now req).2, true⟩] ∧
      r = ((Turn.last s pre).serve now req).1.mapError fun e => .internal e.text := by
  obtain ⟨pre, now, -, hpre, rfl, rfl⟩ := Client.Run.ask h
  exact ⟨pre, now, fun t ht => (hpre t ht).1, rfl, rfl⟩

variable (codec) in
/-- One try of a change, with `n` tries left after it, serializes, among any steps of any
clients. -/
theorem attempt_serializes (root xid : String) (missingOk : Bool)
    (f : GlobalSession → Except StoreError GlobalSession) :
    ∀ (n : Nat) {s : KeySpace} {tr : List Turn} {r : Except StoreError (Option GlobalSession)},
      s.Sane → Client.Run Served (modify.attempt codec root xid missingOk f n).run s tr r →
      Serializes codec root xid f tr r
  | 0, s, tr, r, _, h => by
    obtain ⟨rfl, rfl⟩ := Client.Run.of_pure h
    exact fun _ ht => (List.not_mem_nil ht).elim
  | n + 1, s, tr, r, hs, h => by
    unfold modify.attempt at h
    obtain ⟨tr₁, tr₂, r₁, h₁, rfl, hrest⟩ := Client.Run.exceptT_bind h
    obtain ⟨pre, rd, rfl, hpre, hrd, hunw, hsome⟩ := run_read h₁
    -- the steps of the read: only the read is its own, and it wrote nothing
    have hread : ∀ t ∈ pre ++ [rd], t.own = true → t.Unwritten := by
      intro t ht hown
      rcases List.mem_append.1 ht with ht | ht
      · rw [hpre t ht] at hown
        cases hown
      · rw [List.mem_singleton.1 ht]
        exact hunw
    have hlast₁ : Turn.last s (pre ++ [rd]) = rd.after := by
      rw [Turn.last_append]
      rfl
    obtain ⟨-, hsane₁, -⟩ := h₁.moves (fun _ _ h => h) hs
    rw [hlast₁] at hsane₁
    rcases hrest with ⟨x, rfl, h₂⟩ | ⟨e, rfl, rfl, rfl⟩
    · rw [hlast₁] at h₂
      rcases x with _ | ⟨rev, stored⟩
      · -- no session: the change ends, or fails, without another step
        have hend : tr₂ = [] ∧ (r = .ok none ∨ ∃ e, r = .error e) := by
          by_cases hm : missingOk = true
          · rw [if_pos hm] at h₂
            obtain ⟨rfl, rfl⟩ := Client.Run.of_pure h₂
            exact ⟨rfl, .inl rfl⟩
          · rw [if_neg hm] at h₂
            obtain ⟨rfl, rfl⟩ := Client.Run.of_pure h₂
            exact ⟨rfl, .inr ⟨_, rfl⟩⟩
        obtain ⟨rfl, hr | ⟨e, rfl⟩⟩ := hend
        · subst hr
          exact serializes_none (by simpa using hread)
        · exact serializes_error (by simpa using hread)
      · obtain ⟨kv, hkv, hrev, hdec⟩ := hsome rev stored rfl
        obtain ⟨tr₃, tr₄, r₃, h₃, rfl, hrest₃⟩ := Client.Run.exceptT_bind h₂
        obtain ⟨rfl, rfl⟩ := Client.Run.liftExcept h₃
        rcases hrest₃ with ⟨g, hg, h₄⟩ | ⟨e, -, rfl, rfl⟩
        · obtain ⟨tr₅, tr₆, r₅, h₅, rfl, hrest₅⟩ := Client.Run.exceptT_bind h₄
          obtain ⟨pre', now, hpre', rfl, rfl⟩ := run_request h₅
          simp only [Turn.last_nil] at hpre' h₄ h₅ hrest₅ ⊢
          set cm : Turn := ⟨Turn.last rd.after pre', ((Turn.last rd.after pre').serve now
            (.txn [⟨key root xid, .modRevision, rev⟩] [.put (key root xid) (encode codec g) 0])).2, true⟩
          -- the steps of the transaction's wait were others'
          have hwait : ∀ t ∈ pre', t.own = true → t.Unwritten := by
            intro t ht hown
            rw [hpre' t ht] at hown
            cases hown
          rcases KeySpace.serve_txn (Turn.last rd.after pre') now
              [⟨key root xid, .modRevision, rev⟩] [.put (key root xid) (encode codec g) 0] with
            ⟨hok, hholds, hafter⟩ | ⟨hnot, hkeys⟩
          · -- committed: on the version read, as its revision of last change says
            rw [hok] at hrest₅
            rcases hrest₅ with ⟨b, hb, h₆⟩ | ⟨e, he, -, -⟩
            · cases hb
              obtain ⟨rfl, rfl⟩ := Client.Run.of_pure h₆
              -- the version read is still there when the transaction compares it
              obtain ⟨hbefore, -, -⟩ := h₅.moves (fun _ _ h => h) hsane₁
              obtain ⟨hsane₂, hmoves₂⟩ := hbefore cm (by simp [cm])
              obtain ⟨-, hexpire⟩ := hsane₂.expire now
              have hstamps := ((hsane₁.stamps hkv).moves hmoves₂).moves hexpire
              have hpos : 0 < rev :=
                hrev ▸ (hsane₁.stored.revisions kv (List.mem_of_find?_eq_some hkv)).2.1
              obtain ⟨kv', hkv', hmod⟩ := KeySpace.find?_of_holds_modRevision
                (hholds _ List.mem_cons_self) hpos
              have hsame : kv' = kv := hstamps.2 kv' hkv' (hmod.trans hrev.symm)
              subst hsame
              refine ⟨pre, rd, pre', cm, [], kv', stored, by simp, hrd, rfl, hkv, hdec, hg,
                ⟨now, hkv', hafter⟩, ?_⟩
              intro t ht hown
              simp only [List.append_nil, List.mem_append] at ht
              rcases ht with ht | ht
              · exact hread t (List.mem_append_left _ ht) hown
              · exact hwait t ht hown
            · cases he
          · -- not committed: the transaction wrote nothing, and the change tries again or fails
            have hcm : cm.Unwritten := ⟨now, hkeys⟩
            have hmine : ∀ t ∈ pre ++ [rd] ++ ([] ++ (pre' ++ [cm])), t.own = true →
                t.Unwritten := by
              intro t ht hown
              simp only [List.nil_append, List.mem_append, List.mem_singleton] at ht
              rcases ht with (ht | rfl) | ht | rfl
              · exact hread t (List.mem_append_left _ ht) hown
              · exact hunw
              · exact hwait t ht hown
              · exact hcm
            rcases hrest₅ with ⟨b, hb, h₆⟩ | ⟨e, he, rfl, rfl⟩
            · cases b with
              | true => exact absurd (mapError_eq_ok.1 hb) hnot
              | false =>
                obtain ⟨-, hsane₃, -⟩ := h₅.moves (fun _ _ h => h) hsane₁
                have h₆' : Client.Run Served (modify.attempt codec root xid missingOk f n).run
                    (Turn.last rd.after (pre' ++ [cm])) tr₆ r := h₆
                have := (attempt_serializes root xid missingOk f n hsane₃ h₆').prepend _ hmine
                simpa only [List.append_assoc] using this
            · exact serializes_error (by simpa using hmine)
        · exact serializes_error (by simpa using hread)
    · exact serializes_error (by simpa using hread)

variable (codec) in
/-- Among any steps of any clients, a change of a stored session that succeeds commits the
changed session on exactly the version of the record it read, and writes nothing else; a change
that fails, or finds no session, writes nothing. -/
theorem modify_commits_on_version_read (root xid : String) (missingOk : Bool)
    (f : GlobalSession → Except StoreError GlobalSession) {s : KeySpace} {tr : List Turn}
    {r : Except StoreError (Option GlobalSession)} (hs : s.Sane)
    (h : Client.Run Served (modify codec root xid missingOk f).run s tr r) :
    Serializes codec root xid f tr r :=
  attempt_serializes codec root xid missingOk f maxAttempts hs h

end Sessions

end GlobalTxn.Etcd
