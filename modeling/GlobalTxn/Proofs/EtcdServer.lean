import Mathlib
import GlobalTxn.Etcd.Client

/-! # The etcd server as a store sees it

The stores talk to the server in conversations that may fail (`ExceptT ε Client`), and the
server serves each request after ending the leases expired by then (`KeySpace.serve`).  A store
that writes its keys attached to no lease, and is their only writer, finds them as it left
them:

* expiry takes only keys attached to leases, and no lease has id 0 (`find?_expire`);
* reading one key gives the key as `find?` sees it (`range_one`, a consequence of the stability
  of the sort that orders a range);
* a transaction whose comparisons hold, while no conflict is injected, applies its writes
  (`txn_of_holds`), and a put or a delete changes only its own key (`find?_applyWrite_delete`
  with `find?_write` and `find?_write_other`).

`Client.run_exceptT_bind` says how a conversation that may fail is played one part after the
other; with `run_ask` and `run_liftExcept` a store's conversation is followed through its own
code.
-/

namespace GlobalTxn.Etcd

/-! ## Conversations that may fail -/

namespace Client

variable {ε α β γ : Type} (now : Nat)

theorem bind_assoc (c : Client α) (f : α → Client β) (g : β → Client γ) :
    c >>= f >>= g = c >>= fun a => f a >>= g := by
  induction c with
  | pure a => rfl
  | call req next ih => exact congrArg (Client.call req) (funext ih)

theorem id_map (c : Client α) : id <$> c = c := by
  induction c with
  | pure a => rfl
  | call req next ih => exact congrArg (Client.call req) (funext ih)

instance : LawfulMonad Client :=
  LawfulMonad.mk' Client id_map (fun _ _ => rfl) bind_assoc

/-- A conversation that may fail is played one part after the other; a failure ends it. -/
theorem run_exceptT_bind (x : ExceptT ε Client α) (f : α → ExceptT ε Client β) (s : KeySpace) :
    run now (x >>= f).run s =
      match run now x.run s with
      | (.ok a, s) => run now (f a).run s
      | (.error e, s) => (.error e, s) := by
  rw [ExceptT.run_bind, run_bind]
  rcases run now x.run s with ⟨_ | a, s⟩ <;> rfl

@[simp] theorem run_exceptT_pure (a : α) (s : KeySpace) :
    run now (Pure.pure a : ExceptT ε Client α).run s = (.ok a, s) := rfl

@[simp] theorem run_ask (wrap : RpcError → ε) (req : Request β) (s : KeySpace) :
    run now (ask wrap req).run s = ((s.serve now req).1.mapError wrap, (s.serve now req).2) :=
  rfl

@[simp] theorem run_liftExcept (x : Except ε α) (s : KeySpace) :
    run now (liftExcept x : ExceptT ε Client α).run s = (x, s) := by
  cases x <;> rfl

@[simp] theorem run_exceptT_throw (e : ε) (s : KeySpace) :
    run now (throw e : ExceptT ε Client α).run s = (.error e, s) := rfl

@[simp] theorem run_exceptT_lift (c : Client α) (s : KeySpace) :
    run now (ExceptT.lift c : ExceptT ε Client α).run s = (.ok (run now c s).1, (run now c s).2) :=
  run_bind now c _ s

@[simp] theorem run_exceptT_map (f : α → β) (x : ExceptT ε Client α) (s : KeySpace) :
    run now (f <$> x).run s = ((run now x.run s).1.map f, (run now x.run s).2) := by
  rw [map_eq_pure_bind, run_exceptT_bind]
  rcases run now x.run s with ⟨_ | a, s⟩ <;> rfl

end Client

/-! ## Keys and their leases -/

/-- Filtering out elements that the first match of `p` survives leaves that match first. -/
private theorem find?_filter_of_find? {γ : Type} {p q : γ → Bool} (l : List γ)
    (h : ∀ a, l.find? p = some a → q a = true) : (l.filter q).find? p = l.find? p := by
  induction l with
  | nil => rfl
  | cons a l ih =>
    by_cases hp : p a = true
    · have hq : q a = true := h a (by simp [hp])
      simp [hq, hp]
    · have hrest : (l.filter q).find? p = l.find? p :=
        ih fun b hb => h b (by simp [hp, hb])
      by_cases hq : q a = true
      · simp [hq, hp, hrest]
      · simp [hq, hp, hrest]

namespace KeySpace

variable {s : KeySpace} {now : Nat}

/-- Ending leases keeps every key attached to none of them. -/
theorem find?_dropLeases {ids : List Nat} {key : String}
    (h : ∀ kv, s.find? key = some kv → ids.contains kv.lease = false) :
    (s.dropLeases ids).find? key = s.find? key := by
  unfold dropLeases
  by_cases hany : (s.kvs.any fun kv => ids.contains kv.lease) = true
  · simp only [hany, if_true, find?]
    exact find?_filter_of_find? s.kvs fun kv hkv => by simp only [h kv hkv, Bool.not_false]
  · simp only [hany, if_false, Bool.false_eq_true]
    rfl

/-- Expiry keeps every key attached to no lease, as no lease has id 0. -/
theorem find?_expire (hl : ∀ l ∈ s.leases, l.id ≠ 0) {key : String}
    (h0 : ∀ kv, s.find? key = some kv → kv.lease = 0) : (s.expire now).find? key = s.find? key := by
  unfold expire
  cases hg : s.leases.filter (·.expireAt ≤ now) with
  | nil => rfl
  | cons g gs =>
    -- the leases that go are leases of the server, so none of them has id 0
    have hzero : ((g :: gs).map (·.id)).contains 0 = false := by
      have hmem : ∀ l ∈ g :: gs, l ∈ s.leases := fun l hl' => (List.mem_filter.1 (hg ▸ hl')).1
      rw [Bool.eq_false_iff]
      intro hc
      rw [List.contains_iff_mem, List.mem_map] at hc
      obtain ⟨l, hl', hid⟩ := hc
      exact hl l (hmem l hl') hid
    show (s.dropLeases ((g :: gs).map (·.id))).find? key = s.find? key
    exact find?_dropLeases fun kv hkv => by rw [h0 kv hkv, hzero]

theorem leases_expire : ∀ l ∈ (s.expire now).leases, l ∈ s.leases := by
  unfold expire
  split
  · exact fun _ hl => hl
  · unfold dropLeases
    split <;> exact fun l hl => (List.mem_filter.1 hl).1

@[simp] theorem conflicts_expire : (s.expire now).conflicts = s.conflicts := by
  unfold expire
  split
  · rfl
  · unfold dropLeases
    split <;> rfl

/-- Reading one key gives the stored entries of that key, in the order they are stored: the
sort that orders a range is stable, and the entries of one key are all equal for it. -/
theorem range_one (s : KeySpace) (key : String) :
    s.range (.one key) = s.kvs.filter (·.key == key) := by
  let le : KeyValue → KeyValue → Bool := fun a b => decide (a.key ≤ b.key)
  have htrans : ∀ a b c, le a b → le b c → le a c := by
    simp only [le, decide_eq_true_eq]
    exact fun _ _ _ => le_trans
  have htotal : ∀ a b, (le a b || le b a) = true := by
    simpa [le] using fun (a b : KeyValue) => le_total a.key b.key
  -- the entries of the key, in stored order, are a sorted sublist of the sorted entries
  have hsorted : (s.kvs.filter (·.key == key)).Pairwise fun a b => le a b = true := by
    refine List.pairwise_of_forall_mem_list fun a ha b hb => ?_
    simp only [List.mem_filter, beq_iff_eq] at ha hb
    simp [le, ha.2, hb.2]
  have hsub : List.Sublist (s.kvs.filter (·.key == key)) s.sorted :=
    List.sublist_mergeSort htrans htotal hsorted List.filter_sublist
  have hlen : (s.sorted.filter (·.key == key)).length = (s.kvs.filter (·.key == key)).length :=
    ((List.mergeSort_perm _ _).filter _).length_eq
  have hself : (s.kvs.filter (·.key == key)).filter (·.key == key) =
      s.kvs.filter (·.key == key) := by
    rw [List.filter_filter]
    simp
  have hfilter := hsub.filter fun kv : KeyValue => kv.key == key
  rw [hself] at hfilter
  have hrange : s.range (.one key) = s.sorted.filter (·.key == key) := by
    simp [range, KeyRange.contains]
  rw [hrange]
  exact (hfilter.eq_of_length hlen.symm).symm

/-- The key read from a range of one key is the key `find?` sees. -/
theorem head?_range_one (s : KeySpace) (key : String) :
    (s.range (.one key)).head? = s.find? key := by
  rw [range_one, List.head?_filter]
  rfl

/-! ## Transactions -/

/-- A transaction whose comparisons hold, with no conflict to inject, applies its writes. -/
theorem txn_of_holds {compares : List Compare} {writes : List Write} (hc : s.conflicts = 0)
    (h : ∀ c ∈ compares, s.holds c = true) : s.txn compares writes = (true, s.applyWrites writes) := by
  simp [txn, hc, List.all_eq_true.2 h]

/-- Once something has changed, it stays changed. -/
private theorem foldl_applyWrite_snd (rev : Nat) (ws : List Write) (kvs : List KeyValue) :
    (ws.foldl (applyWrite rev) (kvs, true)).2 = true := by
  induction ws generalizing kvs with
  | nil => rfl
  | cons w ws ih =>
    cases w with
    | put key value lease => exact ih _
    | delete key =>
      simp only [List.foldl_cons, applyWrite]
      split <;> exact ih _

/-- Writes that changed nothing leave the keys as they were: only deletes of absent keys. -/
private theorem foldl_applyWrite_unchanged (rev : Nat) (ws : List Write) (kvs : List KeyValue)
    (h : (ws.foldl (applyWrite rev) (kvs, false)).2 = false) :
    (ws.foldl (applyWrite rev) (kvs, false)).1 = kvs := by
  induction ws generalizing kvs with
  | nil => rfl
  | cons w ws ih =>
    cases w with
    | put key value lease =>
      rw [List.foldl_cons] at h
      simp only [applyWrite, foldl_applyWrite_snd, Bool.true_eq_false] at h
    | delete key =>
      rw [List.foldl_cons] at h ⊢
      by_cases hany : kvs.any (·.key == key) = true
      · simp only [applyWrite, hany, if_true, foldl_applyWrite_snd, Bool.true_eq_false] at h
      · simp only [applyWrite, hany, if_false, Bool.false_eq_true] at h ⊢
        exact ih kvs h

/-- Applying writes sets the keys the writes leave, whether or not anything changed. -/
theorem kvs_applyWrites (s : KeySpace) (writes : List Write) :
    (s.applyWrites writes).kvs = (writes.foldl (applyWrite (s.revision + 1)) (s.kvs, false)).1 := by
  have hunchanged := foldl_applyWrite_unchanged (s.revision + 1) writes s.kvs
  unfold applyWrites
  generalize writes.foldl (applyWrite (s.revision + 1)) (s.kvs, false) = p at hunchanged ⊢
  obtain ⟨kvs, changed⟩ := p
  cases changed with
  | true => rfl
  | false => exact (hunchanged rfl).symm

@[simp] theorem conflicts_applyWrites (s : KeySpace) (writes : List Write) :
    (s.applyWrites writes).conflicts = s.conflicts := by
  unfold applyWrites
  split
  · split <;> rfl

@[simp] theorem leases_applyWrites (s : KeySpace) (writes : List Write) :
    (s.applyWrites writes).leases = s.leases := by
  unfold applyWrites
  split
  · split <;> rfl

end KeySpace

/-- A delete takes its own key away and leaves the others. -/
theorem find?_applyWrite_delete (rev : Nat) (p : List KeyValue × Bool) (key other : String) :
    (KeySpace.applyWrite rev p (.delete key)).1.find? (·.key == other) =
      if other = key then none else p.1.find? (·.key == other) := by
  obtain ⟨kvs, c⟩ := p
  by_cases ho : other = key
  · subst ho
    simp only [KeySpace.applyWrite, if_true]
    split
    · exact KeySpace.find?_erase kvs other
    · rename_i hany
      simpa [List.find?_eq_none] using hany
  · simp only [KeySpace.applyWrite, ho, if_false]
    split
    · simp only [erase, List.find?_filter]
      congr 1
      funext kv
      by_cases hk : kv.key = other
      · simp [hk, ho]
      · simp [hk]
    · rfl

namespace KeySpace

/-- Puts attached to no lease name only live leases. -/
theorem leasesLive_of_lease_zero (s : KeySpace) {writes : List Write}
    (h : ∀ w ∈ writes, ∀ key value lease, w = .put key value lease → lease = 0) :
    s.leasesLive writes = true := by
  simp only [leasesLive, List.all_eq_true]
  intro w hw
  cases w with
  | put key value lease => simp [h _ hw key value lease rfl]
  | delete key => rfl

end KeySpace

/-! ## Conversations that answer as computations on a state

A store kept on the server is compared with a store kept in memory call by call: from states
related by `R`, each call answers the same and leaves related states.  Then whole sequences of
calls do (`Client.run_mapM_of_step`), failures included, as a failed call ends both.
-/

private theorem run_run_mapM_cons {ε α σ γ : Type} (g : γ → ExceptT ε (StateM σ) α) (c : γ)
    (cs : List γ) (t : σ) :
    ((c :: cs).mapM g).run.run t =
      match (g c).run.run t with
      | (.ok a, t) => (((cs.mapM g).run.run t).1.map (a :: ·), ((cs.mapM g).run.run t).2)
      | (.error e, t) => (.error e, t) := by
  have hid : ∀ {β δ : Type} (x : β) (f : β → Id δ), (x >>= f : Id δ) = f x := fun _ _ => rfl
  simp only [List.mapM_cons, ExceptT.run_bind, StateT.run_bind]
  rcases (g c).run.run t with ⟨_ | a, t1⟩
  · rfl
  · simp only [hid, StateT.run_bind]
    rcases (cs.mapM g).run.run t1 with ⟨_ | as, t2⟩ <;> rfl

namespace Client

variable {ε α σ γ : Type} (now : Nat)

/-- Conversations that answer each call as a computation on a related state answers it, and
leave related states, answer a sequence of calls as the computations do. -/
theorem run_mapM_of_step (R : σ → KeySpace → Prop) (P : γ → Prop)
    (f : γ → ExceptT ε Client α) (g : γ → ExceptT ε (StateM σ) α)
    (hstep : ∀ c, P c → ∀ t s, R t s →
      ∃ s', run now (f c).run s = (((g c).run.run t).1, s') ∧ R ((g c).run.run t).2 s')
    (cs : List γ) (hcs : ∀ c ∈ cs, P c) (t : σ) (s : KeySpace) (h : R t s) :
    ∃ s', run now (cs.mapM f).run s = (((cs.mapM g).run.run t).1, s') ∧
      R ((cs.mapM g).run.run t).2 s' := by
  induction cs generalizing t s with
  | nil => exact ⟨s, rfl, h⟩
  | cons c cs ih =>
    obtain ⟨s1, hrun1, h1⟩ := hstep c (hcs c List.mem_cons_self) t s h
    rw [run_run_mapM_cons, List.mapM_cons, run_exceptT_bind, hrun1]
    rcases hg : (g c).run.run t with ⟨_ | a, t1⟩
    · -- the call fails, and ends both
      exact ⟨s1, rfl, by simpa [hg] using h1⟩
    · obtain ⟨s2, hrun2, h2⟩ := ih (fun c hc => hcs c (List.mem_cons_of_mem _ hc)) t1 s1
        (by simpa [hg] using h1)
      refine ⟨s2, ?_, h2⟩
      simp only [run_exceptT_bind, hrun2]
      rcases ((cs.mapM g).run.run t1).1 with _ | as <;> rfl

end Client

end GlobalTxn.Etcd
