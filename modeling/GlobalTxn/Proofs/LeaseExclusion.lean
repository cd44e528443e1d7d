import GlobalTxn.Lease

/-! # A lease keeps other owners out until it ends

A lease taken by `owner` at clock reading `now` for `lease` milliseconds runs until
`now + lease`, saturated at the largest reading.  While it stands the table does not change at
all: another owner's acquire before the end is refused, and a release by anyone but the owner
is refused, and neither touches the table.  So a lease ends only by a call that changes the
table: its owner releasing it, or an acquire that succeeds, either by the owner (which starts
the lease again) or by another owner once the lease has run out (which takes it over).

Calls on one lock are `LeaseTable.Call`s, each with its own clock reading, so the readings of
a sequence of calls are arbitrary; `LeaseTable.calls` makes them in order and answers each.

Main statements: `LeaseTable.call_of_stands` (one call that does not end a standing lease
leaves the table as it was), `LeaseTable.calls_of_stands` (so does a run of them) and
`LeaseTable.lease_excludes_others_until_it_ends`.
-/

namespace GlobalTxn

namespace LeaseTable

/-! ## The view of one lock -/

@[simp]
theorem find?_erase_self (t : LeaseTable) (name : String) : (t.erase name).find? name = none := by
  simp [find?, erase, List.find?_filter]

@[simp]
theorem find?_set_self (t : LeaseTable) (name : String) (l : Lease) :
    (t.set name l).find? name = some l := by
  have hgone := find?_erase_self t name
  simp only [find?, Option.map_eq_none_iff] at hgone
  simp [find?, set, List.find?_append, hgone]

/-- Acquiring while `held` stands on the lock: refused, with the table kept, while another
owner's lease is live, and otherwise granted with a fresh lease. -/
theorem tryAcquire_of_find? {t : LeaseTable} {name owner : String} {lease now : Nat}
    {held : Lease} (h : t.find? name = some held) :
    t.tryAcquire name owner lease now =
      if held.owner ≠ owner ∧ now < held.expireTime then (false, t)
      else (true, t.set name ⟨owner, Millis.addSat now (millisOf lease)⟩) := by
  simp only [tryAcquire, h, bne_iff_ne, ne_eq, Bool.and_eq_true, decide_eq_true_eq]

/-- Acquiring a free lock is granted with a fresh lease. -/
theorem tryAcquire_of_free {t : LeaseTable} {name owner : String} {lease now : Nat}
    (h : t.find? name = none) :
    t.tryAcquire name owner lease now =
      (true, t.set name ⟨owner, Millis.addSat now (millisOf lease)⟩) := by
  simp [tryAcquire, h]

/-- A granted acquire leaves the caller holding the lock until the end of its new lease. -/
theorem find?_tryAcquire_of_granted {t : LeaseTable} {name owner : String} {lease now : Nat}
    (hok : (t.tryAcquire name owner lease now).1 = true) :
    (t.tryAcquire name owner lease now).2.find? name =
      some ⟨owner, Millis.addSat now (millisOf lease)⟩ := by
  cases h : t.find? name with
  | none => simp [tryAcquire_of_free h]
  | some held =>
    rw [tryAcquire_of_find? h] at hok ⊢
    split
    · rename_i hlive
      rw [if_pos hlive] at hok
      cases hok
    · exact find?_set_self _ _ _

/-- Releasing: the lease goes exactly when the caller owns it, and the answer says whether it
was still live then. -/
theorem release_of_find? {t : LeaseTable} {name owner : String} {now : Nat} {held : Lease}
    (h : t.find? name = some held) :
    t.release name owner now =
      if held.owner = owner then (decide (now < held.expireTime), t.erase name) else (false, t) := by
  simp [release, h]

theorem release_of_free {t : LeaseTable} {name owner : String} {now : Nat}
    (h : t.find? name = none) : t.release name owner now = (false, t) := by
  simp [release, h]

/-! ## Calls on one lock -/

/-- A call on one lock, made at a clock reading of its own. -/
inductive Call where
  /-- Acquire or extend the lock for `owner`, for a lease of `lease` milliseconds. -/
  | acquire (owner : String) (lease now : Nat)
  /-- Release the lock if `owner` holds it. -/
  | release (owner : String) (now : Nat)
  deriving DecidableEq, Repr

/-- Makes a call on lock `name`: its answer and the table after it. -/
def call (t : LeaseTable) (name : String) : Call → Bool × LeaseTable
  | .acquire owner lease now => t.tryAcquire name owner lease now
  | .release owner now => t.release name owner now

/-- Makes calls on lock `name` in order: the answer of each, and the table after the last. -/
def calls (t : LeaseTable) (name : String) : List Call → List Bool × LeaseTable
  | [] => ([], t)
  | c :: cs =>
    let (ok, t') := t.call name c
    let (oks, t'') := t'.calls name cs
    (ok :: oks, t'')

@[simp]
theorem calls_nil (t : LeaseTable) (name : String) : t.calls name [] = ([], t) := rfl

@[simp]
theorem calls_cons (t : LeaseTable) (name : String) (c : Call) (cs : List Call) :
    t.calls name (c :: cs) =
      ((t.call name c).1 :: ((t.call name c).2.calls name cs).1,
        ((t.call name c).2.calls name cs).2) := rfl

/-- Whether a call, answered `ok`, ends a lease of `owner`: the owner releases the lock, or an
acquire is granted, to the owner again or to another owner taking it over. -/
def Call.Ends (owner : String) : Call → Bool → Prop
  | .acquire .., ok => ok = true
  | .release o _, _ => o = owner

instance Call.decidableEnds (owner : String) : (c : Call) → (ok : Bool) → Decidable (c.Ends owner ok)
  | .acquire .., ok => inferInstanceAs (Decidable (ok = true))
  | .release o _, _ => inferInstanceAs (Decidable (o = owner))

/-- The step lemma: while `owner`'s lease stands on the lock, a call that does not end it
leaves the table as it was. -/
theorem call_of_stands {t : LeaseTable} {name owner : String} {expiry : Nat} {c : Call}
    (hs : t.find? name = some ⟨owner, expiry⟩) (hc : ¬ c.Ends owner (t.call name c).1) :
    (t.call name c).2 = t := by
  cases c with
  | acquire o lease now =>
    simp only [call, Call.Ends] at hc ⊢
    rw [tryAcquire_of_find? hs] at hc ⊢
    split
    · rfl
    · rename_i hfree
      rw [if_neg hfree] at hc
      exact absurd rfl hc
  | release o now =>
    simp only [call, Call.Ends] at hc ⊢
    rw [release_of_find? hs, if_neg (Ne.symm hc)]

/-- The run lemma: while no call of a run ends `owner`'s lease, the table stays as it was. By
induction on the calls, each one leaving the table, and so the lease, in place. -/
theorem calls_of_stands {t : LeaseTable} {name owner : String} {expiry : Nat}
    (hs : t.find? name = some ⟨owner, expiry⟩) :
    ∀ cs : List Call, (∀ p ∈ cs.zip (t.calls name cs).1, ¬ p.1.Ends owner p.2) →
      (t.calls name cs).2 = t
  | [], _ => rfl
  | c :: cs, hcs => by
    have hc : ¬ c.Ends owner (t.call name c).1 := hcs _ List.mem_cons_self
    have hkeep : (t.call name c).2 = t := call_of_stands hs hc
    simp only [calls_cons, List.zip_cons_cons] at hcs ⊢
    rw [hkeep] at hcs ⊢
    exact calls_of_stands hs cs fun p hp => hcs p (List.mem_cons_of_mem _ hp)

/-- While `owner`'s lease stands, another owner's acquire is granted exactly once the lease
has run out. -/
theorem tryAcquire_other_of_stands {t : LeaseTable} {name owner other : String}
    {expiry lease now : Nat} (hs : t.find? name = some ⟨owner, expiry⟩) (hne : other ≠ owner) :
    (t.tryAcquire name other lease now).1 = decide (expiry ≤ now) := by
  rw [tryAcquire_of_find? hs]
  by_cases hlive : now < expiry
  · rw [if_pos ⟨Ne.symm hne, hlive⟩]
    simp [Nat.not_le.2 hlive]
  · rw [if_neg fun h => hlive h.2]
    simp [Nat.le_of_not_lt hlive]

/-- A lease excludes the other owners until it ends.  After `a` is granted the lock at
reading `now` for `lease` milliseconds, it holds the lock until `now + lease`, saturated; and
as long as no call releases it for `a` and no acquire is granted (to `a` again, which starts
a new lease, or to another owner taking it over), every acquire by another owner is granted
exactly when its reading has reached that end.  A release, on any table, removes the lease
exactly when the caller owns it, and answers `true` exactly when it also had not run out. -/
theorem lease_excludes_others_until_it_ends :
    (∀ (t : LeaseTable) (name a : String) (lease now : Nat) (mid : List Call),
      (t.tryAcquire name a lease now).1 = true →
      (∀ p ∈ mid.zip ((t.tryAcquire name a lease now).2.calls name mid).1,
        ¬ p.1.Ends a p.2) →
      let t' := ((t.tryAcquire name a lease now).2.calls name mid).2
      t'.find? name = some ⟨a, Millis.addSat now (millisOf lease)⟩ ∧
      ∀ (b : String) (lease' now' : Nat), b ≠ a →
        (t'.tryAcquire name b lease' now').1 = decide (Millis.addSat now (millisOf lease) ≤ now')) ∧
    (∀ (t : LeaseTable) (name o : String) (now : Nat),
      (t.release name o now).2.find? name =
        (if (t.find? name).map (·.owner) = some o then none else t.find? name) ∧
      ((t.release name o now).1 = true ↔
        ∃ held, t.find? name = some held ∧ held.owner = o ∧ now < held.expireTime)) := by
  refine ⟨fun t name a lease now mid hok hmid => ?_, fun t name o now => ?_⟩
  · -- the granted lease stands through `mid`, which leaves the table as the grant made it
    have hs := find?_tryAcquire_of_granted hok
    have hkeep := calls_of_stands hs mid hmid
    rw [hkeep]
    exact ⟨hs, fun b lease' now' hb => tryAcquire_other_of_stands hs hb⟩
  · cases h : t.find? name with
    | none => simp [release_of_free h, h]
    | some held =>
      rw [release_of_find? h]
      by_cases ho : held.owner = o
      · simp [ho]
      · simp [ho, h]

/-- A lease taken at 0 for ten seconds keeps a second owner out at 5 s, and a refused release
by that owner changes nothing: the lease still ends at 10 s. -/
theorem lease_excludes_others_until_it_ends_after_refusals :
    (({} : LeaseTable).tryAcquire "C" "tc1" 10000 0).1 = true ∧
    (∀ p ∈ [Call.acquire "tc2" 10000 5000, .release "tc2" 6000].zip
        ((({} : LeaseTable).tryAcquire "C" "tc1" 10000 0).2.calls "C"
          [.acquire "tc2" 10000 5000, .release "tc2" 6000]).1, ¬ p.1.Ends "tc1" p.2) ∧
    let t' := ((({} : LeaseTable).tryAcquire "C" "tc1" 10000 0).2.calls "C"
      [.acquire "tc2" 10000 5000, .release "tc2" 6000]).2
    t'.find? "C" = some ⟨"tc1", Millis.addSat 0 (millisOf 10000)⟩ ∧
    ∀ (b : String) (lease' now' : Nat), b ≠ "tc1" →
      (t'.tryAcquire "C" b lease' now').1 = decide (Millis.addSat 0 (millisOf 10000) ≤ now') := by
  have hok : (({} : LeaseTable).tryAcquire "C" "tc1" 10000 0).1 = true := by decide
  have hmid : ∀ p ∈ [Call.acquire "tc2" 10000 5000, .release "tc2" 6000].zip
      ((({} : LeaseTable).tryAcquire "C" "tc1" 10000 0).2.calls "C"
        [.acquire "tc2" 10000 5000, .release "tc2" 6000]).1, ¬ p.1.Ends "tc1" p.2 := by
    decide
  exact ⟨hok, hmid, lease_excludes_others_until_it_ends.1 {} "C" "tc1" 10000 0 _ hok hmid⟩

/-- A take-over ends the first lease: after `tc2` takes over the lock that `tc1` held until
10 s, `tc3` is refused at 15 s although `tc1`'s lease has run out and `tc1` neither released
nor renewed it. -/
theorem third_owner_refused_after_takeover :
    (({} : LeaseTable).calls "C"
      [.acquire "tc1" 10000 0, .acquire "tc2" 10000 10000, .acquire "tc3" 10000 15000]).1 =
        [true, true, false] ∧
    Millis.addSat 0 (millisOf 10000) ≤ 15000 := by
  decide

end LeaseTable

end GlobalTxn
