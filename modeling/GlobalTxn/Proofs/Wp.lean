import GlobalTxn.Proofs.Keeps

/-! # Programs run alone between their pauses

`Steps.Wp inv le post p s` says that `p`, run from state `s` with nothing in between its steps,
ends in a state and with a result that `post` admits; and that at each of its pauses the state
has `inv` and the rest of `p` does the same from every state with `inv` that others may have
reached meanwhile, one below in `le`.  It is the weakest precondition of a program that runs
alone up to each pause, as a coordinator operation runs, and as each handler of a scan runs
between the pauses where the scan switches handlers.

Unlike `Steps.Keeps`, the property need not hold between two steps: an operation that takes rows
for a branch and then stores the branch breaks the property in between and restores it.
`Keeps.wp` turns a program that keeps `inv` at every step into one that meets `Wp`.

What others may do while a program waits is what the program relies on; what each of its steps
does is what it guarantees.  Here every program relies on what it guarantees itself:
`Steps.Always le p` says that each step of `p`, from every state, goes down in `le`.  The
handlers of a scan then meet `Wp` together when each of them meets it and guarantees `le`
(`Pool.wp_run_none`).

The rules follow the way programs are built, as for `Keeps`; for programs that may fail, the
post-condition is split by `Ends` into what failures and successes leave.
-/

namespace GlobalTxn

/-- A failure that `err` admits in the state it leaves, or a success that `ok` admits. -/
def Ends {ε α σ : Type} (err : ε → σ → Prop) (ok : α → σ → Prop) : Except ε α → σ → Prop
  | .ok a, s => ok a s
  | .error e, s => err e s

theorem Ends.imp {ε α σ : Type} {err err' : ε → σ → Prop} {ok ok' : α → σ → Prop}
    (herr : ∀ e s, err e s → err' e s) (hok : ∀ a s, ok a s → ok' a s) :
    ∀ r s, Ends err ok r s → Ends err' ok' r s
  | .ok a, s, h => hok a s h
  | .error e, s, h => herr e s h

theorem Ends.and {ε α σ : Type} {err err' : ε → σ → Prop} {ok ok' : α → σ → Prop} :
    ∀ r s, Ends err ok r s → Ends err' ok' r s → Ends err (fun a s => ok a s ∧ ok' a s) r s
  | .ok _, _, h, h' => ⟨h, h'⟩
  | .error _, _, h, _ => h

namespace Steps

variable {σ α β : Type} {inv : σ → Prop} {le : σ → σ → Prop}

/-- `p` run from `s` ends where `post` holds, with `inv` at each pause and the rest run from any
state with `inv` below in `le`. -/
def Wp (inv : σ → Prop) (le : σ → σ → Prop) (post : α → σ → Prop) : Steps σ α → σ → Prop
  | done a, s => post a s
  | step u n, s => Wp inv le post (n s) (u s)
  | pause _ _ n, s => inv s ∧ ∀ s', inv s' → le s s' → Wp inv le post n s'

theorem Wp.mono {P Q : α → σ → Prop} (hPQ : ∀ a s, P a s → Q a s) :
    ∀ {p : Steps σ α} {s : σ}, p.Wp inv le P s → p.Wp inv le Q s
  | done a, s, h => hPQ a s h
  | step _ n, s, h => Wp.mono (p := n s) hPQ h
  | pause _ _ n, _, h => ⟨h.1, fun s' hs' hle => Wp.mono (p := n) hPQ (h.2 s' hs' hle)⟩

/-- Run alone, a program ends where its post-condition holds: its pauses end at once. -/
theorem Wp.run {post : α → σ → Prop} (hrefl : ∀ s, le s s) :
    ∀ {p : Steps σ α} {s : σ}, p.Wp inv le post s → post (p.run s).1 (p.run s).2
  | done _, _, h => h
  | step _ n, s, h => Wp.run hrefl (p := n s) h
  | pause _ _ n, s, h => Wp.run hrefl (p := n) (h.2 s h.1 (hrefl s))

theorem Wp.bind {P : α → σ → Prop} {Q : β → σ → Prop} {f : α → Steps σ β}
    (hf : ∀ a s, P a s → (f a).Wp inv le Q s) :
    ∀ {p : Steps σ α} {s : σ}, p.Wp inv le P s → (p.bind f).Wp inv le Q s
  | done a, s, h => hf a s h
  | step _ n, s, h => Wp.bind (p := n s) hf h
  | pause _ _ n, _, h => ⟨h.1, fun s' hs' hle => Wp.bind (p := n) hf (h.2 s' hs' hle)⟩

theorem wp_atomic {post : α → σ → Prop} {act : StateM σ α} {s : σ} :
    (atomic act).Wp inv le post s ↔ post (act s).1 (act s).2 :=
  Iff.rfl

/-- A program that keeps `inv` at every step meets `Wp` from every state with `inv`. -/
theorem Keeps.wp {post : α → Prop} :
    ∀ {p : Steps σ α} {s : σ}, p.Keeps inv post → inv s →
      p.Wp inv le (fun a s => inv s ∧ post a) s
  | done _, _, h, hs => ⟨hs, h⟩
  | step _ n, s, h, hs => Keeps.wp (p := n s) (h s hs).2 (h s hs).1
  | pause _ _ n, _, h, hs => ⟨hs, fun _ hs' _ => Keeps.wp (p := n) h hs'⟩

/-- Where a program stopped: its result where `post` holds, or a pause in a state with `inv`
whose rest meets `Wp` from every state with `inv` below in `le`. -/
def Halt.Wp (inv : σ → Prop) (le : σ → σ → Prop) (post : α → σ → Prop) : Halt σ α → σ → Prop
  | .ended a, s => post a s
  | .paused _ _ rest, s => inv s ∧ ∀ s', inv s' → le s s' → rest.Wp inv le post s'

theorem Wp.untilPause {post : α → σ → Prop} :
    ∀ {p : Steps σ α} {s : σ}, p.Wp inv le post s →
      p.untilPause.Wp inv le (Halt.Wp inv le post) s
  | done _, _, h => h
  | step _ n, s, h => Wp.untilPause (p := n s) h
  | pause _ _ _, _, h => h

/-! ## What every step does -/

/-- Every step of `p`, from every state, goes down in `le`. -/
def Always (le : σ → σ → Prop) : Steps σ α → Prop
  | done _ => True
  | step u n => ∀ s, le s (u s) ∧ Always le (n s)
  | pause _ _ n => Always le n

theorem Always.bind {f : α → Steps σ β} (hf : ∀ a, (f a).Always le) :
    ∀ {p : Steps σ α}, p.Always le → (p.bind f).Always le
  | done a, _ => hf a
  | step _ n, h => fun s => ⟨(h s).1, Always.bind hf (p := n s) (h s).2⟩
  | pause _ _ n, h => Always.bind hf (p := n) h

theorem always_atomic {act : StateM σ α} (h : ∀ s, le s (act s).2) : (atomic act).Always le :=
  fun s => ⟨h s, trivial⟩

/-- Where a program stopped goes on going down in `le`. -/
def Halt.Always (le : σ → σ → Prop) : Halt σ α → Prop
  | .ended _ => True
  | .paused _ _ rest => rest.Always le

/-- Taking a program's steps up to its pause from a state below `s₀`: where it stopped meets
`Wp`, lies below `s₀`, and its rest goes on going down. -/
theorem Always.wp_untilPause (htrans : ∀ a b c, le a b → le b c → le a c)
    {post : α → σ → Prop} :
    ∀ {p : Steps σ α} {s₀ s : σ}, p.Always le → le s₀ s → p.Wp inv le post s →
      p.untilPause.Wp inv le (fun h s' => Halt.Wp inv le post h s' ∧ le s₀ s' ∧ Halt.Always le h) s
  | done _, _, _, _, hle, h => ⟨h, hle, trivial⟩
  | step _ n, _, s, ha, hle, h =>
    Always.wp_untilPause htrans (p := n s) (ha s).2 (htrans _ _ _ hle (ha s).1) h
  | pause _ _ _, _, _, ha, hle, h => ⟨h, hle, ha⟩

/-! ## Programs that may fail -/

section Except

variable {ε ε' : Type} {err : ε → σ → Prop} {ok : α → σ → Prop} {s : σ}

theorem wp_pure (a : α) (h : ok a s) :
    (pure a : ExceptT ε (Steps σ) α).run.Wp inv le (Ends err ok) s := h

theorem wp_throw (e : ε) (h : err e s) :
    (throw e : ExceptT ε (Steps σ) α).run.Wp inv le (Ends err ok) s := h

/-- A failure ends the program: what would follow it never runs. -/
theorem wp_throw_bind {f : α → ExceptT ε (Steps σ) β} {Q : β → σ → Prop} (e : ε) (h : err e s) :
    (throw e >>= f).run.Wp inv le (Ends err Q) s := h

theorem wp_bind {m : ExceptT ε (Steps σ) α} {f : α → ExceptT ε (Steps σ) β} {P : α → σ → Prop}
    {Q : β → σ → Prop} (hm : m.run.Wp inv le (Ends err P) s)
    (hf : ∀ a s, P a s → (f a).run.Wp inv le (Ends err Q) s) :
    (m >>= f).run.Wp inv le (Ends err Q) s :=
  Wp.bind (p := m.run) (fun r s hr => match r, hr with
    | .ok a, h => hf a s h
    | .error _, h => h) hm

theorem wp_map {f : α → β} {m : ExceptT ε (Steps σ) α} {P : α → σ → Prop} {Q : β → σ → Prop}
    (hm : m.run.Wp inv le (Ends err P) s) (hf : ∀ a s, P a s → Q (f a) s) :
    (f <$> m).run.Wp inv le (Ends err Q) s :=
  Wp.bind (p := m.run) (fun r s hr => match r, hr with
    | .ok a, h => hf a s h
    | .error _, h => h) hm

theorem wp_discard {m : ExceptT ε (Steps σ) α} {P : α → σ → Prop} {Q : PUnit → σ → Prop}
    (hm : m.run.Wp inv le (Ends err P) s) (hf : ∀ a s, P a s → Q () s) :
    (discard m).run.Wp inv le (Ends err Q) s :=
  wp_map hm hf

theorem wp_tryCatch {m : ExceptT ε (Steps σ) α} {h : ε → ExceptT ε (Steps σ) α}
    {err' : ε → σ → Prop} (hm : m.run.Wp inv le (Ends err' ok) s)
    (hh : ∀ e s, err' e s → (h e).run.Wp inv le (Ends err ok) s) :
    (tryCatch m h).run.Wp inv le (Ends err ok) s :=
  Wp.bind (p := m.run) (fun r s hr => match r, hr with
    | .ok _, h => h
    | .error e, he => hh e s he) hm

theorem wp_adapt {f : ε → ε'} {err : ε' → σ → Prop} {m : ExceptT ε (Steps σ) α}
    (hm : m.run.Wp inv le (Ends (fun e => err (f e)) ok) s) :
    (ExceptT.adapt f m).run.Wp inv le (Ends err ok) s :=
  Wp.bind (p := m.run) (fun r _ hr => match r, hr with
    | .ok _, h => h
    | .error _, h => h) hm

theorem wp_lift {p : Steps σ α} (hp : p.Wp inv le ok s) :
    (ExceptT.lift p : ExceptT ε (Steps σ) α).run.Wp inv le (Ends err ok) s :=
  Wp.bind (fun _ _ h => h) hp

theorem wp_modifyGet {f : σ → α × σ} (h : ok (f s).1 (f s).2) :
    (modifyGet f : ExceptT ε (Steps σ) α).run.Wp inv le (Ends err ok) s := h

theorem wp_liftExcept {r : Except ε α} (h : Ends err ok r s) :
    (liftExcept r : ExceptT ε (Steps σ) α).run.Wp inv le (Ends err ok) s := by
  cases r <;> exact h

/-- A fold meets `Wp` when each of its steps takes `R` of the elements left to `R` of the
rest, and `R` with no element left gives `Q`. -/
theorem wp_foldlM {f : β → α → ExceptT ε (Steps σ) β} {R : List α → β → σ → Prop}
    {Q : β → σ → Prop}
    (hf : ∀ a l b s, R (a :: l) b s → (f b a).run.Wp inv le (Ends err (R l)) s)
    (hend : ∀ b s, R [] b s → Q b s) :
    ∀ (l : List α) (init : β) (s : σ), R l init s →
      (l.foldlM f init).run.Wp inv le (Ends err Q) s
  | [], init, s, h => wp_pure (ε := ε) init (hend init s h)
  | a :: l, init, s, h => wp_bind (hf a l init s h) fun b s' hb => wp_foldlM hf hend l b s' hb

theorem always_pure (a : α) : (pure a : ExceptT ε (Steps σ) α).run.Always le := trivial

theorem always_throw (e : ε) : (throw e : ExceptT ε (Steps σ) α).run.Always le := trivial

theorem always_bind {m : ExceptT ε (Steps σ) α} {f : α → ExceptT ε (Steps σ) β}
    (hm : m.run.Always le) (hf : ∀ a, (f a).run.Always le) : (m >>= f).run.Always le :=
  Always.bind (p := m.run) (fun r => match r with
    | .ok a => hf a
    | .error _ => trivial) hm

theorem always_map {f : α → β} {m : ExceptT ε (Steps σ) α} (hm : m.run.Always le) :
    (f <$> m).run.Always le :=
  Always.bind (p := m.run) (fun r => match r with
    | .ok _ => trivial
    | .error _ => trivial) hm

theorem always_tryCatch {m : ExceptT ε (Steps σ) α} {h : ε → ExceptT ε (Steps σ) α}
    (hm : m.run.Always le) (hh : ∀ e, (h e).run.Always le) : (tryCatch m h).run.Always le :=
  Always.bind (p := m.run) (fun r => match r with
    | .ok _ => trivial
    | .error e => hh e) hm

theorem always_adapt {f : ε → ε'} {m : ExceptT ε (Steps σ) α} (hm : m.run.Always le) :
    (ExceptT.adapt f m).run.Always le :=
  Always.bind (p := m.run) (fun r => match r with
    | .ok _ => trivial
    | .error _ => trivial) hm

theorem always_lift {p : Steps σ α} (hp : p.Always le) :
    (ExceptT.lift p : ExceptT ε (Steps σ) α).run.Always le :=
  Always.bind (fun _ => by trivial) hp

theorem always_modifyGet {f : σ → α × σ} (h : ∀ s, le s (f s).2) :
    (modifyGet f : ExceptT ε (Steps σ) α).run.Always le :=
  fun s => ⟨h s, trivial⟩

theorem always_liftExcept (r : Except ε α) :
    (liftExcept r : ExceptT ε (Steps σ) α).run.Always le := by
  cases r <;> trivial

theorem always_foldlM {f : β → α → ExceptT ε (Steps σ) β} (hf : ∀ b a, (f b a).run.Always le) :
    ∀ (l : List α) (init : β), (l.foldlM f init).run.Always le
  | [], _ => trivial
  | a :: l, init => always_bind (hf init a) fun b => always_foldlM hf l b

end Except

end Steps

/-! ## Handlers run side by side

Each handler of a scan runs alone up to its pause; while it sleeps, the others run.  A handler
that meets `Wp` from every state with `inv` below the one it stopped in, and whose every step
goes down in `le`, finds on waking a state the others left below the one it stopped in. -/

namespace Pool

open Steps

variable {inv : Env → Prop} {le : Env → Env → Prop}

/-- Handler `m`, started or resumed in a state with `inv` below `s`, meets `Wp`; and each of
its steps goes down in `le`. -/
def Runs (inv : Env → Prop) (le : Env → Env → Prop) (m : CoordM Bool) (s : Env) : Prop :=
  m.run.Always le ∧ ∀ s', inv s' → le s s' → m.run.Wp inv le (fun _ s => inv s) s'

/-- Every handler of the pool runs: those waiting to start from every state, those ready or
asleep from the states below `s`. -/
def Settles (inv : Env → Prop) (le : Env → Env → Prop) (p : Pool) (s : Env) : Prop :=
  (∀ h ∈ p.queued, ∀ s, Runs inv le h.2 s) ∧ (∀ h ∈ p.ready, Runs inv le h.2 s) ∧
    ∀ sl ∈ p.sleepers, Runs inv le sl.resume s

section

variable (hrefl : ∀ s, le s s) (htrans : ∀ a b c, le a b → le b c → le a c)

include htrans in
theorem Runs.mono {m : CoordM Bool} {s s₁ : Env} (h : Runs inv le m s) (hle : le s s₁) :
    Runs inv le m s₁ :=
  ⟨h.1, fun s' hs' hle' => h.2 s' hs' (htrans _ _ _ hle hle')⟩

include htrans in
theorem Settles.mono {p : Pool} {s s₁ : Env} (hp : p.Settles inv le s) (hle : le s s₁) :
    p.Settles inv le s₁ :=
  ⟨hp.1, fun h hh => (hp.2.1 h hh).mono htrans hle,
    fun sl hsl => (hp.2.2 sl hsl).mono htrans hle⟩

theorem Settles.wake {p : Pool} {s : Env} (hp : p.Settles inv le s) (t : Nat) :
    (p.wake t).Settles inv le s := by
  obtain ⟨hq, hr, hs⟩ := hp
  refine ⟨hq, fun h hh => ?_, fun sl hsl => hs sl (List.mem_filter.1 hsl).1⟩
  rcases List.mem_append.1 hh with hh | hh
  · exact hr h hh
  · obtain ⟨sl, hsl, rfl⟩ := List.mem_map.1 hh
    exact hs sl (List.mem_filter.1 hsl).1

/-- A pause needs `inv`, and leaves a state with `inv` below. -/
theorem wp_pauseUntil {err : CoordError → Env → Prop} {wake timer : Nat} {s : Env}
    (hs : inv s) :
    (CoordM.pauseUntil wake timer).run.Wp inv le (Ends err fun _ s' => inv s' ∧ le s s') s :=
  wp_lift ⟨hs, fun _ hs' hle => ⟨hs', hle⟩⟩

theorem wp_attempt {m : CoordM Bool} {s : Env} (hm : m.run.Wp inv le (fun _ s => inv s) s) :
    (attempt m).run.Wp inv le (Ends (fun _ s => inv s) fun _ s => inv s) s :=
  have hm' : m.run.Wp inv le (Ends (fun _ s => inv s) fun _ s => inv s) s :=
    hm.mono fun r _ h => match r with
      | .ok _ => h
      | .error _ => h
  wp_tryCatch hm' fun _ _ h => wp_pure false h

theorem always_attempt {m : CoordM Bool} (hm : m.run.Always le) : (attempt m).run.Always le :=
  always_tryCatch hm fun _ => always_pure false

include hrefl htrans in
/-- Running the next ready handler up to its end or its pause leaves a state with `inv` below
and a pool that settles, when `advance` does so from every such pool. -/
theorem wp_runReady {fuel : Nat}
    (hadvance : ∀ (q : Pool) (s : Env), q.Settles inv le s → inv s →
      (q.advance fuel).run.Wp inv le
        (Ends (fun _ s => inv s) fun q s => q.Settles inv le s ∧ inv s) s)
    {p : Pool} {s : Env} (hp : p.Settles inv le s) (hs : inv s) :
    (advance.runReady fuel p).run.Wp inv le
      (Ends (fun _ s => inv s) fun q s => q.Settles inv le s ∧ inv s) s := by
  obtain ⟨hq, hr, hsl⟩ := hp
  rw [advance.runReady.eq_1]
  split
  · rename_i xid m rest hready
    have hm := hr (xid, m) (by simp [hready])
    have hrest : ∀ h ∈ rest, Runs inv le h.2 s := fun h hh => hr h (by simp [hready, hh])
    have hseg := (always_attempt hm.1).wp_untilPause htrans (hrefl s)
      (wp_attempt (hm.2 s hs (hrefl s)))
    refine wp_bind (wp_lift hseg) fun halt s' ⟨hhalt, hle, hrest'⟩ => ?_
    have hkeep : Settles inv le { p with ready := rest } s' :=
      (Settles.mono htrans (p := { p with ready := rest }) ⟨hq, hrest, hsl⟩ hle)
    cases halt with
    | ended r =>
      -- the handler ended: the state it left has `inv` whatever its outcome
      have hs' : inv s' := by
        cases r with
        | ok _ => exact hhalt
        | error _ => exact hhalt
      exact hadvance _ s' hkeep hs'
    | paused wake timer k =>
      -- the handler sleeps: its rest goes on from whatever state the others leave below
      refine hadvance _ s' ⟨hkeep.1, hkeep.2.1, fun sl hmem => ?_⟩ hhalt.1
      rcases List.mem_append.1 hmem with hmem | hmem
      · exact hkeep.2.2 sl hmem
      · rw [List.mem_singleton.1 hmem]
        exact ⟨hrest', fun s'' hs'' hle' => (hhalt.2 s'' hs'' hle').mono fun r _ h =>
          match r with
          | .ok _ => h
          | .error _ => h⟩
  · exact wp_pure p ⟨⟨hq, hr, hsl⟩, hs⟩

include hrefl htrans in
/-- Starting and running handlers until every unfinished one sleeps leaves a state with `inv`
and a pool that settles.  By induction on the fuel. -/
theorem wp_advance :
    ∀ (fuel : Nat) (p : Pool) (s : Env), p.Settles inv le s → inv s →
      (p.advance fuel).run.Wp inv le
        (Ends (fun _ s => inv s) fun q s => q.Settles inv le s ∧ inv s) s
  | 0, p, s, hp, hs => by
    rw [advance.eq_1]
    exact wp_pure p ⟨hp, hs⟩
  | fuel + 1, p, s, hp, hs => by
    rw [advance.eq_2]
    obtain ⟨hq, hr, hsl⟩ := hp
    split
    · rename_i m ms hqueued
      split
      · refine wp_advance fuel _ s
          ⟨fun h hh => hq h (by simp [hqueued, hh]), fun h hh => ?_, hsl⟩ hs
        rcases List.mem_append.1 hh with hh | hh
        · exact hr h hh
        · exact hq h (by simp [hqueued, List.mem_singleton.1 hh]) s
      · exact wp_runReady hrefl htrans (wp_advance fuel) ⟨hq, hr, hsl⟩ hs
    · exact wp_runReady hrefl htrans (wp_advance fuel) ⟨hq, hr, hsl⟩ hs

include hrefl htrans in
/-- A scan run without a lease lock leaves a state with `inv` when each of its handlers meets
`Wp` and goes down in `le`, also across the pauses where every handler sleeps. -/
theorem wp_run_none :
    ∀ (fuel : Nat) (p : Pool) (s : Env), p.Settles inv le s → inv s →
      (p.run none fuel).run.Wp inv le (Ends (fun _ s => inv s) fun _ s => inv s) s
  | 0, p, _, _, hs => wp_pure (ScanEnd.finished p.handled) hs
  | fuel + 1, p, s, hp, hs => by
    unfold Pool.run
    refine wp_bind (wp_advance hrefl htrans _ p s hp hs) fun q s' hq => ?_
    split
    · exact wp_pure _ hq.2
    · exact wp_bind (wp_pauseUntil hq.2) fun _ s'' hs'' =>
        wp_run_none fuel _ s'' ((hq.1.mono htrans hs''.2).wake _) hs''.1

end

end Pool

end GlobalTxn
