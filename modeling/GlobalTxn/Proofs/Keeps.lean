import GlobalTxn.Proofs.Run

/-! # Programs that keep a property at every step

`Steps.Keeps inv post p` says that every atomic step of `p`, taken from a state with `inv`,
leads to a state with `inv`, and that `p` ends with a result `post` admits.  The steps of `p`
may read any state with `inv`, not only the one its previous step left: other programs whose
steps keep `inv` may run in between, as the handlers of a scan do, and the property holds of
every interleaving at once.  This is the rely-guarantee reading of a global invariant: each
program guarantees `inv` and relies on the others to keep it.

The rules follow the way programs are built:

* for `Steps`: `done`, `step`, `pause`, `bind`, `untilPause`, and `Keeps.run`, which reads the
  property back on a program run alone;
* for programs that may fail (`ExceptT ε (Steps σ)`), with the outcome split by `Outcome` into
  what failures and successes must satisfy: `pure`, `throw`, binding, catching, adapting the
  failure, lifting, `modifyGet`, and folds;
* for one atomic step made of a state computation (`Steps.atomic`), the same rules inside the
  step, so that a store call is taken apart like a program.
-/

namespace GlobalTxn

/-- An outcome that is a failure `err` admits or a success `ok` admits. -/
def Outcome {ε α : Type} (err : ε → Prop) (ok : α → Prop) : Except ε α → Prop
  | .ok a => ok a
  | .error e => err e

theorem outcome_true {ε α : Type} (r : Except ε α) : Outcome (fun _ => True) (fun _ => True) r := by
  cases r <;> trivial

theorem Outcome.mono {ε α : Type} {err err' : ε → Prop} {ok ok' : α → Prop}
    (herr : ∀ e, err e → err' e) (hok : ∀ a, ok a → ok' a) :
    ∀ {r : Except ε α}, Outcome err ok r → Outcome err' ok' r
  | .ok a, h => hok a h
  | .error e, h => herr e h

namespace Steps

variable {σ α β : Type}

/-- Every step of `p` from a state with `inv` leads to a state with `inv`, and `p` ends with
a result `post` admits. -/
def Keeps (inv : σ → Prop) (post : α → Prop) : Steps σ α → Prop
  | done a => post a
  | step u n => ∀ s, inv s → inv (u s) ∧ Keeps inv post (n s)
  | pause _ _ n => Keeps inv post n

variable {inv : σ → Prop}

theorem Keeps.mono {P Q : α → Prop} (hPQ : ∀ a, P a → Q a) :
    ∀ {p : Steps σ α}, p.Keeps inv P → p.Keeps inv Q
  | done a, h => hPQ a h
  | step _ _, h => fun s hs => ⟨(h s hs).1, Keeps.mono hPQ (h s hs).2⟩
  | pause _ _ n, h => Keeps.mono (p := n) hPQ h

/-- Run alone from a state with `inv`, a program that keeps `inv` ends in a state with `inv`
and with a result `post` admits. -/
theorem Keeps.run {post : α → Prop} :
    ∀ {p : Steps σ α} {s : σ}, p.Keeps inv post → inv s → inv (p.run s).2 ∧ post (p.run s).1
  | done _, _, h, hs => ⟨hs, h⟩
  | step _ n, s, h, hs => Keeps.run (p := n s) (h s hs).2 (h s hs).1
  | pause _ _ n, _, h, hs => Keeps.run (p := n) h hs

theorem Keeps.bind {P : α → Prop} {Q : β → Prop} {f : α → Steps σ β}
    (hf : ∀ a, P a → (f a).Keeps inv Q) :
    ∀ {p : Steps σ α}, p.Keeps inv P → (p.bind f).Keeps inv Q
  | done a, h => hf a h
  | step _ _, h => fun s hs => ⟨(h s hs).1, Keeps.bind hf (h s hs).2⟩
  | pause _ _ n, h => Keeps.bind (p := n) hf h

theorem Keeps.atomic {post : α → Prop} {act : StateM σ α}
    (h : ∀ s, inv s → inv (act s).2 ∧ post (act s).1) : (atomic act).Keeps inv post :=
  fun s hs => h s hs

/-- Where a program stopped keeps the property: its result is admitted, or its rest keeps
`inv` and ends with an admitted result. -/
def Halt.Keeps (inv : σ → Prop) (post : α → Prop) : Halt σ α → Prop
  | .ended a => post a
  | .paused _ _ rest => rest.Keeps inv post

theorem Keeps.untilPause {post : α → Prop} :
    ∀ {p : Steps σ α}, p.Keeps inv post → p.untilPause.Keeps inv (Halt.Keeps inv post)
  | done _, h => h
  | step _ _, h => fun s hs => ⟨(h s hs).1, Keeps.untilPause (h s hs).2⟩
  | pause _ _ _, h => h

/-! ## Programs that may fail -/

section Except

variable {ε ε' : Type} {err : ε → Prop} {ok : α → Prop}

theorem keeps_pure (a : α) (h : ok a) :
    (pure a : ExceptT ε (Steps σ) α).run.Keeps inv (Outcome err ok) := h

theorem keeps_throw (e : ε) (h : err e) :
    (throw e : ExceptT ε (Steps σ) α).run.Keeps inv (Outcome err ok) := h

theorem keeps_bind {m : ExceptT ε (Steps σ) α} {f : α → ExceptT ε (Steps σ) β} {P : α → Prop}
    {Q : β → Prop} (hm : m.run.Keeps inv (Outcome err P))
    (hf : ∀ a, P a → (f a).run.Keeps inv (Outcome err Q)) :
    (m >>= f).run.Keeps inv (Outcome err Q) :=
  Keeps.bind (p := m.run) (fun r hr => match r, hr with
    | .ok a, h => hf a h
    | .error _, h => h) hm

theorem keeps_map {f : α → β} {m : ExceptT ε (Steps σ) α} {P : α → Prop} {Q : β → Prop}
    (hm : m.run.Keeps inv (Outcome err P)) (hf : ∀ a, P a → Q (f a)) :
    (f <$> m).run.Keeps inv (Outcome err Q) :=
  Keeps.bind (p := m.run) (fun r hr => match r, hr with
    | .ok a, h => hf a h
    | .error _, h => h) hm

theorem keeps_discard {m : ExceptT ε (Steps σ) α} {P : α → Prop}
    (hm : m.run.Keeps inv (Outcome err P)) :
    (discard m).run.Keeps inv (Outcome err fun _ => True) :=
  Keeps.bind (p := m.run) (fun r hr => match r, hr with
    | .ok _, _ => trivial
    | .error _, h => h) hm

theorem keeps_tryCatch {m : ExceptT ε (Steps σ) α} {h : ε → ExceptT ε (Steps σ) α}
    {err' : ε → Prop} (hm : m.run.Keeps inv (Outcome err' ok))
    (hh : ∀ e, err' e → (h e).run.Keeps inv (Outcome err ok)) :
    (tryCatch m h).run.Keeps inv (Outcome err ok) :=
  Keeps.bind (p := m.run) (fun r hr => match r, hr with
    | .ok _, h => h
    | .error e, he => hh e he) hm

theorem keeps_tryCatchThe {m : ExceptT ε (Steps σ) α} {h : ε → ExceptT ε (Steps σ) α}
    {err' : ε → Prop} (hm : m.run.Keeps inv (Outcome err' ok))
    (hh : ∀ e, err' e → (h e).run.Keeps inv (Outcome err ok)) :
    (tryCatchThe ε m h).run.Keeps inv (Outcome err ok) :=
  keeps_tryCatch hm hh

theorem keeps_adapt {f : ε → ε'} {err : ε' → Prop} {m : ExceptT ε (Steps σ) α}
    (hm : m.run.Keeps inv (Outcome (fun e => err (f e)) ok)) :
    (ExceptT.adapt f m).run.Keeps inv (Outcome err ok) :=
  Keeps.bind (p := m.run) (fun r hr => match r, hr with
    | .ok _, h => h
    | .error _, h => h) hm

theorem keeps_lift {p : Steps σ α} (hp : p.Keeps inv ok) :
    (ExceptT.lift p : ExceptT ε (Steps σ) α).run.Keeps inv (Outcome err ok) :=
  Keeps.bind (fun _ h => h) hp

theorem keeps_modifyGet {f : σ → α × σ} (h : ∀ s, inv s → inv (f s).2 ∧ ok (f s).1) :
    (modifyGet f : ExceptT ε (Steps σ) α).run.Keeps inv (Outcome err ok) :=
  fun s hs => h s hs

theorem keeps_liftExcept {r : Except ε α} (h : Outcome err ok r) :
    (liftExcept r : ExceptT ε (Steps σ) α).run.Keeps inv (Outcome err ok) := by
  cases r <;> exact h

/-- A fold keeps `inv` when each of its steps does and keeps `P` of the accumulator. -/
theorem keeps_foldlM {f : β → α → ExceptT ε (Steps σ) β} {P : β → Prop}
    (hf : ∀ b a, P b → (f b a).run.Keeps inv (Outcome err P)) :
    ∀ (l : List α) (init : β), P init → (l.foldlM f init).run.Keeps inv (Outcome err P)
  | [], init, h => keeps_pure (ε := ε) init h
  | a :: l, init, h => keeps_bind (hf init a h) fun b hb => keeps_foldlM hf l b hb

theorem keeps_forM {f : α → ExceptT ε (Steps σ) PUnit}
    (hf : ∀ a, (f a).run.Keeps inv (Outcome err fun _ => True)) :
    ∀ l : List α, (l.forM f).run.Keeps inv (Outcome err fun _ => True)
  | [] => keeps_pure (ε := ε) _ trivial
  | a :: l => keeps_bind (hf a) fun _ _ => keeps_forM hf l

/-- Taking a program's steps up to its pause: where it stopped keeps the property. -/
theorem keeps_lift_untilPause {m : ExceptT ε (Steps σ) α}
    (hm : m.run.Keeps inv (Outcome err ok)) {err' : ε' → Prop} :
    (ExceptT.lift (untilPause m.run) : ExceptT ε' (Steps σ) _).run.Keeps inv
      (Outcome err' (Halt.Keeps inv (Outcome err ok))) :=
  keeps_lift hm.untilPause

end Except

/-! ## One atomic step made of a state computation -/

section Atomic

variable {ε : Type} {err : ε → Prop} {ok : α → Prop}

theorem keeps_atomic_pure (a : α) (h : ok a) :
    (atomic (pure a : ExceptT ε (StateM σ) α).run).Keeps inv (Outcome err ok) :=
  fun _ hs => ⟨hs, h⟩

theorem keeps_atomic_throw (e : ε) (h : err e) :
    (atomic (throw e : ExceptT ε (StateM σ) α).run).Keeps inv (Outcome err ok) :=
  fun _ hs => ⟨hs, h⟩

theorem keeps_atomic_bind {m : ExceptT ε (StateM σ) α} {f : α → ExceptT ε (StateM σ) β}
    {P : α → Prop} {Q : β → Prop} (hm : (atomic m.run).Keeps inv (Outcome err P))
    (hf : ∀ a, P a → (atomic (f a).run).Keeps inv (Outcome err Q)) :
    (atomic (m >>= f).run).Keeps inv (Outcome err Q) := by
  intro s hs
  obtain ⟨hs', hr⟩ := hm s hs
  change inv (m.run s).2 at hs'
  change Outcome err P (m.run s).1 at hr
  change inv (ExceptT.bindCont f (m.run s).1 (m.run s).2).2 ∧
    Outcome err Q (ExceptT.bindCont f (m.run s).1 (m.run s).2).1
  generalize m.run s = p at hs' hr ⊢
  obtain ⟨r, s'⟩ := p
  cases r with
  | ok a => exact hf a hr s' hs'
  | error e => exact ⟨hs', hr⟩

theorem keeps_atomic_get {P : σ → Prop} (h : ∀ s, inv s → P s) :
    (atomic (get : ExceptT ε (StateM σ) σ).run).Keeps inv (Outcome err P) :=
  fun s hs => ⟨hs, h s hs⟩

theorem keeps_atomic_set (s' : σ) (h : inv s') :
    (atomic (set s' : ExceptT ε (StateM σ) PUnit).run).Keeps inv (Outcome err fun _ => True) :=
  fun _ _ => ⟨h, trivial⟩

theorem keeps_atomic_modify {f : σ → σ} (h : ∀ s, inv s → inv (f s)) :
    (atomic (modify f : ExceptT ε (StateM σ) PUnit).run).Keeps inv (Outcome err fun _ => True) :=
  fun s hs => ⟨h s hs, trivial⟩

theorem keeps_atomic_modifyGet {f : σ → α × σ} (h : ∀ s, inv s → inv (f s).2 ∧ ok (f s).1) :
    (atomic (modifyGet f : ExceptT ε (StateM σ) α).run).Keeps inv (Outcome err ok) :=
  fun s hs => h s hs

theorem keeps_atomic_liftExcept {r : Except ε α} (h : Outcome err ok r) :
    (atomic (liftExcept r : ExceptT ε (StateM σ) α).run).Keeps inv (Outcome err ok) := by
  cases r <;> exact fun _ hs => ⟨hs, h⟩

theorem keeps_atomic_tryCatch {m : ExceptT ε (StateM σ) α} {h : ε → ExceptT ε (StateM σ) α}
    {err' : ε → Prop} (hm : (atomic m.run).Keeps inv (Outcome err' ok))
    (hh : ∀ e, err' e → (atomic (h e).run).Keeps inv (Outcome err ok)) :
    (atomic (tryCatch m h).run).Keeps inv (Outcome err ok) := by
  intro s hs
  obtain ⟨hs', hr⟩ := hm s hs
  change inv (m.run.run s).2 at hs'
  change Outcome err' ok (m.run.run s).1 at hr
  change inv ((tryCatch m h).run.run s).2 ∧ Outcome err ok ((tryCatch m h).run.run s).1
  rw [ExceptT.run_tryCatch, StateT.run_bind]
  generalize m.run.run s = p at hs' hr ⊢
  obtain ⟨r, s'⟩ := p
  cases r with
  | ok a => exact ⟨hs', hr⟩
  | error e => exact hh e hr s' hs'

theorem keeps_atomic_mono {m : ExceptT ε (StateM σ) α} {err' : ε → Prop} {ok' : α → Prop}
    (h : (atomic m.run).Keeps inv (Outcome err ok)) (herr : ∀ e, err e → err' e)
    (hok : ∀ a, ok a → ok' a) : (atomic m.run).Keeps inv (Outcome err' ok') :=
  Keeps.mono (fun _ => Outcome.mono herr hok) h

end Atomic

end Steps

/-! ## Handlers run side by side

A scan runs its handlers as a `Pool`: each handler runs up to its pause, sleeps, and goes on
later, between the steps of the others.  The pool keeps a property when every handler does,
whatever the order the handlers' steps are taken in. -/

namespace Pool

open Steps

variable {inv : Env → Prop}

/-- Every handler of the pool, waiting to start, ready or asleep, keeps `inv` at each step. -/
def Keeps (inv : Env → Prop) (p : Pool) : Prop :=
  (∀ h ∈ p.queued, h.2.run.Keeps inv fun _ => True) ∧
    (∀ h ∈ p.ready, h.2.run.Keeps inv fun _ => True) ∧
    ∀ s ∈ p.sleepers, s.resume.run.Keeps inv fun _ => True

theorem keeps_pauseUntil {err : CoordError → Prop} {wake timer : Nat} :
    (CoordM.pauseUntil wake timer).run.Keeps inv (Outcome err fun _ => True) :=
  keeps_lift (show (pause wake timer (pure ())).Keeps inv fun _ => True from trivial)

theorem keeps_attempt {m : CoordM Bool} (hm : m.run.Keeps inv fun _ => True)
    {err : CoordError → Prop} : (attempt m).run.Keeps inv (Outcome err fun _ => True) :=
  keeps_tryCatch (hm.mono fun r _ => outcome_true r) fun _ _ => keeps_pure false trivial

theorem Keeps.wake {p : Pool} (hp : p.Keeps inv) (t : Nat) : (p.wake t).Keeps inv := by
  obtain ⟨hq, hr, hs⟩ := hp
  refine ⟨hq, fun h hh => ?_, fun s hsm => hs s (List.mem_filter.1 hsm).1⟩
  rcases List.mem_append.1 hh with hh | hh
  · exact hr h hh
  · obtain ⟨s, hsm, rfl⟩ := List.mem_map.1 hh
    exact hs s (List.mem_filter.1 hsm).1

/-- Running the next ready handler up to its end or its pause keeps `inv`, and leaves a pool
whose handlers keep it, when `advance` does so for every pool. -/
theorem keeps_runReady {err : CoordError → Prop} {fuel : Nat}
    (hadvance : ∀ q : Pool, q.Keeps inv →
      (q.advance fuel).run.Keeps inv (Outcome err (Pool.Keeps inv)))
    {p : Pool} (hp : p.Keeps inv) :
    (advance.runReady fuel p).run.Keeps inv (Outcome err (Pool.Keeps inv)) := by
  obtain ⟨hq, hr, hs⟩ := hp
  rw [advance.runReady.eq_1]
  split
  · rename_i xid m rest hready
    have hm := hr (xid, m) (by simp [hready])
    have hrest : ∀ h ∈ rest, h.2.run.Keeps inv fun _ => True := fun h hh =>
      hr h (by simp [hready, hh])
    refine keeps_bind (keeps_lift_untilPause
      (keeps_attempt hm : (attempt m).run.Keeps inv (Outcome (fun _ => True) fun _ => True)))
      fun halt hhalt => ?_
    cases halt with
    | ended r => exact hadvance _ ⟨hq, hrest, hs⟩
    | paused wake timer k =>
      refine hadvance _ ⟨hq, hrest, fun sl hsl => ?_⟩
      rcases List.mem_append.1 hsl with hsl | hsl
      · exact hs sl hsl
      · rw [List.mem_singleton.1 hsl]
        exact hhalt.mono fun r _ => trivial
  · exact keeps_pure p ⟨hq, hr, hs⟩

/-- Starting and running handlers until every unfinished one sleeps keeps `inv`, and every
handler left in the pool still keeps it.  By induction on the fuel, which `advance` and
`runReady` spend in turn. -/
theorem keeps_advance {err : CoordError → Prop} :
    ∀ (fuel : Nat) (p : Pool), p.Keeps inv →
      (p.advance fuel).run.Keeps inv (Outcome err (Pool.Keeps inv))
  | 0, p, hp => by
    rw [advance.eq_1]
    exact keeps_pure p hp
  | fuel + 1, p, hp => by
    rw [advance.eq_2]
    obtain ⟨hq, hr, hs⟩ := hp
    split
    · rename_i m ms hqueued
      split
      · refine keeps_advance fuel _ ⟨fun h hh => hq h (by simp [hqueued, hh]), fun h hh => ?_, hs⟩
        rcases List.mem_append.1 hh with hh | hh
        · exact hr h hh
        · exact hq h (by simp [hqueued, List.mem_singleton.1 hh])
      · exact keeps_runReady (keeps_advance fuel) ⟨hq, hr, hs⟩
    · exact keeps_runReady (keeps_advance fuel) ⟨hq, hr, hs⟩

/-- A scan run without a lease lock keeps `inv` when each of its handlers does. -/
theorem keeps_run_none {err : CoordError → Prop} :
    ∀ (fuel : Nat) (p : Pool), p.Keeps inv →
      (p.run none fuel).run.Keeps inv (Outcome err fun _ => True)
  | 0, p, _ => keeps_pure (ScanEnd.finished p.handled) trivial
  | fuel + 1, p, hp => by
    unfold Pool.run
    refine keeps_bind (keeps_advance _ p hp) fun q hq => ?_
    split
    · exact keeps_pure _ trivial
    · exact keeps_bind keeps_pauseUntil fun _ _ => keeps_run_none fuel _ (hq.wake _)

end Pool

end GlobalTxn
