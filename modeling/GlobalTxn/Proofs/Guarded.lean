import Mathlib
import GlobalTxn.Proofs.Wp

/-! # Programs run alone between their pauses, step by step

`Steps.Guarded inv le g post p s` is `Steps.Wp inv le post p s` with a guarantee on every step:
each step of `p` goes from one state to the next as `g` allows.  Besides the two states, `g`
sees the steps that follow up to the next pause (`Steps.segment`), so that a step may promise
what the steps right after it do before anything else runs, as a request answered with success
promises that the branch is removed next.  Such a promise is kept when more steps follow
(`Steps.Lasting`), which is what lets programs be put one after the other.

Run alone, a guarded program takes only steps that `g` allows, each with all the steps that
follow it (`Guarded.allows_trace`); `Steps.trace` lists the steps of such a run.  Each handler
of a scan runs alone up to its pause, so the steps of a scan are allowed too when those of
every handler are (`Pool.guarded_run_none`).

## Key results

- `Steps.Guarded.bind`: a guarded program followed by guarded ones is guarded.
- `Steps.Guarded.allows_trace`: a guarded program run alone takes allowed steps only.
- `Pool.guarded_run_none`: a scan whose handlers are guarded is guarded, when every
  allowed step goes down in the order the handlers rely on.
-/

namespace GlobalTxn

namespace Steps

variable {σ α β : Type}

/-- The steps of `p` from `s` up to its next pause or its end, each as the states before and
after it. -/
def segment : Steps σ α → σ → List (σ × σ)
  | done _, _ => []
  | step u n, s => (s, u s) :: segment (n s) (u s)
  | pause _ _ _, _ => []

/-- The steps of `p` run alone from `s`, as `run` takes them. -/
def trace : Steps σ α → σ → List (σ × σ)
  | done _, _ => []
  | step u n, s => (s, u s) :: trace (n s) (u s)
  | pause _ _ n, s => trace n s

theorem segment_prefix_segment_bind (f : α → Steps σ β) :
    ∀ (p : Steps σ α) (s : σ), segment p s <+: segment (p.bind f) s
  | done _, _ => List.nil_prefix
  | step _ n, s => List.cons_prefix_cons.2 ⟨rfl, segment_prefix_segment_bind f (n s) _⟩
  | pause _ _ _, _ => List.nil_prefix

theorem segment_untilPause : ∀ (p : Steps σ α) (s : σ), segment p.untilPause s = segment p s
  | done _, _ => rfl
  | step _ n, s => congrArg _ (segment_untilPause (n s) _)
  | pause _ _ _, _ => rfl

theorem segment_prefix_trace : ∀ (p : Steps σ α) (s : σ), segment p s <+: trace p s
  | done _, _ => List.nil_prefix
  | step _ n, s => List.cons_prefix_cons.2 ⟨rfl, segment_prefix_trace (n s) _⟩
  | pause _ _ _, _ => List.nil_prefix

/-- `g` allows every step of a list of steps, each with the steps after it. -/
def Allows (g : σ → σ → List (σ × σ) → Prop) : List (σ × σ) → Prop
  | [] => True
  | q :: l => g q.1 q.2 l ∧ Allows g l

/-- A guarantee that more steps after the ones it sees do not break. -/
def Lasting (g : σ → σ → List (σ × σ) → Prop) : Prop :=
  ∀ s s' l l', l <+: l' → g s s' l → g s s' l'

theorem Allows.append {g : σ → σ → List (σ × σ) → Prop} (hg : Lasting g) :
    ∀ {l : List (σ × σ)} (l' : List (σ × σ)), Allows g l → Allows g l' → Allows g (l ++ l')
  | [], _, _, h' => h'
  | _ :: _, l', ⟨hq, hl⟩, h' => ⟨hg _ _ _ _ (List.prefix_append _ l') hq, Allows.append hg l' hl h'⟩

/-- The step `q` of an allowed list is allowed with the steps after it. -/
theorem Allows.of_eq_append {g : σ → σ → List (σ × σ) → Prop} {q : σ × σ} :
    ∀ (pre : List (σ × σ)) {l post : List (σ × σ)}, Allows g l → l = pre ++ q :: post →
      g q.1 q.2 post
  | [], _, _, h, rfl => h.1
  | _ :: pre, _, _, h, rfl => Allows.of_eq_append pre h.2 rfl

variable {inv : σ → Prop} {le : σ → σ → Prop} {g : σ → σ → List (σ × σ) → Prop}

/-- `p` run from `s` meets `Wp inv le post`, and each of its steps goes from a state to the next
as `g` allows, seeing the steps that follow up to the next pause. -/
def Guarded (inv : σ → Prop) (le : σ → σ → Prop) (g : σ → σ → List (σ × σ) → Prop)
    (post : α → σ → Prop) : Steps σ α → σ → Prop
  | done a, s => post a s
  | step u n, s => g s (u s) (segment (n s) (u s)) ∧ Guarded inv le g post (n s) (u s)
  | pause _ _ n, s => inv s ∧ ∀ s', inv s' → le s s' → Guarded inv le g post n s'

theorem Guarded.mono {P Q : α → σ → Prop} (hPQ : ∀ a s, P a s → Q a s) :
    ∀ {p : Steps σ α} {s : σ}, p.Guarded inv le g P s → p.Guarded inv le g Q s
  | done a, s, h => hPQ a s h
  | step _ n, s, h => ⟨h.1, Guarded.mono (p := n s) hPQ h.2⟩
  | pause _ _ n, _, h => ⟨h.1, fun s' hs' hle => Guarded.mono (p := n) hPQ (h.2 s' hs' hle)⟩

/-- A program guarded towards two post-conditions is guarded towards both. -/
theorem Guarded.and {P Q : α → σ → Prop} :
    ∀ {p : Steps σ α} {s : σ}, p.Guarded inv le g P s → p.Guarded inv le g Q s →
      p.Guarded inv le g (fun a s => P a s ∧ Q a s) s
  | done _, _, hp, hq => ⟨hp, hq⟩
  | step _ n, s, hp, hq => ⟨hp.1, Guarded.and (p := n s) hp.2 hq.2⟩
  | pause _ _ n, _, hp, hq =>
    ⟨hp.1, fun s' hs' hle => Guarded.and (p := n) (hp.2 s' hs' hle) (hq.2 s' hs' hle)⟩

theorem Guarded.bind (hg : Lasting g) {P : α → σ → Prop} {Q : β → σ → Prop}
    {f : α → Steps σ β} (hf : ∀ a s, P a s → (f a).Guarded inv le g Q s) :
    ∀ {p : Steps σ α} {s : σ}, p.Guarded inv le g P s → (p.bind f).Guarded inv le g Q s
  | done a, s, h => hf a s h
  | step _ n, s, h =>
    ⟨hg _ _ _ _ (segment_prefix_segment_bind f (n s) _) h.1, Guarded.bind hg hf (p := n s) h.2⟩
  | pause _ _ n, _, h => ⟨h.1, fun s' hs' hle => Guarded.bind hg hf (p := n) (h.2 s' hs' hle)⟩

/-- Run alone, a guarded program takes only steps `g` allows with all the steps that follow,
and ends where its post-condition holds. -/
theorem Guarded.allows_trace {post : α → σ → Prop} (hrefl : ∀ s, le s s) (hg : Lasting g) :
    ∀ {p : Steps σ α} {s : σ}, p.Guarded inv le g post s →
      Allows g (p.trace s) ∧ post (p.run s).1 (p.run s).2
  | done _, _, h => ⟨trivial, h⟩
  | step _ n, s, h =>
    have hrest := Guarded.allows_trace hrefl hg (p := n s) h.2
    ⟨⟨hg _ _ _ _ (segment_prefix_trace (n s) _) h.1, hrest.1⟩, hrest.2⟩
  | pause _ _ n, s, h => Guarded.allows_trace hrefl hg (p := n) (h.2 s h.1 (hrefl s))

/-- Where a program stopped: its result where `post` holds, or a pause in a state with `inv`
whose rest is guarded from every state with `inv` below in `le`. -/
def Halt.Guarded (inv : σ → Prop) (le : σ → σ → Prop) (g : σ → σ → List (σ × σ) → Prop)
    (post : α → σ → Prop) : Halt σ α → σ → Prop
  | .ended a, s => post a s
  | .paused _ _ rest, s => inv s ∧ ∀ s', inv s' → le s s' → rest.Guarded inv le g post s'

/-- Taking a program's steps up to its pause from a state below `s₀`, where every step `g`
allows goes down in `le`: where it stopped is guarded and lies below `s₀`. -/
theorem Guarded.untilPause (hgle : ∀ s s' l, g s s' l → le s s')
    (htrans : ∀ a b c, le a b → le b c → le a c) {post : α → σ → Prop} :
    ∀ {p : Steps σ α} {s₀ s : σ}, le s₀ s → p.Guarded inv le g post s →
      p.untilPause.Guarded inv le g (fun h s' => Halt.Guarded inv le g post h s' ∧ le s₀ s') s
  | done _, _, _, hle, h => ⟨h, hle⟩
  | step _ n, _, s, hle, h =>
    ⟨(segment_untilPause (n s) _).symm ▸ h.1,
      Guarded.untilPause hgle htrans (p := n s) (htrans _ _ _ hle (hgle _ _ _ h.1)) h.2⟩
  | pause _ _ _, _, _, hle, h => ⟨h, hle⟩

/-! ## Programs that may fail -/

section Except

variable {ε ε' : Type} {err : ε → σ → Prop} {ok : α → σ → Prop} {s : σ}

theorem guarded_pure (a : α) (h : ok a s) :
    (pure a : ExceptT ε (Steps σ) α).run.Guarded inv le g (Ends err ok) s := h

theorem guarded_throw (e : ε) (h : err e s) :
    (throw e : ExceptT ε (Steps σ) α).run.Guarded inv le g (Ends err ok) s := h

/-- A failure ends the program: what would follow it never runs. -/
theorem guarded_throw_bind {f : α → ExceptT ε (Steps σ) β} {Q : β → σ → Prop} (e : ε)
    (h : err e s) : (throw e >>= f).run.Guarded inv le g (Ends err Q) s := h

section Lasting

variable (hg : Lasting g)
include hg

theorem guarded_bind {m : ExceptT ε (Steps σ) α} {f : α → ExceptT ε (Steps σ) β}
    {P : α → σ → Prop} {Q : β → σ → Prop} (hm : m.run.Guarded inv le g (Ends err P) s)
    (hf : ∀ a s, P a s → (f a).run.Guarded inv le g (Ends err Q) s) :
    (m >>= f).run.Guarded inv le g (Ends err Q) s :=
  Guarded.bind hg (p := m.run) (fun r s hr => match r, hr with
    | .ok a, h => hf a s h
    | .error _, h => h) hm

theorem guarded_map {f : α → β} {m : ExceptT ε (Steps σ) α} {P : α → σ → Prop}
    {Q : β → σ → Prop} (hm : m.run.Guarded inv le g (Ends err P) s)
    (hf : ∀ a s, P a s → Q (f a) s) :
    (f <$> m).run.Guarded inv le g (Ends err Q) s :=
  Guarded.bind hg (p := m.run) (fun r s hr => match r, hr with
    | .ok a, h => hf a s h
    | .error _, h => h) hm

theorem guarded_discard {m : ExceptT ε (Steps σ) α} {P : α → σ → Prop}
    {Q : PUnit → σ → Prop} (hm : m.run.Guarded inv le g (Ends err P) s)
    (hf : ∀ a s, P a s → Q () s) :
    (discard m).run.Guarded inv le g (Ends err Q) s :=
  guarded_map hg hm hf

theorem guarded_tryCatch {m : ExceptT ε (Steps σ) α} {h : ε → ExceptT ε (Steps σ) α}
    {err' : ε → σ → Prop} (hm : m.run.Guarded inv le g (Ends err' ok) s)
    (hh : ∀ e s, err' e s → (h e).run.Guarded inv le g (Ends err ok) s) :
    (tryCatch m h).run.Guarded inv le g (Ends err ok) s :=
  Guarded.bind hg (p := m.run) (fun r s hr => match r, hr with
    | .ok _, h => h
    | .error e, he => hh e s he) hm

theorem guarded_adapt {f : ε → ε'} {err : ε' → σ → Prop} {m : ExceptT ε (Steps σ) α}
    (hm : m.run.Guarded inv le g (Ends (fun e => err (f e)) ok) s) :
    (ExceptT.adapt f m).run.Guarded inv le g (Ends err ok) s :=
  Guarded.bind hg (p := m.run) (fun r _ hr => match r, hr with
    | .ok _, h => h
    | .error _, h => h) hm

theorem guarded_lift {p : Steps σ α} (hp : p.Guarded inv le g ok s) :
    (ExceptT.lift p : ExceptT ε (Steps σ) α).run.Guarded inv le g (Ends err ok) s :=
  Guarded.bind hg (fun _ _ h => h) hp

/-- A fold is guarded when each of its steps takes `R` of the elements left to `R` of the
rest, and `R` with no element left gives `Q`. -/
theorem guarded_foldlM {f : β → α → ExceptT ε (Steps σ) β} {R : List α → β → σ → Prop}
    {Q : β → σ → Prop}
    (hf : ∀ a l b s, R (a :: l) b s → (f b a).run.Guarded inv le g (Ends err (R l)) s)
    (hend : ∀ b s, R [] b s → Q b s) :
    ∀ (l : List α) (init : β) (s : σ), R l init s →
      (l.foldlM f init).run.Guarded inv le g (Ends err Q) s
  | [], init, s, h => guarded_pure (ε := ε) init (hend init s h)
  | a :: l, init, s, h =>
    guarded_bind hg (hf a l init s h) fun b s' hb => guarded_foldlM hf hend l b s' hb

end Lasting

/-- One step that changes the state by `f`, allowed by `g` with no step after it. -/
theorem guarded_modifyGet {f : σ → α × σ} (hg : g s (f s).2 []) (h : ok (f s).1 (f s).2) :
    (modifyGet f : ExceptT ε (Steps σ) α).run.Guarded inv le g (Ends err ok) s :=
  ⟨hg, h⟩

theorem guarded_liftExcept {r : Except ε α} (h : Ends err ok r s) :
    (liftExcept r : ExceptT ε (Steps σ) α).run.Guarded inv le g (Ends err ok) s := by
  cases r <;> exact h

end Except

end Steps

/-! ## Handlers run side by side -/

namespace Pool

open Steps

variable {inv : Env → Prop} {le : Env → Env → Prop} {g : Env → Env → List (Env × Env) → Prop}

/-- Handler `m`, started or resumed in a state with `inv` below `s`, is guarded. -/
def GuardedRuns (inv : Env → Prop) (le : Env → Env → Prop)
    (g : Env → Env → List (Env × Env) → Prop) (m : CoordM Bool) (s : Env) : Prop :=
  ∀ s', inv s' → le s s' → m.run.Guarded inv le g (fun _ s => inv s) s'

/-- Every handler of the pool is guarded: those waiting to start from every state, those
ready or asleep from the states below `s`. -/
def GuardedSettles (inv : Env → Prop) (le : Env → Env → Prop)
    (g : Env → Env → List (Env × Env) → Prop) (p : Pool) (s : Env) : Prop :=
  (∀ h ∈ p.queued, ∀ s, GuardedRuns inv le g h.2 s) ∧ (∀ h ∈ p.ready, GuardedRuns inv le g h.2 s) ∧
    ∀ sl ∈ p.sleepers, GuardedRuns inv le g sl.resume s

section

variable (hrefl : ∀ s, le s s) (htrans : ∀ a b c, le a b → le b c → le a c) (hg : Lasting g)
  (hgle : ∀ s s' l, g s s' l → le s s')

include htrans in
theorem GuardedRuns.mono {m : CoordM Bool} {s s₁ : Env} (h : GuardedRuns inv le g m s)
    (hle : le s s₁) : GuardedRuns inv le g m s₁ :=
  fun s' hs' hle' => h s' hs' (htrans _ _ _ hle hle')

include htrans in
theorem GuardedSettles.mono {p : Pool} {s s₁ : Env} (hp : p.GuardedSettles inv le g s)
    (hle : le s s₁) : p.GuardedSettles inv le g s₁ :=
  ⟨hp.1, fun h hh => (hp.2.1 h hh).mono htrans hle,
    fun sl hsl => (hp.2.2 sl hsl).mono htrans hle⟩

theorem GuardedSettles.wake {p : Pool} {s : Env} (hp : p.GuardedSettles inv le g s) (t : Nat) :
    (p.wake t).GuardedSettles inv le g s := by
  obtain ⟨hq, hr, hs⟩ := hp
  refine ⟨hq, fun h hh => ?_, fun sl hsl => hs sl (List.mem_filter.1 hsl).1⟩
  rcases List.mem_append.1 hh with hh | hh
  · exact hr h hh
  · obtain ⟨sl, hsl, rfl⟩ := List.mem_map.1 hh
    exact hs sl (List.mem_filter.1 hsl).1

/-- A pause needs `inv`, and leaves a state with `inv` below. -/
theorem guarded_pauseUntil {err : CoordError → Env → Prop} {wake timer : Nat} {s : Env}
    (hs : inv s) :
    (CoordM.pauseUntil wake timer).run.Guarded inv le g
      (Ends err fun _ s' => inv s' ∧ le s s') s :=
  ⟨hs, fun _ hs' hle => ⟨hs', hle⟩⟩

include hg in
theorem guarded_attempt {m : CoordM Bool} {s : Env}
    (hm : m.run.Guarded inv le g (fun _ s => inv s) s) :
    (attempt m).run.Guarded inv le g (Ends (fun _ s => inv s) fun _ s => inv s) s :=
  have hm' : m.run.Guarded inv le g (Ends (fun _ s => inv s) fun _ s => inv s) s :=
    hm.mono fun r _ h => match r with
      | .ok _ => h
      | .error _ => h
  guarded_tryCatch hg hm' fun _ _ h => guarded_pure false h

include hrefl htrans hg hgle in
/-- Running the next ready handler up to its end or its pause leaves a state with `inv` below
and a pool that settles, when `advance` does so from every such pool. -/
theorem guarded_runReady {fuel : Nat}
    (hadvance : ∀ (q : Pool) (s : Env), q.GuardedSettles inv le g s → inv s →
      (q.advance fuel).run.Guarded inv le g
        (Ends (fun _ s => inv s) fun q s => q.GuardedSettles inv le g s ∧ inv s) s)
    {p : Pool} {s : Env} (hp : p.GuardedSettles inv le g s) (hs : inv s) :
    (advance.runReady fuel p).run.Guarded inv le g
      (Ends (fun _ s => inv s) fun q s => q.GuardedSettles inv le g s ∧ inv s) s := by
  obtain ⟨hq, hr, hsl⟩ := hp
  rw [advance.runReady.eq_1]
  split
  · rename_i xid m rest hready
    have hm := hr (xid, m) (by simp [hready])
    have hrest : ∀ h ∈ rest, GuardedRuns inv le g h.2 s := fun h hh => hr h (by simp [hready, hh])
    have hseg := Guarded.untilPause hgle htrans (p := (attempt m).run) (hrefl s)
      (guarded_attempt hg (hm s hs (hrefl s)))
    refine guarded_bind hg (guarded_lift hg hseg) fun halt s' ⟨hhalt, hle⟩ => ?_
    have hkeep : GuardedSettles inv le g { p with ready := rest } s' :=
      (GuardedSettles.mono htrans (p := { p with ready := rest }) ⟨hq, hrest, hsl⟩ hle)
    cases halt with
    | ended r =>
      -- the handler ended: the state it left has `inv` whatever its outcome
      have hs' : inv s' := by
        cases r with
        | ok _ => exact hhalt
        | error _ => exact hhalt
      exact hadvance _ s' hkeep hs'
    | paused wake timer k =>
      -- the handler sleeps: its rest goes on from whatever state the others leave below
      refine hadvance _ s' ⟨hkeep.1, hkeep.2.1, fun sl hmem => ?_⟩ hhalt.1
      rcases List.mem_append.1 hmem with hmem | hmem
      · exact hkeep.2.2 sl hmem
      · rw [List.mem_singleton.1 hmem]
        exact fun s'' hs'' hle' => (hhalt.2 s'' hs'' hle').mono fun r _ h =>
          match r with
          | .ok _ => h
          | .error _ => h
  · exact guarded_pure p ⟨⟨hq, hr, hsl⟩, hs⟩

include hrefl htrans hg hgle in
/-- Starting and running handlers until every unfinished one sleeps leaves a state with `inv`
and a pool that settles.  By induction on the fuel. -/
theorem guarded_advance :
    ∀ (fuel : Nat) (p : Pool) (s : Env), p.GuardedSettles inv le g s → inv s →
      (p.advance fuel).run.Guarded inv le g
        (Ends (fun _ s => inv s) fun q s => q.GuardedSettles inv le g s ∧ inv s) s
  | 0, p, s, hp, hs => by
    rw [advance.eq_1]
    exact guarded_pure p ⟨hp, hs⟩
  | fuel + 1, p, s, hp, hs => by
    rw [advance.eq_2]
    obtain ⟨hq, hr, hsl⟩ := hp
    split
    · rename_i m ms hqueued
      split
      · refine guarded_advance fuel _ s
          ⟨fun h hh => hq h (by simp [hqueued, hh]), fun h hh => ?_, hsl⟩ hs
        rcases List.mem_append.1 hh with hh | hh
        · exact hr h hh
        · exact hq h (by simp [hqueued, List.mem_singleton.1 hh]) s
      · exact guarded_runReady hrefl htrans hg hgle (guarded_advance fuel) ⟨hq, hr, hsl⟩ hs
    · exact guarded_runReady hrefl htrans hg hgle (guarded_advance fuel) ⟨hq, hr, hsl⟩ hs

include hrefl htrans hg hgle in
/-- A scan run without a lease lock is guarded when each of its handlers is, also across the
pauses where every handler sleeps: a handler relies on `le` while it waits, and every step that
`g` allows goes down in `le`. -/
theorem guarded_run_none :
    ∀ (fuel : Nat) (p : Pool) (s : Env), p.GuardedSettles inv le g s → inv s →
      (p.run none fuel).run.Guarded inv le g (Ends (fun _ s => inv s) fun _ s => inv s) s
  | 0, p, _, _, hs => guarded_pure (ScanEnd.finished p.handled) hs
  | fuel + 1, p, s, hp, hs => by
    unfold Pool.run
    refine guarded_bind hg (guarded_advance hrefl htrans hg hgle _ p s hp hs) fun q s' hq => ?_
    split
    · exact guarded_pure _ hq.2
    · exact guarded_bind hg (guarded_pauseUntil hq.2) fun _ s'' hs'' =>
        guarded_run_none fuel _ s'' ((hq.1.mono htrans hs''.2).wake _) hs''.1

end

end Pool

end GlobalTxn
