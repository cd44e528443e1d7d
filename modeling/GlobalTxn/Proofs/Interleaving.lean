import GlobalTxn.Proofs.Keeps

/-! # Two programs side by side

`Steps.interleave` runs two programs step by step, in the order a schedule picks.  What holds
of every interleaving is shown by an invariant of the two programs left and the state between
them (`Steps.interleave_of_invariant`): it holds at the start, a step of either program keeps
it, and where both programs have ended it gives the property.  The schedule never shows up in
the argument, so one proof covers every schedule.

A program may also do on one state exactly what it does on another, related one: it reads
nothing that tells them apart and keeps them related.  `Steps.Respects R post p` says so step
by step; run beside a program whose steps keep `R` to a reference state that only `p` changes,
`p` ends as it ends on the reference.  The rules follow the way programs are built, as those of
`Steps.Keeps` do, and a single call is taken apart by its state computation.

A program that reads before it writes (`Steps.ReadsUntil`) leaves alone, up to its write, the
states it reads alike, and goes on from each of them as from one reference state.  Run beside
another program before its write, it is as if it had not started.  A read may also tell a
second kind of state apart from the reference: from such a state the program then ends as a
given other program does.

The next step of a program built by binding is the next step of its first part while that part
has not ended (`Steps.advance_bind_of_done`).
-/

namespace GlobalTxn

namespace Steps

variable {σ α β : Type}

/-! ## An invariant of every interleaving -/

section Interleave

variable {I : Steps σ α → Steps σ β → σ → Prop}

/-- Running the first program alone keeps an invariant that each of its steps keeps. -/
theorem invariant_run_left
    (hstep : ∀ u n q s, I (step u n) q s → I (n s) q (u s))
    (hpause : ∀ w t n q s, I (pause w t n) q s → I n q s) :
    ∀ {p : Steps σ α} {q : Steps σ β} {s : σ}, I p q s → I (done (p.run s).1) q (p.run s).2
  | done _, _, _, h => h
  | step u n, q, s, h => invariant_run_left hstep hpause (p := n s) (hstep u n q s h)
  | pause w t n, q, s, h => invariant_run_left hstep hpause (p := n) (hpause w t n q s h)

/-- Running the second program alone keeps an invariant that each of its steps keeps. -/
theorem invariant_run_right
    (hstep : ∀ p u n s, I p (step u n) s → I p (n s) (u s))
    (hpause : ∀ p w t n s, I p (pause w t n) s → I p n s) :
    ∀ {p : Steps σ α} {q : Steps σ β} {s : σ}, I p q s → I p (done (q.run s).1) (q.run s).2
  | _, done _, _, h => h
  | p, step u n, s, h => invariant_run_right hstep hpause (q := n s) (hstep p u n s h)
  | p, pause w t n, s, h => invariant_run_right hstep hpause (q := n) (hpause p w t n s h)

/-- A property of every interleaving of two programs: an invariant of the programs left and
the state that holds at the start, that every step and pause of either program keeps, and that
gives the property where both have ended.  By induction along the schedule; once it is used up
the programs run alone, one after the other. -/
theorem interleave_of_invariant {G : (α × β) × σ → Prop}
    (hleft : ∀ u n q s, I (step u n) q s → I (n s) q (u s))
    (hleftPause : ∀ w t n q s, I (pause w t n) q s → I n q s)
    (hright : ∀ p u n s, I p (step u n) s → I p (n s) (u s))
    (hrightPause : ∀ p w t n s, I p (pause w t n) s → I p n s)
    (hend : ∀ a b s, I (done a) (done b) s → G ((a, b), s)) :
    ∀ (sched : List Bool) (p : Steps σ α) (q : Steps σ β) (s : σ), I p q s →
      G (interleave sched p q s) := by
  intro sched p q s h
  fun_induction interleave sched p q s with
  | case1 p q s a s₁ hp b s₂ hq =>
    -- the schedule is used up: the first program runs to its end, then the second
    have h₁ := invariant_run_left hleft hleftPause h
    rw [hp] at h₁
    have h₂ := invariant_run_right hright hrightPause h₁
    rw [hq] at h₂
    exact hend a b s₂ h₂
  | case2 sched u n q s ih => exact ih (hleft u n q s h)
  | case3 sched p u n s ih => exact ih (hright p u n s h)
  | case4 sched w t n q s ih => exact ih (hleftPause w t n q s h)
  | case5 sched p w t n s ih => exact ih (hrightPause p w t n s h)
  | case6 _ sched p q s _ _ _ _ ih => exact ih h

end Interleave

/-! ## Programs that do the same on related states -/

/-- Each step of `p` does on a state related to `t` by `R` what it does on `t`, and leaves the
two related; `p` ends with a result `post` admits. -/
def Respects (R : σ → σ → Prop) (post : α → Prop) : Steps σ α → Prop
  | done a => post a
  | step u n => ∀ s t, R s t → n s = n t ∧ R (u s) (u t) ∧ Respects R post (n t)
  | pause _ _ n => Respects R post n

variable {R : σ → σ → Prop}

theorem Respects.mono {P Q : α → Prop} (hPQ : ∀ a, P a → Q a) :
    ∀ {p : Steps σ α}, p.Respects R P → p.Respects R Q
  | done a, h => hPQ a h
  | step _ n, h => fun s t hst => by
    obtain ⟨hn, hR, hrest⟩ := h s t hst
    exact ⟨hn, hR, Respects.mono hPQ hrest⟩
  | pause _ _ n, h => Respects.mono (p := n) hPQ h

theorem Respects.bind {P : α → Prop} {Q : β → Prop} {f : α → Steps σ β}
    (hf : ∀ a, P a → (f a).Respects R Q) :
    ∀ {p : Steps σ α}, p.Respects R P → (p.bind f).Respects R Q
  | done a, h => hf a h
  | step _ n, h => fun s t hst => by
    obtain ⟨hn, hR, hrest⟩ := h s t hst
    exact ⟨congrArg (fun p => p.bind f) hn, hR, Respects.bind hf hrest⟩
  | pause _ _ n, h => Respects.bind (p := n) hf h

/-- One atomic step respects `R` when its computation gives the same result on related states
and leaves them related. -/
theorem respects_atomic {post : α → Prop} {act : StateM σ α}
    (h : ∀ s t, R s t → (act s).1 = (act t).1 ∧ R (act s).2 (act t).2 ∧ post (act t).1) :
    (atomic act).Respects R post := fun s t hst => by
  obtain ⟨hr, hR, hpost⟩ := h s t hst
  exact ⟨congrArg done hr, hR, hpost⟩

/-! ## Programs that may fail -/

section Except

variable {ε ε' : Type} {err : ε → Prop} {ok : α → Prop}

theorem respects_pure (a : α) (h : ok a) :
    (pure a : ExceptT ε (Steps σ) α).run.Respects R (Outcome err ok) := h

theorem respects_throw (e : ε) (h : err e) :
    (throw e : ExceptT ε (Steps σ) α).run.Respects R (Outcome err ok) := h

theorem respects_bind {m : ExceptT ε (Steps σ) α} {f : α → ExceptT ε (Steps σ) β}
    {P : α → Prop} {Q : β → Prop} (hm : m.run.Respects R (Outcome err P))
    (hf : ∀ a, P a → (f a).run.Respects R (Outcome err Q)) :
    (m >>= f).run.Respects R (Outcome err Q) :=
  Respects.bind (p := m.run) (fun r hr => match r, hr with
    | .ok a, h => hf a h
    | .error _, h => h) hm

theorem respects_adapt {f : ε → ε'} {err : ε' → Prop} {m : ExceptT ε (Steps σ) α}
    (hm : m.run.Respects R (Outcome (fun e => err (f e)) ok)) :
    (ExceptT.adapt f m).run.Respects R (Outcome err ok) :=
  Respects.bind (p := m.run) (fun r hr => match r, hr with
    | .ok _, h => h
    | .error _, h => h) hm

theorem respects_lift {p : Steps σ α} (hp : p.Respects R ok) :
    (ExceptT.lift p : ExceptT ε (Steps σ) α).run.Respects R (Outcome err ok) :=
  Respects.bind (fun _ h => h) hp

theorem respects_modifyGet {f : σ → α × σ}
    (h : ∀ s t, R s t → (f s).1 = (f t).1 ∧ R (f s).2 (f t).2 ∧ ok (f t).1) :
    (modifyGet f : ExceptT ε (Steps σ) α).run.Respects R (Outcome err ok) :=
  fun s t hst => by
    obtain ⟨hr, hR, hok⟩ := h s t hst
    refine ⟨?_, hR, hok⟩
    show (done (Except.ok (f s).1) : Steps σ (Except ε α)) = done (Except.ok (f t).1)
    rw [hr]

theorem respects_liftExcept {r : Except ε α} (h : Outcome err ok r) :
    (liftExcept r : ExceptT ε (Steps σ) α).run.Respects R (Outcome err ok) := by
  cases r <;> exact h

end Except

/-! ## Programs that read until they write -/

/-- Until its write, `p` only reads.  Each earlier step changes no state `near` or `seen`
admits; from a `near` state it goes on as from `e`, and from a `seen` state it goes on as from
`e` too or, having told that state apart, ends from it as `other` does.  The write is a step
`write` admits. -/
def ReadsUntil (near seen : σ → Prop) (e : σ) (other : σ → α × σ)
    (write : (σ → σ) → (σ → Steps σ α) → Prop) : Steps σ α → Prop
  | done _ => True
  | step u n =>
    ((∀ s, near s → u s = s ∧ n s = n e) ∧
      (∀ s, seen s → u s = s ∧ (n s = n e ∨ (n e).run s = other s)) ∧
      ReadsUntil near seen e other write (n e)) ∨ write u n
  | pause _ _ _ => False

section Reads

variable {ε : Type} {near seen : σ → Prop} {e : σ} {other : σ → Except ε β × σ}
  {write : (σ → σ) → (σ → Steps σ (Except ε β)) → Prop}

/-- A read: one step that changes no state `near` or `seen` admits, after which the program
goes on from every `near` state as from `e`, and from every `seen` state as from `e` or ending
as `other` does. -/
theorem readsUntil_read {m : ExceptT ε (Steps σ) α} {f : α → ExceptT ε (Steps σ) β} {u : σ → σ}
    {v : σ → Except ε α} (hm : m.run = step u fun s => done (v s))
    (hidle : ∀ s, near s → u s = s ∧ ExceptT.bindCont f (v s) = ExceptT.bindCont f (v e))
    (hseen : ∀ s, seen s → u s = s ∧ (ExceptT.bindCont f (v s) = ExceptT.bindCont f (v e) ∨
      (ExceptT.bindCont f (v e)).run s = other s))
    (hrest : (ExceptT.bindCont f (v e)).ReadsUntil near seen e other write) :
    (m >>= f).run.ReadsUntil near seen e other write := by
  rw [ExceptT.run_bind, hm]
  exact .inl ⟨hidle, hseen, hrest⟩

/-- The write: a step `write` admits. -/
theorem readsUntil_write {m : ExceptT ε (Steps σ) α} {f : α → ExceptT ε (Steps σ) β} {u : σ → σ}
    {v : σ → Except ε α} (hm : m.run = step u fun s => done (v s))
    (hw : write u fun s => ExceptT.bindCont f (v s)) :
    (m >>= f).run.ReadsUntil near seen e other write := by
  rw [ExceptT.run_bind, hm]
  exact .inr hw

end Reads

/-! ## One step at a time -/

/-- Running a program is taking its next step and running the rest. -/
theorem run_of_advance {p p' : Steps σ α} {s s' : σ} (h : p.advance s = some (p', s')) :
    p'.run s' = p.run s := by
  cases p with
  | done _ => cases h
  | step u n =>
    simp only [advance, Option.some.injEq, Prod.mk.injEq] at h
    obtain ⟨rfl, rfl⟩ := h
    rfl
  | pause _ _ n =>
    simp only [advance, Option.some.injEq, Prod.mk.injEq] at h
    obtain ⟨rfl, rfl⟩ := h
    rfl

/-- While the first part of a program takes its last step, the program takes the same step and
goes on with the rest. -/
theorem advance_bind_of_done {p : Steps σ α} {f : α → Steps σ β} {s t : σ} {a : α}
    (h : p.advance s = some (done a, t)) : (p.bind f).advance s = some (f a, t) := by
  cases p with
  | done _ => cases h
  | step u n =>
    simp only [advance, Option.some.injEq, Prod.mk.injEq] at h
    obtain ⟨hn, rfl⟩ := h
    show some ((n s).bind f, u s) = some (f a, u s)
    rw [hn]
    rfl
  | pause _ _ n =>
    simp only [advance, Option.some.injEq, Prod.mk.injEq] at h
    obtain ⟨rfl, rfl⟩ := h
    rfl

theorem advance_exceptT_bind {ε : Type} {m : ExceptT ε (Steps σ) α} {f : α → ExceptT ε (Steps σ) β}
    {s t : σ} {r : Except ε α} (h : m.run.advance s = some (done r, t)) :
    (m >>= f).run.advance s = some (ExceptT.bindCont f r, t) := by
  rw [ExceptT.run_bind]
  exact advance_bind_of_done h

end Steps

end GlobalTxn
