import GlobalTxn.Proofs.Guarded
import GlobalTxn.Proofs.RunAlone

/-! # Handlers that each keep to their own session

The handlers of a scan run side by side (`Pool`), each on the session of one xid.  When every
handler changes nothing that belongs to another xid, relies on nobody else changing what
belongs to its own xid, and pauses at most once, a scan run alone starts every handler, waits
out every pause, and counts every handler as handled, however their steps interleave.

What belongs to an xid is a parameter here: `keep x s s'` says that it is the same in `s'` as
in `s`.  The handler of `y` meets `Pool.Handles`: from every state with `inv` where the part of
`y` is as the handler left it, each of its steps keeps the parts of all other xids
(`Pool.Apart`), and it ends handled, in a state with `inv` and `fin y`.  This is the
rely-guarantee rule for the pool: what one handler guarantees is what every other relies on.

`Steps.PausesAtMost k p` bounds the pauses of a program from every state.  It bounds the rounds
of a scan: each round wakes at least one sleeper, and a handler sleeps at most once.

Main statement: `Pool.run_none_handles_all`.
-/

namespace GlobalTxn

namespace Steps

variable {σ α β : Type}

/-- `p` pauses at most `k` times, whatever the states its steps meet. -/
def PausesAtMost : Nat → Steps σ α → Prop
  | _, done _ => True
  | k, step _ n => ∀ s, PausesAtMost k (n s)
  | 0, pause _ _ _ => False
  | k + 1, pause _ _ n => PausesAtMost k n

theorem PausesAtMost.mono :
    ∀ {j k : Nat} {p : Steps σ α}, p.PausesAtMost j → j ≤ k → p.PausesAtMost k
  | _, _, done _, _, _ => trivial
  | _, _, step _ n, h, hjk => fun s => PausesAtMost.mono (p := n s) (h s) hjk
  | 0, _, pause _ _ _, h, _ => h.elim
  | _ + 1, 0, pause _ _ _, _, hjk => absurd hjk (Nat.not_succ_le_zero _)
  | _ + 1, _ + 1, pause _ _ n, h, hjk => PausesAtMost.mono (p := n) h (Nat.le_of_succ_le_succ hjk)

/-- The pauses of `p` and of what follows it add up. -/
theorem PausesAtMost.bind {f : α → Steps σ β} {k : Nat} (hf : ∀ a, (f a).PausesAtMost k) :
    ∀ {j : Nat} {p : Steps σ α}, p.PausesAtMost j → (p.bind f).PausesAtMost (j + k)
  | _, done a, _ => (hf a).mono (Nat.le_add_left k _)
  | _, step _ n, h => fun s => PausesAtMost.bind hf (p := n s) (h s)
  | 0, pause _ _ _, h => h.elim
  | j + 1, pause _ _ n, h => by
    rw [Nat.add_right_comm]
    exact PausesAtMost.bind hf (p := n) h

/-- A program that paused on its way had a pause to spend, and what is left of it has one
less. -/
theorem PausesAtMost.runToPause :
    ∀ {k : Nat} {p : Steps σ α} {s : σ}, p.PausesAtMost k →
      ∀ {w t : Nat} {rest : Steps σ α}, (p.runToPause s).1 = .paused w t rest →
        ∃ j, k = j + 1 ∧ rest.PausesAtMost j
  | _, done _, _, _, _, _, _, h => by cases h
  | _, step u n, s, hp, _, _, _, h => PausesAtMost.runToPause (p := n s) (s := u s) (hp s) h
  | 0, pause _ _ _, _, hp, _, _, _, _ => hp.elim
  | j + 1, pause _ _ _, _, hp, _, _, _, h => by
    cases h
    exact ⟨j, rfl, hp⟩

theorem pausesAtMost_atomic {act : StateM σ α} {k : Nat} : (atomic act).PausesAtMost k :=
  fun _ => trivial

section Except

variable {ε ε' : Type} {j k : Nat}

theorem pausesAtMost_pure (a : α) : (pure a : ExceptT ε (Steps σ) α).run.PausesAtMost k :=
  trivial

theorem pausesAtMost_throw (e : ε) : (throw e : ExceptT ε (Steps σ) α).run.PausesAtMost k :=
  trivial

theorem pausesAtMost_bind {m : ExceptT ε (Steps σ) α} {f : α → ExceptT ε (Steps σ) β}
    (hm : m.run.PausesAtMost j) (hf : ∀ a, (f a).run.PausesAtMost k) :
    (m >>= f).run.PausesAtMost (j + k) :=
  PausesAtMost.bind (p := m.run) (fun r => match r with
    | .ok a => hf a
    | .error _ => trivial) hm

theorem pausesAtMost_tryCatch {m : ExceptT ε (Steps σ) α} {h : ε → ExceptT ε (Steps σ) α}
    (hm : m.run.PausesAtMost j) (hh : ∀ e, (h e).run.PausesAtMost k) :
    (tryCatch m h).run.PausesAtMost (j + k) :=
  PausesAtMost.bind (p := m.run) (fun r => match r with
    | .ok _ => trivial
    | .error e => hh e) hm

theorem pausesAtMost_adapt {f : ε → ε'} {m : ExceptT ε (Steps σ) α}
    (hm : m.run.PausesAtMost k) : (ExceptT.adapt f m).run.PausesAtMost k := by
  refine PausesAtMost.bind (p := m.run) (k := 0) (fun _ => ?_) hm
  trivial

theorem pausesAtMost_lift {p : Steps σ α} (hp : p.PausesAtMost k) :
    (ExceptT.lift p : ExceptT ε (Steps σ) α).run.PausesAtMost k := by
  refine PausesAtMost.bind (k := 0) (fun _ => ?_) hp
  trivial

theorem pausesAtMost_modifyGet {f : σ → α × σ} :
    (modifyGet f : ExceptT ε (Steps σ) α).run.PausesAtMost k :=
  fun _ => trivial

theorem pausesAtMost_liftExcept (r : Except ε α) :
    (liftExcept r : ExceptT ε (Steps σ) α).run.PausesAtMost k := by
  cases r <;> trivial

end Except

variable {inv : σ → Prop} {le : σ → σ → Prop} {g : σ → σ → List (σ × σ) → Prop}

/-- `Guarded.untilPause` with what the steps up to the pause add up to kept apart from what the
program relies on while it waits. -/
theorem Guarded.untilPause_of {acc : σ → σ → Prop} (hacc : ∀ s s' l, g s s' l → acc s s')
    (htrans : ∀ a b c, acc a b → acc b c → acc a c) {post : α → σ → Prop} :
    ∀ {p : Steps σ α} {s₀ s : σ}, acc s₀ s → p.Guarded inv le g post s →
      p.untilPause.Guarded inv le g (fun h s' => Halt.Guarded inv le g post h s' ∧ acc s₀ s') s
  | done _, _, _, hacc₀, h => ⟨h, hacc₀⟩
  | step _ n, _, s, hacc₀, h =>
    ⟨(segment_untilPause (n s) _).symm ▸ h.1,
      Guarded.untilPause_of hacc htrans (p := n s) (htrans _ _ _ hacc₀ (hacc _ _ _ h.1)) h.2⟩
  | pause _ _ _, _, _, hacc₀, h => ⟨h, hacc₀⟩

end Steps

namespace Pool

open Steps

/-- The xids of the handlers not finished yet: waiting to start, ready, or asleep. -/
def pending (p : Pool) : List String :=
  p.queued.map (·.1) ++ p.ready.map (·.1) ++ p.sleepers.map (·.xid)

/-- The earliest timer of the sleepers, folded over them: the time of a sleeper once one has
been seen. -/
theorem foldl_nextWake {due : Nat × Nat} :
    ∀ (l : List Sleeper) (init : Option (Nat × Nat)), l.foldl (fun m s =>
      match m with
      | some due => if dueBefore (s.wake, s.timer) due then some (s.wake, s.timer) else some due
      | none => some (s.wake, s.timer)) init = some due →
      init = some due ∨ ∃ sl ∈ l, sl.wake = due.1
  | [], _, h => .inl h
  | sl :: l, init, h => by
    rcases foldl_nextWake l _ h with h | ⟨sl', hmem, hw⟩
    · -- the fold's value after `sl` is `due`: the time of `sl`, or the one before
      cases init with
      | none =>
        cases h
        exact .inr ⟨sl, List.mem_cons_self, rfl⟩
      | some d =>
        dsimp only at h
        split at h
        · cases h
          exact .inr ⟨sl, List.mem_cons_self, rfl⟩
        · exact .inl h
    · exact .inr ⟨sl', List.mem_cons_of_mem _ hmem, hw⟩

/-- Some sleeper of the pool wakes at the time of its earliest timer. -/
theorem exists_wake_of_nextWake? {p : Pool} {due : Nat × Nat} (h : p.nextWake? = some due) :
    ∃ sl ∈ p.sleepers, sl.wake = due.1 := by
  rcases foldl_nextWake p.sleepers none h with h | h
  · cases h
  · exact h

/-- A pool with a sleeper has an earliest timer. -/
theorem sleepers_eq_nil_of_nextWake? {p : Pool} (h : p.nextWake? = none) : p.sleepers = [] := by
  unfold nextWake? at h
  cases hs : p.sleepers with
  | nil => rfl
  | cons sl l =>
    rw [hs, List.foldl_cons] at h
    -- after the first sleeper the fold holds a time, and keeps holding one
    have hsome : ∀ (l : List Sleeper) (d : Nat × Nat), l.foldl (fun m s =>
        match m with
        | some due => if dueBefore (s.wake, s.timer) due then some (s.wake, s.timer) else some due
        | none => some (s.wake, s.timer)) (some d) ≠ none := by
      intro l
      induction l with
      | nil => exact fun d h => by cases h
      | cons sl' l ih =>
        intro d
        rw [List.foldl_cons]
        dsimp only
        split
        · exact ih _
        · exact ih _
    exact (hsome l _ h).elim

section Handlers

variable (keep : String → Env → Env → Prop) (inv : Env → Prop) (fin : String → Env → Prop)

/-- Every xid but `y` keeps its part from `s` to `s'`: what each step of the handler of `y`
guarantees. -/
def Apart (y : String) (s s' : Env) : Prop := ∀ x, x ≠ y → keep x s s'

/-- The handler `m` of `y`, with at most `k` pauses left: from every state with `inv` in which
the part of `y` is as in `s`, each of its steps keeps the parts of the other xids, and it ends
handled, with `inv` and `fin y`, whatever the others do while it sleeps, as long as they keep
the part of `y`. -/
def Handles (y : String) (k : Nat) (m : CoordM Bool) (s : Env) : Prop :=
  m.run.PausesAtMost k ∧ ∀ s', inv s' → keep y s s' →
    m.run.Guarded inv (keep y) (fun a b _ => Apart keep y a b)
      (Ends (fun _ _ => False) fun handled s => handled = true ∧ inv s ∧ fin y s) s'

/-- The ready handlers, `b` of which may still pause once; the others have paused already. -/
inductive ReadyAt (s : Env) : List (String × CoordM Bool) → Nat → Prop
  | nil : ReadyAt s [] 0
  | woken {e : String × CoordM Bool} {rest : List (String × CoordM Bool)} {b : Nat} :
      Handles keep inv fin e.1 0 e.2 s → ReadyAt s rest b → ReadyAt s (e :: rest) b
  | fresh {e : String × CoordM Bool} {rest : List (String × CoordM Bool)} {b : Nat} :
      Handles keep inv fin e.1 1 e.2 s → ReadyAt s rest b → ReadyAt s (e :: rest) (b + 1)

/-- Where a handler stopped: handled, with `inv` and `fin y`; or asleep in a state with `inv`,
with a pause spent. -/
def Stopped (y : String) (k : Nat) : Halt Env (Except CoordError Bool) → Env → Prop
  | .ended r, s => Ends (fun _ _ => False) (fun handled s => handled = true ∧ inv s ∧ fin y s) r s
  | .paused _ _ rest, s => inv s ∧ ∃ j, k = j + 1 ∧ Handles keep inv fin y j (ExceptT.mk rest) s

/-- What a scan from `s₀` over the handlers of the xids `xs` keeps between two of its moves,
with `base` handled before and at most `w` more rounds in which a handler falls asleep: every
handler not finished keeps to its own xid, every finished one left `fin` of its xid, and the
parts of all other xids are as in `s₀`. -/
structure Tracks (s₀ : Env) (xs : List String) (base w : Nat) (p : Pool) (s : Env) : Prop where
  nodup : p.pending.Nodup
  sub : ∀ x ∈ p.pending, x ∈ xs
  queued : ∀ e ∈ p.queued, Handles keep inv fin e.1 1 e.2 s
  ready : ∃ b, ReadyAt keep inv fin s p.ready b ∧ p.queued.length + b + p.sleepers.length ≤ w
  sleepers : ∀ sl ∈ p.sleepers, Handles keep inv fin sl.xid 0 sl.resume s
  running : p.running = p.ready.length + p.sleepers.length
  count : p.handled + p.pending.length = base + xs.length
  finished : ∀ y ∈ xs, y ∉ p.pending → fin y s
  frame : ∀ x, x ∉ xs → keep x s₀ s
  inv : inv s

variable {keep inv fin}

section Laws

variable (hrefl : ∀ x s, keep x s s) (htrans : ∀ x a b c, keep x a b → keep x b c → keep x a c)
  (hfin : ∀ y a b, fin y a → keep y a b → fin y b)

include htrans in
theorem Apart.trans {y : String} {a b c : Env} (hab : Apart keep y a b) (hbc : Apart keep y b c) :
    Apart keep y a c :=
  fun x hx => htrans x a b c (hab x hx) (hbc x hx)

include htrans in
theorem Handles.mono {y : String} {k : Nat} {m : CoordM Bool} {s s₁ : Env}
    (h : Handles keep inv fin y k m s) (hs : keep y s s₁) : Handles keep inv fin y k m s₁ :=
  ⟨h.1, fun s' hs' hk => h.2 s' hs' (htrans y s s₁ s' hs hk)⟩

include htrans in
theorem ReadyAt.mono {s s₁ : Env} {l : List (String × CoordM Bool)} {b : Nat}
    (h : ReadyAt keep inv fin s l b) (hs : ∀ e ∈ l, keep e.1 s s₁) : ReadyAt keep inv fin s₁ l b := by
  induction h with
  | nil => exact .nil
  | woken he _ ih =>
    exact .woken (he.mono htrans (hs _ List.mem_cons_self))
      (ih fun e' he' => hs e' (List.mem_cons_of_mem _ he'))
  | fresh he _ ih =>
    exact .fresh (he.mono htrans (hs _ List.mem_cons_self))
      (ih fun e' he' => hs e' (List.mem_cons_of_mem _ he'))

/-- A handler started joins the ready ones at their end, with its pause still to spend. -/
theorem ReadyAt.append_fresh {s : Env} {l : List (String × CoordM Bool)} {b : Nat}
    {e : String × CoordM Bool} (h : ReadyAt keep inv fin s l b)
    (he : Handles keep inv fin e.1 1 e.2 s) : ReadyAt keep inv fin s (l ++ [e]) (b + 1) := by
  induction h with
  | nil => exact .fresh he .nil
  | woken he' _ ih => exact .woken he' ih
  | fresh he' _ ih => exact .fresh he' ih

/-- Woken handlers join the ready ones at their end, their pause spent. -/
theorem ReadyAt.append_woken {s : Env} {l l' : List (String × CoordM Bool)} {b : Nat}
    (h : ReadyAt keep inv fin s l b) (hl' : ∀ e ∈ l', Handles keep inv fin e.1 0 e.2 s) :
    ReadyAt keep inv fin s (l ++ l') b := by
  induction h with
  | nil =>
    induction l' with
    | nil => exact .nil
    | cons e l' ih =>
      exact .woken (hl' e List.mem_cons_self) (ih fun e' he' => hl' e' (List.mem_cons_of_mem _ he'))
  | woken he' _ ih => exact .woken he' ih
  | fresh he' _ ih => exact .fresh he' ih

/-- The first ready handler, with its pauses left, and the rest. -/
theorem ReadyAt.cons_inv {s : Env} {e : String × CoordM Bool} {rest : List (String × CoordM Bool)}
    {b : Nat} (h : ReadyAt keep inv fin s (e :: rest) b) :
    ∃ k b', k ≤ 1 ∧ b = b' + k ∧ Handles keep inv fin e.1 k e.2 s ∧ ReadyAt keep inv fin s rest b' := by
  cases h with
  | woken he hrest => exact ⟨0, _, Nat.zero_le _, rfl, he, hrest⟩
  | fresh he hrest => exact ⟨1, _, Nat.le_refl _, rfl, he, hrest⟩

theorem lasting_apart (y : String) : Lasting fun a b (_ : List (Env × Env)) => Apart keep y a b :=
  fun _ _ _ _ _ h => h

/-- A handler run so that a failure counts as not handled meets what the handler meets. -/
theorem Handles.attempt {y : String} {k : Nat} {m : CoordM Bool} {s : Env}
    (h : Handles keep inv fin y k m s) : Handles keep inv fin y k (Pool.attempt m) s := by
  refine ⟨pausesAtMost_tryCatch (k := 0) h.1 fun _ => pausesAtMost_pure false, fun s' hs' hk => ?_⟩
  exact guarded_tryCatch (lasting_apart y) (h.2 s' hs' hk) fun _ _ hf => hf.elim

include hrefl htrans in
/-- A handler run from `s` up to its pause or its end keeps the parts of the other xids, and
stops handled or asleep with a pause spent. -/
theorem Handles.runToPause {y : String} {k : Nat} {m : CoordM Bool} {s : Env}
    (h : Handles keep inv fin y k m s) (hs : inv s) :
    Apart keep y s (m.run.runToPause s).2 ∧
      Stopped keep inv fin y k (m.run.runToPause s).1 (m.run.runToPause s).2 := by
  have hacc : ∀ a b (_ : List (Env × Env)), Apart keep y a b → Apart keep y a b :=
    fun _ _ _ h => h
  have hseg := Guarded.untilPause_of hacc
    (fun _ _ _ hab hbc => hab.trans htrans hbc) (fun x _ => hrefl x s) (h.2 s hs (hrefl y s))
  have hrun := (hseg.allows_trace (hrefl y) (lasting_apart y)).2
  rw [run_untilPause] at hrun
  refine ⟨hrun.2, ?_⟩
  obtain ⟨hhalt, -⟩ := hrun
  revert hhalt
  cases hstop : (m.run.runToPause s).1 with
  | ended r => exact id
  | paused w t rest =>
    -- the pause spends one of the handler's pauses; the rest may not pause more than is left
    intro hhalt
    obtain ⟨j, rfl, hj⟩ := h.1.runToPause hstop
    exact ⟨hhalt.1, j, rfl, hj, hhalt.2⟩

/-! ## The moves of a scan -/

section Moves

variable {s₀ s : Env} {xs : List String} {base w : Nat} {p : Pool}

theorem pending_start {e : String × CoordM Bool} {es : List (String × CoordM Bool)}
    (hq : p.queued = e :: es) (n : Nat) :
    ({ p with queued := es, ready := p.ready ++ [e], running := n } : Pool).pending.Perm
      p.pending := by
  simp only [pending, hq, List.map_cons, List.map_append, List.map_nil, List.append_assoc,
    List.cons_append, List.nil_append]
  -- the started handler moves from the front of the queue to the end of the ready ones
  rw [← List.append_assoc, ← List.append_assoc]
  exact List.perm_middle

/-- Starting the next queued handler keeps what the scan keeps. -/
theorem Tracks.start (hp : p.Tracks keep inv fin s₀ xs base w s) {e : String × CoordM Bool}
    {es : List (String × CoordM Bool)} (hq : p.queued = e :: es) :
    ({ p with queued := es, ready := p.ready ++ [e], running := p.running + 1 } : Pool).Tracks
      keep inv fin s₀ xs base w s := by
  have hperm := pending_start hq (p.running + 1)
  have he : Handles keep inv fin e.1 1 e.2 s := hp.queued e (by rw [hq]; exact List.mem_cons_self)
  obtain ⟨b, hb, hw⟩ := hp.ready
  refine ⟨hperm.nodup_iff.2 hp.nodup, fun x hx => hp.sub x (hperm.subset hx),
    fun e' he' => hp.queued e' (by rw [hq]; exact List.mem_cons_of_mem _ he'),
    ⟨b + 1, hb.append_fresh he, ?_⟩, hp.sleepers, ?_, ?_,
    fun y hy hn => hp.finished y hy fun hm => hn (hperm.symm.subset hm), hp.frame, hp.inv⟩
  · rw [hq, List.length_cons] at hw
    dsimp only
    omega
  · simp only [List.length_append, List.length_singleton]
    rw [hp.running]
    omega
  · rw [hperm.length_eq]
    exact hp.count

/-- The first ready handler taken out of the pending ones. -/
theorem pending_of_ready {x : String} {m : CoordM Bool} {rest : List (String × CoordM Bool)}
    (hr : p.ready = (x, m) :: rest) :
    p.pending = p.queued.map (·.1) ++ x :: (rest.map (·.1) ++ p.sleepers.map (·.xid)) := by
  simp [pending, hr]

include hfin htrans in
/-- A handler that ended handled leaves the pool, and the scan keeps what it keeps. -/
theorem Tracks.finish (hp : p.Tracks keep inv fin s₀ xs base w s) {x : String} {m : CoordM Bool}
    {rest : List (String × CoordM Bool)} (hr : p.ready = (x, m) :: rest) {b : Nat}
    (hrest : ReadyAt keep inv fin s rest b) (hw : p.queued.length + b + p.sleepers.length ≤ w)
    {s' : Env} (hapart : Apart keep x s s') (hs' : inv s') (hx : fin x s') :
    ({ p with ready := rest, running := p.running - 1, handled := p.handled + 1 } : Pool).Tracks
      keep inv fin s₀ xs base w s' := by
  have hpend := pending_of_ready hr
  have hnodup := hp.nodup
  rw [hpend, List.nodup_middle, List.nodup_cons] at hnodup
  obtain ⟨hxnot, hnodup'⟩ := hnodup
  have hpend' : ({ p with ready := rest, running := p.running - 1, handled := p.handled + 1 } :
      Pool).pending = p.queued.map (·.1) ++ (rest.map (·.1) ++ p.sleepers.map (·.xid)) := by
    simp [pending]
  -- every handler still pending is another one, whose part the ended handler kept
  have hkeep : ∀ z ∈ p.queued.map (·.1) ++ (rest.map (·.1) ++ p.sleepers.map (·.xid)),
      keep z s s' := fun z hz => hapart z fun h => hxnot (h ▸ hz)
  have hxs : x ∈ xs := hp.sub x (by rw [hpend]; exact List.mem_append_right _ List.mem_cons_self)
  refine ⟨by rw [hpend']; exact hnodup', fun z hz => hp.sub z ?_, fun e he => ?_, ?_,
    fun sl hsl => ?_, ?_, ?_, fun y hy hn => ?_, fun z hz => ?_, hs'⟩
  · rw [hpend'] at hz
    rw [hpend]
    exact List.mem_append.2 ((List.mem_append.1 hz).imp_right (List.mem_cons_of_mem x))
  · exact (hp.queued e he).mono htrans (hkeep e.1 (List.mem_append_left _ (List.mem_map_of_mem he)))
  · refine ⟨b, hrest.mono htrans fun e he => hkeep e.1 ?_, hw⟩
    exact List.mem_append_right _ (List.mem_append_left _ (List.mem_map_of_mem he))
  · exact (hp.sleepers sl hsl).mono htrans
      (hkeep sl.xid (List.mem_append_right _ (List.mem_append_right _ (List.mem_map_of_mem hsl))))
  · have hrun := hp.running
    rw [hr, List.length_cons] at hrun
    dsimp only
    omega
  · have hcount := hp.count
    rw [hpend] at hcount
    rw [hpend']
    simp only [List.length_append, List.length_cons] at hcount ⊢
    omega
  · -- a finished xid is the ended handler's, or one finished before, whose part it kept
    rw [hpend'] at hn
    by_cases hyx : y = x
    · exact hyx ▸ hx
    · refine hfin y s s' (hp.finished y hy ?_) (hapart y hyx)
      rw [hpend]
      intro hmem
      rcases List.mem_append.1 hmem with hmem | hmem
      · exact hn (List.mem_append_left _ hmem)
      · rcases List.mem_cons.1 hmem with rfl | hmem
        · exact hyx rfl
        · exact hn (List.mem_append_right _ hmem)
  · exact htrans z s₀ s s' (hp.frame z hz) (hapart z fun h => hz (h ▸ hxs))

include hfin htrans in
/-- A handler that paused falls asleep, and the scan keeps what it keeps, with one round fewer
to come from a handler that may still pause. -/
theorem Tracks.sleep (hp : p.Tracks keep inv fin s₀ xs base w s) {x : String} {m : CoordM Bool}
    {rest : List (String × CoordM Bool)} (hr : p.ready = (x, m) :: rest) {b : Nat}
    (hrest : ReadyAt keep inv fin s rest b) (hw : p.queued.length + b + 1 + p.sleepers.length ≤ w)
    {s' : Env} (hapart : Apart keep x s s') (hs' : inv s') {wake timer : Nat}
    {k : Steps Env (Except CoordError Bool)} (hk : Handles keep inv fin x 0 (ExceptT.mk k) s') :
    ({ p with ready := rest, sleepers := p.sleepers ++ [⟨wake, timer, x, ExceptT.mk k⟩] } :
      Pool).Tracks keep inv fin s₀ xs base w s' := by
  have hpend := pending_of_ready hr
  have hnodup := hp.nodup
  rw [hpend, List.nodup_middle, List.nodup_cons] at hnodup
  obtain ⟨hxnot, -⟩ := hnodup
  have hperm : ({ p with ready := rest, sleepers := p.sleepers ++ [⟨wake, timer, x, ExceptT.mk k⟩] } :
      Pool).pending.Perm p.pending := by
    rw [hpend]
    simp only [pending, List.map_append, List.map_cons, List.map_nil, List.append_assoc]
    rw [← List.append_assoc, ← List.append_assoc]
    refine (List.perm_append_singleton _ _).trans ?_
    rw [List.append_assoc]
    exact List.perm_middle.symm
  have hkeep : ∀ z ∈ p.queued.map (·.1) ++ (rest.map (·.1) ++ p.sleepers.map (·.xid)),
      keep z s s' := fun z hz => hapart z fun h => hxnot (h ▸ hz)
  refine ⟨hperm.nodup_iff.2 hp.nodup, fun z hz => hp.sub z (hperm.subset hz), fun e he => ?_,
    ⟨b, hrest.mono htrans fun e he => hkeep e.1 ?_, ?_⟩, fun sl hsl => ?_, ?_, ?_,
    fun y hy hn => ?_, fun z hz => ?_, hs'⟩
  · exact (hp.queued e he).mono htrans (hkeep e.1 (List.mem_append_left _ (List.mem_map_of_mem he)))
  · exact List.mem_append_right _ (List.mem_append_left _ (List.mem_map_of_mem he))
  · simp only [List.length_append, List.length_singleton]
    omega
  · rcases List.mem_append.1 hsl with hsl | hsl
    · exact (hp.sleepers sl hsl).mono htrans (hkeep sl.xid
        (List.mem_append_right _ (List.mem_append_right _ (List.mem_map_of_mem hsl))))
    · rw [List.mem_singleton.1 hsl]
      exact hk
  · have hrun := hp.running
    rw [hr, List.length_cons] at hrun
    simp only [List.length_append, List.length_singleton]
    omega
  · rw [hperm.length_eq]
    exact hp.count
  · have hn' : y ∉ p.pending := fun hm => hn (hperm.symm.subset hm)
    have hyx : y ≠ x := fun h => hn' (by rw [hpend, h]; exact List.mem_append_right _ List.mem_cons_self)
    exact hfin y s s' (hp.finished y hy hn') (hapart y hyx)
  · have hxs : x ∈ xs := hp.sub x (by rw [hpend]; exact List.mem_append_right _ List.mem_cons_self)
    exact htrans z s₀ s s' (hp.frame z hz) (hapart z fun h => hz (h ▸ hxs))

/-- Waking the sleepers of a time, once no handler is ready, keeps what the scan keeps, with a
round fewer: some sleeper wakes, and no woken handler pauses again. -/
theorem Tracks.wake (hp : p.Tracks keep inv fin s₀ xs base w s) (hr : p.ready = []) {t : Nat}
    (ht : ∃ sl ∈ p.sleepers, sl.wake = t) :
    ∃ w', w' < w ∧ (p.wake t).Tracks keep inv fin s₀ xs base w' s := by
  obtain ⟨b, -, hw⟩ := hp.ready
  -- the sleepers of the time wake, the others sleep on
  have hsplit : (p.sleepers.filter (·.wake == t) ++ p.sleepers.filter (·.wake != t)).Perm
      p.sleepers := List.filter_append_perm _ _
  have hperm : (p.wake t).pending.Perm p.pending := by
    have hwoken : (p.wake t).pending = p.queued.map (·.1) ++
        (p.sleepers.filter (·.wake == t) ++ p.sleepers.filter (·.wake != t)).map (·.xid) := by
      simp [pending, Pool.wake, hr, Function.comp_def]
    have hbefore : p.pending = p.queued.map (·.1) ++ p.sleepers.map (·.xid) := by
      simp [pending, hr]
    rw [hwoken, hbefore]
    exact List.Perm.append_left _ (hsplit.map _)
  have hlt : (p.sleepers.filter (·.wake != t)).length < p.sleepers.length := by
    obtain ⟨sl, hsl, hw⟩ := ht
    exact List.length_filter_lt_length_iff_exists.2 ⟨sl, hsl, by simp [hw]⟩
  refine ⟨p.queued.length + (p.sleepers.filter (·.wake != t)).length, by omega,
    hperm.nodup_iff.2 hp.nodup, fun z hz => hp.sub z (hperm.subset hz), hp.queued,
    ⟨0, ?_, by simp [Pool.wake]⟩, fun sl hsl => hp.sleepers sl (List.mem_filter.1 hsl).1, ?_, ?_,
    fun y hy hn => hp.finished y hy fun hm => hn (hperm.symm.subset hm), hp.frame, hp.inv⟩
  · simp only [Pool.wake, hr, List.nil_append]
    refine ReadyAt.append_woken .nil fun e he => ?_
    obtain ⟨sl, hsl, rfl⟩ := List.mem_map.1 he
    exact hp.sleepers sl (List.mem_filter.1 hsl).1
  · have hlen := hsplit.length_eq
    simp only [List.length_append] at hlen
    simp only [Pool.wake, hr, List.nil_append, List.length_map, hp.running, List.length_nil]
    omega
  · rw [hperm.length_eq]
    exact hp.count

include hrefl in
/-- A scan over the handlers of distinct xids, none started, keeps what it keeps. -/
theorem tracks_start {xs : List String} {handler : String → CoordM Bool} {par : Nat}
    (hxs : xs.Nodup) (hh : ∀ x ∈ xs, Handles keep inv fin x 1 (handler x) s₀) (hs₀ : inv s₀) :
    ({ parallelism := par, queued := xs.map fun x => (x, handler x) } : Pool).Tracks
      keep inv fin s₀ xs 0 xs.length s₀ := by
  have hpend : ({ parallelism := par, queued := xs.map fun x => (x, handler x) } :
      Pool).pending = xs := by
    simp [pending, Function.comp_def]
  refine ⟨by rw [hpend]; exact hxs, fun x hx => by rw [hpend] at hx; exact hx, fun e he => ?_,
    ⟨0, .nil, by simp⟩, (fun sl hsl => by cases hsl), rfl, by simp [hpend],
    fun y hy hn => (hn (by rw [hpend]; exact hy)).elim, fun x _ => hrefl x s₀, hs₀⟩
  obtain ⟨x, hx, rfl⟩ := List.mem_map.1 he
  exact hh x hx

end Moves

/-! ## Runs of a scan -/

section Runs

variable {s₀ : Env} {xs : List String} {base : Nat}

/-- Where `advance` leaves a scan it was given enough moves for: no handler ready, and no
handler to start, or as many running as may run. -/
def Advanced (s₀ : Env) (xs : List String) (base w : Nat) (p q : Pool) (s : Env) : Prop :=
  q.Tracks keep inv fin s₀ xs base w s ∧ q.ready = [] ∧
    (q.queued = [] ∨ q.parallelism ≤ q.running) ∧ q.parallelism = p.parallelism

include hrefl htrans hfin in
/-- Running the next ready handler up to its end or its pause, and then advancing, leaves the
scan advanced, when advancing does so from every pool with fewer moves left. -/
theorem run_runReady {w fuel : Nat}
    (ih : ∀ (q : Pool) (s : Env), q.Tracks keep inv fin s₀ xs base w s →
      2 * q.queued.length + q.ready.length < fuel →
      ∃ q' s', Steps.run (q.advance fuel).run s = (.ok q', s') ∧
        @Advanced keep inv fin s₀ xs base w q q' s')
    {p : Pool} {s : Env} (hp : p.Tracks keep inv fin s₀ xs base w s)
    (hf : 2 * p.queued.length + p.ready.length ≤ fuel)
    (hstuck : p.queued = [] ∨ p.parallelism ≤ p.running) :
    ∃ q s', Steps.run (advance.runReady fuel p).run s = (.ok q, s') ∧
      @Advanced keep inv fin s₀ xs base w p q s' := by
  unfold advance.runReady
  split
  · rename_i x m rest hready
    obtain ⟨b, hb, hw⟩ := hp.ready
    rw [hready] at hb
    obtain ⟨k, b', hk, rfl, hm, hrest⟩ := hb.cons_inv
    have hlen : p.ready.length = rest.length + 1 := by rw [hready, List.length_cons]
    have hseg := hm.attempt.runToPause hrefl htrans hp.inv
    simp only [Steps.run_exceptT_bind, CoordM.untilPause, Steps.run_exceptT_lift,
      Steps.run_untilPause]
    generalize (attempt m).run.runToPause s = r at hseg
    obtain ⟨halt, s'⟩ := r
    obtain ⟨hapart, hstop⟩ := hseg
    cases halt with
    | ended r =>
      -- the handler ended, handled: it leaves the pool, counted
      cases r with
      | error e => exact hstop.elim
      | ok a =>
        obtain ⟨rfl, hs', hx⟩ := hstop
        obtain ⟨q, s'', hrun, hadv⟩ := ih _ s' (hp.finish htrans hfin hready hrest (by omega)
          hapart hs' hx) (by dsimp only; omega)
        exact ⟨q, s'', hrun, hadv.1, hadv.2.1, hadv.2.2.1, hadv.2.2.2⟩
    | paused wake timer k' =>
      -- the handler paused, with the one pause it had: it sleeps
      obtain ⟨hs', j, hkj, hj⟩ := hstop
      have hk1 : k = 1 := by omega
      have hj0 : j = 0 := by omega
      subst hk1 hj0
      obtain ⟨q, s'', hrun, hadv⟩ := ih _ s' (hp.sleep htrans hfin hready hrest (by omega)
        hapart hs' hj) (by dsimp only; omega)
      exact ⟨q, s'', hrun, hadv.1, hadv.2.1, hadv.2.2.1, hadv.2.2.2⟩
  · rename_i hready
    exact ⟨p, s, rfl, hp, hready, hstuck, rfl⟩

include hrefl htrans hfin in
/-- Given more moves than it needs, `advance` leaves the scan advanced.  By induction on the
moves: each starts a handler or runs a ready one. -/
theorem run_advance {w : Nat} :
    ∀ (fuel : Nat) (p : Pool) (s : Env), p.Tracks keep inv fin s₀ xs base w s →
      2 * p.queued.length + p.ready.length < fuel →
      ∃ q s', Steps.run (p.advance fuel).run s = (.ok q, s') ∧
        @Advanced keep inv fin s₀ xs base w p q s'
  | 0, _, _, _, hf => absurd hf (Nat.not_lt_zero _)
  | fuel + 1, p, s, hp, hf => by
    rw [advance.eq_2]
    split
    · rename_i e es hq
      split
      · -- a handler may start: it joins the ready ones
        obtain ⟨q, s', hrun, hadv⟩ := run_advance fuel _ s (hp.start hq)
          (by rw [hq, List.length_cons] at hf; simp only [List.length_append, List.length_singleton]; omega)
        exact ⟨q, s', hrun, hadv.1, hadv.2.1, hadv.2.2.1, hadv.2.2.2⟩
      · rename_i hge
        exact run_runReady hrefl htrans hfin (run_advance fuel) hp (by omega) (.inr (by omega))
    · rename_i hq
      exact run_runReady hrefl htrans hfin (run_advance fuel) hp (by omega) (.inl hq)

include hrefl htrans hfin in
/-- A scan with more rounds of fuel than rounds to come finishes every handler: each round
advances the scan and, while some handler sleeps, wakes the earliest sleepers. -/
theorem run_run :
    ∀ (fuel : Nat) (p : Pool) (s : Env) (w : Nat), p.Tracks keep inv fin s₀ xs base w s →
      0 < p.parallelism → w < fuel →
      ∃ s', Steps.run (p.run none fuel).run s = (.ok (.finished (base + xs.length)), s') ∧
        inv s' ∧ (∀ y ∈ xs, fin y s') ∧ ∀ x, x ∉ xs → keep x s₀ s'
  | 0, _, _, _, _, _, hf => absurd hf (Nat.not_lt_zero _)
  | fuel + 1, p, s, w, hp, hpar, hf => by
    rw [Pool.run.eq_2, Steps.run_exceptT_bind]
    obtain ⟨q, s', hrun, hq, hr, hstuck, hqpar⟩ :=
      run_advance hrefl htrans hfin p.moves p s hp (by unfold moves; omega)
    rw [hrun]
    dsimp only
    split
    · -- no handler sleeps: none is ready or queued either, so all of them were handled
      rename_i hnone
      have hsl := sleepers_eq_nil_of_nextWake? hnone
      have hqq : q.queued = [] := hstuck.resolve_right fun h => by
        rw [hq.running, hr, hsl, hqpar] at h
        simp at h
        omega
      have hpend : q.pending = [] := by simp [pending, hqq, hr, hsl]
      have hcount := hq.count
      rw [hpend, List.length_nil, Nat.add_zero] at hcount
      refine ⟨s', ?_, hq.inv, fun y hy => hq.finished y hy (by rw [hpend]; exact List.not_mem_nil),
        hq.frame⟩
      rw [← hcount]
      rfl
    · -- the scan waits for the earliest sleepers, which wake
      rename_i due hdue
      obtain ⟨w', hw', hq'⟩ := hq.wake hr (exists_wake_of_nextWake? hdue)
      simp only [CoordM.pauseUntil, Steps.run_exceptT_bind, Steps.run_exceptT_lift, Steps.run_pause,
        Steps.run_pure]
      exact run_run fuel _ s' w' hq' (by simp only [Pool.wake]; omega) (by omega)

include hrefl htrans hfin in
/-- A scan run alone over the handlers of distinct xids, each of which keeps to its own xid and
pauses at most once, with more rounds of fuel than handlers, handles every one of them: it
answers their number, and ends in a state with `inv` and `fin` of every xid, in which the part
of every other xid is as it was. -/
theorem run_none_handles_all (xs : List String) (handler : String → CoordM Bool) {par fuel : Nat}
    (hpar : 0 < par) (hxs : xs.Nodup) (hh : ∀ x ∈ xs, Handles keep inv fin x 1 (handler x) s₀)
    (hs₀ : inv s₀) (hfuel : xs.length < fuel) :
    ∃ s', Steps.run (Pool.run none fuel
        { parallelism := par, queued := xs.map fun x => (x, handler x) }).run s₀ =
        (.ok (.finished xs.length), s') ∧
      inv s' ∧ (∀ y ∈ xs, fin y s') ∧ ∀ x, x ∉ xs → keep x s₀ s' := by
  obtain ⟨s', hrun, hend⟩ := run_run hrefl htrans hfin fuel _ s₀ xs.length
    (tracks_start hrefl hxs hh hs₀) hpar hfuel
  rw [Nat.zero_add] at hrun
  exact ⟨s', hrun, hend⟩

end Runs

end Laws

end Handlers

end Pool

end GlobalTxn
