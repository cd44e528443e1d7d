/-! # Programs of atomic steps over a shared state

Several coordinator nodes work on the same stores at once, and each call on a store is atomic:
between two calls of one node, any other node may make calls of its own.  A `Steps σ α` is a
program that reaches a shared state `σ` only in such atomic steps and ends with an `α`.

`Steps.run` runs a program alone, one step after the other; `Steps.interleave` runs two
programs side by side, taking their steps in the order a schedule chooses.  Every interleaving
of two programs' steps is the run of some schedule, so a statement over all schedules is one
over all interleavings.

A step reads the state and writes it back in one go: `step update next` changes the state by
`update` and goes on with `next` applied to the state the step read.  `Steps.atomic` makes a
state computation one step, and `get`, `set` and `modifyGet` are one step each, so that a read
followed by a write is two steps, between which other programs may run.

A program may also pause until a later time of the runtime that runs it (`pause`): the time
comes with the number of the timer that ends the pause, which orders pauses that end at one
time.  Run alone, a program goes on at once; `Steps.runToPause` runs it up to its next pause,
and `Steps.untilPause` does the same as a program of its own, so that one program can run
others inside it and keep their rests.
-/

namespace GlobalTxn

/-- A program over a shared state `σ` that ends with an `α`, made of atomic steps. -/
inductive Steps (σ : Type) (α : Type) : Type where
  /-- The program has ended with `a`. -/
  | done (a : α)
  /-- One atomic step: the state becomes `update s`, and the program goes on as `next s`, where
  `s` is the state the step read. -/
  | step (update : σ → σ) (next : σ → Steps σ α)
  /-- The program waits until time `wake` of its runtime, on timer number `timer`, and then
  goes on as `next`. -/
  | pause (wake timer : Nat) (next : Steps σ α)

namespace Steps

variable {σ : Type}

/-- Runs `p`, then `f` on its result. -/
def bind {α β : Type} : Steps σ α → (α → Steps σ β) → Steps σ β
  | done a, f => f a
  | step u n, f => step u fun s => bind (n s) f
  | pause w t n, f => pause w t (bind n f)

instance : Monad (Steps σ) where
  pure := done
  bind := bind

/-- A state computation as one atomic step. -/
def atomic {β : Type} (act : StateM σ β) : Steps σ β :=
  step (fun s => (act s).2) fun s => done (act s).1

instance : MonadStateOf σ (Steps σ) where
  get := atomic get
  set s := atomic (set s)
  modifyGet f := atomic (modifyGet f)

/-- Runs a program alone from state `s`: its result and the state it leaves.  Alone, a program
does not wait: a pause ends at once. -/
def run {α : Type} : Steps σ α → σ → α × σ
  | done a, s => (a, s)
  | step u n, s => run (n s) (u s)
  | pause _ _ n, s => run n s

/-- Where a program stopped running for now: it ended with a result, or it paused until time
`wake` on timer `timer`, and goes on as `rest`. -/
inductive Halt (σ α : Type) where
  | ended (a : α)
  | paused (wake timer : Nat) (rest : Steps σ α)

/-- Runs a program from state `s` up to its next pause: where it stopped, and the state. -/
def runToPause {α : Type} : Steps σ α → σ → Halt σ α × σ
  | done a, s => (.ended a, s)
  | step u n, s => runToPause (n s) (u s)
  | pause w t n, s => (.paused w t n, s)

/-- Takes the steps of a program as steps of its own up to the program's next pause, and ends
with where the program stopped. -/
def untilPause {α : Type} : Steps σ α → Steps σ (Halt σ α)
  | done a => done (.ended a)
  | step u n => step u fun s => untilPause (n s)
  | pause w t n => done (.paused w t n)

/-- The next step of a program from state `s`: the rest of the program and the state after the
step; `none` once the program has ended. -/
def advance {α : Type} : Steps σ α → σ → Option (Steps σ α × σ)
  | done _, _ => none
  | step u n, s => some (n s, u s)
  | pause _ _ n, s => some (n, s)

/-- Runs two programs side by side from state `s`.  Each choice of the schedule takes the next
step of the first program (`true`) or of the second (`false`), and is passed over if that
program has ended; a pause counts as a step that changes nothing.  When the schedule is used
up, the first program runs to its end, then the second. -/
def interleave {α β : Type} : List Bool → Steps σ α → Steps σ β → σ → (α × β) × σ
  | [], p, q, s =>
    let (a, s) := p.run s
    let (b, s) := q.run s
    ((a, b), s)
  | true :: sched, step u n, q, s => interleave sched (n s) q (u s)
  | false :: sched, p, step u n, s => interleave sched p (n s) (u s)
  | true :: sched, pause _ _ n, q, s => interleave sched n q s
  | false :: sched, p, pause _ _ n, s => interleave sched p n s
  | _ :: sched, p, q, s => interleave sched p q s

@[simp]
theorem run_done {α : Type} (a : α) (s : σ) : run (done a) s = (a, s) := rfl

@[simp]
theorem run_pure {α : Type} (a : α) (s : σ) : run (pure a : Steps σ α) s = (a, s) := rfl

@[simp]
theorem run_step {α : Type} (u : σ → σ) (n : σ → Steps σ α) (s : σ) :
    run (step u n) s = run (n s) (u s) := rfl

@[simp]
theorem run_atomic {β : Type} (act : StateM σ β) (s : σ) : run (atomic act) s = act s := rfl

@[simp]
theorem run_pause {α : Type} (w t : Nat) (n : Steps σ α) (s : σ) :
    run (pause w t n) s = run n s := rfl

/-- Taking a program's steps up to its pause as a program of its own does what `runToPause`
does. -/
theorem run_untilPause {α : Type} (p : Steps σ α) (s : σ) :
    run (untilPause p) s = runToPause p s := by
  induction p generalizing s with
  | done a => rfl
  | step u n ih => exact ih s (u s)
  | pause w t n => rfl

theorem run_bind {α β : Type} (p : Steps σ α) (f : α → Steps σ β) (s : σ) :
    run (p >>= f) s = run (f (run p s).1) (run p s).2 := by
  induction p generalizing s with
  | done a => rfl
  | step u n ih => exact ih s (u s)
  | pause w t n ih => exact ih s

theorem bind_assoc {α β γ : Type} (p : Steps σ α) (f : α → Steps σ β) (g : β → Steps σ γ) :
    p >>= f >>= g = p >>= fun a => f a >>= g := by
  induction p with
  | done a => rfl
  | step u n ih => exact congrArg (step u) (funext ih)
  | pause w t n ih => exact congrArg (pause w t) ih

theorem id_map {α : Type} (p : Steps σ α) : id <$> p = p := by
  induction p with
  | done a => rfl
  | step u n ih => exact congrArg (step u) (funext ih)
  | pause w t n ih => exact congrArg (pause w t) ih

instance : LawfulMonad (Steps σ) :=
  LawfulMonad.mk' (Steps σ) id_map (fun _ _ => rfl) bind_assoc

example : run (do let a ← (get : Steps Nat Nat); set (a + 2); pure a) 5 = (5, 7) := rfl

example : interleave [false, true, true]
    (do let a ← (get : Steps Nat Nat); set (a + 1))
    (do let b ← (get : Steps Nat Nat); set (b * 10)) 1 = (((), ()), 10) := rfl

end Steps

end GlobalTxn
