import Mathlib
import GlobalTxn.Proofs.EtcdServer

/-! # Conversations among other clients

Alone, a conversation with an etcd server is played by `Client.run`.  Among other clients, the
server serves the requests of all of them one at a time, in some order: before each request of
one conversation, any number of steps of others may come.  `Client.Run other c s tr a` says
that conversation `c`, begun when the server is in state `s`, ends with `a` while the server
takes the steps `tr`: each step either serves a request of `c`, at some clock reading, or is a
step of another client that `other` allows.  A run ends with the conversation's last request.

A theorem about every `Run` holds for every interleaving of the conversation with the others.

* The parts of a conversation take consecutive parts of its run (`Run.bind`,
  `Run.exceptT_bind`), and a request waits for other steps and is then served in one step
  (`Run.ask`).
* The steps of a run follow each other (`Run.chain`), and each is a step the server can take
  (`Run.step`); what every such step keeps holds all along a run (`Turn.Chain.keeps`).
* A conversation whose requests all have a property (`Client.Sends`) takes only steps that serve
  such requests (`Run.own_sends`): this is what one client guarantees to the others.
-/

namespace GlobalTxn.Etcd

/-- One step of the server: the states before and after it, and whether it served a request of
the conversation followed (`own`) or was a step of another client. -/
structure Turn where
  before : KeySpace
  after : KeySpace
  own : Bool

namespace Turn

/-- The server's state after the steps `tr`, begun in state `s`. -/
def last : KeySpace → List Turn → KeySpace
  | s, [] => s
  | _, t :: tr => last t.after tr

@[simp] theorem last_nil (s : KeySpace) : last s [] = s := rfl

@[simp] theorem last_cons (s : KeySpace) (t : Turn) (tr : List Turn) :
    last s (t :: tr) = last t.after tr := rfl

theorem last_append (s : KeySpace) (tr₁ tr₂ : List Turn) :
    last s (tr₁ ++ tr₂) = last (last s tr₁) tr₂ := by
  induction tr₁ generalizing s with
  | nil => rfl
  | cons t tr ih => exact ih t.after

/-- Steps that follow each other from state `s`: each begins where the one before ended. -/
def Chain : KeySpace → List Turn → Prop
  | _, [] => True
  | s, t :: tr => t.before = s ∧ Chain t.after tr

theorem Chain.append {s : KeySpace} {tr₁ tr₂ : List Turn} (h₁ : Chain s tr₁)
    (h₂ : Chain (last s tr₁) tr₂) : Chain s (tr₁ ++ tr₂) := by
  induction tr₁ generalizing s with
  | nil => exact h₂
  | cons t tr ih => exact ⟨h₁.1, ih h₁.2 h₂⟩

theorem Chain.of_append {s : KeySpace} {tr₁ tr₂ : List Turn} (h : Chain s (tr₁ ++ tr₂)) :
    Chain s tr₁ ∧ Chain (last s tr₁) tr₂ := by
  induction tr₁ generalizing s with
  | nil => exact ⟨trivial, h⟩
  | cons t tr ih =>
    obtain ⟨h₁, h₂⟩ := ih h.2
    exact ⟨⟨h.1, h₁⟩, h₂⟩

/-- What every step keeps holds before each step of a chain and after the last. -/
theorem Chain.keeps (P : KeySpace → Prop) {s : KeySpace} {tr : List Turn} (h : Chain s tr)
    (hstep : ∀ t ∈ tr, P t.before → P t.after) (hs : P s) :
    (∀ t ∈ tr, P t.before) ∧ P (last s tr) := by
  induction tr generalizing s with
  | nil => exact ⟨fun _ ht => (List.not_mem_nil ht).elim, hs⟩
  | cons t tr ih =>
    have hbefore : P t.before := h.1 ▸ hs
    have hafter : P t.after := hstep t List.mem_cons_self hbefore
    obtain ⟨hall, hlast⟩ := ih h.2 (fun t' ht' => hstep t' (List.mem_cons_of_mem t ht')) hafter
    refine ⟨?_, hlast⟩
    intro t' ht'
    rcases List.mem_cons.1 ht' with rfl | ht'
    · exact hbefore
    · exact hall t' ht'

/-- A step of a run: an own step serves a request, at some clock reading; a step of another
client is one that `other` allows. -/
def Step (other : KeySpace → KeySpace → Prop) (t : Turn) : Prop :=
  if t.own then ∃ (now : Nat) (β : Type) (req : Request β), t.after = (t.before.serve now req).2
  else other t.before t.after

end Turn

namespace Client

/-- The runs of conversation `c` from server state `s` among other clients, whose steps `other`
allows: `tr` lists the server's steps in order, and `a` is the conversation's value.  Steps of
others may come before each request; each request is served in one step, at some clock
reading; the run ends with the last request. -/
inductive Run (other : KeySpace → KeySpace → Prop) {α : Type} :
    Client α → KeySpace → List Turn → α → Prop
  | done (a : α) (s : KeySpace) : Run other (.pure a) s [] a
  | wait {β : Type} {req : Request β} {next : Except RpcError β → Client α} {s s' : KeySpace}
      {tr : List Turn} {a : α} :
      other s s' → Run other (.call req next) s' tr a →
      Run other (.call req next) s (⟨s, s', false⟩ :: tr) a
  | serve {β : Type} {req : Request β} {next : Except RpcError β → Client α} {s : KeySpace}
      (now : Nat) {tr : List Turn} {a : α} :
      Run other (next (s.serve now req).1) (s.serve now req).2 tr a →
      Run other (.call req next) s (⟨s, (s.serve now req).2, true⟩ :: tr) a

variable {other : KeySpace → KeySpace → Prop} {ε α β : Type} {s : KeySpace} {tr : List Turn}

/-- Run alone, at one clock reading, a conversation is a run among others where no other step
comes: its answer and the key space it leaves are those of `Client.run`. -/
theorem Run.alone (now : Nat) :
    ∀ (c : Client α) (s : KeySpace), ∃ tr, Run other c s tr (c.run now s).1 ∧
      Turn.last s tr = (c.run now s).2
  | .pure a, s => ⟨[], .done a s, rfl⟩
  | .call req next, s => by
    obtain ⟨tr, h, hl⟩ := Run.alone now (next (s.serve now req).1) (s.serve now req).2
    exact ⟨_ :: tr, .serve now h, hl⟩

/-- A run among others whose steps `other` allows is a run among others whose steps a wider
relation allows. -/
theorem Run.mono {other' : KeySpace → KeySpace → Prop} (hmono : ∀ s s', other s s' → other' s s')
    {c : Client α} {a : α} (h : Run other c s tr a) : Run other' c s tr a := by
  induction h with
  | done a s => exact .done a s
  | wait hother _ ih => exact .wait (hmono _ _ hother) ih
  | serve now _ ih => exact .serve now ih

/-- A conversation that is over takes no step. -/
theorem Run.of_pure {a b : α} (h : Run other (.pure a) s tr b) : tr = [] ∧ b = a := by
  cases h
  exact ⟨rfl, rfl⟩

theorem Run.chain {c : Client α} {a : α} (h : Run other c s tr a) : Turn.Chain s tr := by
  induction h with
  | done => trivial
  | wait _ _ ih => exact ⟨rfl, ih⟩
  | serve _ _ ih => exact ⟨rfl, ih⟩

theorem Run.step {c : Client α} {a : α} (h : Run other c s tr a) :
    ∀ t ∈ tr, Turn.Step other t := by
  induction h with
  | done => exact fun _ ht => (List.not_mem_nil ht).elim
  | wait hother _ ih =>
    intro t ht
    rcases List.mem_cons.1 ht with rfl | ht
    · exact hother
    · exact ih t ht
  | @serve β req _ s now _ _ _ ih =>
    intro t ht
    rcases List.mem_cons.1 ht with rfl | ht
    · exact ⟨now, β, req, rfl⟩
    · exact ih t ht

/-- The two parts of a conversation take consecutive parts of its run. -/
theorem Run.bind {c : Client α} {f : α → Client β} {b : β} (h : Run other (c >>= f) s tr b) :
    ∃ tr₁ tr₂ a, Run other c s tr₁ a ∧ Run other (f a) (Turn.last s tr₁) tr₂ b ∧
      tr = tr₁ ++ tr₂ := by
  induction c generalizing s tr with
  | pure a => exact ⟨[], tr, a, .done a s, h, rfl⟩
  | call req next ih =>
    -- steps of others may come before the first request: induction on them
    generalize hd : (Client.call req next >>= f) = d at h
    induction h with
    | done b s' => cases hd
    | wait hother _ ihw =>
      obtain ⟨tr₁, tr₂, a, h₁, h₂, rfl⟩ := ihw ih hd
      exact ⟨_ :: tr₁, tr₂, a, .wait hother h₁, h₂, rfl⟩
    | serve now hrest _ =>
      cases hd
      obtain ⟨tr₁, tr₂, a, h₁, h₂, rfl⟩ := ih _ hrest
      exact ⟨_ :: tr₁, tr₂, a, .serve now h₁, h₂, rfl⟩

/-- A conversation that may fail goes on after a success and stops at a failure. -/
theorem Run.exceptT_bind {x : ExceptT ε Client α} {f : α → ExceptT ε Client β}
    {r : Except ε β} (h : Run other (x >>= f).run s tr r) :
    ∃ tr₁ tr₂ r₁, Run other x.run s tr₁ r₁ ∧ tr = tr₁ ++ tr₂ ∧
      ((∃ a, r₁ = .ok a ∧ Run other (f a).run (Turn.last s tr₁) tr₂ r) ∨
        (∃ e, r₁ = .error e ∧ tr₂ = [] ∧ r = .error e)) := by
  rw [ExceptT.run_bind] at h
  obtain ⟨tr₁, tr₂, r₁, h₁, h₂, rfl⟩ := Run.bind h
  refine ⟨tr₁, tr₂, r₁, h₁, rfl, ?_⟩
  cases r₁ with
  | ok a => exact .inl ⟨a, rfl, h₂⟩
  | error e =>
    obtain ⟨rfl, rfl⟩ := Run.of_pure h₂
    exact .inr ⟨e, rfl, rfl, rfl⟩

/-- A conversation lifted from one that cannot fail runs as that one. -/
theorem Run.exceptT_lift {c : Client α} {r : Except ε α}
    (h : Run other (ExceptT.lift c : ExceptT ε Client α).run s tr r) :
    ∃ a, Run other c s tr a ∧ r = .ok a := by
  obtain ⟨tr₁, tr₂, a, h₁, h₂, rfl⟩ := Run.bind h
  obtain ⟨rfl, rfl⟩ := Run.of_pure h₂
  exact ⟨a, by simpa using h₁, rfl⟩

/-- A value that is already there takes no step. -/
theorem Run.liftExcept {x : Except ε α} {r : Except ε α}
    (h : Run other (liftExcept x : ExceptT ε Client α).run s tr r) : tr = [] ∧ r = x := by
  cases x <;> exact Run.of_pure h

/-- A request waits for steps of others, and is then served in one step. -/
theorem Run.ask {wrap : RpcError → ε} {req : Request β} {r : Except ε β}
    (h : Run other (Client.ask wrap req).run s tr r) :
    ∃ pre now, Turn.Chain s pre ∧ (∀ t ∈ pre, t.own = false ∧ other t.before t.after) ∧
      tr = pre ++ [⟨Turn.last s pre, ((Turn.last s pre).serve now req).2, true⟩] ∧
      r = ((Turn.last s pre).serve now req).1.mapError wrap := by
  generalize hd : (Client.ask wrap req).run = d at h
  induction h with
  | done => cases hd
  | wait hother _ ih =>
    obtain ⟨pre, now, hchain, hpre, rfl, rfl⟩ := ih hd
    refine ⟨_ :: pre, now, ⟨rfl, hchain⟩, ?_, rfl, rfl⟩
    intro t ht
    rcases List.mem_cons.1 ht with rfl | ht
    · exact ⟨rfl, hother⟩
    · exact hpre t ht
  | serve now hrest _ =>
    cases hd
    obtain ⟨rfl, rfl⟩ := Run.of_pure hrest
    exact ⟨[], now, trivial, fun _ ht => (List.not_mem_nil ht).elim, rfl, rfl⟩

/-! ## What a conversation sends -/

/-- Every request of a conversation, whatever the answers, has property `P`. -/
inductive Sends (P : (β : Type) → Request β → Prop) {α : Type} : Client α → Prop
  | pure (a : α) : Sends P (.pure a)
  | call {β : Type} {req : Request β} {next : Except RpcError β → Client α} :
      P β req → (∀ r, Sends P (next r)) → Sends P (.call req next)

variable {P : (β : Type) → Request β → Prop}

theorem Sends.bind {c : Client α} {f : α → Client β} (hc : Sends P c) (hf : ∀ a, Sends P (f a)) :
    Sends P (c >>= f) := by
  induction hc with
  | pure a => exact hf a
  | call hreq _ ih => exact .call hreq ih

theorem Sends.exceptT_bind {x : ExceptT ε Client α} {f : α → ExceptT ε Client β}
    (hx : Sends P x.run) (hf : ∀ a, Sends P (f a).run) : Sends P (x >>= f).run := by
  rw [ExceptT.run_bind]
  refine hx.bind fun r => ?_
  cases r with
  | ok a => exact hf a
  | error e => exact .pure _

theorem Sends.ask (wrap : RpcError → ε) {req : Request β} (h : P β req) :
    Sends P (Client.ask wrap req).run :=
  .call h fun _ => .pure _

theorem Sends.liftExcept_run (x : Except ε α) :
    Sends P (liftExcept x : ExceptT ε Client α).run := by
  cases x <;> exact .pure _

/-- A conversation that goes on from a value already there sends what it sends from that
value. -/
theorem Sends.liftExcept_bind {x : Except ε α} {f : α → ExceptT ε Client β}
    (h : ∀ a, x = .ok a → Sends P (f a).run) : Sends P (liftExcept x >>= f).run := by
  cases x with
  | error e => exact .pure _
  | ok a => exact h a rfl

theorem Sends.exceptT_lift {c : Client α} (h : Sends P c) :
    Sends P (ExceptT.lift c : ExceptT ε Client α).run :=
  h.bind fun _ => .pure _

/-- Every own step of a run serves a request that the conversation sends. -/
theorem Run.own_sends {c : Client α} {a : α} (hc : Sends P c) (h : Run other c s tr a) :
    ∀ t ∈ tr, t.own = true →
      ∃ (now : Nat) (β : Type) (req : Request β), P β req ∧
        t.after = (t.before.serve now req).2 := by
  induction h with
  | done => exact fun _ ht => (List.not_mem_nil ht).elim
  | wait _ _ ih =>
    intro t ht hown
    rcases List.mem_cons.1 ht with rfl | ht
    · cases hown
    · exact ih hc t ht hown
  | @serve β req _ s now _ _ _ ih =>
    cases hc with
    | call hreq hnext =>
      intro t ht hown
      rcases List.mem_cons.1 ht with rfl | ht
      · exact ⟨now, β, req, hreq, rfl⟩
      · exact ih (hnext _) t ht hown

end Client

end GlobalTxn.Etcd
