/-! # Latches on xids

Within one coordinator node, an operation that changes a global session first latches its
xid, so that two operations never change one session at the same time; a scan that finds an
xid latched passes it over.

The latches are a table from xid to an entry: the mutex that every user of the xid shares, and
how many users it has.  A user enters the xid, which makes the entry with a fresh mutex if the
xid has none, and then waits for the mutex, or tries it once and gives up if it is taken.  A
user that is done, or that stops waiting, first lets go of the mutex if it holds it and then
leaves the xid; the last user to leave removes the entry, so the table keeps only xids in use.

`LatchWorld` is the table together with the users alive and the mutexes held, and
`LatchWorld.step` is one atomic step of one user (`LatchEvent`).  Any interleaving of the users
of any number of tasks is a list of events, and `LatchWorld.run` plays it.
-/

namespace GlobalTxn

/-- The entry of an xid in use: the mutex its users share and how many users it has. -/
structure LatchEntry where
  mutex : Nat
  users : Nat
  deriving DecidableEq, Repr

/-- The latches of one node: the entry of each xid in use, and the next fresh mutex. -/
structure Latches where
  entries : List (String × LatchEntry) := []
  fresh : Nat := 0
  deriving DecidableEq, Repr

namespace Latches

/-- The entry of `xid`, if it is in use. -/
def entry? (l : Latches) (xid : String) : Option LatchEntry := l.entries.lookup xid

/-- The number of xids in use. -/
def size (l : Latches) : Nat := l.entries.length

/-- Enters `xid`: its entry gains a user, and is made with a fresh mutex if `xid` has none.
Answers the mutex of the entry. -/
def enter (l : Latches) (xid : String) : Nat × Latches :=
  match l.entry? xid with
  | some e =>
    (e.mutex, { l with entries := l.entries.map fun (x, e') =>
      if x = xid then (x, { e' with users := e'.users + 1 }) else (x, e') })
  | none => (l.fresh, { entries := l.entries ++ [(xid, ⟨l.fresh, 1⟩)], fresh := l.fresh + 1 })

/-- Leaves `xid`: its entry loses a user, and goes with its last one.  An xid not in use stays
so. -/
def leave (l : Latches) (xid : String) : Latches :=
  match l.entry? xid with
  | some e =>
    if e.users ≤ 1 then { l with entries := l.entries.filter (·.1 != xid) }
    else { l with entries := l.entries.map fun (x, e') =>
      if x = xid then (x, { e' with users := e'.users - 1 }) else (x, e') }
  | none => l

end Latches

/-- Where a user of a latch is. -/
inductive LatchPhase where
  /-- It has entered its xid and waits for the mutex. -/
  | waiting
  /-- It holds the mutex. -/
  | holding
  /-- It has let go of the mutex, or never had it, and is about to leave its xid. -/
  | leaving
  deriving DecidableEq, Repr

/-- A user of a latch, alive from entering its xid until leaving it: the mutex it got when it
entered, and where it is. -/
structure LatchUser where
  xid : String
  mutex : Nat
  phase : LatchPhase
  deriving DecidableEq, Repr

/-- One atomic step of one user of the latches. -/
inductive LatchEvent where
  /-- A new user enters `xid`, to wait for its mutex or to try it once. -/
  | enter (xid : String)
  /-- A waiting user takes its mutex if it is free, and waits on otherwise. -/
  | acquire (user : Nat)
  /-- A waiting user takes its mutex if it is free, and gives up otherwise. -/
  | tryAcquire (user : Nat)
  /-- A user is done or stops waiting: it lets go of its mutex if it holds it. -/
  | drop (user : Nat)
  /-- A user that let go leaves its xid. -/
  | leave (user : Nat)
  deriving DecidableEq, Repr

/-- The latches of one node with the users alive, by id, the mutexes held, and the id of the
next user. -/
structure LatchWorld where
  latches : Latches := {}
  users : List (Nat × LatchUser) := []
  held : List Nat := []
  nextUser : Nat := 0
  deriving DecidableEq, Repr

namespace LatchWorld

/-- The user `id`, if it is alive. -/
def user? (w : LatchWorld) (id : Nat) : Option LatchUser := w.users.lookup id

/-- Moves user `id` to `phase`. -/
def setPhase (w : LatchWorld) (id : Nat) (phase : LatchPhase) : List (Nat × LatchUser) :=
  w.users.map fun (i, u) => if i = id then (i, { u with phase }) else (i, u)

/-- One atomic step; a step its user cannot take changes nothing. -/
def step (w : LatchWorld) : LatchEvent → LatchWorld
  | .enter xid =>
    let (mutex, latches) := w.latches.enter xid
    { w with
      latches
      users := w.users ++ [(w.nextUser, ⟨xid, mutex, .waiting⟩)]
      nextUser := w.nextUser + 1 }
  | .acquire id =>
    match w.user? id with
    | some u =>
      if u.phase = .waiting ∧ u.mutex ∉ w.held then
        { w with users := w.setPhase id .holding, held := u.mutex :: w.held }
      else w
    | none => w
  | .tryAcquire id =>
    match w.user? id with
    | some u =>
      if u.phase = .waiting then
        if u.mutex ∉ w.held then
          { w with users := w.setPhase id .holding, held := u.mutex :: w.held }
        else { w with users := w.setPhase id .leaving }
      else w
    | none => w
  | .drop id =>
    match w.user? id with
    | some u =>
      match u.phase with
      | .holding => { w with users := w.setPhase id .leaving, held := w.held.erase u.mutex }
      | .waiting => { w with users := w.setPhase id .leaving }
      | .leaving => w
    | none => w
  | .leave id =>
    match w.user? id with
    | some u =>
      if u.phase = .leaving then
        { w with latches := w.latches.leave u.xid, users := w.users.filter (·.1 != id) }
      else w
    | none => w

/-- Plays the events in order. -/
def run (w : LatchWorld) (events : List LatchEvent) : LatchWorld := events.foldl step w

@[simp]
theorem run_nil (w : LatchWorld) : w.run [] = w := rfl

@[simp]
theorem run_cons (w : LatchWorld) (e : LatchEvent) (events : List LatchEvent) :
    w.run (e :: events) = (w.step e).run events := rfl

theorem run_append (w : LatchWorld) (es fs : List LatchEvent) :
    w.run (es ++ fs) = (w.run es).run fs := List.foldl_append

/-- A holder keeps out a second user of its xid until it is dropped; then the waiter gets the
mutex, and once both have left, no entry is left behind. -/
example :
    let w := ({} : LatchWorld).run [.enter "tc:1", .acquire 0, .enter "tc:1", .acquire 1]
    (w.user? 1).map (·.phase) = some .waiting ∧
    let w := w.run [.drop 0, .leave 0, .acquire 1]
    (w.user? 1).map (·.phase) = some .holding ∧
    (w.run [.drop 1, .leave 1]).latches.size = 0 := by
  decide

/-- A user that tries a taken mutex gives up and leaves; a waiter that stops waiting leaves
too, and neither leaves an entry behind once the holder has left. -/
example :
    let w := ({} : LatchWorld).run [.enter "tc:1", .acquire 0, .enter "tc:1", .tryAcquire 1,
      .leave 1, .enter "tc:1", .drop 2, .leave 2]
    w.latches.size = 1 ∧ (w.run [.drop 0, .leave 0]).latches.size = 0 := by
  decide

end LatchWorld

end GlobalTxn
