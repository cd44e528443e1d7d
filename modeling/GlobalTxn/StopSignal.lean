/-! # Stop signals

A stop signal links one owner to any number of watchers.  The owner makes watchers, and a
watcher can be copied; once the owner is dropped, every watcher sees it, and a watcher
waiting for it is released at once.  Nothing else ever reaches a watcher, so a watcher that
waits while the owner lives waits for good.

Watchers are numbered in the order they were made; watcher 0 comes with the owner.

Main statements: `isDropped_dropOwner` (after the drop every watcher sees it) and
`isDropped_of_ownerAlive` (before it none does).
-/

namespace GlobalTxn

/-- A stop signal: whether its owner still lives, and how many watchers were made. -/
structure StopSignal where
  ownerAlive : Bool := true
  watchers : Nat := 1
  deriving DecidableEq, Repr

namespace StopSignal

/-- A new watcher made by the owner, and its number; none once the owner is dropped. -/
def watch (s : StopSignal) : Option (Nat × StopSignal) :=
  if s.ownerAlive then some (s.watchers, { s with watchers := s.watchers + 1 }) else none

/-- A copy of watcher `i`, and its number; none if there is no watcher `i`. -/
def copy (s : StopSignal) (i : Nat) : Option (Nat × StopSignal) :=
  if i < s.watchers then some (s.watchers, { s with watchers := s.watchers + 1 }) else none

/-- Drops the owner; answers whether it was still there. -/
def dropOwner (s : StopSignal) : Bool × StopSignal :=
  (s.ownerAlive, { s with ownerAlive := false })

/-- Whether watcher `i` sees the owner gone; none if there is no watcher `i`.  Waiting on a
watcher ends exactly when this holds. -/
def isDropped (s : StopSignal) (i : Nat) : Option Bool :=
  if i < s.watchers then some !s.ownerAlive else none

theorem isDropped_dropOwner (s : StopSignal) (i : Nat) (h : i < s.watchers) :
    s.dropOwner.2.isDropped i = some true := by
  simp [dropOwner, isDropped, h]

theorem isDropped_of_ownerAlive (s : StopSignal) (i : Nat) (h : i < s.watchers)
    (alive : s.ownerAlive = true) : s.isDropped i = some false := by
  simp [isDropped, h, alive]

end StopSignal

end GlobalTxn
