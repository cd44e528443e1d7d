import GlobalTxn.Time

/-! # Lease locks

A `LeaseTable` holds named locks, each owned by one owner until its lease expires.
Acquiring succeeds when the lock is free, expired, or already the caller's, and (re)starts
the lease; releasing succeeds for the owner only and tells whether the lease was still live.

Main statement: `tryAcquire_held`, a live lease of another owner refuses the caller and
changes nothing.
-/

namespace GlobalTxn

/-- A lock held by `owner` until `expireTime`. -/
structure Lease where
  owner : String
  expireTime : Nat
  deriving DecidableEq, Repr, Inhabited

/-- Leases by lock name, each name at most once. -/
structure LeaseTable where
  leases : List (String × Lease) := []
  deriving DecidableEq, Repr, Inhabited

namespace LeaseTable

/-- The lease on lock `name`. -/
def find? (t : LeaseTable) (name : String) : Option Lease :=
  (t.leases.find? (·.1 == name)).map (·.2)

/-- Drops the lease on lock `name`. -/
def erase (t : LeaseTable) (name : String) : LeaseTable :=
  { leases := t.leases.filter (·.1 != name) }

/-- Sets the lease on lock `name`. -/
def set (t : LeaseTable) (name : String) (l : Lease) : LeaseTable :=
  { leases := (t.erase name).leases ++ [(name, l)] }

/-- Acquires or extends lock `name` for `owner` at clock reading `now` for a lease of
`lease` milliseconds.  `false` if another owner holds a live lease. -/
def tryAcquire (t : LeaseTable) (name owner : String) (lease now : Nat) : Bool × LeaseTable :=
  let fresh : Lease := ⟨owner, Millis.addSat now (millisOf lease)⟩
  match t.find? name with
  | some held =>
    if held.owner != owner && now < held.expireTime then (false, t) else (true, t.set name fresh)
  | none => (true, t.set name fresh)

/-- Releases lock `name` if `owner` holds it; tells whether the lease was still live. -/
def release (t : LeaseTable) (name owner : String) (now : Nat) : Bool × LeaseTable :=
  match t.find? name with
  | some held => if held.owner == owner then (now < held.expireTime, t.erase name) else (false, t)
  | none => (false, t)

theorem tryAcquire_held {t : LeaseTable} {name owner : String} {lease now : Nat} {held : Lease}
    (h : t.find? name = some held) (ho : held.owner ≠ owner) (hl : now < held.expireTime) :
    t.tryAcquire name owner lease now = (false, t) := by
  simp [tryAcquire, h, ho, hl]

end LeaseTable

end GlobalTxn
