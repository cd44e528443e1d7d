import GlobalTxn.Coordinator.Pool

/-! # Scans under a lease lock

Several nodes may run the same scan; a lease lock named for the scan kind lets one of them at
a time do it.  `runOnce` takes the lock for the node's owner, runs the scan while renewing the
lock, and releases it afterwards.  It answers `none` when another owner holds the lock, and
fails when the lock was taken over while the scan ran.

`takeOver` is someone else taking such a lock over: after a while it lets go of the node's
hold on the lock and takes the lock for another owner.
-/

namespace GlobalTxn

/-- Someone else taking a scan lock over, `after` milliseconds from its start, for `owner`
with a lease of `lease` milliseconds. -/
structure Takeover where
  after : Nat
  owner : String
  lease : Nat
  deriving DecidableEq, Repr

namespace CoordM

/-- Runs a scan once if the node wins its lock; `none` if another owner holds it. -/
def runOnce (c : Config) (kind : ScanKind) : CoordM (Option Nat) := do
  let name := kind.lockName
  let owner := c.lockOwner
  match ← leasing (Env.tryAcquireLease name owner c.schedulerLockLease) with
  | .error e => throw (.internal e)
  | .ok false => return none
  | .ok true => pure ()
  let r ← tryCatch (Except.ok <$> scan c kind (some (name, owner))) fun e => pure (.error e)
  let _ ← leasing (Env.releaseLease name owner)
  match r with
  | .ok (.finished n) => pure (some n)
  | .ok .lost => throw (.internal s!"scheduler lock {name} taken over by others")
  | .error e => throw e

/-- Takes the lock of scans of `kind` over as `t` says: waits, lets go of the hold of the
node under settings `c`, and takes the lock for the new owner. -/
def takeOver (c : Config) (kind : ScanKind) (t : Takeover) : CoordM Unit := do
  sleep t.after
  let _ ← leasing (Env.releaseLease kind.lockName c.lockOwner)
  let _ ← leasing (Env.tryAcquireLease kind.lockName t.owner t.lease)

end CoordM

end GlobalTxn
