import GlobalTxn.Etcd.Client
import GlobalTxn.Text.Utf8

/-! # Lease locks kept in etcd

A named lock is one key `{root}/scheduler/{name}` whose value is its owner, attached to a
lease; when the lease ends, the key goes with it.

* Acquiring reads the key.  A key of another owner refuses the caller.  The caller's own key
  is extended by keeping its lease alive, which succeeds while the lease lives.  Otherwise a
  new lease is granted, for the lease span in whole seconds and at least one second, and the
  key is written with it in a transaction that holds only if the key does not exist; if it
  fails, the new lease is revoked again.
* Releasing reads the key; only its owner may delete it, in a transaction that holds only if
  the key is unchanged, and then revokes its lease.

A failed request fails the call, except a failed revoke, which is ignored.
-/

namespace GlobalTxn.Etcd

/-- Conversations of the lease locks; they fail with a failed request. -/
abbrev LeaseLocksM := ExceptT RpcError Client

namespace LeaseLocks

/-- The key of lock `name` under `root`. -/
def key (root name : String) : String := root ++ "/scheduler/" ++ name

/-- Sends a request; its failure fails the call. -/
def request {β : Type} (req : Request β) : LeaseLocksM β := Client.ask id req

/-- Revokes a lease and ignores a failure. -/
def revokeQuietly (lease : Nat) : LeaseLocksM Unit := do
  let _ ← ExceptT.lift (Client.send (.revoke lease))

/-- The time to live asked for a lease of `span` milliseconds: whole seconds, at least one,
as a signed 64-bit number. -/
def ttlOf (span : Nat) : Int :=
  let secs := Nat.max span 1000 / 1000 % UInt64.size
  if secs < UInt64.size / 2 then secs else (secs : Int) - UInt64.size

/-- Acquires or extends lock `name` for `owner` for a lease of `span` milliseconds; `false` if
another owner holds it. -/
def tryAcquire (root name owner : String) (span : Nat) : LeaseLocksM Bool := do
  let k := key root name
  if let some kv := (← request (.range (.one k))).head? then
    if kv.value != Text.Utf8.encode owner then return false
    if (← request (.keepAlive kv.lease)) > 0 then return true
  let lease ← request (.grant (ttlOf span))
  if ← request (.txn [⟨k, .createRevision, 0⟩] [.put k (Text.Utf8.encode owner) lease]) then
    return true
  revokeQuietly lease
  pure false

/-- Releases lock `name` if `owner` holds it; `false` if not, or if it changed meanwhile. -/
def release (root name owner : String) : LeaseLocksM Bool := do
  let k := key root name
  let some kv := (← request (.range (.one k))).head? | return false
  if kv.value != Text.Utf8.encode owner then return false
  unless ← request (.txn [⟨k, .modRevision, kv.modRevision⟩] [.delete k]) do return false
  revokeQuietly kv.lease
  pure true

example : ttlOf 1500 = 1 ∧ ttlOf 0 = 1 ∧
    ttlOf (UInt64.size / 2 * 1000) = -(UInt64.size / 2) := by
  decide

end LeaseLocks

end GlobalTxn.Etcd
