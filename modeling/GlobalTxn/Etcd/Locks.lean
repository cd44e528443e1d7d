import GlobalTxn.Etcd.Client
import GlobalTxn.Record.Holder
import GlobalTxn.Lock.Table

/-! # Row locks kept in etcd

A held row is one key `{root}/locks/{row key}`, whose value is the record of its holder.

A transaction takes at most `maxTxnOps` operations, so the rows of one call are handled in
chunks of that many, in order.  To lock a chunk, the store reads its rows.  If a row is held by
another transaction, it gives up.  Otherwise it writes the free rows in one transaction that
holds only if they are still free and the rows it already holds are unchanged; if another
writer came in between, it starts the chunk over, at most `maxAttempts` times.  Acquiring all
rows locks chunk after chunk.  If a later chunk cannot be locked, the rows that earlier chunks
locked are unlocked again, so a call that fails leaves no row newly locked.

Unlocking a chunk deletes the rows held by the releasing branch, in one transaction that
holds only if those rows are unchanged, with the same retries.

A record that cannot be read is a corrupted lock.  A failed request is an internal failure
with the text of the failure.
-/

namespace GlobalTxn

/-- Cuts a list into pieces of `size` elements, the last one possibly shorter; a size of 0
gives no pieces. -/
def chunksOf {α : Type} (size : Nat) (xs : List α) : List (List α) :=
  if _h : 0 < size ∧ xs ≠ [] then xs.take size :: chunksOf size (xs.drop size) else []
termination_by xs.length
decreasing_by
  have := List.length_pos_iff.mpr _h.2
  simp only [List.length_drop]
  omega

example : chunksOf 2 [1, 2, 3, 4, 5] = [[1, 2], [3, 4], [5]] := by decide +kernel

namespace Etcd

/-- Conversations of the lock store; they fail with a lock error. -/
abbrev LocksM := ExceptT LockError Client

namespace Locks

/-- How often a chunk is tried before giving up. -/
def maxAttempts : Nat := 8

/-- The most operations one transaction takes. -/
def maxTxnOps : Nat := 128

variable (codec : Wire.Codec LockHolder)

/-- The key of a row under `root`. -/
def key (root rowKey : String) : String := root ++ "/locks/" ++ rowKey

/-- Sends a request of the lock store. -/
def request {β : Type} (req : Request β) : LocksM β :=
  Client.ask (fun e => LockError.internal e.text) req

/-- The holder recorded in a stored key. -/
def decode (kv : KeyValue) : Except LockError LockHolder :=
  match codec.decode kv.value with
  | .error e => .error (.corrupted ("lock holder " ++ kv.keyText ++ ": " ++ e.message))
  | .ok h => .ok h

/-- Reads keys, one read of at most `maxTxnOps` keys after another. -/
def read (keys : List String) : LocksM (List (Option KeyValue)) :=
  (chunksOf maxTxnOps keys).foldlM (fun acc chunk => do
    pure (acc ++ (← request (.snapshot chunk)))) []

/-- What locking rows takes, given what is stored for each: the comparisons, the writes and
the rows newly locked; `none` if a row is held by another transaction.  Rows are looked at in
order, and the first that is unreadable or held by another transaction decides. -/
def planAcquire (root : String) :
    List (RowLock × Option KeyValue) →
      Except LockError (Option (List Compare × List Write × List RowLock))
  | [] => .ok (some ([], [], []))
  | (l, some kv) :: rest => do
    let h ← decode codec kv
    if h.xid != l.xid then return none
    let some (cs, ws, ls) ← planAcquire root rest | return none
    pure (some (⟨key root l.rowKey, .modRevision, kv.modRevision⟩ :: cs, ws, ls))
  | (l, none) :: rest => do
    let some (cs, ws, ls) ← planAcquire root rest | return none
    let k := key root l.rowKey
    pure (some (⟨k, .createRevision, 0⟩ :: cs, .put k (codec.encode l.holder) 0 :: ws, l :: ls))

/-- Locks rows that fit in one transaction; answers the rows not locked before, or `none` if
a row is held by another transaction. -/
def acquireChunk (root : String) (locks : List RowLock) : LocksM (Option (List RowLock)) :=
  attempt maxAttempts
where
  /-- One try, with `n` tries left after it. -/
  attempt : Nat → LocksM (Option (List RowLock))
    | 0 => throw (.internal s!"fail to lock rows after {maxAttempts} attempts")
    | n + 1 => do
      let stored ← read (locks.map fun l => key root l.rowKey)
      let some (compares, writes, locked) ← liftExcept (planAcquire codec root (locks.zip stored))
        | pure none
      if writes.isEmpty then return some locked
      if ← request (.txn compares writes) then pure (some locked) else attempt n

/-- What unlocking rows takes, given what is stored for each: a comparison and a delete for
every row held by the releasing branch. -/
def planRelease (root : String) :
    List (RowLock × Option KeyValue) → Except LockError (List Compare × List Write)
  | [] => .ok ([], [])
  | (_, none) :: rest => planRelease root rest
  | (l, some kv) :: rest => do
    let h ← decode codec kv
    let (cs, ws) ← planRelease root rest
    let k := key root l.rowKey
    if l.isHeldByBranch h then pure (⟨k, .modRevision, kv.modRevision⟩ :: cs, .delete k :: ws)
    else pure (cs, ws)

/-- Unlocks the rows of one transaction that the releasing branches hold. -/
def releaseChunk (root : String) (locks : List RowLock) : LocksM Unit :=
  attempt maxAttempts
where
  /-- One try, with `n` tries left after it. -/
  attempt : Nat → LocksM Unit
    | 0 => throw (.internal s!"fail to unlock rows after {maxAttempts} attempts")
    | n + 1 => do
      let stored ← read (locks.map fun l => key root l.rowKey)
      let (compares, deletes) ← liftExcept (planRelease codec root (locks.zip stored))
      if deletes.isEmpty then return
      if ← request (.txn compares deletes) then pure () else attempt n

/-- Frees every row held by the branch of its lock, chunk after chunk. -/
def release (root : String) (locks : List RowLock) : LocksM Unit :=
  (chunksOf maxTxnOps locks).forM (releaseChunk codec root)

/-- Acquires all rows or none; `false` if another transaction holds one of them.  Rows that
earlier chunks locked are unlocked again when a later chunk fails. -/
def acquire (root : String) (locks : List RowLock) : LocksM Bool :=
  go (chunksOf maxTxnOps locks) []
where
  /-- Locks the remaining chunks; `locked` are the rows locked so far. -/
  go : List (List RowLock) → List RowLock → LocksM Bool
    | [], _ => pure true
    | chunk :: rest, locked => do
      match ← ExceptT.lift (acquireChunk codec root chunk).run with
      | .ok (some rows) => go rest (locked ++ rows)
      | .ok none =>
        release codec root locked
        pure false
      | .error e =>
        let _ ← ExceptT.lift (release codec root locked).run
        throw e

/-- The holder of a row. -/
def owner? (root rowKey : String) : LocksM (Option LockHolder) := do
  match (← request (.range (.one (key root rowKey)))).head? with
  | none => pure none
  | some kv => pure (some (← liftExcept (decode codec kv)))

/-- The rows under `root` as a lock store. -/
def store (root : String) : LockStore LocksM where
  acquire := acquire codec root
  release := release codec root
  owner? := owner? codec root

end Locks

end Etcd

end GlobalTxn
