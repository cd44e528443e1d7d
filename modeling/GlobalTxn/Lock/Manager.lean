import GlobalTxn.Lock.Table
import GlobalTxn.Session.Global

/-! # The lock manager

The lock manager turns branches into row locks and asks a lock store for them: only branches
whose type holds row locks and whose lock key names rows take locks; acquiring is
all-or-nothing, and a failed acquisition releases what it may have locked before reporting
the failure.  It works with every kind of lock store (`LockStore`), in any monad that can fail
with a lock error.
-/

universe u

namespace GlobalTxn

namespace LockManager

/-- The row locks a branch takes: none unless it holds row locks. -/
def collect (b : Branch) : Except LockError (List RowLock) :=
  if b.holdsRowLocks then
    RowLock.expand ⟨b.xid, b.transactionId, b.branchId, b.resourceId⟩ b.lockKey
  else .ok []

variable {m : Type → Type u} [Monad m] [MonadExceptOf LockError m]

/-- Locks all rows of a branch or none of them.  If the store fails, the rows this call may
have locked are released, and the failure is reported. -/
def acquireBranch (store : LockStore m) (b : Branch) : m Bool := do
  let locks ← liftExcept (collect b)
  if locks.isEmpty then return true
  tryCatchThe LockError (store.acquire locks) fun e => do
    tryCatchThe LockError (store.release locks) fun _ => pure ()
    throwThe LockError e

/-- Releases the rows of a branch. -/
def releaseBranch (store : LockStore m) (b : Branch) : m Unit := do
  let locks ← liftExcept (collect b)
  if locks.isEmpty then return
  store.release locks

/-- Releases the rows of every branch of a session, in one call. -/
def releaseSession (store : LockStore m) (s : GlobalSession) : m Unit := do
  let locks ← liftExcept (s.branches.flatMapM collect)
  if locks.isEmpty then return
  store.release locks

/-- Whether the rows of a lock key are free or held by `xid`.  Rows are asked for in order,
and the first row held by another transaction decides. -/
def isLockable (store : LockStore m) (xid resourceId key : String) : m Bool := do
  let locks ← liftExcept (RowLock.expand ⟨xid, 0, 0, resourceId⟩ key)
  go locks
where
  /-- Asks for the rows in turn. -/
  go : List RowLock → m Bool
    | [] => pure true
    | l :: ls => do
      match ← store.owner? l.rowKey with
      | some h => if h.xid != xid then pure false else go ls
      | none => go ls

end LockManager

end GlobalTxn
