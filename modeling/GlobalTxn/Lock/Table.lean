import GlobalTxn.Lock.Row

/-! # A table of row locks

`LockTable` maps row keys to the holder of each row.  Acquiring a set of rows is
all-or-nothing: if any row is held by another transaction nothing changes, otherwise every
row not yet held gets its holder and rows already held by the same transaction keep their
first holder.  Releasing frees only rows held by the releasing branch, so repeated releases
are harmless.

`LockStore` names the operations that every kind of lock store offers; the table is one
(`LockTable.store`).  The view of a table is `owner?`; `owner?_release_other` and
`acquire_false` are its laws.
-/

universe u

namespace GlobalTxn

/-- A lock store as reached from the monad `m`: the operations every kind of lock store
offers. -/
structure LockStore (m : Type → Type u) where
  /-- Acquires all rows or none; `false` if another transaction holds one of them. -/
  acquire : List RowLock → m Bool
  /-- Frees the rows held by the branches of the given locks. -/
  release : List RowLock → m Unit
  /-- The holder of a row. -/
  owner? : String → m (Option LockHolder)

/-- Row keys with their holders, each key at most once. -/
structure LockTable where
  rows : List (String × LockHolder) := []
  deriving DecidableEq, Repr, Inhabited

/-- Computations on a lock table. -/
abbrev LockTableM := ExceptT LockError (StateM LockTable)

namespace LockTable

/-- The holder of a row. -/
def owner? (t : LockTable) (key : String) : Option LockHolder :=
  (t.rows.find? (·.1 == key)).map (·.2)

/-- Number of held rows. -/
def size (t : LockTable) : Nat := t.rows.length

/-- Whether a lock conflicts with the table: its row is held by another transaction. -/
def conflicts (t : LockTable) (l : RowLock) : Bool :=
  match t.owner? l.rowKey with
  | some h => h.xid != l.xid
  | none => false

/-- Gives a row its holder unless it is held already. -/
def insertIfAbsent (t : LockTable) (l : RowLock) : LockTable :=
  match t.owner? l.rowKey with
  | some _ => t
  | none => { rows := t.rows ++ [(l.rowKey, l.holder)] }

/-- Acquires all rows or none: `false` and no change if any row is held by another
transaction. -/
def acquire (t : LockTable) (locks : List RowLock) : Bool × LockTable :=
  if locks.any t.conflicts then (false, t) else (true, locks.foldl insertIfAbsent t)

/-- Frees one row if the lock's branch holds it. -/
def releaseOne (t : LockTable) (l : RowLock) : LockTable :=
  match t.owner? l.rowKey with
  | some h => if l.isHeldByBranch h then { rows := t.rows.filter (·.1 != l.rowKey) } else t
  | none => t

/-- Frees every row held by the branch of its lock. -/
def release (t : LockTable) (locks : List RowLock) : LockTable :=
  locks.foldl releaseOne t

/-- The held rows, sorted by row key. -/
def sorted (t : LockTable) : List (String × LockHolder) :=
  t.rows.mergeSort (fun a b => decide (a.1 ≤ b.1))

/-- The table as a lock store. -/
def store : LockStore LockTableM where
  acquire locks := modifyGet (·.acquire locks)
  release locks := modify (·.release locks)
  owner? key := do pure ((← get).owner? key)

theorem acquire_false {t : LockTable} {locks : List RowLock} {t' : LockTable}
    (h : t.acquire locks = (false, t')) : t' = t := by
  unfold acquire at h
  split at h
  · cases h; rfl
  · cases h

theorem owner?_releaseOne_other (t : LockTable) (l : RowLock) (key : String)
    (hk : key ≠ l.rowKey) : (t.releaseOne l).owner? key = t.owner? key := by
  unfold releaseOne
  split
  · split
    · simp only [owner?]
      rw [List.find?_filter]
      have : (fun a : String × LockHolder =>
          decide ((a.1 != l.rowKey) = true ∧ (a.1 == key) = true)) = (fun x => x.1 == key) := by
        funext x
        by_cases hx : x.1 = key
        · simp [hx, hk]
        · simp [hx]
      rw [this]
    · rfl
  · rfl

end LockTable

end GlobalTxn
