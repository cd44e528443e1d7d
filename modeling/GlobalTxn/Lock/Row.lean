import GlobalTxn.Text.Quoted
import GlobalTxn.Text.Split

/-! # Row locks and lock keys

A branch that holds row locks names its rows in a *lock key*,
`table1:pk1,pk2;table2:pk3`: `;` separates tables, `:` ends a table's name, `,` separates
primary keys.  `RowLock.expand` turns a lock key into one `RowLock` per row, in the order the
rows are named and without repeating a row; `RowLock.rowKey` is the key a lock store files
the row under, `resource^^^table^^^pk`.

A lock key that breaks the grammar is refused with the first problem met, reading from the
left; `LockError` holds that and the other failures of a lock store.
-/

namespace GlobalTxn

/-- What is wrong with a lock key. -/
inductive KeyProblem where
  | missingTableSeparator
  | emptyTableName
  | emptyPrimaryKey
  deriving DecidableEq, Repr

/-- Text of a lock-key problem. -/
def KeyProblem.message : KeyProblem → String
  | .missingTableSeparator => "missing table separator"
  | .emptyTableName => "empty table name"
  | .emptyPrimaryKey => "empty primary key"

/-- Failures of a lock store. -/
inductive LockError where
  /-- A lock key that breaks the grammar. -/
  | invalidKey (lockKey : String) (problem : KeyProblem)
  /-- A stored lock record that cannot be read. -/
  | corrupted (message : String)
  /-- The store could not be reached or failed. -/
  | internal (message : String)
  deriving DecidableEq, Repr

namespace LockError

/-- The name of the kind of failure. -/
def kind : LockError → String
  | invalidKey .. => "InvalidLockKey"
  | corrupted .. => "Corrupted"
  | internal .. => "Internal"

/-- Text of a failure; a lock key is quoted. -/
def message : LockError → String
  | invalidKey key p => s!"invalid lock key {Text.quote key}: {p.message}"
  | corrupted m => s!"lock record corrupted: {m}"
  | internal m => m

end LockError

/-- The transaction and branch that hold a row. -/
structure LockHolder where
  xid : String
  transactionId : Nat
  branchId : Nat
  deriving DecidableEq, Repr, Inhabited

/-- The branch on whose behalf rows are locked, and the resource they belong to. -/
structure LockOwner where
  xid : String
  transactionId : Nat
  branchId : Nat
  resourceId : String
  deriving DecidableEq, Repr, Inhabited

/-- The key a lock store files a row under. -/
def rowKey (resourceId tableName pk : String) : String :=
  resourceId ++ "^^^" ++ tableName ++ "^^^" ++ pk

/-- One row a branch wants to own exclusively. -/
structure RowLock where
  xid : String
  transactionId : Nat
  branchId : Nat
  resourceId : String
  tableName : String
  pk : String
  deriving DecidableEq, Repr, Inhabited

namespace RowLock

/-- The key the row is filed under. -/
def rowKey (l : RowLock) : String := GlobalTxn.rowKey l.resourceId l.tableName l.pk

/-- The holder the row gets. -/
def holder (l : RowLock) : LockHolder := ⟨l.xid, l.transactionId, l.branchId⟩

/-- Whether `h` owns this row on behalf of the same branch. -/
def isHeldByBranch (l : RowLock) (h : LockHolder) : Bool :=
  h.xid == l.xid && h.branchId == l.branchId

/-- Text of a row: `table:pk`. -/
def display (l : RowLock) : String := l.tableName ++ ":" ++ l.pk

/-- The row of `o` in table `table` with primary key `pk`. -/
def ofOwner (o : LockOwner) (table pk : String) : RowLock :=
  ⟨o.xid, o.transactionId, o.branchId, o.resourceId, table, pk⟩

/-- Adds the rows of one table, skipping rows already in `acc`. -/
def addTableRows (o : LockOwner) (key table : String) :
    List (List Char) → List RowLock → Except LockError (List RowLock)
  | [], acc => .ok acc
  | pk :: pks, acc =>
    if pk.isEmpty then .error (.invalidKey key .emptyPrimaryKey)
    else
      let pk := String.ofList pk
      if acc.any (fun l => l.tableName == table && l.pk == pk) then addTableRows o key table pks acc
      else addTableRows o key table pks (acc ++ [ofOwner o table pk])

/-- Adds the rows of each `table:pks` segment in turn. -/
def addSegments (o : LockOwner) (key : String) :
    List (List Char) → List RowLock → Except LockError (List RowLock)
  | [], acc => .ok acc
  | seg :: segs, acc =>
    match Text.splitFirst? ':' seg with
    | none => .error (.invalidKey key .missingTableSeparator)
    | some (table, pks) =>
      if table.isEmpty then .error (.invalidKey key .emptyTableName)
      else do
        let acc ← addTableRows o key (String.ofList table) (Text.splitAt ',' pks) acc
        addSegments o key segs acc

/-- The rows named by a lock key, in order and without repeats.  Empty segments between
`;` are skipped. -/
def expand (o : LockOwner) (key : String) : Except LockError (List RowLock) :=
  addSegments o key ((Text.splitAt ';' key.toList).filter (!·.isEmpty)) []

end RowLock

end GlobalTxn
