import GlobalTxn.Session.BranchType

/-! # Branch sessions

A `Branch` is one participant enlisted in a global transaction: which transaction, which
resource and client, its type and status, the rows it locks (`lockKey`) and opaque
application data.
-/

namespace GlobalTxn

/-- One participant enlisted in a global transaction. -/
structure Branch where
  xid : String
  transactionId : Nat
  branchId : Nat
  resourceGroupId : String
  resourceId : String
  clientId : String
  branchType : BranchType
  status : BranchStatus
  lockKey : String
  applicationData : String
  beginTime : Nat
  deriving DecidableEq, Repr, Inhabited

namespace Branch

/-- Whether a repeated registration request describes this branch. -/
def isSameRegistration (b : Branch) (branchType : BranchType)
    (resourceId clientId lockKey : String) :
    Bool :=
  b.branchType == branchType && b.resourceId == resourceId && b.clientId == clientId &&
    b.lockKey == lockKey

/-- Whether the branch takes global row locks: its type does and it names some rows. -/
def holdsRowLocks (b : Branch) : Bool :=
  b.branchType.holdsRowLocks && !b.lockKey.isEmpty

/-- Text of a branch: `xid/branchId(TYPE, resource)`. -/
def display (b : Branch) : String :=
  s!"{b.xid}/{b.branchId}({b.branchType}, {b.resourceId})"

end Branch

end GlobalTxn
