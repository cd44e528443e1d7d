import GlobalTxn.Session.Global

/-! # The session store

`SessionTable` keeps every live global session with its branches, one session per xid.
Branches are stored inside their session, so a branch change is atomic with its session.
`SessionStore` names the operations that every kind of session store offers; the table is one
(`SessionTable.store`), and a store kept elsewhere is another.

The view of the table is `find?`; each operation has a lemma saying what it does to it.
-/

universe u

namespace GlobalTxn

/-- Failures of a session store. -/
inductive StoreError where
  | sessionNotFound (xid : String)
  | sessionAlreadyExists (xid : String)
  | sessionNotActive (xid : String) (status : GlobalStatus)
  | branchNotFound (xid : String) (branchId : Nat)
  | corrupted (message : String)
  | internal (message : String)
  deriving DecidableEq, Repr

namespace StoreError

/-- The name of the kind of failure. -/
def kind : StoreError → String
  | sessionNotFound .. => "SessionNotFound"
  | sessionAlreadyExists .. => "SessionAlreadyExists"
  | sessionNotActive .. => "SessionNotActive"
  | branchNotFound .. => "BranchNotFound"
  | corrupted .. => "Corrupted"
  | internal .. => "Internal"

/-- Text of a failure. -/
def message : StoreError → String
  | sessionNotFound xid => s!"global session {xid} not found"
  | sessionAlreadyExists xid => s!"global session {xid} already exists"
  | sessionNotActive xid status =>
    s!"global session {xid} in status {status} accepts no more branches"
  | branchNotFound xid branchId => s!"branch {branchId} of {xid} not found"
  | corrupted m => s!"session record corrupted: {m}"
  | internal m => m

end StoreError

/-- Sessions by xid, each xid at most once, in the order they were added. -/
structure SessionTable where
  sessions : List GlobalSession := []
  deriving DecidableEq, Repr, Inhabited

namespace SessionTable

/-- The session stored under `xid`. -/
def find? (t : SessionTable) (xid : String) : Option GlobalSession :=
  t.sessions.find? (·.xid == xid)

/-- Number of stored sessions. -/
def size (t : SessionTable) : Nat := t.sessions.length

/-- Replaces the session stored under `s.xid` by `s`. -/
def put (t : SessionTable) (s : GlobalSession) : SessionTable :=
  { sessions := t.sessions.map fun x => if x.xid == s.xid then s else x }

/-- Stores a new session; its xid must be free. -/
def add (t : SessionTable) (s : GlobalSession) : Except StoreError SessionTable :=
  match t.find? s.xid with
  | some _ => .error (.sessionAlreadyExists s.xid)
  | none => .ok { sessions := t.sessions ++ [s] }

/-- Replaces the global fields of a stored session and keeps its stored branches.  Returns
the session as stored afterwards. -/
def update (t : SessionTable) (s : GlobalSession) :
    Except StoreError (GlobalSession × SessionTable) :=
  match t.find? s.xid with
  | some stored =>
    let s' := { s with branches := stored.branches }
    .ok (s', t.put s')
  | none => .error (.sessionNotFound s.xid)

/-- Removes a session with its branches; removing an absent session does nothing. -/
def remove (t : SessionTable) (xid : String) : SessionTable :=
  { sessions := t.sessions.filter (·.xid != xid) }

/-- Appends a branch to its session, which must still be in `begin`. -/
def addBranch (t : SessionTable) (b : Branch) : Except StoreError SessionTable :=
  match t.find? b.xid with
  | some stored =>
    if stored.status = .begin then .ok (t.put (stored.addBranch b))
    else .error (.sessionNotActive b.xid stored.status)
  | none => .error (.sessionNotFound b.xid)

/-- Replaces a stored branch, found by its xid and id. -/
def updateBranch (t : SessionTable) (b : Branch) : Except StoreError SessionTable :=
  match t.find? b.xid with
  | some stored =>
    match stored.findBranch? b.branchId with
    | some _ => .ok (t.put (stored.replaceBranch b))
    | none => .error (.branchNotFound b.xid b.branchId)
  | none => .error (.sessionNotFound b.xid)

/-- Removes a branch from its session; removing an absent branch does nothing. -/
def removeBranch (t : SessionTable) (xid : String) (branchId : Nat) : SessionTable :=
  match t.find? xid with
  | some stored => t.put (stored.removeBranch branchId)
  | none => t

/-- Sessions in increasing xid order. -/
def byXid (t : SessionTable) : List GlobalSession :=
  t.sessions.mergeSort fun a b => decide (a.xid ≤ b.xid)

/-- Whether session `a` comes before `b` among sessions found by status: older first, then by
xid. -/
def olderFirst (a b : GlobalSession) : Bool :=
  a.beginTime < b.beginTime || (a.beginTime == b.beginTime && decide (a.xid ≤ b.xid))

/-- Sessions in any of the given statuses, oldest first, ties by xid. -/
def findBy (t : SessionTable) (statuses : List GlobalStatus) : List GlobalSession :=
  (t.sessions.filter fun s => statuses.contains s.status).mergeSort olderFirst

theorem find?_remove (t : SessionTable) (xid : String) : (t.remove xid).find? xid = none := by
  simp [remove, find?, List.find?_filter]

end SessionTable

/-- A session store as reached from the monad `m`: the operations every kind of store offers.
-/
structure SessionStore (m : Type → Type u) where
  /-- Stores a new session; its xid must be free. -/
  add : GlobalSession → m Unit
  /-- Replaces the global fields of a session and keeps its stored branches; answers the
  session as stored. -/
  update : GlobalSession → m GlobalSession
  /-- Removes a session with its branches. -/
  remove : String → m Unit
  /-- Appends a branch to its session, which must still be in `begin`. -/
  addBranch : Branch → m Unit
  /-- Replaces a stored branch. -/
  updateBranch : Branch → m Unit
  /-- Removes a branch from its session. -/
  removeBranch : String → Nat → m Unit
  /-- The session stored under an xid. -/
  find? : String → m (Option GlobalSession)
  /-- Sessions in any of the given statuses, oldest first. -/
  findBy : List GlobalStatus → m (List GlobalSession)

/-- Computations on a session table. -/
abbrev SessionTableM := ExceptT StoreError (StateM SessionTable)

namespace SessionTable

/-- Runs a change of the table that may fail. -/
def change {α : Type} (f : SessionTable → Except StoreError (α × SessionTable)) :
    SessionTableM α := do
  match f (← get) with
  | .ok (a, t) => set t; pure a
  | .error e => throw e

/-- The table as a session store. -/
def store : SessionStore SessionTableM where
  add s := change fun t => (t.add s).map ((), ·)
  update s := change (·.update s)
  remove xid := modify (·.remove xid)
  addBranch b := change fun t => (t.addBranch b).map ((), ·)
  updateBranch b := change fun t => (t.updateBranch b).map ((), ·)
  removeBranch xid branchId := modify (·.removeBranch xid branchId)
  find? xid := do pure ((← get).find? xid)
  findBy statuses := do pure ((← get).findBy statuses)

end SessionTable

end GlobalTxn
