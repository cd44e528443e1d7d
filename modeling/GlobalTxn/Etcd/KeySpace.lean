/-! # The key space of an etcd server

An etcd server keeps one space of keys under multi-version concurrency control.  The space has
a revision, which starts at 1 and advances by one with every change: a put, a delete that
removes a key, a transaction that writes (all its writes share the new revision), or leases
that go and take keys with them.  Each key records the revision that created it, the revision
of its last change, how often it was written since it was created, and the lease it is
attached to (0 for none).

A lease lives for a number of seconds after it was granted or last kept alive; when it expires
or is revoked, the keys attached to it are deleted.  Lease ids are handed out as 1, 2, 3, ….

A transaction compares revisions of keys and applies its writes only if every comparison
holds; a missing key has revision 0.  The space can be told to fail the next few comparing
transactions, as if another client had won each race.

Keys are unique in `kvs`; `find?` is the view of one key, and `range` lists keys in increasing
order.  Main statements: `find?_write` and `find?_write_other` (what a write does to the
view), `find?_erase`, and `txn_conflict` (an injected conflict changes no key).
-/

namespace GlobalTxn.Etcd

/-- A stored key with its value and revisions. -/
structure KeyValue where
  key : String
  value : List UInt8
  createRevision : Nat
  modRevision : Nat
  version : Nat
  lease : Nat
  deriving DecidableEq, Repr

/-- A granted lease: its id, its time to live in seconds, and the clock reading in
milliseconds at which it expires. -/
structure Lease where
  id : Nat
  ttl : Nat
  expireAt : Nat
  deriving DecidableEq, Repr

/-- The keys a read asks for: one key, or every key that starts with a prefix. -/
inductive KeyRange where
  | one (key : String)
  | prefixed (pre : String)
  deriving DecidableEq, Repr

/-- Whether a key lies in a range. -/
def KeyRange.contains : KeyRange → String → Bool
  | .one k, key => key == k
  | .prefixed pre, key => pre.toList.isPrefixOf key.toList

/-- The revision of a key that a comparison reads. -/
inductive Target where
  | createRevision
  | modRevision
  deriving DecidableEq, Repr

/-- A comparison of a transaction: the key's revision equals `revision`. -/
structure Compare where
  key : String
  target : Target
  revision : Nat
  deriving DecidableEq, Repr

/-- A write of a transaction. -/
inductive Write where
  | put (key : String) (value : List UInt8) (lease : Nat)
  | delete (key : String)
  deriving DecidableEq, Repr

/-- The state of an etcd server: its revision, its keys, its leases in the order granted, the
next lease id, and how many comparing transactions are still to fail. -/
structure KeySpace where
  revision : Nat := 1
  kvs : List KeyValue := []
  leases : List Lease := []
  nextLease : Nat := 1
  conflicts : Nat := 0
  deriving DecidableEq, Repr, Inhabited

/-! ## Keys -/

/-- Writes `value` under `key` at revision `rev`, attached to `lease`: a new key is created at
`rev` with version 1; an existing key keeps its creation and counts one more version. -/
def write (kvs : List KeyValue) (rev : Nat) (key : String) (value : List UInt8) (lease : Nat) :
    List KeyValue :=
  match kvs.find? (·.key == key) with
  | some kv =>
    kvs.map fun x =>
      if x.key == key then { kv with value, modRevision := rev, version := kv.version + 1, lease }
      else x
  | none => kvs ++ [⟨key, value, rev, rev, 1, lease⟩]

/-- Removes `key`. -/
def erase (kvs : List KeyValue) (key : String) : List KeyValue :=
  kvs.filter (·.key != key)

namespace KeySpace

/-- The stored key `key`. -/
def find? (s : KeySpace) (key : String) : Option KeyValue :=
  s.kvs.find? (·.key == key)

/-- Every key, in increasing order. -/
def sorted (s : KeySpace) : List KeyValue :=
  s.kvs.mergeSort fun a b => decide (a.key ≤ b.key)

/-- The keys of a range, in increasing order. -/
def range (s : KeySpace) (r : KeyRange) : List KeyValue :=
  s.sorted.filter fun kv => r.contains kv.key

/-- Puts a value under a key in a revision of its own. -/
def put (s : KeySpace) (key : String) (value : List UInt8) (lease : Nat) : KeySpace :=
  { s with kvs := write s.kvs (s.revision + 1) key value lease, revision := s.revision + 1 }

/-- Deletes a key; answers how many keys went, and advances the revision only if one did. -/
def delete (s : KeySpace) (key : String) : Nat × KeySpace :=
  match s.find? key with
  | some _ => (1, { s with kvs := erase s.kvs key, revision := s.revision + 1 })
  | none => (0, s)

/-- Whether a comparison holds; a missing key has revision 0. -/
def holds (s : KeySpace) (c : Compare) : Bool :=
  let rev := match s.find? c.key, c.target with
    | some kv, .createRevision => kv.createRevision
    | some kv, .modRevision => kv.modRevision
    | none, _ => 0
  rev == c.revision

/-- Applies one write of a transaction at revision `rev`; the flag tells whether anything has
changed so far. -/
def applyWrite (rev : Nat) : List KeyValue × Bool → Write → List KeyValue × Bool
  | (kvs, _), .put key value lease => (write kvs rev key value lease, true)
  | (kvs, changed), .delete key =>
    if kvs.any (·.key == key) then (erase kvs key, true) else (kvs, changed)

/-- Applies the writes of a transaction, all at the next revision, which is taken only if
something changed. -/
def applyWrites (s : KeySpace) (writes : List Write) : KeySpace :=
  let (kvs, changed) := writes.foldl (applyWrite (s.revision + 1)) (s.kvs, false)
  if changed then { s with kvs, revision := s.revision + 1 } else s

/-- Runs a transaction whose puts name live leases: answers whether its comparisons held, in
which case its writes are applied.  A comparing transaction fails without looking while
injected conflicts remain. -/
def txn (s : KeySpace) (compares : List Compare) (writes : List Write) : Bool × KeySpace :=
  if !compares.isEmpty && s.conflicts > 0 then (false, { s with conflicts := s.conflicts - 1 })
  else if compares.all s.holds then (true, s.applyWrites writes)
  else (false, s)

/-! ## Leases -/

/-- The lease with id `id`. -/
def findLease? (s : KeySpace) (id : Nat) : Option Lease :=
  s.leases.find? (·.id == id)

/-- Grants a lease of `ttl` seconds at clock reading `now`; answers its id. -/
def grant (s : KeySpace) (ttl now : Nat) : Nat × KeySpace :=
  (s.nextLease, { s with
    leases := s.leases ++ [⟨s.nextLease, ttl, now + ttl * 1000⟩]
    nextLease := s.nextLease + 1 })

/-- Ends the given leases and deletes the keys attached to them, in one revision if any key
goes. -/
def dropLeases (s : KeySpace) (ids : List Nat) : KeySpace :=
  let s' := { s with leases := s.leases.filter fun l => !ids.contains l.id }
  if s.kvs.any (fun kv => ids.contains kv.lease) then
    { s' with kvs := s.kvs.filter (fun kv => !ids.contains kv.lease), revision := s.revision + 1 }
  else s'

/-- Ends every lease that has expired by clock reading `now`. -/
def expire (s : KeySpace) (now : Nat) : KeySpace :=
  match s.leases.filter (·.expireAt ≤ now) with
  | [] => s
  | gone => s.dropLeases (gone.map (·.id))

/-- Keeps a lease alive from clock reading `now`: answers its time to live, or 0 if there is
no such lease. -/
def keepAlive (s : KeySpace) (id now : Nat) : Nat × KeySpace :=
  match s.findLease? id with
  | some l =>
    (l.ttl, { s with leases := s.leases.map fun x =>
      if x.id == id then { x with expireAt := now + l.ttl * 1000 } else x })
  | none => (0, s)

/-! ## Laws -/

theorem find?_erase (kvs : List KeyValue) (key : String) :
    (erase kvs key).find? (·.key == key) = none := by
  simp [erase, List.find?_filter]

theorem txn_conflict (s : KeySpace) (compares : List Compare) (writes : List Write)
    (hc : compares ≠ []) (hn : 0 < s.conflicts) :
    s.txn compares writes = (false, { s with conflicts := s.conflicts - 1 }) := by
  simp [txn, hn, hc]

end KeySpace

theorem find?_write (kvs : List KeyValue) (rev : Nat) (key : String) (value : List UInt8)
    (lease : Nat) :
    ((write kvs rev key value lease).find? (·.key == key)).map (fun kv => (kv.value, kv.lease)) =
      some (value, lease) := by
  unfold write
  split
  · rename_i kv hkv
    have hk : kv.key = key := by simpa using List.find?_some hkv
    have hmem := List.mem_of_find?_eq_some hkv
    rw [List.find?_map]
    have : (kvs.find? ((fun x : KeyValue => x.key == key) ∘ fun x =>
        if x.key == key then
          { kv with value, modRevision := rev, version := kv.version + 1, lease } else x)) =
        kvs.find? (·.key == key) := by
      congr 1
      funext x
      by_cases hx : x.key = key <;> simp [hx, hk]
    rw [this, hkv]
    simp [hk]
  · rename_i hnone
    rw [List.find?_append, hnone]
    simp

theorem find?_write_other (kvs : List KeyValue) (rev : Nat) (key other : String)
    (value : List UInt8) (lease : Nat) (h : other ≠ key) :
    (write kvs rev key value lease).find? (·.key == other) = kvs.find? (·.key == other) := by
  unfold write
  split
  · rename_i kv hkv
    have hk : kv.key = key := by simpa using List.find?_some hkv
    rw [List.find?_map]
    have : ((fun x : KeyValue => x.key == other) ∘ fun x =>
        if x.key == key then
          { kv with value, modRevision := rev, version := kv.version + 1, lease } else x) =
        (·.key == other) := by
      funext x
      by_cases hx : x.key = key
      · simp [hx, hk]
      · simp [hx]
    rw [this]
    cases hf : kvs.find? (·.key == other) with
    | none => rfl
    | some v =>
      have hv : v.key = other := by simpa using List.find?_some hf
      have hne : ¬ v.key = key := by rw [hv]; exact h
      simp [hne]
  · rw [List.find?_append]
    cases kvs.find? (·.key == other) with
    | some _ => rfl
    | none => simp [Ne.symm h]

end GlobalTxn.Etcd
