/-! # Transaction and branch ids

Ids are 64-bit words unique across coordinator nodes.  From high to low they hold the node id
(10 bits), the milliseconds since `idEpoch` (41 bits) and a sequence number (12 bits).
Timestamp and sequence share one counter, seeded from the clock once, so running out of
sequence numbers borrows from later milliseconds instead of waiting.

Main statement: `next_id`, the next id in closed form.
-/

namespace GlobalTxn

/-- 2020-05-03T00:00:00+08:00, in milliseconds since the unix epoch. -/
def idEpoch : Nat := 1588435200000

/-- The largest node id. -/
def maxNodeId : Nat := 1023

/-- Ids carry the node id above this many low bits. -/
def nodeShift : Nat := 53

/-- Ids keep their counter below this bound, in the low `nodeShift` bits. -/
def counterLimit : Nat := 1 <<< nodeShift

/-- A node id that does not fit in its 10 bits. -/
structure NodeIdTooLarge where
  nodeId : Nat
  deriving DecidableEq, Repr

/-- Text of the error. -/
def NodeIdTooLarge.message (e : NodeIdTooLarge) : String :=
  s!"node id {e.nodeId} exceeds max {maxNodeId}"

/-- The id source of one node: its node id and the shared timestamp-and-sequence counter,
a 64-bit word. -/
structure IdGenerator where
  nodeId : Nat
  counter : Nat
  deriving DecidableEq, Repr, Inhabited

namespace IdGenerator

/-- The counter a node starts from at clock reading `now`: the milliseconds since `idEpoch`
shifted above the 12 sequence bits, cut to 53 bits. -/
def seed (now : Nat) : Nat := ((now - idEpoch) <<< 12 % UInt64.size) % counterLimit

/-- A generator for `nodeId` seeded at clock reading `now`. -/
def create (nodeId now : Nat) : Except NodeIdTooLarge IdGenerator :=
  if nodeId ≤ maxNodeId then .ok ⟨nodeId, seed now⟩ else .error ⟨nodeId⟩

/-- The next id and the generator after it. -/
def next (g : IdGenerator) : Nat × IdGenerator :=
  let counter := (g.counter + 1) % UInt64.size
  (g.nodeId * counterLimit + counter % counterLimit, { g with counter })

/-- The node an id was made by: the 16 bits above the counter. -/
def nodeIdOf (id : Nat) : Nat := (id >>> nodeShift) % UInt16.size

/-- The generator after `k` ids: the counter moves on by `k`. -/
def skip (g : IdGenerator) (k : Nat) : IdGenerator :=
  { g with counter := (g.counter + k) % UInt64.size }

/-- The next `k` ids. -/
def take (g : IdGenerator) : Nat → List Nat × IdGenerator
  | 0 => ([], g)
  | k + 1 =>
    let (id, after) := g.next
    let (ids, last) := after.take k
    (id :: ids, last)

theorem next_counter (g : IdGenerator) : g.next.2.counter = (g.counter + 1) % UInt64.size := rfl

theorem next_nodeId (g : IdGenerator) : g.next.2.nodeId = g.nodeId := rfl

theorem next_id (g : IdGenerator) :
    g.next.1 = g.nodeId * counterLimit + (g.counter + 1) % counterLimit := by
  simp only [next]
  rw [Nat.mod_mod_of_dvd _ (⟨2048, rfl⟩ : counterLimit ∣ UInt64.size)]

end IdGenerator

end GlobalTxn
