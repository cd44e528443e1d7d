import Mathlib
import GlobalTxn.Ident.Generator

/-! # The ids a generator draws

A generator keeps one counter, a 64-bit word seeded from the clock: the milliseconds since
`idEpoch`, shifted above the 12 sequence bits and cut to 53 bits.  Each draw adds one to the
word and answers the node id above the low 53 bits of it.  So the `k`-th id drawn, counting
from one, is `nodeId * 2 ^ 53 + (seed + k) % 2 ^ 53`: the node id reads back from every id,
ids of different nodes never meet, `2 ^ 53` draws in a row are distinct, and the ids grow but
where the counter passes a multiple of `2 ^ 53`.  Once the clock is past `2 ^ 41 - 1`
milliseconds after the epoch, the timestamp no longer fits its 41 bits, and the ids fall below
the value the layout gives them.

Main statement: `IdGenerator.created_ids_layout`.
-/

namespace GlobalTxn

namespace IdGenerator

variable (g : IdGenerator)

theorem counterLimit_eq : counterLimit = 9007199254740992 := rfl

theorem skip_next_snd (j : Nat) : g.next.2.skip j = g.skip (j + 1) := by
  simp only [next, skip, IdGenerator.mk.injEq, true_and]
  rw [Nat.mod_add_mod, Nat.add_assoc, Nat.add_comm 1 j]

theorem next_fst_eq_skip_zero : g.next.1 = (g.skip 0).next.1 := by
  rw [next_id, next_id]
  simp only [skip, Nat.add_zero, counterLimit_eq, UInt64.size]
  omega

/-- Fewer than `counterLimit` draws apart, the generator gives distinct ids. -/
theorem skip_next_fst_injective {j k : Nat} (hj : j < counterLimit) (hk : k < counterLimit)
    (h : (g.skip j).next.1 = (g.skip k).next.1) : j = k := by
  rw [next_id, next_id] at h
  simp only [skip, counterLimit_eq, UInt64.size] at h hj hk
  omega

/-- The counter a clock reading seeds: the milliseconds since the epoch, none before it, times
`2 ^ 12`, cut to 53 bits. -/
theorem seed_eq (now : Nat) : seed now = (now - idEpoch) * 2 ^ 12 % 2 ^ 53 := by
  rw [seed, Nat.shiftLeft_eq, counterLimit_eq]
  exact Nat.mod_mod_of_dvd _ ⟨2048, rfl⟩

/-- The id drawn after `k` others: the node id above the counter moved on by `k + 1`, cut to
53 bits. -/
theorem skip_next_fst (k : Nat) :
    (g.skip k).next.1 = g.nodeId * 2 ^ 53 + (g.counter + k + 1) % 2 ^ 53 := by
  rw [next_id, counterLimit_eq]
  simp only [skip, UInt64.size]
  omega

/-- The ids a generator draws in a row are those drawn after `0, 1, …` others. -/
theorem take_eq (n : Nat) : (g.take n).1 = (List.range n).map fun k => (g.skip k).next.1 := by
  induction n generalizing g with
  | zero => rfl
  | succ n ih =>
    rw [List.range_succ_eq_map, List.map_cons, List.map_map]
    show g.next.1 :: (g.next.2.take n).1 = _
    rw [ih, next_fst_eq_skip_zero]
    congr 1
    exact List.map_congr_left fun k _ => by simp [skip_next_snd]

theorem length_take (n : Nat) : (g.take n).1.length = n := by
  rw [take_eq, List.length_map, List.length_range]

/-- A node id that fits its 10 bits reads back from every id laid out with it. -/
theorem nodeIdOf_layout {nodeId : Nat} (h : nodeId ≤ maxNodeId) (c : Nat) :
    nodeIdOf (nodeId * 2 ^ 53 + c % 2 ^ 53) = nodeId := by
  have hc : c % 2 ^ 53 < 2 ^ 53 := Nat.mod_lt _ (by decide)
  rw [nodeIdOf, nodeShift, Nat.shiftRight_eq_div_pow, Nat.mul_comm, Nat.mul_add_div (by decide),
    Nat.div_eq_of_lt hc, Nat.add_zero]
  exact Nat.mod_eq_of_lt (by unfold maxNodeId at h; simp [UInt16.size]; omega)

theorem nodeIdOf_mem_take (h : g.nodeId ≤ maxNodeId) {n id : Nat} (hid : id ∈ (g.take n).1) :
    nodeIdOf id = g.nodeId := by
  rw [take_eq] at hid
  obtain ⟨k, -, rfl⟩ := List.mem_map.1 hid
  rw [skip_next_fst]
  exact nodeIdOf_layout h _

/-- Up to `2 ^ 53` draws in a row are distinct. -/
theorem nodup_take {n : Nat} (hn : n ≤ 2 ^ 53) : (g.take n).1.Nodup := by
  rw [take_eq]
  refine (List.nodup_range).map_on fun j hj k hk hjk => ?_
  rw [List.mem_range] at hj hk
  exact g.skip_next_fst_injective (by rw [counterLimit_eq]; omega)
    (by rw [counterLimit_eq]; omega) hjk

/-- The ids drawn after the first `k`. -/
theorem drop_take (k m : Nat) :
    (g.take (k + m)).1.drop k = (List.range m).map fun j => (g.skip (k + j)).next.1 := by
  rw [take_eq, ← List.map_drop, List.range_eq_range', List.drop_range',
    List.range'_eq_map_range, List.map_map]
  simp [Function.comp_def]

/-- The next id is larger exactly when the counter does not pass a multiple of `2 ^ 53`. -/
theorem skip_next_lt_iff (k : Nat) :
    (g.skip k).next.1 < (g.skip (k + 1)).next.1 ↔ ¬ 2 ^ 53 ∣ g.counter + k + 2 := by
  rw [skip_next_fst, skip_next_fst]
  omega

theorem create_eq_ok {nodeId now : Nat} {g : IdGenerator} :
    create nodeId now = .ok g ↔ nodeId ≤ maxNodeId ∧ g = ⟨nodeId, seed now⟩ := by
  unfold create
  split
  · simp [*, eq_comm]
  · simp [*]

/-- A generator created for a node id that fits its 10 bits, at clock reading `t`, draws as its
`k`-th id `nodeId * 2 ^ 53 + (c₀ + k) % 2 ^ 53`, with `c₀` the counter seeded from `t`.  So the
node id reads back from each id; no id of another node is one of these; `2 ^ 53` ids in a row
are distinct; the next id is larger exactly when the counter does not reach a multiple of
`2 ^ 53`.  From `2 ^ 41 - 1` milliseconds after the epoch on, the timestamp overflows: from the
`4096`-th id on, the ids are below the value the layout gives them, and at that very reading the
`4096`-th id is below the one before it. -/
theorem created_ids_layout {nodeId : Nat} (h : nodeId ≤ maxNodeId) (t : Nat) :
    ∃ g, create nodeId t = .ok g ∧
      (∀ n, (g.take n).1 = (List.range n).map fun k =>
        nodeId * 2 ^ 53 + ((t - idEpoch) * 2 ^ 12 % 2 ^ 53 + k + 1) % 2 ^ 53) ∧
      (∀ n, ∀ id ∈ (g.take n).1, nodeIdOf id = nodeId) ∧
      (∀ nodeId' t' g', create nodeId' t' = .ok g' → nodeId' ≠ nodeId →
        ∀ n n', ∀ id ∈ (g.take n).1, id ∉ (g'.take n').1) ∧
      (∀ n, n ≤ 2 ^ 53 → (g.take n).1.Nodup) ∧
      (∀ k a b, (g.take (k + 2)).1.drop k = [a, b] →
        (a < b ↔ ¬ 2 ^ 53 ∣ (t - idEpoch) * 2 ^ 12 % 2 ^ 53 + k + 2)) ∧
      (idEpoch + 2 ^ 41 - 1 ≤ t → ∀ k id, 4095 ≤ k → (g.take (k + 1)).1.drop k = [id] →
        id < nodeId * 2 ^ 53 + (t - idEpoch) * 2 ^ 12 + (k + 1)) ∧
      (t = idEpoch + 2 ^ 41 - 1 → ∀ a b, (g.take 4096).1.drop 4094 = [a, b] → b < a) := by
  set g : IdGenerator := ⟨nodeId, seed t⟩
  have hc : g.counter = (t - idEpoch) * 2 ^ 12 % 2 ^ 53 := seed_eq t
  -- the ids drawn after `k` others, and two and one of them in a row
  have hid (k : Nat) : (g.skip k).next.1 =
      nodeId * 2 ^ 53 + ((t - idEpoch) * 2 ^ 12 % 2 ^ 53 + k + 1) % 2 ^ 53 := by
    rw [skip_next_fst, hc]
  have htwo (k : Nat) : (g.take (k + 2)).1.drop k = [(g.skip k).next.1, (g.skip (k + 1)).next.1] := by
    simp [drop_take, List.range_succ]
  have hone (k : Nat) : (g.take (k + 1)).1.drop k = [(g.skip k).next.1] := by
    simp [drop_take]
  refine ⟨g, create_eq_ok.2 ⟨h, rfl⟩, fun n => ?_, fun n id hm => g.nodeIdOf_mem_take h hm,
    ?_, fun n hn => g.nodup_take hn, fun k a b hab => ?_, ?_, ?_⟩
  · rw [take_eq]
    exact List.map_congr_left fun k _ => hid k
  · -- ids of two nodes differ in the node id they read back
    intro nodeId' t' g' hg' hne n n' id hm hm'
    obtain ⟨h', rfl⟩ := create_eq_ok.1 hg'
    exact hne ((IdGenerator.nodeIdOf_mem_take _ h' hm').symm.trans (g.nodeIdOf_mem_take h hm))
  · rw [htwo, List.cons.injEq, List.cons.injEq] at hab
    obtain ⟨rfl, rfl, -⟩ := hab
    rw [skip_next_lt_iff, hc]
  · -- past the limit, the counter seeded is at least `2 ^ 53 - 2 ^ 12` short of wrapping
    intro ht k id hk hk'
    rw [hone, List.cons.injEq] at hk'
    rw [← hk'.1, hid]
    have hwide : 2 ^ 53 ≤ (t - idEpoch) * 2 ^ 12 + (k + 1) := by
      unfold idEpoch at ht ⊢
      omega
    omega
  · intro ht a b hab
    rw [htwo, List.cons.injEq, List.cons.injEq] at hab
    obtain ⟨rfl, rfl, -⟩ := hab
    rw [hid, hid, ht]
    unfold idEpoch
    omega

/-- The last node, seeded at the last millisecond the timestamp fits. -/
theorem created_ids_layout_at_timestamp_limit :
    maxNodeId ≤ maxNodeId ∧ ∃ g, create maxNodeId (idEpoch + 2 ^ 41 - 1) = .ok g ∧
      (∀ n, (g.take n).1 = (List.range n).map fun k =>
        maxNodeId * 2 ^ 53 +
          ((idEpoch + 2 ^ 41 - 1 - idEpoch) * 2 ^ 12 % 2 ^ 53 + k + 1) % 2 ^ 53) ∧
      (∀ n, ∀ id ∈ (g.take n).1, nodeIdOf id = maxNodeId) ∧
      (∀ nodeId' t' g', create nodeId' t' = .ok g' → nodeId' ≠ maxNodeId →
        ∀ n n', ∀ id ∈ (g.take n).1, id ∉ (g'.take n').1) ∧
      (∀ n, n ≤ 2 ^ 53 → (g.take n).1.Nodup) ∧
      (∀ k a b, (g.take (k + 2)).1.drop k = [a, b] →
        (a < b ↔ ¬ 2 ^ 53 ∣ (idEpoch + 2 ^ 41 - 1 - idEpoch) * 2 ^ 12 % 2 ^ 53 + k + 2)) ∧
      (idEpoch + 2 ^ 41 - 1 ≤ idEpoch + 2 ^ 41 - 1 → ∀ k id, 4095 ≤ k →
        (g.take (k + 1)).1.drop k = [id] →
        id < maxNodeId * 2 ^ 53 + (idEpoch + 2 ^ 41 - 1 - idEpoch) * 2 ^ 12 + (k + 1)) ∧
      (idEpoch + 2 ^ 41 - 1 = idEpoch + 2 ^ 41 - 1 → ∀ a b,
        (g.take 4096).1.drop 4094 = [a, b] → b < a) :=
  ⟨Nat.le_refl _, created_ids_layout (Nat.le_refl _) _⟩

end IdGenerator

end GlobalTxn
