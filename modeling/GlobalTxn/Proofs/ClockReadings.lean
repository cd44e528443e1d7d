import Mathlib
import GlobalTxn.Time

/-! # Clock readings rise until the manual clock wraps

The system clock answers the larger of the wall time and its latest reading, so its readings
never go back, whatever the wall time does.  The manual clock adds each span, saturated at
`Millis.max`, to its 64-bit word by wrapping addition: after moves by `d₁ … dₖ` a manual clock
started at `s` reads `(s + millisOf d₁ + … + millisOf dₖ) % UInt64.size`
(`AnyClock.manual_readings_snoc`).  Its readings rise as long as that sum stays below
`UInt64.size`; a move past it takes the clock back (`AnyClock.manual_reading_wraps_to_zero`).

Each call leaves the clock standing at a reading (`AnyClock.latest`): a reading answers where
the clock then stands and never lies below where it stood, and a move that does not wrap takes
the clock forward.  The run lemma `AnyClock.readings_rise_from` follows by induction on the
calls.

Main statement: `AnyClock.readings_rise_until_wrap`.
-/

namespace GlobalTxn

namespace ClockCall

/-- The milliseconds the moves among `calls` add to a manual clock before it wraps: each span
saturated at `Millis.max`, then summed. -/
def advanced : List ClockCall → Nat
  | [] => 0
  | now _ :: calls => advanced calls
  | advance span :: calls => millisOf span + advanced calls

@[simp] theorem advanced_nil : advanced [] = 0 := rfl

@[simp] theorem advanced_now (wall : Nat) (calls : List ClockCall) :
    advanced (now wall :: calls) = advanced calls := rfl

@[simp] theorem advanced_advance (span : Nat) (calls : List ClockCall) :
    advanced (advance span :: calls) = millisOf span + advanced calls := rfl

end ClockCall

namespace AnyClock

/-- Where a clock stands: the manual clock's word, or the system clock's latest reading. -/
def latest : AnyClock → Nat
  | manual c => c.now
  | system c => c.latest

/-- The calls never wrap the clock's word: a manual clock's word plus every span it is moved
by stays below `UInt64.size`.  The system clock has no word to wrap. -/
def NoWrap : AnyClock → List ClockCall → Prop
  | manual c, calls => c.now + ClockCall.advanced calls < UInt64.size
  | system _, _ => True

theorem readings_now (c : AnyClock) (wall : Nat) (calls : List ClockCall) :
    c.readings (.now wall :: calls) = (c.read wall).1 :: (c.read wall).2.readings calls := rfl

theorem readings_advance (c : AnyClock) (span : Nat) (calls : List ClockCall) :
    c.readings (.advance span :: calls) = (c.advance span).readings calls := rfl

/-- Reading a manual clock answers its word and leaves it as it is. -/
@[simp] theorem read_manual (c : Clock) (wall : Nat) : (manual c).read wall = (c.now, manual c) :=
  rfl

/-- A reading answers where the clock then stands. -/
theorem read_fst (c : AnyClock) (wall : Nat) : (c.read wall).1 = (c.read wall).2.latest := by
  cases c <;> rfl

/-- A reading never lies below where the clock stood. -/
theorem latest_le_read (c : AnyClock) (wall : Nat) : c.latest ≤ (c.read wall).1 := by
  cases c with
  | manual c => exact Nat.le_refl _
  | system c => exact SystemClock.read_ge c wall

theorem NoWrap.read {c : AnyClock} {wall : Nat} {calls : List ClockCall}
    (h : c.NoWrap (.now wall :: calls)) : (c.read wall).2.NoWrap calls := by
  cases c <;> exact h

/-- A move that does not wrap takes the clock forward, and leaves the rest of the calls
without a wrap. -/
theorem NoWrap.advance {c : AnyClock} {span : Nat} {calls : List ClockCall}
    (h : c.NoWrap (.advance span :: calls)) :
    c.latest ≤ (c.advance span).latest ∧ (c.advance span).NoWrap calls := by
  cases c with
  | system c => exact ⟨Nat.le_refl _, trivial⟩
  | manual c =>
    simp only [NoWrap, ClockCall.advanced_advance] at h
    have hmove : (c.now + millisOf span) % UInt64.size = c.now + millisOf span :=
      Nat.mod_eq_of_lt (by omega)
    simp only [AnyClock.advance, latest, NoWrap, Clock.now_advance, hmove]
    omega

/-- The run lemma: while the clock does not wrap, its readings rise, and none lies below where
the clock stood.  By induction on the calls, with one step lemma per kind of call. -/
theorem readings_rise_from (c : AnyClock) (calls : List ClockCall) (h : c.NoWrap calls) :
    (c.readings calls).Pairwise (· ≤ ·) ∧ ∀ r ∈ c.readings calls, c.latest ≤ r := by
  induction calls generalizing c with
  | nil => simp [readings]
  | cons call calls ih =>
    cases call with
    | now wall =>
      obtain ⟨hrise, hge⟩ := ih (c.read wall).2 h.read
      rw [← read_fst] at hge
      rw [readings_now, List.pairwise_cons]
      -- the reading comes first, and every later one lies at or above it
      refine ⟨⟨hge, hrise⟩, fun r hr => ?_⟩
      rcases List.mem_cons.1 hr with rfl | hr
      · exact latest_le_read c wall
      · exact Nat.le_trans (latest_le_read c wall) (hge r hr)
    | advance span =>
      obtain ⟨hle, hnext⟩ := h.advance
      obtain ⟨hrise, hge⟩ := ih (c.advance span) hnext
      rw [readings_advance]
      exact ⟨hrise, fun r hr => Nat.le_trans hle (hge r hr)⟩

/-- After any calls, a manual clock started at `s` reads `s` plus every span it was moved by,
each saturated, the sum wrapped round at `UInt64.size`.  By induction on the calls, the start
moving with each move. -/
theorem manual_readings_snoc (s : Nat) (calls : List ClockCall) (wall : Nat)
    (hs : s < UInt64.size) : (manual ⟨s⟩).readings (calls ++ [.now wall]) =
      (manual ⟨s⟩).readings calls ++ [(s + ClockCall.advanced calls) % UInt64.size] := by
  induction calls generalizing s with
  | nil => simp [readings, read, Nat.mod_eq_of_lt hs]
  | cons call calls ih =>
    cases call with
    | now w =>
      rw [List.cons_append, readings_now, readings_now, read_manual, ih s hs]
      rfl
    | advance span =>
      rw [List.cons_append, readings_advance, readings_advance]
      show (manual ⟨(s + millisOf span) % UInt64.size⟩).readings _ = _
      -- the moved start is already wrapped, so wrapping the sum once more changes nothing
      rw [ih _ (Nat.mod_lt _ (by decide)), Nat.mod_add_mod, ClockCall.advanced_advance,
        Nat.add_assoc]
      rfl

/-- Clock readings never go back while the clock does not wrap.  The system clock's readings
rise whatever the wall time does.  A manual clock started at `s` reads, after any calls, `s`
plus the saturated spans it was moved by, wrapped round at `UInt64.size`; so its readings rise
while that sum stays below `UInt64.size`. -/
theorem readings_rise_until_wrap (calls : List ClockCall) :
    (∀ c : SystemClock, ((system c).readings calls).Pairwise (· ≤ ·)) ∧
    ∀ s < UInt64.size,
      (∀ wall, (manual ⟨s⟩).readings (calls ++ [.now wall]) =
        (manual ⟨s⟩).readings calls ++ [(s + ClockCall.advanced calls) % UInt64.size]) ∧
      (s + ClockCall.advanced calls < UInt64.size →
        ((manual ⟨s⟩).readings calls).Pairwise (· ≤ ·)) :=
  ⟨fun c => (readings_rise_from (system c) calls trivial).1,
    fun s hs => ⟨fun wall => manual_readings_snoc s calls wall hs,
      fun h => (readings_rise_from (manual ⟨s⟩) calls h).1⟩⟩

/-- A system clock and a manual clock, each read, moved by 100 ms and read again. -/
theorem readings_rise_until_wrap_after_a_move :
    ((system ⟨5⟩).readings [.now 3, .advance 100, .now 7]).Pairwise (· ≤ ·) ∧
    (5 < UInt64.size ∧ (manual ⟨5⟩).readings ([.now 3, .advance 100, .now 7] ++ [.now 0]) =
      [5, 105, 105]) ∧
    (5 + ClockCall.advanced [.now 3, .advance 100, .now 7] < UInt64.size ∧
      ((manual ⟨5⟩).readings [.now 3, .advance 100, .now 7]).Pairwise (· ≤ ·)) := by
  obtain ⟨hsystem, hmanual⟩ := readings_rise_until_wrap [.now 3, .advance 100, .now 7]
  obtain ⟨hsnoc, hrise⟩ := hmanual 5 (by decide)
  exact ⟨hsystem ⟨5⟩, ⟨by decide, (hsnoc 0).trans (by decide)⟩, ⟨by decide, hrise (by decide)⟩⟩

/-- Moving a manual clock that reads 1 by the largest span wraps its word round to 0: the
reading after the move is 0, not `Millis.max`, and the readings go back. -/
theorem manual_reading_wraps_to_zero :
    (manual ⟨1⟩).readings [.now 0, .advance Millis.max, .now 0] = [1, 0] ∧
    ¬ ((manual ⟨1⟩).readings [.now 0, .advance Millis.max, .now 0]).Pairwise (· ≤ ·) := by
  decide

end AnyClock

end GlobalTxn
