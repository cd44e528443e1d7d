/-! # Time: milliseconds, spans and the manual clock

Instants are milliseconds since the unix epoch and spans are counts of milliseconds; both are
stored as 64-bit unsigned words, so `Millis.max = UInt64.size - 1` bounds them.  A span given in
seconds may exceed that bound; `millisOf` saturates it.  The timeout a session carries is a
`Duration`, kept to the nanosecond; only its whole milliseconds (`Duration.millis`, saturated)
are stored or compared.

The clock the coordinator runs on is a manual clock: it only moves when told to, and it
moves by wrapping addition on its 64-bit word, as an atomic add would.  The system clock reads
the wall time and remembers its latest reading, which it answers again while the wall time lies
behind it; telling it to move does nothing.  `AnyClock` is a clock of either kind, and
`AnyClock.readings` the readings a sequence of calls on it gives.

Main statements: `millisOf_le` (saturation stays in range), `now_advance` (how `advance`
moves the reading) and `elapsedSince_self`.
-/

namespace GlobalTxn

/-- The largest reading of a 64-bit millisecond word. -/
def Millis.max : Nat := UInt64.size - 1

/-- Whole milliseconds of a span, saturated at `Millis.max`. -/
def millisOf (span : Nat) : Nat := Nat.min span Millis.max

/-- The milliseconds of a span given as seconds and nanoseconds, before saturation. -/
def spanOfParts (secs nanos : Nat) : Nat := secs * 1000 + nanos / 1000000

/-- Sum of an instant and a span, saturated at `Millis.max`. -/
def Millis.addSat (a b : Nat) : Nat := Nat.min (a + b) Millis.max

/-- A manual clock: its reading changes only through `advance`. -/
structure Clock where
  now : Nat
  deriving DecidableEq, Repr, Inhabited

namespace Clock

/-- Moves the clock forward by a span, wrapping around at `UInt64.size`. -/
def advance (c : Clock) (span : Nat) : Clock :=
  ⟨(c.now + millisOf span) % UInt64.size⟩

/-- Milliseconds since `m`, or zero if `m` lies ahead of the clock. -/
def elapsedSince (c : Clock) (m : Nat) : Nat := c.now - m

theorem now_advance (c : Clock) (span : Nat) :
    (c.advance span).now = (c.now + millisOf span) % UInt64.size := rfl

theorem elapsedSince_self (c : Clock) : c.elapsedSince c.now = 0 := Nat.sub_self _

end Clock

theorem millisOf_le (span : Nat) : millisOf span ≤ Millis.max := Nat.min_le_right _ _

theorem millisOf_of_le {span : Nat} (h : span ≤ Millis.max) : millisOf span = span :=
  Nat.min_eq_left h

/-- A span of time kept to the nanosecond. -/
structure Duration where
  nanos : Nat
  deriving DecidableEq, Repr, Inhabited

namespace Duration

/-- The span of a whole number of milliseconds. -/
def ofMillis (ms : Nat) : Duration := ⟨ms * 1000000⟩

/-- A literal duration counts milliseconds, as spans do everywhere else. -/
instance (n : Nat) : OfNat Duration n := ⟨ofMillis n⟩

/-- Whole milliseconds of a span, saturated at `Millis.max`. -/
def millis (d : Duration) : Nat := millisOf (d.nanos / 1000000)

@[simp] theorem millis_ofMillis (ms : Nat) : (ofMillis ms).millis = millisOf ms := by
  simp [millis, ofMillis]

end Duration

/-- The system clock: the latest reading it has given. -/
structure SystemClock where
  latest : Nat
  deriving DecidableEq, Repr

namespace SystemClock

/-- Reads the clock when the wall time is `wall`: the wall time, unless an earlier reading lies
ahead of it. -/
def read (c : SystemClock) (wall : Nat) : Nat × SystemClock :=
  let r := Nat.max c.latest wall
  (r, ⟨r⟩)

theorem read_ge (c : SystemClock) (wall : Nat) : c.latest ≤ (c.read wall).1 :=
  Nat.le_max_left _ _

end SystemClock

/-- A clock of either kind. -/
inductive AnyClock where
  | manual (c : Clock)
  | system (c : SystemClock)
  deriving DecidableEq, Repr

/-- A call on a clock: a reading when the wall time is `wall`, or a move by a span. -/
inductive ClockCall where
  | now (wall : Nat)
  | advance (span : Nat)
  deriving DecidableEq, Repr

namespace AnyClock

/-- Reads a clock when the wall time is `wall`; a manual clock does not look at it. -/
def read : AnyClock → Nat → Nat × AnyClock
  | manual c, _ => (c.now, manual c)
  | system c, wall => let (r, c) := c.read wall; (r, system c)

/-- Moves a manual clock by a span; the system clock ignores this. -/
def advance : AnyClock → Nat → AnyClock
  | manual c, span => manual (c.advance span)
  | system c, _ => system c

/-- The readings that a sequence of calls gives, in order. -/
def readings : AnyClock → List ClockCall → List Nat
  | _, [] => []
  | c, .now wall :: calls => let (r, c) := c.read wall; r :: readings c calls
  | c, .advance span :: calls => readings (c.advance span) calls

end AnyClock

example : (AnyClock.system ⟨5⟩).readings [.now 3, .now 7, .advance 100, .now 6] = [5, 7, 7] := by
  decide

example : (AnyClock.manual ⟨5⟩).readings [.now 3, .advance 100, .now 0] = [5, 105] := by
  decide

/-- Text of a span of whole milliseconds: `0ns`, `250ms`, `1s`, `1.5s`, `2.005s`. -/
def spanText (ms : Nat) : String :=
  if ms = 0 then "0ns"
  else if ms < 1000 then s!"{ms}ms"
  else if ms % 1000 = 0 then s!"{ms / 1000}s"
  else s!"{ms / 1000}.{String.ofList (fraction (ms % 1000))}s"
where
  /-- The three digits of a thousandth count, without trailing zeros. -/
  fraction (n : Nat) : List Char :=
    let digits := [Nat.digitChar (n / 100), Nat.digitChar (n / 10 % 10), Nat.digitChar (n % 10)]
    (digits.reverse.dropWhile (· == '0')).reverse

end GlobalTxn
