/-!
# Instants, clocks and deadlines

An instant is a number of microseconds, and time stops at the last number that fits in 64 bits.
A clock moves forward by its tick at every reading, and by the delays that the host takes.
-/

namespace PacketDma

namespace Instant

/-- The last instant. Time does not go beyond it. -/
def last : Nat := UInt64.size - 1

/-- The instant `us` microseconds after `t`, or the last one. -/
def plus (t us : Nat) : Nat := min (t + us) last

/-- Microseconds from `earlier` to `t`, zero if `t` comes first. -/
def since (t earlier : Nat) : Nat := t - earlier

/-- Whole milliseconds from the beginning of time to `t`. -/
def millis (t : Nat) : Nat := t / 1000

/-- The instant `ms` milliseconds after the beginning of time, if it exists. -/
def ofMillis? (ms : Nat) : Option Nat :=
  if ms * 1000 ≤ last then some (ms * 1000) else none

theorem plus_le_last (t us : Nat) : plus t us ≤ last := Nat.min_le_right _ _

end Instant

/-- A clock: the current time, and how far each reading moves it. -/
structure Clock where
  /-- The instant that the next reading returns. -/
  now : Nat
  /-- Microseconds that pass at each reading. -/
  tick : Nat
  deriving DecidableEq, Inhabited

namespace Clock

/-- Lets `us` microseconds pass. -/
def advance (c : Clock) (us : Nat) : Clock := { c with now := Instant.plus c.now us }

/-- Reads the time; the clock then moves on by its tick. -/
def read (c : Clock) : Nat × Clock := (c.now, c.advance c.tick)

end Clock

/-- A point in time after which a wait is given up. -/
structure Deadline where
  /-- The first instant at which the deadline has passed. -/
  expires : Nat
  /-- A deadline lies within time, so that every moving clock reaches it. -/
  expires_le_last : expires ≤ Instant.last

namespace Deadline

/-- The deadline at a given instant. -/
def atInstant (t : Nat) : Deadline := ⟨min t Instant.last, Nat.min_le_right _ _⟩

/-- The deadline `timeout` microseconds after a reading of the clock. -/
def after (c : Clock) (timeout : Nat) : Deadline × Clock :=
  (⟨Instant.plus c.now timeout, Instant.plus_le_last _ _⟩, c.read.2)

/-- Whether a reading of the clock is at or past the deadline. -/
def isExpired (d : Deadline) (c : Clock) : Bool × Clock :=
  (decide (d.expires ≤ c.now), c.read.2)

/-- Microseconds left at a reading of the clock. -/
def remaining (d : Deadline) (c : Clock) : Nat × Clock :=
  (Instant.since d.expires c.now, c.read.2)

/-- Reads the clock until the deadline has passed. There is no answer if the clock stands still
before the deadline: the wait would never end. -/
def wait? (d : Deadline) (c : Clock) : Option Clock :=
  if d.expires ≤ c.now then some c.read.2
  else if c.tick = 0 then none
  else wait? d c.read.2
termination_by d.expires - c.now
decreasing_by
  have := d.expires_le_last
  simp only [Clock.read, Clock.advance, Instant.plus]
  omega

end Deadline

end PacketDma
