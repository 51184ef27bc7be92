/-!
# Saturating counters

Statistics are 32-bit counters that stop at their largest value instead of starting again.
-/

namespace PacketDma.Counter

/-- The largest value a counter shows. -/
def limit : Nat := UInt32.size - 1

/-- Adds `n` to a counter, stopping at the limit. -/
def add (c n : Nat) : Nat := min (c + n) limit

/-- Halves a counter `times` times. A word is empty after 32 halvings. -/
def halve (c times : Nat) : Nat := if 32 ≤ times then 0 else c >>> times

theorem add_le_limit (c n : Nat) : add c n ≤ limit := Nat.min_le_right _ _

theorem add_add (c m n : Nat) : add (add c m) n = add c (m + n) := by
  simp only [add]
  omega

theorem halve_zero (c : Nat) : halve c 0 = c := by simp [halve]

end PacketDma.Counter
