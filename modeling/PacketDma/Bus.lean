/-!
# Directions and bus addresses

A channel moves packets in two directions, and the device names memory by 64-bit bus
addresses. Registers and descriptors hold an address as two 32-bit words.
-/

namespace PacketDma

/-- The direction of a transfer, seen from the host. -/
inductive Direction where
  /-- Transmit: the device reads the buffer. -/
  | toDevice
  /-- Receive: the device fills the buffer. -/
  | fromDevice
  deriving DecidableEq, Inhabited

namespace Direction

/-- Both directions, transmit first. -/
def all : List Direction := [toDevice, fromDevice]

/-- The short name of a direction. -/
def name : Direction → String
  | toDevice => "tx"
  | fromDevice => "rx"

theorem mem_all (d : Direction) : d ∈ all := by cases d <;> decide

end Direction

/-- An address on the device's bus. -/
structure BusAddress where
  /-- The address as one word. -/
  word : UInt64
  deriving DecidableEq, Inhabited

/-- The two halves of a word make the word. -/
theorem or_halves (w : UInt64) :
    ((w >>> 32).toUInt32.toUInt64 <<< 32) ||| w.toUInt32.toUInt64 = w := by
  have hbound : w.toNat < 2 ^ 64 := w.toNat_lt
  have hshift : (32 : UInt64).toNat % 64 = 32 := rfl
  have hlow : w.toUInt32.toNat = w.toNat % 2 ^ 32 := UInt64.toNat_toUInt32 _
  have hhigh : (w >>> 32).toUInt32.toNat = w.toNat / 2 ^ 32 := by
    rw [UInt64.toNat_toUInt32, UInt64.toNat_shiftRight, hshift, Nat.shiftRight_eq_div_pow]
    omega
  apply UInt64.toNat_inj.mp
  -- The halves share no bit, so that joining them adds them.
  rw [UInt64.toNat_or, UInt64.toNat_shiftLeft, UInt32.toNat_toUInt64, UInt32.toNat_toUInt64,
    hlow, hhigh, hshift, Nat.shiftLeft_eq, Nat.mod_eq_of_lt (by omega), ← Nat.shiftLeft_eq,
    ← Nat.shiftLeft_add_eq_or_of_lt (Nat.mod_lt _ (by decide)), Nat.shiftLeft_eq]
  omega

namespace BusAddress

/-- The address that names nothing. -/
def null : BusAddress := ⟨0⟩

/-- The low half of an address. -/
def low (a : BusAddress) : UInt32 := a.word.toUInt32

/-- The high half of an address. -/
def high (a : BusAddress) : UInt32 := (a.word >>> 32).toUInt32

/-- Joins the two halves of an address. -/
def ofWords (low high : UInt32) : BusAddress :=
  ⟨(high.toUInt64 <<< 32) ||| low.toUInt64⟩

/-- The address `bytes` further on, if the bus reaches that far. -/
def offset? (a : BusAddress) (bytes : Nat) : Option BusAddress :=
  if a.word.toNat + bytes < UInt64.size then some ⟨a.word + UInt64.ofNat bytes⟩ else none

/-- The address `bytes` further on, around the end of the bus if need be. -/
def advance (a : BusAddress) (bytes : Nat) : BusAddress := ⟨a.word + UInt64.ofNat bytes⟩

theorem ofWords_low_high (a : BusAddress) : ofWords a.low a.high = a :=
  congrArg mk (or_halves a.word)

end BusAddress

end PacketDma
