/-!
# Faults

A channel reports what went wrong as a set of fault categories, one bit each in its error
status register. Bits that name no category may occur in sets that the caller supplies.
-/

namespace PacketDma

/-- The categories of faults, in the order of their bits. -/
inductive Fault where
  /-- A descriptor was malformed. -/
  | descriptor
  /-- The device found a ring full. -/
  | ringFull
  /-- A descriptor held an address the device cannot reach. -/
  | invalidAddress
  /-- A bus transfer failed. -/
  | bus
  /-- Packet data was damaged. -/
  | data
  /-- An internal queue overflowed or ran dry. -/
  | fifo
  /-- The channel's hardware failed. -/
  | hardware
  /-- The channel made no progress for too long. -/
  | stalled
  /-- The channel cannot be recovered. -/
  | fatal
  deriving DecidableEq, Inhabited

namespace Fault

/-- Every category, in the order of their bits. -/
def all : List Fault :=
  [descriptor, ringFull, invalidAddress, bus, data, fifo, hardware, stalled, fatal]

/-- The name of a category. -/
def name : Fault → String
  | descriptor => "DESCRIPTOR"
  | ringFull => "RING_FULL"
  | invalidAddress => "INVALID_ADDRESS"
  | bus => "BUS"
  | data => "DATA"
  | fifo => "FIFO"
  | hardware => "HARDWARE_FAULT"
  | stalled => "WATCHDOG_TIMEOUT"
  | fatal => "FATAL"

/-- The bit of a category in the error status register. -/
def bit : Fault → UInt32
  | descriptor => 0x1
  | ringFull => 0x2
  | invalidAddress => 0x4
  | bus => 0x8
  | data => 0x10
  | fifo => 0x20
  | hardware => 0x40
  | stalled => 0x80
  | fatal => 0x80000000

theorem mem_all (f : Fault) : f ∈ all := by cases f <;> decide

end Fault

/-- A set of fault categories. -/
structure FaultSet where
  /-- One bit for each category in the set. -/
  bits : UInt32
  deriving DecidableEq, Inhabited

namespace FaultSet

/-- The set of one category. -/
def single (f : Fault) : FaultSet := ⟨f.bit⟩

instance : EmptyCollection FaultSet := ⟨⟨0⟩⟩
instance : Union FaultSet := ⟨fun s t => ⟨s.bits ||| t.bits⟩⟩
instance : Inter FaultSet := ⟨fun s t => ⟨s.bits &&& t.bits⟩⟩
instance : SDiff FaultSet := ⟨fun s t => ⟨s.bits &&& ~~~t.bits⟩⟩
instance : Membership Fault FaultSet := ⟨fun s f => s.bits &&& f.bit ≠ 0⟩

instance (f : Fault) (s : FaultSet) : Decidable (f ∈ s) :=
  inferInstanceAs (Decidable (s.bits &&& f.bit ≠ 0))

/-- Every known category. -/
def all : FaultSet := ⟨0x800000FF⟩

/-- Every known category that leaves room for recovery. -/
def recoverable : FaultSet := ⟨0xFF⟩

/-- The categories after which ring contents cannot be trusted. -/
def ringCorrupting : FaultSet := ⟨0x3⟩

/-- The known categories among the bits of an error status register. -/
def ofRegister (word : UInt32) : FaultSet := ⟨word &&& all.bits⟩

/-- Whether a set holds no category. -/
def isEmpty (s : FaultSet) : Bool := s.bits == 0

/-- Whether every category of `t` is in `s`. -/
def contains (s t : FaultSet) : Bool := s.bits &&& t.bits == t.bits

/-- Whether two sets have a category in common. -/
def meets (s t : FaultSet) : Bool := s.bits &&& t.bits != 0

/-- Whether a set holds the fatal category. -/
def isFatal (s : FaultSet) : Bool := s.contains (single .fatal)

/-- The known categories outside a set. -/
def compl (s : FaultSet) : FaultSet := ⟨~~~s.bits &&& all.bits⟩

/-- The known categories of a set, in the order of their bits. -/
def toList (s : FaultSet) : List Fault := Fault.all.filter (· ∈ s)

theorem mem_toList {s : FaultSet} {f : Fault} : f ∈ s.toList ↔ f ∈ s := by
  simp [toList, Fault.mem_all]

end FaultSet

end PacketDma
