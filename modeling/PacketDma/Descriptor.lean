import PacketDma.Bus
import PacketDma.Descriptor.Layout

/-!
# Descriptors

A descriptor is a record of eight words that hands one buffer from the host to the device and
back. Its ownership bit says whose turn it is.
-/

namespace PacketDma

/-- A descriptor. Two more words are reserved and stay zero. -/
structure Descriptor where
  /-- Flags, ownership and length. -/
  control : UInt32
  /-- What the device reports. -/
  status : UInt32
  /-- Buffer address, low word. -/
  addrLow : UInt32
  /-- Buffer address, high word. -/
  addrHigh : UInt32
  /-- Recorded time, low word. -/
  tsLow : UInt32
  /-- Recorded time, high word. -/
  tsHigh : UInt32
  deriving DecidableEq, Inhabited

namespace Descriptor

/-- The size of a descriptor in bytes. -/
def bytes : Nat := 32

/-- The size of a descriptor in words. -/
def words : Nat := bytes / 4

/-- The descriptor of zeros, which belongs to the host. -/
def zero : Descriptor := ⟨0, 0, 0, 0, 0, 0⟩

/-- Whether the device may act on a descriptor. -/
def isOwned (d : Descriptor) (l : DescriptorLayout) : Bool := d.control &&& l.own != 0

/-- The buffer length in a descriptor. -/
def length (d : Descriptor) (l : DescriptorLayout) : Nat := l.decodeLength d.control

/-- The error bits in a descriptor. -/
def errorBits (d : Descriptor) (l : DescriptorLayout) : UInt32 := d.status &&& l.statusErrorMask

/-- The time recorded in a descriptor, if one was. -/
def timestamp? (d : Descriptor) (l : DescriptorLayout) : Option UInt64 :=
  if d.status &&& l.tsValid = 0 then none
  else some ((d.tsHigh.toUInt64 <<< 32) ||| d.tsLow.toUInt64)

/-- The buffer address in a descriptor. -/
def addr (d : Descriptor) : BusAddress := .ofWords d.addrLow d.addrHigh

/-- The descriptor that hands `length` bytes at `addr` to the device. Nothing of an earlier use
is left in it. -/
def armed (l : DescriptorLayout) (addr : BusAddress) (length : Nat) : Descriptor where
  control := l.packetFlags ||| l.encodeLength length ||| l.own
  status := 0
  addrLow := addr.low
  addrHigh := addr.high
  tsLow := 0
  tsHigh := 0

/-- The device writes one word. Words beyond the sixth are reserved. -/
def setWord (d : Descriptor) (index : Nat) (word : UInt32) : Descriptor :=
  match index with
  | 0 => { d with control := word }
  | 1 => { d with status := word }
  | 2 => { d with addrLow := word }
  | 3 => { d with addrHigh := word }
  | 4 => { d with tsLow := word }
  | 5 => { d with tsHigh := word }
  | _ => d

/-- The device records a time, or leaves the words of the time as they are. -/
def recordTime (d : Descriptor) (l : DescriptorLayout) (ts : Option UInt64) : Descriptor :=
  match ts with
  | none => d
  | some t =>
    { d with
      status := d.status ||| l.tsValid
      tsLow := t.toUInt32
      tsHigh := (t >>> 32).toUInt32 }

/-- The device finishes a transfer of `length` bytes and hands the descriptor back. -/
def complete (d : Descriptor) (l : DescriptorLayout) (length : Nat) (status : UInt32)
    (ts : Option UInt64) : Descriptor :=
  let d := { d with status := status &&& ~~~l.tsValid }.recordTime l ts
  { d with control := ((d.control &&& ~~~l.lengthField) ||| l.encodeLength length) &&& ~~~l.own }

end Descriptor

end PacketDma
