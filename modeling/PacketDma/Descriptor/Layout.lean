/-!
# Descriptor layouts

A layout says where the flags and the length stand in a descriptor's control word, and which
bits of its status word report errors and a recorded time.
-/

namespace PacketDma

/-- Where the fields of a descriptor stand. -/
structure DescriptorLayout where
  /-- Ownership, in the control word: the device may act while it is set. -/
  own : UInt32
  /-- Start of packet, in the control word. -/
  sop : UInt32
  /-- End of packet, in the control word. -/
  eop : UInt32
  /-- Interrupt on completion, in the control word. -/
  irq : UInt32
  /-- The values of the length field, before they are shifted into place. -/
  lenMask : UInt32
  /-- The place of the length field in the control word. -/
  lenShift : UInt32
  /-- Error bits, in the status word. -/
  statusErrorMask : UInt32
  /-- A time was recorded, in the status word. -/
  tsValid : UInt32
  deriving DecidableEq, Inhabited

namespace DescriptorLayout

/-- The default layout. -/
def standard : DescriptorLayout where
  own := 0x80000000
  sop := 0x20000000
  eop := 0x10000000
  irq := 0x40000000
  lenMask := 0xFFFF
  lenShift := 0
  statusErrorMask := 0xFFFF
  tsValid := 0x80000000

/-- The largest length that can be posted. -/
def maxLength (l : DescriptorLayout) : Nat := l.lenMask.toNat

/-- The bits of the control word that hold the length. -/
def lengthField (l : DescriptorLayout) : UInt32 := l.lenMask <<< l.lenShift

/-- A length in its place in the control word. -/
def encodeLength (l : DescriptorLayout) (length : Nat) : UInt32 :=
  (UInt32.ofNat length &&& l.lenMask) <<< l.lenShift

/-- The length in a control word. -/
def decodeLength (l : DescriptorLayout) (control : UInt32) : Nat :=
  ((control >>> l.lenShift) &&& l.lenMask).toNat

/-- The flags of a buffer that is a whole packet. -/
def packetFlags (l : DescriptorLayout) : UInt32 := l.sop ||| l.eop ||| l.irq

/-- Whether each flag has a bit and shares none with what comes before it. -/
def flagsDisjoint : UInt32 → List UInt32 → Bool
  | _, [] => true
  | seen, flag :: rest => flag != 0 && seen &&& flag == 0 && flagsDisjoint (seen ||| flag) rest

/-- Whether the fields of the control word are apart from each other, lengths exist, and no error
bit reports a time. -/
def isConsistent (l : DescriptorLayout) : Bool :=
  flagsDisjoint l.lengthField [l.own, l.sop, l.eop, l.irq] &&
    l.lenMask != 0 && l.statusErrorMask &&& l.tsValid == 0

theorem isConsistent_standard : standard.isConsistent = true := by decide

end DescriptorLayout

end PacketDma
