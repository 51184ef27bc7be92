import PacketDma.Machine

/-!
# Register views

The registers by their names: those of the device as a whole, and those in one channel's window.
-/

namespace PacketDma

variable {β : Type}

/-- The registers of the device as a whole. -/
structure DeviceRegisters where
  /-- Where the registers are. -/
  map : RegisterMap
  /-- The register base. -/
  base : Nat
  deriving DecidableEq, Inhabited

namespace DeviceRegisters

/-- The offset of a register. -/
def offset (d : DeviceRegisters) (r : DeviceRegister) : Nat := d.base + d.map.deviceOffset r

/-- Reads a register. -/
def read (d : DeviceRegisters) (r : DeviceRegister) (m : Machine β) : UInt32 × Machine β :=
  m.read (d.offset r)

/-- Writes a register. -/
def write (d : DeviceRegisters) (r : DeviceRegister) (word : UInt32) (m : Machine β) :
    Machine β :=
  m.write (d.offset r) word

/-- Holds the device in reset. -/
def assertReset (d : DeviceRegisters) (m : Machine β) : Machine β :=
  m.setBits (d.offset .control) Control.reset

/-- Lets the device out of reset. -/
def releaseReset (d : DeviceRegisters) (m : Machine β) : Machine β :=
  m.clearBits (d.offset .control) Control.reset

/-- Lets the device move data. -/
def enableDma (d : DeviceRegisters) (m : Machine β) : Machine β :=
  m.setBits (d.offset .control) Control.dmaEnable

/-- Keeps the device from moving data. -/
def disableDma (d : DeviceRegisters) (m : Machine β) : Machine β :=
  m.clearBits (d.offset .control) Control.dmaEnable

/-- Whether the device reports that it is ready. -/
def isReady (d : DeviceRegisters) (m : Machine β) : Bool × Machine β :=
  let (word, m) := d.read .status m
  (word &&& Status.ready != 0, m)

/-- Acknowledges interrupt sources. -/
def ackInterrupts (d : DeviceRegisters) (bits : UInt32) (m : Machine β) : Machine β :=
  d.write .intStatus bits m

/-- Silences every interrupt source. -/
def maskAllInterrupts (d : DeviceRegisters) (m : Machine β) : Machine β :=
  d.write .intMask InterruptBits.all m

/-- Lets some interrupt sources through. -/
def unmaskInterrupts (d : DeviceRegisters) (bits : UInt32) (m : Machine β) : Machine β :=
  m.clearBits (d.offset .intMask) bits

end DeviceRegisters

/-- The registers in one channel's window. -/
structure ChannelRegisters where
  /-- Where the registers are. -/
  map : RegisterMap
  /-- The offset of the window. -/
  window : Nat
  deriving DecidableEq, Inhabited

namespace ChannelRegisters

/-- The offset of a register. -/
def offset (c : ChannelRegisters) (r : ChannelRegister) : Nat :=
  c.window + c.map.windowOffset r

/-- Reads a register. -/
def read (c : ChannelRegisters) (r : ChannelRegister) (m : Machine β) : UInt32 × Machine β :=
  m.read (c.offset r)

/-- Writes a register. -/
def write (c : ChannelRegisters) (r : ChannelRegister) (word : UInt32) (m : Machine β) :
    Machine β :=
  m.write (c.offset r) word

/-- Runs both rings. -/
def enableRings (c : ChannelRegisters) (m : Machine β) : Machine β :=
  m.setBits (c.offset .ringControl) RingControl.enableBoth

/-- Halts both rings. -/
def disableRings (c : ChannelRegisters) (m : Machine β) : Machine β :=
  m.clearBits (c.offset .ringControl) RingControl.enableBoth

/-- Holds the channel in its local reset. -/
def assertReset (c : ChannelRegisters) (m : Machine β) : Machine β :=
  m.setBits (c.offset .ringControl) RingControl.reset

/-- Lets the channel out of its local reset. -/
def releaseReset (c : ChannelRegisters) (m : Machine β) : Machine β :=
  m.clearBits (c.offset .ringControl) RingControl.reset

/-- Clears reported faults. -/
def clearErrors (c : ChannelRegisters) (bits : UInt32) (m : Machine β) : Machine β :=
  c.write .errorStatus bits m

/-- Tells the device where a ring is and how large. -/
def setRingBase (c : ChannelRegisters) (direction : Direction) (base : BusAddress) (size : Nat)
    (m : Machine β) : Machine β :=
  c.write (.size direction) (UInt32.ofNat size)
    (c.write (.baseHigh direction) base.high (c.write (.baseLow direction) base.low m))

/-- Tells the device how far a ring is filled. -/
def ringDoorbell (c : ChannelRegisters) (direction : Direction) (head : Nat) (m : Machine β) :
    Machine β :=
  c.write (.head direction) (UInt32.ofNat head) m

end ChannelRegisters

end PacketDma
