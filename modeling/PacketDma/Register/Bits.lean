/-!
# Register bits

What the bits of each register mean. Offsets differ between device families, bits do not.
-/

namespace PacketDma

namespace Control

/-- Holds the device in reset. -/
def reset : UInt32 := 0x1

/-- Lets the device move data at all. -/
def dmaEnable : UInt32 := 0x2

end Control

namespace Status

/-- The device is out of reset and accepts settings. -/
def ready : UInt32 := 0x1

/-- The device is still resetting. -/
def resetActive : UInt32 := 0x2

end Status

namespace PerfControl

/-- Runs the performance counters. -/
def enable : UInt32 := 0x1

/-- Clears the performance counters. -/
def clear : UInt32 := 0x2

end PerfControl

namespace DmaConfig

/-- The place of the burst length. -/
def burstShift : UInt32 := 8

/-- The field of the burst length. -/
def burstMask : UInt32 := 0x3F00

end DmaConfig

namespace RingControl

/-- Runs the transmit ring. -/
def txEnable : UInt32 := 0x1

/-- Runs the receive ring. -/
def rxEnable : UInt32 := 0x2

/-- Runs both rings. -/
def enableBoth : UInt32 := txEnable ||| rxEnable

/-- Holds the channel in its local reset. -/
def reset : UInt32 := 0x100

end RingControl

namespace DescriptorControl

/-- Descriptors form one contiguous chain. -/
def chained : UInt32 := 0x1

/-- The device records completion times. -/
def timestamps : UInt32 := 0x2

/-- The place of the descriptor size. -/
def wordsShift : UInt32 := 4

/-- The field of the descriptor size, in words. -/
def wordsMask : UInt32 := 0xF0

end DescriptorControl

namespace InterruptBits

/-- The error bits stand this far above the completion bits. -/
def errorShift : UInt32 := 16

/-- Every interrupt source. -/
def all : UInt32 := 0xFFFFFFFF

/-- Both sources of every channel below `count`. -/
def ofChannels (count : Nat) : UInt32 :=
  let low : UInt32 := if 16 ≤ count then 0xFFFF else (1 <<< UInt32.ofNat count) - 1
  low ||| (low <<< errorShift)

end InterruptBits

end PacketDma
