import PacketDma.ChannelMask
import PacketDma.Register.Bits

/-!
# Interrupt status

The interrupt status register has two sources for each channel: the low half reports finished
transfers, the high half reports errors.
-/

namespace PacketDma

/-- The channels that raised an interrupt, by source. -/
structure InterruptStatus where
  /-- Channels with finished transfers. -/
  complete : ChannelMask
  /-- Channels with errors. -/
  error : ChannelMask
  deriving DecidableEq, Inhabited

namespace InterruptStatus

/-- No interrupt. -/
def none : InterruptStatus := ⟨∅, ∅⟩

/-- Splits a status word into its halves. -/
def ofWord (word : UInt32) : InterruptStatus :=
  ⟨⟨word &&& 0xFFFF⟩, ⟨word >>> InterruptBits.errorShift⟩⟩

/-- Joins the halves to a status word. -/
def toWord (s : InterruptStatus) : UInt32 :=
  (s.complete.bits &&& 0xFFFF) ||| (s.error.bits <<< InterruptBits.errorShift)

/-- Keeps the sources of the channels below `count`. -/
def limit (s : InterruptStatus) (count : Nat) : InterruptStatus :=
  ofWord (s.toWord &&& InterruptBits.ofChannels count)

/-- Whether any channel raised an interrupt. -/
def any (s : InterruptStatus) : Bool := !s.complete.isEmpty || !s.error.isEmpty

/-- Whether any channel reported an error. -/
def hasError (s : InterruptStatus) : Bool := !s.error.isEmpty

/-- The channels that raised an interrupt from either source. -/
def channels (s : InterruptStatus) : ChannelMask := s.complete ∪ s.error

end InterruptStatus

end PacketDma
