import PacketDma.Bus

/-!
# Register maps

Where a device family keeps its registers. Device registers are counted from the register base,
and channel registers from the channel's window, of which there is one per channel.
-/

namespace PacketDma

/-- The registers of the device as a whole. -/
inductive DeviceRegister where
  | control
  | status
  | intMask
  | intStatus
  | dmaConfig
  | perfControl
  deriving DecidableEq, Inhabited

/-- The registers of one channel. Those of a ring come once for each direction. -/
inductive ChannelRegister where
  | ringControl
  | ringStatus
  | errorStatus
  | descControl
  | baseLow (direction : Direction)
  | baseHigh (direction : Direction)
  | size (direction : Direction)
  | head (direction : Direction)
  deriving DecidableEq, Inhabited

/-- Register offsets of one device family. -/
structure RegisterMap where
  /-- Device control: reset, DMA enable. -/
  control : Nat
  /-- Device status: ready. -/
  status : Nat
  /-- Interrupt mask: a set bit silences its source. -/
  intMask : Nat
  /-- Interrupt status: writing a set bit clears it. -/
  intStatus : Nat
  /-- DMA features and burst length. -/
  dmaConfig : Nat
  /-- Performance counter control. -/
  perfControl : Nat
  /-- The window of channel 0. -/
  channelBase : Nat
  /-- The distance between the windows of neighbouring channels. -/
  channelStride : Nat
  /-- Ring control of a channel: enables, local reset. -/
  ringControl : Nat
  /-- Ring status of a channel. -/
  ringStatus : Nat
  /-- Error status of a channel: writing a set bit clears it. -/
  errorStatus : Nat
  /-- Descriptor format of a channel. -/
  descControl : Nat
  /-- Transmit ring address, low word. -/
  txBaseLow : Nat
  /-- Transmit ring address, high word. -/
  txBaseHigh : Nat
  /-- Transmit ring size in descriptors. -/
  txSize : Nat
  /-- Transmit ring head. -/
  txHead : Nat
  /-- Receive ring address, low word. -/
  rxBaseLow : Nat
  /-- Receive ring address, high word. -/
  rxBaseHigh : Nat
  /-- Receive ring size in descriptors. -/
  rxSize : Nat
  /-- Receive ring head. -/
  rxHead : Nat
  deriving DecidableEq, Inhabited

namespace RegisterMap

/-- The window of channel 0 in the default map. -/
def defaultChannelBase : Nat := 0x1000

/-- The distance between channel windows in the default map. -/
def defaultChannelStride : Nat := 0x100

/-- The default map. -/
def standard : RegisterMap where
  control := 0x00
  status := 0x04
  intMask := 0x08
  intStatus := 0x0C
  dmaConfig := 0x10
  perfControl := 0x14
  channelBase := defaultChannelBase
  channelStride := defaultChannelStride
  ringControl := 0x00
  ringStatus := 0x04
  errorStatus := 0x08
  descControl := 0x0C
  txBaseLow := 0x10
  txBaseHigh := 0x14
  txSize := 0x18
  txHead := 0x1C
  rxBaseLow := 0x20
  rxBaseHigh := 0x24
  rxSize := 0x28
  rxHead := 0x2C

/-- Where a device register is, counted from the register base. -/
def deviceOffset (map : RegisterMap) : DeviceRegister → Nat
  | .control => map.control
  | .status => map.status
  | .intMask => map.intMask
  | .intStatus => map.intStatus
  | .dmaConfig => map.dmaConfig
  | .perfControl => map.perfControl

/-- Where a channel register is, counted from the channel's window. -/
def windowOffset (map : RegisterMap) : ChannelRegister → Nat
  | .ringControl => map.ringControl
  | .ringStatus => map.ringStatus
  | .errorStatus => map.errorStatus
  | .descControl => map.descControl
  | .baseLow .toDevice => map.txBaseLow
  | .baseLow .fromDevice => map.rxBaseLow
  | .baseHigh .toDevice => map.txBaseHigh
  | .baseHigh .fromDevice => map.rxBaseHigh
  | .size .toDevice => map.txSize
  | .size .fromDevice => map.rxSize
  | .head .toDevice => map.txHead
  | .head .fromDevice => map.rxHead

/-- The window of a channel, counted from the register base. -/
def channelOffset (map : RegisterMap) (channel : Nat) : Nat :=
  map.channelBase + channel * map.channelStride

end RegisterMap

end PacketDma
