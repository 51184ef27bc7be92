import PacketDma.Descriptor.Layout
import PacketDma.Limits
import PacketDma.Policy
import PacketDma.Register.Bits
import PacketDma.Register.Map

/-!
# Engine configuration

A configuration describes the device family at hand and how the engine is to drive it. The
engine starts only with a valid one.
-/

namespace PacketDma

/-- The number of transfers in one burst. -/
inductive BurstLength where
  | one
  | two
  | four
  | eight
  | sixteen
  | thirtyTwo
  deriving DecidableEq, Inhabited

namespace BurstLength

/-- Every burst length, shortest first. -/
def all : List BurstLength := [one, two, four, eight, sixteen, thirtyTwo]

/-- A burst length as the device counts it. -/
def toWord : BurstLength → UInt32
  | one => 1
  | two => 2
  | four => 4
  | eight => 8
  | sixteen => 16
  | thirtyTwo => 32

/-- The burst length of a number of transfers. -/
def ofNat? (n : Nat) : Option BurstLength := all.find? fun b => b.toWord.toNat == n

end BurstLength

/-- A set of optional device features. -/
structure Features where
  /-- One bit for each feature, as in the DMA configuration register. -/
  bits : UInt32
  deriving DecidableEq, Inhabited

namespace Features

/-- Burst transfers. -/
def burst : Features := ⟨0x1⟩

/-- Chained descriptors. -/
def chained : Features := ⟨0x2⟩

/-- Performance counters. -/
def perfCounters : Features := ⟨0x4⟩

/-- Completion times. -/
def timestamps : Features := ⟨0x8⟩

/-- Every feature. -/
def all : Features := ⟨0xF⟩

/-- Whether every feature of `g` is in `f`. -/
def contains (f g : Features) : Bool := f.bits &&& g.bits == g.bits

/-- The DMA configuration register for a set of features. The burst length counts only with burst
transfers on. -/
def dmaConfig (f : Features) (length : BurstLength) : UInt32 :=
  if f.contains burst then
    f.bits ||| ((length.toWord <<< DmaConfig.burstShift) &&& DmaConfig.burstMask)
  else f.bits

/-- The descriptor control register for a set of features, with descriptors of `words` words. -/
def descriptorControl (f : Features) (words : Nat) : UInt32 :=
  ((UInt32.ofNat words <<< DescriptorControl.wordsShift) &&& DescriptorControl.wordsMask) |||
    (if f.contains chained then DescriptorControl.chained else 0) |||
    (if f.contains timestamps then DescriptorControl.timestamps else 0)

end Features

/-- What a device family is able to do. -/
structure Capabilities where
  /-- Where its registers are. -/
  registers : RegisterMap
  /-- Which features to switch on. -/
  features : Features
  /-- How its descriptors are laid out. -/
  layout : DescriptorLayout
  /-- How many channels it has. -/
  maxChannels : Nat
  /-- The largest ring it takes. -/
  maxRingSize : Nat
  deriving DecidableEq, Inhabited

namespace Capabilities

/-- The default largest ring. -/
def defaultMaxRingSize : Nat := 4096

/-- The default device family. -/
def standard : Capabilities where
  registers := .standard
  features := .all
  layout := .standard
  maxChannels := PacketDma.maxChannels
  maxRingSize := defaultMaxRingSize

end Capabilities

/-- How an engine drives its device. -/
structure Config where
  /-- The device family. -/
  capabilities : Capabilities
  /-- Transmit descriptors for each channel. -/
  txRingSize : Nat
  /-- Receive descriptors for each channel. -/
  rxRingSize : Nat
  /-- The length of burst transfers. -/
  burstLength : BurstLength
  /-- Microseconds for which the device is held in reset. -/
  resetSettleUs : Nat
  /-- Microseconds in which the device has to come up. -/
  readyTimeoutUs : Nat
  /-- Microseconds between looks at the device while it comes up. -/
  pollIntervalUs : Nat
  /-- Microseconds for which a channel is held in its local reset. -/
  channelResetUs : Nat
  /-- Milliseconds without an interrupt after which a running channel has stalled. -/
  stallThresholdMs : Nat
  /-- Milliseconds between two turns of the watchdog. -/
  watchdogPeriodMs : Nat
  /-- Milliseconds after which the windows of recent events are halved. -/
  windowDecayMs : Nat
  /-- The policy every channel starts with. -/
  defaultPolicy : RecoveryPolicy
  deriving DecidableEq, Inhabited

namespace Config

/-- The default number of transmit descriptors. -/
def defaultTxRingSize : Nat := 64

/-- The default number of receive descriptors. -/
def defaultRxRingSize : Nat := 64

/-- The default microseconds for which the device is held in reset. -/
def defaultResetSettleUs : Nat := 10

/-- The default microseconds in which the device has to come up. -/
def defaultReadyTimeoutUs : Nat := 100000

/-- The default microseconds between looks at the device. -/
def defaultPollIntervalUs : Nat := 100

/-- The default microseconds for which a channel is held in its local reset. -/
def defaultChannelResetUs : Nat := 10

/-- The default milliseconds after which a channel has stalled. -/
def defaultStallThresholdMs : Nat := 5000

/-- The default milliseconds between two turns of the watchdog. -/
def defaultWatchdogPeriodMs : Nat := 1000

/-- The default milliseconds after which windows are halved. -/
def defaultWindowDecayMs : Nat := 1000

/-- The default configuration. -/
def standard : Config where
  capabilities := .standard
  txRingSize := defaultTxRingSize
  rxRingSize := defaultRxRingSize
  burstLength := .thirtyTwo
  resetSettleUs := defaultResetSettleUs
  readyTimeoutUs := defaultReadyTimeoutUs
  pollIntervalUs := defaultPollIntervalUs
  channelResetUs := defaultChannelResetUs
  stallThresholdMs := defaultStallThresholdMs
  watchdogPeriodMs := defaultWatchdogPeriodMs
  windowDecayMs := defaultWindowDecayMs
  defaultPolicy := .standard

/-- Whether a ring size is one the device takes. -/
def ringSizeValid (c : Config) (size : Nat) : Bool :=
  minRingSize ≤ size && size ≤ c.capabilities.maxRingSize

/-- Whether the device family is one the engine can drive. -/
def familyValid (c : Config) : Bool :=
  0 < c.capabilities.maxChannels && c.capabilities.maxChannels ≤ PacketDma.maxChannels &&
    minRingSize ≤ c.capabilities.maxRingSize && c.capabilities.layout.isConsistent &&
    0 < c.capabilities.registers.channelStride

/-- Whether the waits are long enough: none is zero, and a channel does not stall between two
turns of the watchdog. -/
def timingValid (c : Config) : Bool :=
  0 < c.pollIntervalUs && 0 < c.stallThresholdMs && 0 < c.windowDecayMs &&
    0 < c.watchdogPeriodMs && c.watchdogPeriodMs ≤ c.stallThresholdMs

/-- Accepts a configuration or says what is wrong with it: the device family is looked at first,
then the ring sizes, then the timing. -/
def validate (c : Config) : Except ConfigError Unit :=
  if !c.familyValid then .error .invalidConfig
  else if !(c.ringSizeValid c.txRingSize && c.ringSizeValid c.rxRingSize) then
    .error .invalidCapacity
  else if !c.timingValid then .error .invalidConfig
  else .ok ()

/-- Accepts a number of channels that the device has. -/
def validateChannelCount (c : Config) (count : Nat) : Except ConfigError Unit :=
  if count = 0 ∨ c.capabilities.maxChannels < count then .error .invalidChannel else .ok ()

theorem validate_standard : standard.validate = .ok () := rfl

end Config

end PacketDma
