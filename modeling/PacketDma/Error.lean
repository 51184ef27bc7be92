/-!
# Errors

An operation fails for one of a fixed list of causes, in three groups: the engine was set up or
addressed wrongly, a transfer could not be posted, or the device is not in a state to act.
-/

namespace PacketDma

/-- Set-up and addressing errors. -/
inductive ConfigError where
  | alreadyInitialized
  | notInitialized
  | invalidConfig
  | invalidChannel
  | invalidCapacity
  deriving DecidableEq, Inhabited

/-- Every set-up error. -/
def ConfigError.all : List ConfigError :=
  [alreadyInitialized, notInitialized, invalidConfig, invalidChannel, invalidCapacity]

/-- The name of a set-up error. -/
def ConfigError.name : ConfigError → String
  | alreadyInitialized => "AlreadyInitialized"
  | notInitialized => "NotInitialized"
  | invalidConfig => "InvalidConfig"
  | invalidChannel => "InvalidChannel"
  | invalidCapacity => "InvalidCapacity"

/-- The text of a set-up error. -/
def ConfigError.message : ConfigError → String
  | alreadyInitialized => "already initialized"
  | notInitialized => "not initialized"
  | invalidConfig => "invalid configuration"
  | invalidChannel => "invalid channel"
  | invalidCapacity => "invalid ring capacity"

/-- Errors of rings and buffers. -/
inductive DmaError where
  | allocationFailed
  | resourceExhausted
  | mappingFailed
  | invalidLength
  deriving DecidableEq, Inhabited

/-- Every ring or buffer error. -/
def DmaError.all : List DmaError :=
  [allocationFailed, resourceExhausted, mappingFailed, invalidLength]

/-- The name of a ring or buffer error. -/
def DmaError.name : DmaError → String
  | allocationFailed => "AllocationFailed"
  | resourceExhausted => "ResourceExhausted"
  | mappingFailed => "MappingFailed"
  | invalidLength => "InvalidLength"

/-- The text of a ring or buffer error. -/
def DmaError.message : DmaError → String
  | allocationFailed => "allocation failed"
  | resourceExhausted => "ring full"
  | mappingFailed => "buffer mapping failed"
  | invalidLength => "invalid buffer length"

/-- Errors of the device and its channels. -/
inductive IoError where
  | hardwareTimeout
  | invalidState
  | channelDown
  | fatal
  deriving DecidableEq, Inhabited

/-- Every device error. -/
def IoError.all : List IoError := [hardwareTimeout, invalidState, channelDown, fatal]

/-- The name of a device error. -/
def IoError.name : IoError → String
  | hardwareTimeout => "HardwareTimeout"
  | invalidState => "InvalidState"
  | channelDown => "ChannelDown"
  | fatal => "Fatal"

/-- The text of a device error. -/
def IoError.message : IoError → String
  | hardwareTimeout => "hardware timeout"
  | invalidState => "invalid state for operation"
  | channelDown => "channel down"
  | fatal => "fatal device error"

/-- Any error of the engine. -/
inductive Error where
  | config (e : ConfigError)
  | dma (e : DmaError)
  | io (e : IoError)
  deriving DecidableEq, Inhabited

/-- Every error. -/
def Error.all : List Error :=
  ConfigError.all.map config ++ DmaError.all.map dma ++ IoError.all.map io

/-- The name of an error without its group. -/
def Error.cause : Error → String
  | config e => e.name
  | dma e => e.name
  | io e => e.name

/-- The name of an error, in the brackets of its group. -/
def Error.name : Error → String
  | config e => "Config(" ++ e.name ++ ")"
  | dma e => "Dma(" ++ e.name ++ ")"
  | io e => "Io(" ++ e.name ++ ")"

/-- The text of an error without its group. -/
def Error.detail : Error → String
  | config e => e.message
  | dma e => e.message
  | io e => e.message

/-- The text of an error, after the name of its group. -/
def Error.message : Error → String
  | config e => "config: " ++ e.message
  | dma e => "dma: " ++ e.message
  | io e => "io: " ++ e.message

/-- A buffer that was not accepted, handed back with the reason. -/
structure Rejection (β : Type) where
  /-- Why the buffer was not accepted. -/
  error : Error
  /-- The buffer, unchanged. -/
  buffer : β
  deriving DecidableEq

/-- Whether the only obstacle was a full ring. -/
def Rejection.isFull {β : Type} (r : Rejection β) : Bool := r.error == .dma .resourceExhausted

end PacketDma
