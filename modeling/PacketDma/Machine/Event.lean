import PacketDma.Bus

/-!
# Events

What the engine does to the machine, in the order in which it does it.
-/

namespace PacketDma

/-- How much a message matters. -/
inductive LogLevel where
  | trace
  | debug
  | info
  | warn
  | error
  deriving DecidableEq, Inhabited

/-- The name of a level. -/
def LogLevel.name : LogLevel → String
  | trace => "trace"
  | debug => "debug"
  | info => "info"
  | warn => "warn"
  | error => "error"

/-- Why a buffer is unmapped. -/
inductive UnmapCause where
  /-- The device handed its descriptor back: this control word was read at this place of the
  ring. -/
  | returned (index : Nat) (control : UInt32)
  /-- The transfer was discarded. -/
  | discarded
  deriving DecidableEq, Inhabited

/-- One effect on the machine. -/
inductive Event (β : Type) where
  /-- A register was read. -/
  | read (offset : Nat) (word : UInt32)
  /-- A register was written. -/
  | write (offset : Nat) (word : UInt32)
  /-- Time was spent waiting. -/
  | delay (us : Nat)
  /-- A buffer of a channel was mapped for a transfer of some length from this place of its ring. -/
  | mapped (channel : Nat) (direction : Direction) (index : Nat) (buffer : β) (addr : BusAddress)
      (length : Nat)
  /-- A buffer of a channel could not be mapped. -/
  | mapFailed (channel : Nat) (direction : Direction) (buffer : β)
  /-- A buffer of a channel was unmapped. -/
  | unmapped (channel : Nat) (direction : Direction) (addr : BusAddress) (length : Nat)
      (cause : UnmapCause)
  /-- An array of descriptors was mapped. -/
  | arrayMapped (bytes : Nat) (addr : BusAddress)
  /-- An array of descriptors could not be mapped. -/
  | arrayFailed (bytes : Nat)
  /-- A message was logged. -/
  | log (level : LogLevel) (text : String)
  /-- A waiting task was woken. -/
  | wake (task : Nat)
  deriving DecidableEq

end PacketDma
