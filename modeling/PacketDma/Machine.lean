import PacketDma.Error
import PacketDma.Machine.Event
import PacketDma.Machine.Mapper
import PacketDma.Register.File
import PacketDma.Time

/-!
# The machine

The machine is all that the engine acts on: registers, a clock, and memory that the device can
reach. It records every effect in order.
-/

namespace PacketDma

/-- Descriptors that the device still sees after their ring was given up. -/
structure DescriptorArray where
  /-- Where the device finds them. -/
  base : BusAddress
  /-- Their contents. -/
  descriptors : Array Descriptor
  deriving DecidableEq, Inhabited

/-- Registers, clock and memory. -/
structure Machine (β : Type) where
  /-- The device's registers. -/
  registers : RegisterFile
  /-- The clock. -/
  clock : Clock
  /-- The mapped memory. -/
  mapper : Mapper β
  /-- The descriptors of rings that were given up, the latest first. -/
  retired : List DescriptorArray
  /-- The effects so far. -/
  trace : Array (Event β)

namespace Machine

variable {β : Type}

/-- Records an effect. -/
def emit (m : Machine β) (e : Event β) : Machine β := { m with trace := m.trace.push e }

/-- Logs a message. -/
def log (m : Machine β) (level : LogLevel) (text : String) : Machine β :=
  m.emit (.log level text)

/-- Wakes a task, if there is one to wake. -/
def wake (m : Machine β) : Option Nat → Machine β
  | none => m
  | some task => m.emit (.wake task)

/-- Reads a register. -/
def read (m : Machine β) (offset : Nat) : UInt32 × Machine β :=
  let (word, registers) := m.registers.read offset
  (word, { m with registers := registers }.emit (.read offset word))

/-- Writes a register. -/
def write (m : Machine β) (offset : Nat) (word : UInt32) : Machine β :=
  { m with registers := m.registers.write offset word }.emit (.write offset word)

/-- Reads a register and writes back what becomes of its word. -/
def modify (m : Machine β) (offset : Nat) (f : UInt32 → UInt32) : Machine β :=
  let (word, m) := m.read offset
  m.write offset (f word)

/-- Sets bits of a register. -/
def setBits (m : Machine β) (offset : Nat) (bits : UInt32) : Machine β :=
  m.modify offset (· ||| bits)

/-- Clears bits of a register. -/
def clearBits (m : Machine β) (offset : Nat) (bits : UInt32) : Machine β :=
  m.modify offset (· &&& ~~~bits)

/-- Reads the clock. -/
def now (m : Machine β) : Nat × Machine β := (m.clock.now, { m with clock := m.clock.read.2 })

/-- Waits for `us` microseconds. -/
def delay (m : Machine β) (us : Nat) : Machine β :=
  { m with clock := m.clock.advance us }.emit (.delay us)

/-- Maps a buffer of a channel for a transfer of some length from a place of its ring, if that can
be done. -/
def mapBuffer (m : Machine β) (channel : Nat) (direction : Direction) (index : Nat) (buffer : β)
    (length : Nat) : Option BusAddress × Machine β :=
  match m.mapper.mapBuffer buffer with
  | (none, mapper) =>
    (none, { m with mapper := mapper }.emit (.mapFailed channel direction buffer))
  | (some addr, mapper) =>
    (some addr,
      { m with mapper := mapper }.emit (.mapped channel direction index buffer addr length))

/-- Unmaps a buffer of a channel. -/
def unmapBuffer (m : Machine β) (channel : Nat) (direction : Direction) (addr : BusAddress)
    (length : Nat) (cause : UnmapCause) : Machine β :=
  { m with mapper := m.mapper.unmapBuffer addr }.emit
    (.unmapped channel direction addr length cause)

/-- Maps an array of descriptors, if that can be done. -/
def mapArray (m : Machine β) (bytes : Nat) : Option BusAddress × Machine β :=
  match m.mapper.mapArray bytes with
  | (none, mapper) => (none, { m with mapper := mapper }.emit (.arrayFailed bytes))
  | (some addr, mapper) =>
    (some addr, { m with mapper := mapper }.emit (.arrayMapped bytes addr))

/-- Makes something in a piece of storage of its own, if it can be made and there is storage to be
had. -/
def reserve {α : Type} (made : Except Error α) (m : Machine β) : Except Error α × Machine β :=
  match made with
  | .error x => (.error x, m)
  | .ok a =>
    let (granted, mapper) := m.mapper.reserve
    (if granted then .ok a else .error (.dma .allocationFailed), { m with mapper := mapper })

theorem eq_of_reserve_ok {α : Type} {made : Except Error α} {a : α} {m n : Machine β}
    (h : m.reserve made = (.ok a, n)) : made = .ok a ∧ n = { m with mapper := n.mapper } := by
  cases made with
  | error x => simp [reserve] at h
  | ok b =>
    simp only [reserve, Prod.mk.injEq] at h
    obtain ⟨hmade, rfl⟩ := h
    split at hmade
    · exact ⟨hmade, rfl⟩
    · simp at hmade

/-- Keeps descriptors in sight of the device after their ring is given up. -/
def retire (m : Machine β) (base : BusAddress) (descriptors : Array Descriptor) : Machine β :=
  { m with retired := ⟨base, descriptors⟩ :: m.retired }

end Machine

end PacketDma
