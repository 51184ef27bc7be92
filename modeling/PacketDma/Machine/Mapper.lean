import PacketDma.Bus
import PacketDma.Descriptor

/-!
# Mapping memory for the device

The device reaches a buffer or an array of descriptors only after it was mapped to a bus
address. Addresses are given out in order. A plan decides which calls fail, and so it does for the
pieces of storage that tables and rings ask for.
-/

namespace PacketDma

/-- Which of a series of calls fail. -/
structure FaultPlan where
  /-- The number of the next call. -/
  call : Nat
  /-- Whether a call fails, by its number. -/
  fails : Nat → Bool

namespace FaultPlan

/-- No call fails. -/
def never : FaultPlan := ⟨0, fun _ => false⟩

/-- After `skip` calls, `count` calls fail. -/
def window (skip count : Nat) : FaultPlan := ⟨0, fun n => skip ≤ n && n < skip + count⟩

/-- Whether the call made now fails. -/
def failsNow (p : FaultPlan) : Bool := p.fails p.call

/-- The plan after a call. -/
def step (p : FaultPlan) : FaultPlan := { p with call := p.call + 1 }

end FaultPlan

/-- The memory the device can reach, and where new mappings go. -/
structure Mapper (β : Type) where
  /-- The address of the next buffer. -/
  nextBuffer : BusAddress
  /-- The buffers that are mapped now, by address. -/
  mapped : List (BusAddress × β)
  /-- Which buffers cannot be mapped. -/
  bufferPlan : FaultPlan
  /-- The address of the next descriptor array. -/
  nextArray : BusAddress
  /-- How many descriptor arrays were mapped so far. -/
  arrayCount : Nat
  /-- Which descriptor arrays cannot be mapped. -/
  arrayPlan : FaultPlan
  /-- Which pieces of storage cannot be had. -/
  storagePlan : FaultPlan

namespace Mapper

variable {β : Type}

/-- Buffers lie this many bytes apart. -/
def bufferStride : Nat := 0x1000

/-- A mapper that gives out addresses from these two on, without failing. -/
def new (buffers arrays : BusAddress) : Mapper β :=
  ⟨buffers, [], .never, arrays, 0, .never, .never⟩

/-- Maps a buffer, or fails as planned. -/
def mapBuffer (m : Mapper β) (buffer : β) : Option BusAddress × Mapper β :=
  let next := { m with bufferPlan := m.bufferPlan.step }
  if m.bufferPlan.failsNow then (none, next)
  else
    (some m.nextBuffer,
      { next with
        nextBuffer := m.nextBuffer.advance bufferStride
        mapped := (m.nextBuffer, buffer) :: m.mapped })

/-- The buffer mapped at an address. -/
def buffer? (m : Mapper β) (addr : BusAddress) : Option β := m.mapped.lookup addr

/-- Forgets the buffer mapped at an address. -/
def unmapBuffer (m : Mapper β) (addr : BusAddress) : Mapper β :=
  { m with mapped := m.mapped.eraseP (·.1 == addr) }

/-- Maps a descriptor array of some size, or fails as planned. -/
def mapArray (m : Mapper β) (bytes : Nat) : Option BusAddress × Mapper β :=
  let next := { m with arrayPlan := m.arrayPlan.step }
  if m.arrayPlan.failsNow then (none, next)
  else
    (some m.nextArray,
      { next with
        nextArray := m.nextArray.advance bytes
        arrayCount := m.arrayCount + 1 })

/-- Asks for a piece of storage, which fails as planned. -/
def reserve (m : Mapper β) : Bool × Mapper β :=
  (!m.storagePlan.failsNow, { m with storagePlan := m.storagePlan.step })

end Mapper

end PacketDma
