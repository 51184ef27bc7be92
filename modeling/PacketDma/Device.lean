import PacketDma.Channel
import PacketDma.ChannelMask

/-!
# The device

The device sees registers and mapped memory, and nothing else. It finds a ring through the base
registers of its channel, acts on the descriptors that it owns, and moves packets between
buffers.
-/

namespace PacketDma

/-- A packet buffer: a name, and the block of packet memory that holds its bytes. -/
structure Buffer where
  /-- The name that the owner knows it by. -/
  id : Nat
  /-- The number of its block. -/
  block : Nat
  deriving DecidableEq, Inhabited

/-- The bytes of all packet buffers, by block. -/
structure PacketMemory where
  /-- The blocks. -/
  blocks : Array (Array UInt8)
  deriving DecidableEq, Inhabited

namespace PacketMemory

/-- A memory without blocks. -/
def empty : PacketMemory := ⟨#[]⟩

/-- A new buffer that holds some bytes. -/
def allocate (p : PacketMemory) (id : Nat) (bytes : Array UInt8) : Buffer × PacketMemory :=
  (⟨id, p.blocks.size⟩, ⟨p.blocks.push bytes⟩)

/-- The bytes of a buffer. -/
def bytes (p : PacketMemory) (b : Buffer) : Array UInt8 := p.blocks.getD b.block #[]

/-- Copies the first bytes of one buffer over those of another, no more than either holds. -/
def copy (p : PacketMemory) (source target : Buffer) (length : Nat) : PacketMemory :=
  let new := p.bytes source
  let old := p.bytes target
  let n := min length (min new.size old.size)
  ⟨p.blocks.setIfInBounds target.block (new.extract 0 n ++ old.extract n old.size)⟩

end PacketMemory

/-- A descriptor array in mapped memory. -/
inductive ArrayRef where
  /-- The ring of a channel in service. -/
  | ring (index : Nat) (direction : Direction)
  /-- An array whose ring was given up. -/
  | retired (index : Nat)
  deriving DecidableEq, Inhabited

/-- What the device reaches: the rings in service, and the machine. -/
structure DeviceView (β : Type) where
  /-- How the device reads descriptors. -/
  layout : DescriptorLayout
  /-- The channels in service. -/
  channels : List (Channel β)
  /-- The machine. -/
  machine : Machine β

namespace DeviceView

variable {β : Type}

/-- The ring of a channel that the device finds at an address, if it is there. -/
def ringAt? (base : BusAddress) (c : Channel β) : Option Direction :=
  Direction.all.find? fun d => (c.ring d).capacity != 0 && (c.ring d).base == base

/-- The descriptor array at an address. -/
def arrayAt? (v : DeviceView β) (base : BusAddress) : Option ArrayRef :=
  match v.channels.zipIdx.findSome? fun (c, i) => (ringAt? base c).map (.ring i) with
  | some ref => some ref
  | none => (v.machine.retired.findIdx? (·.base == base)).map .retired

/-- The address that the base registers of a channel show. -/
def baseRegister (v : DeviceView β) (channel : Nat) (direction : Direction) : BusAddress :=
  let f := v.machine.registers
  .ofWords (f.peek (f.channelOffset channel (.baseLow direction)))
    (f.peek (f.channelOffset channel (.baseHigh direction)))

/-- The descriptor array that the device uses for a channel. -/
def array? (v : DeviceView β) (channel : Nat) (direction : Direction) : Option ArrayRef :=
  v.arrayAt? (v.baseRegister channel direction)

/-- The descriptor at an index of an array, around the array. -/
def descriptor (v : DeviceView β) (ref : ArrayRef) (i : Nat) : Descriptor :=
  match ref with
  | .ring index direction =>
    match v.channels[index]? with
    | some c => (c.ring direction).descriptor i
    | none => .zero
  | .retired index =>
    match v.machine.retired[index]? with
    | some a => a.descriptors.getD (i % a.descriptors.size) .zero
    | none => .zero

/-- Changes the descriptor at an index of an array, around the array. -/
def setDescriptor (v : DeviceView β) (ref : ArrayRef) (i : Nat) (d : Descriptor) :
    DeviceView β :=
  match ref with
  | .ring index direction =>
    { v with
      channels := v.channels.modify index fun c =>
        c.setRing direction ((c.ring direction).setDescriptor i d) }
  | .retired index =>
    { v with
      machine :=
        { v.machine with
          retired := v.machine.retired.modify index fun a =>
            { a with
              descriptors := a.descriptors.setIfInBounds (i % a.descriptors.size) d } } }

/-- Changes the registers. -/
def onRegisters (v : DeviceView β) (f : RegisterFile → RegisterFile) : DeviceView β :=
  { v with machine := { v.machine with registers := f v.machine.registers } }

/-- Writes one word of a descriptor. -/
def writeWord (v : DeviceView β) (ref : ArrayRef) (i index : Nat) (word : UInt32) :
    DeviceView β :=
  v.setDescriptor ref i ((v.descriptor ref i).setWord index word)

/-- What the device reports when it finishes transfers. -/
structure Report where
  /-- The length, if it differs from the one posted. -/
  length : Option Nat
  /-- The status word. -/
  status : UInt32
  /-- The time, if it is recorded. -/
  timestamp : Option UInt64
  deriving DecidableEq

/-- Finishes the transfer of a descriptor. -/
def completeOne (v : DeviceView β) (ref : ArrayRef) (i : Nat) (r : Report) : DeviceView β :=
  let d := v.descriptor ref i
  v.setDescriptor ref i
    (d.complete v.layout (r.length.getD (d.length v.layout)) r.status r.timestamp)

/-- Finishes the transfers that the device owns among `n` descriptors in a row. The answer is how
many there were. -/
def completeMany (ref : ArrayRef) (r : Report) : Nat → Nat → DeviceView β → Nat × DeviceView β
  | _, 0, v => (0, v)
  | i, n + 1, v =>
    if (v.descriptor ref i).isOwned v.layout then
      let (k, v) := completeMany ref r (i + 1) n (v.completeOne ref i r)
      (k + 1, v)
    else completeMany ref r (i + 1) n v

/-- Finishes transfers of a channel and raises its completion interrupt if asked to. There is no
answer without a ring. -/
def complete? (v : DeviceView β) (channel : Nat) (direction : Direction) (i n : Nat)
    (r : Report) (interrupt : Bool) : Option (Nat × DeviceView β) :=
  (v.array? channel direction).map fun ref =>
    let (k, v) := completeMany ref r i n v
    if interrupt && 0 < k then (k, v.onRegisters (·.raiseInterrupts (ChannelMask.bit channel)))
    else (k, v)

/-- The report of a whole packet without error. -/
def packetReport (length : Nat) : Report := ⟨some length, 0, none⟩

/-- Moves a packet from a transmit buffer to a receive buffer. -/
def movePacket (tx rx : ArrayRef) (ti ri : Nat) (v : DeviceView Buffer) (p : PacketMemory) :
    DeviceView Buffer × PacketMemory :=
  let source := v.descriptor tx ti
  let target := v.descriptor rx ri
  let length := min (source.length v.layout) (target.length v.layout)
  let p :=
    match v.machine.mapper.buffer? source.addr, v.machine.mapper.buffer? target.addr with
    | some a, some b => p.copy a b length
    | _, _ => p
  ((v.completeOne tx ti (packetReport length)).completeOne rx ri (packetReport length), p)

/-- Moves at most `n` packets, as long as the device owns the descriptors of both sides. The answer
is their number. -/
def movePackets (tx rx : ArrayRef) :
    Nat → Nat → Nat → DeviceView Buffer → PacketMemory →
      Nat × DeviceView Buffer × PacketMemory
  | _, _, 0, v, p => (0, v, p)
  | ti, ri, n + 1, v, p =>
    if (v.descriptor tx ti).isOwned v.layout && (v.descriptor rx ri).isOwned v.layout then
      let (v, p) := movePacket tx rx ti ri v p
      let (k, v, p) := movePackets tx rx (ti + 1) (ri + 1) n v p
      (k + 1, v, p)
    else (0, v, p)

/-- Sends packets of one channel to another and raises the completion interrupts of both. There is
no answer without rings. -/
def loopback? (v : DeviceView Buffer) (p : PacketMemory) (source si target ti n : Nat) :
    Option (Nat × DeviceView Buffer × PacketMemory) :=
  match v.array? source .toDevice, v.array? target .fromDevice with
  | some tx, some rx =>
    let (k, v, p) := movePackets tx rx si ti n v p
    if 0 < k then
      (some (k,
        v.onRegisters (·.raiseInterrupts (ChannelMask.bit source ||| ChannelMask.bit target)), p))
    else some (k, v, p)
  | _, _ => none

end DeviceView

/-- The channel's descriptors stay in sight of the device as they are, although nobody takes care of
the channel any more. -/
def Channel.abandon {β : Type} (c : Channel β) (m : Machine β) : Machine β :=
  Direction.all.foldl
    (fun m d =>
      let r := c.ring d
      if r.capacity = 0 then m else m.retire r.base (r.cells.map (·.descriptor)))
    m

end PacketDma
