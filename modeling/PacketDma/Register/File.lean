import PacketDma.Limits
import PacketDma.Register.Bits
import PacketDma.Register.Map

/-!
# The register file

The registers of the device as the host sees them. Plain registers keep what is written. Status
registers are cleared by writing ones. A level that the device holds is read as set whatever is
written, and the device reports ready some status reads after its reset is released.
-/

namespace PacketDma

/-- Words by offset. An offset that was never set holds zero. -/
structure WordTable where
  /-- The offsets that were set, each once. -/
  entries : List (Nat × UInt32)
  deriving DecidableEq, Inhabited

namespace WordTable

/-- The table of zeros. -/
def zero : WordTable := ⟨[]⟩

/-- The word at an offset. -/
def get (t : WordTable) (offset : Nat) : UInt32 := (t.entries.lookup offset).getD 0

/-- Replaces the entry of an offset, or adds one. -/
def setEntry (offset : Nat) (word : UInt32) : List (Nat × UInt32) → List (Nat × UInt32)
  | [] => [(offset, word)]
  | (o, w) :: rest =>
    if offset = o then (o, word) :: rest else (o, w) :: setEntry offset word rest

/-- Sets the word at an offset. -/
def set (t : WordTable) (offset : Nat) (word : UInt32) : WordTable :=
  ⟨setEntry offset word t.entries⟩

@[simp] theorem get_zero (offset : Nat) : zero.get offset = 0 := rfl

theorem lookup_setEntry (offset o : Nat) (word : UInt32) (entries : List (Nat × UInt32)) :
    (setEntry offset word entries).lookup o =
      if o = offset then some word else entries.lookup o := by
  induction entries with
  | nil =>
    by_cases h : o = offset
    · simp [setEntry, h]
    · simp [setEntry, List.lookup_cons, h, beq_false_of_ne h]
  | cons e rest ih =>
    obtain ⟨p, w⟩ := e
    by_cases hp : offset = p
    · subst hp
      by_cases h : o = offset
      · simp [setEntry, h]
      · simp [setEntry, List.lookup_cons, h, beq_false_of_ne h]
    · by_cases h : o = p
      · subst h
        simp [setEntry, hp, Ne.symm hp]
      · simp [setEntry, List.lookup_cons, hp, beq_false_of_ne h, ih]

@[simp] theorem get_set (t : WordTable) (offset o : Nat) (word : UInt32) :
    (t.set offset word).get o = if o = offset then word else t.get o := by
  simp only [get, set, lookup_setEntry]
  split <;> rfl

end WordTable

/-- The registers of a device and how the device answers accesses to them. -/
structure RegisterFile where
  /-- Where the registers are. -/
  map : RegisterMap
  /-- The register base of the device. -/
  base : Nat
  /-- How many channel windows there are. -/
  windows : Nat
  /-- What is stored at each offset. -/
  stored : WordTable
  /-- Bits that read as set whatever is stored. -/
  held : WordTable
  /-- Status reads left until the device reports ready, while it is coming up. -/
  waiting : Option Nat
  /-- Status reads that the device takes to come up, if it does. -/
  readyAfter : Option Nat
  deriving DecidableEq, Inhabited

namespace RegisterFile

/-- A register file of zeros, with a window for every channel an engine can have. -/
def zero (map : RegisterMap) (base : Nat) (readyAfter : Option Nat) : RegisterFile :=
  ⟨map, base, maxChannels, .zero, .zero, none, readyAfter⟩

/-- The offset of a channel's window. -/
def window (f : RegisterFile) (channel : Nat) : Nat := f.base + f.map.channelOffset channel

/-- The offset of a device register. -/
def deviceOffset (f : RegisterFile) (r : DeviceRegister) : Nat := f.base + f.map.deviceOffset r

/-- The offset of a channel register. -/
def channelOffset (f : RegisterFile) (channel : Nat) (r : ChannelRegister) : Nat :=
  f.window channel + f.map.windowOffset r

/-- Whether a register is cleared by writing ones. -/
def isClearedByOnes (f : RegisterFile) (offset : Nat) : Bool :=
  offset == f.deviceOffset .intStatus ||
    (List.range f.windows).any fun c => offset == f.channelOffset c .errorStatus

/-- What a register shows, without the side effects of a read. -/
def peek (f : RegisterFile) (offset : Nat) : UInt32 := f.stored.get offset ||| f.held.get offset

/-- Changes what is stored at an offset. -/
def store (f : RegisterFile) (offset : Nat) (word : UInt32) : RegisterFile :=
  { f with stored := f.stored.set offset word }

/-- A status read brings the device closer to being ready. -/
def comeUp (f : RegisterFile) : RegisterFile :=
  match f.waiting with
  | none => f
  | some 0 =>
    let status := f.deviceOffset .status
    { f.store status (f.stored.get status ||| Status.ready) with waiting := none }
  | some (n + 1) => { f with waiting := some n }

/-- Reads a register. -/
def read (f : RegisterFile) (offset : Nat) : UInt32 × RegisterFile :=
  let f := if offset = f.deviceOffset .status then f.comeUp else f
  (f.peek offset, f)

/-- What a write to device control does to the rest of the device: reset takes ready away, and its
release lets the device come up. -/
def followControl (f : RegisterFile) (word : UInt32) : RegisterFile :=
  let status := f.deviceOffset .status
  if word &&& Control.reset ≠ 0 then
    { f.store status ((f.stored.get status &&& ~~~Status.ready) ||| Status.resetActive) with
      waiting := none }
  else
    { f.store status (f.stored.get status &&& ~~~Status.resetActive) with
      waiting := f.readyAfter }

/-- Writes a register. -/
def write (f : RegisterFile) (offset : Nat) (word : UInt32) : RegisterFile :=
  if f.isClearedByOnes offset then f.store offset (f.stored.get offset &&& ~~~word)
  else
    let f := f.store offset word
    if offset = f.deviceOffset .control then f.followControl word else f

/-- The device sets bits of a register. -/
def raise (f : RegisterFile) (offset : Nat) (bits : UInt32) : RegisterFile :=
  f.store offset (f.stored.get offset ||| bits)

/-- The device raises interrupt sources. -/
def raiseInterrupts (f : RegisterFile) (bits : UInt32) : RegisterFile :=
  f.raise (f.deviceOffset .intStatus) bits

/-- The device reports faults of a channel. -/
def latchFaults (f : RegisterFile) (channel : Nat) (bits : UInt32) : RegisterFile :=
  f.raise (f.channelOffset channel .errorStatus) bits

/-- The device reports faults of a channel and raises its error interrupt. -/
def injectFaults (f : RegisterFile) (channel : Nat) (bits : UInt32) : RegisterFile :=
  (f.latchFaults channel bits).raiseInterrupts (1 <<< UInt32.ofNat (16 + channel))

/-- The device holds fault bits of a channel, in place of those it held before. -/
def holdFaults (f : RegisterFile) (channel : Nat) (bits : UInt32) : RegisterFile :=
  { f with held := f.held.set (f.channelOffset channel .errorStatus) bits }

end RegisterFile

end PacketDma
