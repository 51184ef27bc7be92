import PacketDma.Config
import PacketDma.Hex
import PacketDma.Machine.Views
import PacketDma.Ring

/-!
# Channels

A channel is a transmit ring, a receive ring and the register window that tells the device about
them. It may post buffers while it runs. Each operation acts on the machine and says what it
found.
-/

namespace PacketDma

/-- A channel with its rings. -/
structure Channel (β : Type) where
  /-- The channel number. -/
  id : Nat
  /-- The offset of the register window. -/
  window : Nat
  /-- Where the registers are in the window. -/
  map : RegisterMap
  /-- The device features in use. -/
  features : Features
  /-- The transmit ring. -/
  tx : Ring β
  /-- The receive ring. -/
  rx : Ring β
  /-- Whether the channel has rings. -/
  initialized : Bool
  /-- Whether the rings run. -/
  running : Bool
  deriving DecidableEq

namespace Channel

variable {β : Type}

/-- The registers of a channel. -/
def registers (c : Channel β) : ChannelRegisters := ⟨c.map, c.window⟩

/-- The ring of a direction. -/
def ring (c : Channel β) : Direction → Ring β
  | .toDevice => c.tx
  | .fromDevice => c.rx

/-- Replaces the ring of a direction. -/
def setRing (c : Channel β) (direction : Direction) (r : Ring β) : Channel β :=
  match direction with
  | .toDevice => { c with tx := r }
  | .fromDevice => { c with rx := r }

/-- The number of transfers in flight in a direction. -/
def inFlight (c : Channel β) (direction : Direction) : Nat := (c.ring direction).inFlight

/-- Makes a ring and maps its descriptors. -/
def buildRing (config : Config) (capacity : Nat) (m : Machine β) :
    Except Error (Ring β) × Machine β :=
  let caps := config.capabilities
  match m.reserve (Ring.create? caps.layout capacity caps.maxRingSize) with
  | (.error e, m) => (.error e, m)
  | (.ok r, m) =>
    match m.mapArray (r.capacity * Descriptor.bytes) with
    | (none, m) => (.error (.dma .mappingFailed), m)
    | (some base, m) => (.ok { r with base := base }, m)

/-- Unmaps buffers whose transfers are discarded. -/
def discardSlots (channel : Nat) (direction : Direction) (slots : List (Slot β))
    (m : Machine β) : Machine β :=
  slots.foldl
    (fun m s => m.unmapBuffer channel direction s.addr s.length .discarded) m

/-- Discards the transfers of a ring, which is empty then. The answer is their number. -/
def resetRing (channel : Nat) (direction : Direction) (r : Ring β) (m : Machine β) :
    Nat × Ring β × Machine β :=
  (r.slots.length, r.rewind, discardSlots channel direction r.slots m)

/-- Discards the transfers of a ring and gives up its descriptors, which the device still sees,
cleared. The answer is the number of discarded transfers. -/
def releaseRing (channel : Nat) (direction : Direction) (r : Ring β) (m : Machine β) :
    Nat × Ring β × Machine β :=
  let (discarded, emptied, m) := resetRing channel direction r m
  let m :=
    if r.capacity = 0 then m else m.retire r.base (Array.replicate r.capacity .zero)
  (discarded, emptied.release, m)

/-- Makes both rings of a channel. Without a receive ring the transmit ring is given up again. -/
def buildRings (channel : Nat) (config : Config) (m : Machine β) :
    Except Error (Ring β × Ring β) × Machine β :=
  match buildRing config config.txRingSize m with
  | (.error e, m) => (.error e, m)
  | (.ok tx, m) =>
    match buildRing config config.rxRingSize m with
    | (.error e, m) => (.error e, (releaseRing channel .toDevice tx m).2.2)
    | (.ok rx, m) => (.ok (tx, rx), m)

/-- A stopped channel with new rings, which the device has not been told about. -/
def build (id window : Nat) (config : Config) (m : Machine β) :
    Except Error (Channel β) × Machine β :=
  match buildRings id config m with
  | (.error e, m) => (.error e, m)
  | (.ok (tx, rx), m) =>
    (.ok
      { id := id
        window := window
        map := config.capabilities.registers
        features := config.capabilities.features
        tx := tx
        rx := rx
        initialized := true
        running := false },
      m.log .debug s!"ch{id}: rings tx={tx.capacity} rx={rx.capacity} at {hex window}")

/-- Tells the device about one ring. -/
def programRing (c : Channel β) (direction : Direction) (m : Machine β) : Machine β :=
  let r := c.ring direction
  c.registers.ringDoorbell direction r.head
    (c.registers.setRingBase direction r.base r.capacity m)

/-- Tells the device about both rings and the form of their descriptors. -/
def program (c : Channel β) (m : Machine β) : Machine β :=
  c.registers.write .descControl (c.features.descriptorControl Descriptor.words)
    (c.programRing .fromDevice (c.programRing .toDevice m))

/-- Marks both rings and the channel as running or halted. -/
def setRunning (c : Channel β) (running : Bool) : Channel β :=
  { c with
    running := running
    tx := c.tx.setEnabled running
    rx := c.rx.setEnabled running }

/-- Runs the rings. A running channel goes on. -/
def start (c : Channel β) (m : Machine β) : Except Error Unit × Channel β × Machine β :=
  if !c.initialized then (.error (.config .notInitialized), c, m)
  else if c.running then (.ok (), c, m)
  else
    (.ok (), c.setRunning true,
      (c.registers.enableRings m).log .trace s!"ch{c.id}: started")

/-- Halts the rings. The answer tells whether they ran. -/
def stop (c : Channel β) (m : Machine β) : Bool × Channel β × Machine β :=
  if c.running then
    (true, c.setRunning false,
      (c.registers.disableRings m).log .trace s!"ch{c.id}: stopped")
  else (false, c, m)

/-- Halts the rings, discards their transfers and gives them up. The answer is the number of
discarded transfers. -/
def deinit (c : Channel β) (m : Machine β) : Nat × Channel β × Machine β :=
  if !c.initialized then (0, c, m)
  else
    let (_, c, m) := c.stop m
    let (txCount, tx, m) := releaseRing c.id .toDevice c.tx m
    let (rxCount, rx, m) := releaseRing c.id .fromDevice c.rx m
    let discarded := txCount + rxCount
    (discarded, { c with tx := tx, rx := rx, initialized := false },
      m.log .debug s!"ch{c.id}: deinit, {discarded} buffers discarded")

/-- Posts a buffer and tells the device how far the ring is filled now. A buffer that is refused
comes back with the reason. -/
def enqueue (c : Channel β) (direction : Direction) (buffer : β) (length : Nat)
    (m : Machine β) : Except (Rejection β) Unit × Channel β × Machine β :=
  if !c.initialized then (.error ⟨.config .notInitialized, buffer⟩, c, m)
  else
    let r := c.ring direction
    match r.refusal? length with
    | some e => (.error ⟨e, buffer⟩, c, m)
    | none =>
      match m.mapBuffer c.id direction r.head buffer length with
      | (none, m) => (.error ⟨.dma .mappingFailed, buffer⟩, c, m)
      | (some addr, m) =>
        let r := r.post buffer addr length
        (.ok (), c.setRing direction r, c.registers.ringDoorbell direction r.head m)

/-- Takes back the oldest transfer of a direction, if the device is done with it. -/
def reclaim (c : Channel β) (direction : Direction) (m : Machine β) :
    Option (Completion β) × Channel β × Machine β :=
  match (c.ring direction).reclaim with
  | (none, r) => (none, c.setRing direction r, m)
  | (some t, r) =>
    (some t.completion, c.setRing direction r,
      m.unmapBuffer c.id direction t.slot.addr t.slot.length (.returned t.index t.control))

/-- The device writes to the descriptors of a channel as it likes. -/
def overwrite (f : Direction → Nat → Descriptor → Descriptor) (c : Channel β) : Channel β :=
  { c with tx := c.tx.overwrite (f .toDevice), rx := c.rx.overwrite (f .fromDevice) }

@[simp] theorem ring_setRing (c : Channel β) (direction : Direction) (r : Ring β) :
    (c.setRing direction r).ring direction = r := by
  cases direction <;> rfl

/-- Taking back a transfer leaves fewer buffers in flight. -/
theorem length_slots_reclaim {c d : Channel β} {direction : Direction} {m n : Machine β}
    {t : Completion β} (h : c.reclaim direction m = (some t, d, n)) :
    (d.ring direction).slots.length < (c.ring direction).slots.length := by
  simp only [reclaim] at h
  split at h
  · simp at h
  next r hr =>
    simp only [Prod.mk.injEq] at h
    obtain ⟨-, rfl, -⟩ := h
    rw [ring_setRing]
    exact Ring.length_slots_reclaim hr

theorem ring_overwrite (c : Channel β) (f : Direction → Nat → Descriptor → Descriptor)
    (d : Direction) : (c.overwrite f).ring d = (c.ring d).overwrite (f d) := by
  cases d <;> rfl

/-- Discards the transfers of both rings. The answer is their number. -/
def resetRings (c : Channel β) (m : Machine β) : Nat × Channel β × Machine β :=
  let (txCount, tx, m) := resetRing c.id .toDevice c.tx m
  let (rxCount, rx, m) := resetRing c.id .fromDevice c.rx m
  (txCount + rxCount, { c with tx := tx, rx := rx }, m)

/-- Replaces both rings by new ones that allow posting if the old ones did. If the new rings cannot
be made, the old ones stay as they are. The answer is the number of discarded transfers. -/
def reloadRings (c : Channel β) (config : Config) (m : Machine β) :
    Except Error Nat × Channel β × Machine β :=
  match buildRings c.id config m with
  | (.error e, m) => (.error e, c, m)
  | (.ok (tx, rx), m) =>
    let (txCount, _, m) := releaseRing c.id .toDevice c.tx m
    let (rxCount, _, m) := releaseRing c.id .fromDevice c.rx m
    (.ok (txCount + rxCount),
      { c with
        tx := tx.setEnabled c.tx.enabled
        rx := rx.setEnabled c.rx.enabled }, m)

/-- The known faults that the device reports for a channel. -/
def errorStatus (c : Channel β) (m : Machine β) : FaultSet × Machine β :=
  let (word, m) := c.registers.read .errorStatus m
  (.ofRegister word, m)

/-- Clears faults that the device reports for a channel. -/
def clearErrors (c : Channel β) (faults : FaultSet) (m : Machine β) : Machine β :=
  c.registers.clearErrors faults.bits m

/-- Holds the channel in its local reset for `us` microseconds. -/
def pulseReset (c : Channel β) (us : Nat) (m : Machine β) : Machine β :=
  c.registers.releaseReset ((c.registers.assertReset m).delay us)

end Channel

end PacketDma
