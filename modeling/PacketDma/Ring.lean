import PacketDma.Bus
import PacketDma.Descriptor
import PacketDma.Error
import PacketDma.Limits
import PacketDma.Storage

/-!
# Descriptor rings

A ring is a circle of descriptors, each with a slot for the buffer it carries. The host fills
the descriptor at `head` and takes back the one at `tail`. One descriptor stays empty, so that
equal indices mean an empty ring. Filling and taking back leave buffers in their order.
-/

namespace PacketDma

/-- What the host remembers of a posted buffer. -/
structure Slot (β : Type) where
  /-- The buffer. -/
  buffer : β
  /-- Where the device finds it. -/
  addr : BusAddress
  /-- The length it was posted with. -/
  length : Nat
  deriving DecidableEq

/-- One place of a ring: a descriptor, and the buffer it carries while it is in flight. -/
structure RingCell (β : Type) where
  /-- The descriptor, shared with the device. -/
  descriptor : Descriptor
  /-- The buffer in flight, if there is one. -/
  slot : Option (Slot β)
  deriving DecidableEq

/-- The empty place of a ring. -/
def RingCell.empty {β : Type} : RingCell β := ⟨.zero, none⟩

/-- A finished transfer. -/
structure Completion (β : Type) where
  /-- The buffer that was posted. -/
  buffer : β
  /-- The length that the device reports. -/
  length : Nat
  /-- The error bits that the device reports. -/
  status : UInt32
  /-- The time that the device recorded, if it did. -/
  timestamp : Option UInt64
  deriving DecidableEq

/-- Whether the device reports an error. -/
def Completion.isError {β : Type} (c : Completion β) : Bool := c.status != 0

/-- A descriptor taken back from the device: the transfer, and what it is known by to the host. -/
structure Reclaimed (β : Type) where
  /-- The finished transfer. -/
  completion : Completion β
  /-- The place of the descriptor. -/
  index : Nat
  /-- The control word in which the host read that the descriptor was its own. -/
  control : UInt32
  /-- What the host remembered of the buffer. -/
  slot : Slot β
  deriving DecidableEq

/-- A ring of descriptors. -/
structure Ring (β : Type) where
  /-- How the descriptors are laid out. -/
  layout : DescriptorLayout
  /-- The places of the ring. There are none once the ring is released. -/
  cells : Array (RingCell β)
  /-- The place to fill next. -/
  head : Nat
  /-- The place to take back next. -/
  tail : Nat
  /-- Whether buffers may be posted. -/
  enabled : Bool
  /-- Where the device finds the descriptors. -/
  base : BusAddress
  deriving DecidableEq

namespace Ring

variable {β : Type}

/-- A disabled ring of empty places that the device does not know yet. It fails if the size is not
allowed or there is no room for the descriptors. -/
def create? (layout : DescriptorLayout) (capacity maxSize : Nat) : Except Error (Ring β) :=
  if capacity < minRingSize ∨ maxSize < capacity then .error (.config .invalidCapacity)
  else if Storage.holds capacity Descriptor.bytes then
    .ok ⟨layout, Array.replicate capacity .empty, 0, 0, false, .null⟩
  else .error (.dma .allocationFailed)

/-- The number of places. -/
def capacity (r : Ring β) : Nat := r.cells.size

/-- The place at an index. There is only the empty place beyond the ring. -/
def cell (r : Ring β) (i : Nat) : RingCell β := r.cells[i]?.getD .empty

/-- Changes the place at an index of the ring. -/
def setCell (r : Ring β) (i : Nat) (c : RingCell β) : Ring β :=
  { r with cells := r.cells.setIfInBounds i c }

/-- The index after `i`, around the ring. -/
def next (r : Ring β) (i : Nat) : Nat := (i + 1) % r.capacity

/-- The number of transfers in flight. -/
def inFlight (r : Ring β) : Nat := (r.head + r.capacity - r.tail) % r.capacity

/-- Whether no transfer is in flight. -/
def isEmpty (r : Ring β) : Bool := r.head == r.tail

/-- Whether no buffer can be posted. A released ring is full. -/
def isFull (r : Ring β) : Bool := r.capacity == 0 || r.next r.head == r.tail

/-- The number of buffers that can be posted. -/
def freeSlots (r : Ring β) : Nat := r.capacity - 1 - r.inFlight

/-- Allows or refuses the posting of buffers. -/
def setEnabled (r : Ring β) (enabled : Bool) : Ring β := { r with enabled := enabled }

/-- Why a buffer of some length cannot be posted, if it cannot. -/
def refusal? (r : Ring β) (length : Nat) : Option Error :=
  if !r.enabled then some (.io .invalidState)
  else if r.isFull then some (.dma .resourceExhausted)
  else if length = 0 ∨ r.layout.maxLength < length then some (.dma .invalidLength)
  else none

/-- Posts a buffer that the device finds at `addr`. -/
def post (r : Ring β) (buffer : β) (addr : BusAddress) (length : Nat) : Ring β :=
  { r.setCell r.head ⟨.armed r.layout addr length, some ⟨buffer, addr, length⟩⟩ with
    head := r.next r.head }

/-- Takes back the oldest transfer if the device is done with it. -/
def reclaim (r : Ring β) : Option (Reclaimed β) × Ring β :=
  if r.isEmpty then (none, r)
  else
    let c := r.cell r.tail
    if c.descriptor.isOwned r.layout then (none, r)
    else
      match c.slot with
      | none => (none, r.setCell r.tail .empty)
      | some slot =>
        let completion : Completion β :=
          { buffer := slot.buffer
            length := c.descriptor.length r.layout
            status := c.descriptor.errorBits r.layout
            timestamp := c.descriptor.timestamp? r.layout }
        (some ⟨completion, r.tail, c.descriptor.control, slot⟩,
          { r.setCell r.tail .empty with tail := r.next r.tail })

/-- What the host remembers of the buffers in flight, in the order of their places. -/
def slots (r : Ring β) : List (Slot β) := r.cells.toList.filterMap (·.slot)

/-- Empties a ring: every place is cleared, and filling starts again at the first. -/
def rewind (r : Ring β) : Ring β :=
  { r with cells := Array.replicate r.capacity .empty, head := 0, tail := 0 }

/-- Gives up the descriptors of a ring. Nothing can be posted afterwards. -/
def release (r : Ring β) : Ring β :=
  { r with cells := #[], head := 0, tail := 0, enabled := false, base := .null }

/-- The descriptor at an index, around the ring, as the device sees it. -/
def descriptor (r : Ring β) (i : Nat) : Descriptor := (r.cell (i % r.capacity)).descriptor

/-- The device changes the descriptor at an index, around the ring. -/
def setDescriptor (r : Ring β) (i : Nat) (d : Descriptor) : Ring β :=
  let i := i % r.capacity
  r.setCell i { r.cell i with descriptor := d }

/-- The device writes to descriptors as it likes. -/
def overwrite (f : Nat → Descriptor → Descriptor) (r : Ring β) : Ring β :=
  { r with cells := r.cells.mapIdx fun i c => { c with descriptor := f i c.descriptor } }

theorem capacity_setCell (r : Ring β) (i : Nat) (c : RingCell β) :
    (r.setCell i c).capacity = r.capacity := by
  simp [setCell, capacity]

theorem cell_setCell (r : Ring β) (i j : Nat) (c : RingCell β) :
    (r.setCell i c).cell j = if i = j ∧ i < r.capacity then c else r.cell j := by
  simp only [setCell, cell, capacity, Array.getElem?_setIfInBounds]
  by_cases hij : i = j
  · subst hij
    by_cases hi : i < r.cells.size
    · simp [hi]
    · simp [hi]
  · simp [hij]

theorem length_filterMap_set_lt {α γ : Type} (f : α → Option γ) {l : List α} {i : Nat} {a b : α}
    (ha : l[i]? = some a) (hf : (f a).isSome) (hb : f b = none) :
    ((l.set i b).filterMap f).length < (l.filterMap f).length := by
  induction l generalizing i with
  | nil => simp at ha
  | cons x rest ih =>
    cases i with
    | zero =>
      obtain rfl : x = a := by simpa using ha
      obtain ⟨y, hy⟩ := Option.isSome_iff_exists.mp hf
      simp [hb, hy]
    | succ i =>
      have := ih (by simpa using ha)
      cases hx : f x <;> simp [hx] <;> omega

/-- Taking back a transfer leaves fewer buffers in flight. -/
theorem length_slots_reclaim {r s : Ring β} {t : Reclaimed β} (h : r.reclaim = (some t, s)) :
    s.slots.length < r.slots.length := by
  simp only [reclaim] at h
  split at h
  · simp at h
  split at h
  · simp at h
  split at h
  · simp at h
  next slot hslot =>
    obtain ⟨-, rfl⟩ := Prod.mk.inj h
    cases hcell : r.cells[r.tail]? with
    | none => simp [cell, hcell, RingCell.empty] at hslot
    | some c =>
      have hc : c.slot = some slot := by simpa [cell, hcell] using hslot
      simp only [slots, setCell, Array.toList_setIfInBounds]
      exact length_filterMap_set_lt _ (by simpa using hcell) (by simp [hc]) rfl

theorem slots_overwrite (f : Nat → Descriptor → Descriptor) (r : Ring β) :
    (r.overwrite f).slots = r.slots := by
  have h : (r.overwrite f).cells.toList.map (·.slot) = r.cells.toList.map (·.slot) := by
    apply List.ext_getElem?
    intro i
    simp only [overwrite, Array.toList_mapIdx, List.getElem?_map, List.getElem?_mapIdx]
    cases r.cells.toList[i]? <;> rfl
  have h' := congrArg (List.filterMap id) h
  rw [List.filterMap_map, List.filterMap_map] at h'
  exact h'

end Ring

end PacketDma
