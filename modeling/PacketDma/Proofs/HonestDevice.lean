import PacketDma.Channel
import PacketDma.Proofs.RingQueue

/-!
# A ring under an honest device

An honest device writes to the descriptors that it owns and to no others. Whatever it writes there,
and in whatever order it takes turns with the host, the places in flight stay between the tail and
the head, and every other place stays blank.

## Implementation notes

A turn is one operation of the host or one write of the device, so that a run is a list of turns. A
write to a descriptor of the host is a turn that does nothing. What the mapper answers is part of
the turn that posts a buffer. The interval between the indices is read off the indices alone; that
it is where the slots are is a result.
-/

namespace PacketDma.Ring

variable {β : Type}

/-- One turn of the host or of the device. -/
inductive Turn (β : Type) where
  /-- The host posts a buffer, for which the mapper has an address or none. -/
  | offer (buffer : β) (addr? : Option BusAddress) (length : Nat)
  /-- The host looks for a finished transfer. -/
  | reclaim
  /-- The host empties the ring. -/
  | rewind
  /-- The host allows or refuses the posting of buffers. -/
  | setEnabled (enabled : Bool)
  /-- The device writes to a descriptor. -/
  | write (i : Nat) (d : Descriptor)

/-- What a turn does to a ring. -/
def Turn.perform : Turn β → Ring β → Ring β
  | .offer buffer addr? length, r =>
    match r.refusal? length, addr? with
    | none, some addr => r.post buffer addr length
    | _, _ => r
  | .reclaim, r => r.reclaim.2
  | .rewind, r => r.rewind
  | .setEnabled enabled, r => r.setEnabled enabled
  | .write i d, r => if (r.descriptor i).isOwned r.layout then r.setDescriptor i d else r

/-- The ring after some turns. -/
def after (turns : List (Turn β)) (r : Ring β) : Ring β := turns.foldl (fun r t => t.perform r) r

/-- An index lies between the tail and the head, around the ring. -/
def Spans (r : Ring β) (i : Nat) : Prop :=
  if r.tail ≤ r.head then r.tail ≤ i ∧ i < r.head else r.tail ≤ i ∨ i < r.head

/-- The number of places with a buffer in flight. -/
def occupancy (r : Ring β) : Nat := r.cells.countP (·.slot.isSome)

/-- The number of descriptors that the device may act on. -/
def owned (r : Ring β) : Nat := r.cells.countP (·.descriptor.isOwned r.layout)

/-- The ring carries these buffers, and the places without one are blank. -/
structure Clean (r : Ring β) (q : List (Slot β)) : Prop extends r.Carries q where
  blank : ∀ i, (r.cell i).slot = none → r.cell i = .empty

/-- What holds of a ring whose device is honest. -/
structure Orderly (r : Ring β) : Prop where
  head_lt : r.head < r.capacity
  tail_lt : r.tail < r.capacity
  /-- The places with a buffer are those between the indices. -/
  occupied_iff : ∀ i < r.capacity, (r.cell i).slot.isSome = true ↔ r.Spans i
  /-- Elsewhere the descriptors are zero and belong to the host. -/
  zero_outside : ∀ i < r.capacity, ¬ r.Spans i →
    r.descriptor i = .zero ∧ (r.descriptor i).isOwned r.layout = false
  inFlight_eq : r.inFlight = r.occupancy
  inFlight_add : r.inFlight + r.freeSlots = r.capacity - 1
  isFull_iff : r.isFull = true ↔ r.freeSlots = 0
  isEmpty_iff : r.isEmpty = true ↔ r.inFlight = 0
  owned_le : r.owned ≤ r.capacity - 1
  head_free : (r.descriptor r.head).isOwned r.layout = false
  /-- The transfer that is handed over was at the tail, and the device was done with it. -/
  reclaim_free : ∀ t s, r.reclaim = (some t, s) →
    (r.cell r.tail).slot = some t.slot ∧ (r.descriptor r.tail).isOwned r.layout = false
  /-- Emptying the ring answers how many transfers were in flight. -/
  discarded_eq : ∀ channel direction m,
    (Channel.resetRing channel direction r m).1 = r.inFlight
  /-- A ring that was emptied is blank. -/
  reset_blank : ∀ channel direction m i,
    (Channel.resetRing channel direction r m).2.1.cell i = .empty

theorem isOwned_zero (l : DescriptorLayout) : Descriptor.zero.isOwned l = false := by
  simp [Descriptor.isOwned, Descriptor.zero]

theorem descriptor_eq {r : Ring β} {i : Nat} (hi : i < r.capacity) :
    r.descriptor i = (r.cell i).descriptor := by
  rw [descriptor, Nat.mod_eq_of_lt hi]

theorem cell_rewind (r : Ring β) (i : Nat) : r.rewind.cell i = .empty := by
  simp only [cell, rewind, Array.getElem?_replicate]
  split <;> rfl

/-- The slots that are there are as many as the places that have one. -/
theorem length_slots (r : Ring β) : r.slots.length = r.occupancy := by
  rw [slots, List.length_filterMap_eq_countP, occupancy, ← Array.countP_toList]

/-- What is handed over was at the tail, in a descriptor of the host. -/
theorem tail_of_reclaim_some {r s : Ring β} {t : Reclaimed β} (h : r.reclaim = (some t, s)) :
    (r.cell r.tail).slot = some t.slot ∧
      (r.cell r.tail).descriptor.isOwned r.layout = false := by
  obtain ⟨-, hslot, hcontrol, hown, -⟩ := found_of_reclaim_some h
  refine ⟨hslot, ?_⟩
  rw [Descriptor.isOwned, ← hcontrol, hown]
  rfl

namespace Carries

variable {r : Ring β} {q : List (Slot β)}

/-- Every place is some number of steps from the tail. -/
theorem exists_place (h : r.Carries q) {i : Nat} (hi : i < r.capacity) :
    ∃ j < r.capacity, r.place j = i := by
  have ht := h.tail_lt
  rcases Nat.lt_or_ge i r.tail with hlt | hge
  · refine ⟨i + r.capacity - r.tail, by omega, ?_⟩
    rw [place_eq ht (by omega), if_neg (by omega)]
    omega
  · refine ⟨i - r.tail, by omega, ?_⟩
    rw [place_eq ht (by omega), if_pos (by omega)]
    omega

/-- The places between the indices are those of the queue. -/
theorem spans_place (h : r.Carries q) {j : Nat} (hj : j < r.capacity) :
    r.Spans (r.place j) ↔ j < q.length := by
  have ht := h.tail_lt
  have hq := h.length_lt
  have hhead := h.head_eq
  rw [place_eq ht hq] at hhead
  rw [Spans, hhead, place_eq ht hj]
  split <;> split <;> split <;> omega

theorem occupied_iff (h : r.Carries q) {i : Nat} (hi : i < r.capacity) :
    (r.cell i).slot.isSome = true ↔ r.Spans i := by
  obtain ⟨j, hj, rfl⟩ := h.exists_place hi
  rw [h.spans_place hj, h.slot_place j hj]
  simp

/-- Without room, the queue fills every place but one. -/
theorem isFull_iff (h : r.Carries q) : r.isFull = true ↔ q.length + 1 = r.capacity := by
  have ht := h.tail_lt
  constructor
  · intro hfull
    simp only [isFull, Bool.or_eq_true, beq_iff_eq] at hfull
    have hnext : r.place (q.length + 1) = r.tail := by
      rw [← next_place, ← h.head_eq]
      exact hfull.resolve_left (by omega)
    rcases Nat.lt_or_ge (q.length + 1) r.capacity with hlt | hge
    · rw [← place_zero ht, place_inj ht hlt (by omega)] at hnext
      omega
    · have := h.length_lt
      omega
  · intro hlength
    cases hfull : r.isFull with
    | true => rfl
    | false =>
      have := h.room hfull
      omega

end Carries

namespace Clean

variable {r : Ring β} {q : List (Slot β)}

/-- A ring whose indices and cells are as before carries the same, and is as blank. -/
theorem setEnabled (h : r.Clean q) (enabled : Bool) : (r.setEnabled enabled).Clean q :=
  ⟨carries_setEnabled h.toCarries enabled, h.blank⟩

theorem rewind (h : r.Clean q) : r.rewind.Clean [] :=
  ⟨carries_rewind h.toCarries, fun i _ => r.cell_rewind i⟩

theorem post (h : r.Clean q) (hf : r.isFull = false) (buffer : β) (addr : BusAddress)
    (length : Nat) : (r.post buffer addr length).Clean (q ++ [⟨buffer, addr, length⟩]) where
  toCarries := h.toCarries.post hf buffer addr length
  blank i hi := by
    have hcell : (r.post buffer addr length).cell i =
        if r.head = i ∧ r.head < r.capacity then
          ⟨.armed r.layout addr length, some ⟨buffer, addr, length⟩⟩
        else r.cell i := cell_setCell r _ _ _
    rw [hcell] at hi ⊢
    split at hi
    · simp at hi
    next hne =>
      rw [if_neg hne]
      exact h.blank i hi

/-- Looking for a finished transfer leaves the ring clean: what is taken back is cleared. -/
theorem reclaim (h : r.Clean q) : ∃ rest, r.reclaim.2.Clean rest := by
  cases hr : r.reclaim with
  | mk result s =>
    cases result with
    | none => exact ⟨q, eq_of_reclaim_none h.toCarries hr ▸ h⟩
    | some t =>
      obtain ⟨rest, -, hrest, -⟩ := carries_of_reclaim_some h.toCarries hr
      refine ⟨rest, hrest, fun i hi => ?_⟩
      rcases r.reclaim_cases with h0 | ⟨-, -, h0⟩ | ⟨u, -, -, -, -, h0⟩
      · simp [h0] at hr
      · simp [h0] at hr
      · obtain rfl : { r.setCell r.tail .empty with tail := r.next r.tail } = s := by
          rw [h0] at hr
          exact (Prod.mk.inj hr).2
        have hcell : { r.setCell r.tail .empty with tail := r.next r.tail : Ring β }.cell i =
            if r.tail = i ∧ r.tail < r.capacity then .empty else r.cell i := cell_setCell r _ _ _
        rw [hcell] at hi ⊢
        split at hi
        next heq => rw [if_pos heq]
        next hne =>
          rw [if_neg hne]
          exact h.blank i hi

/-- An owned descriptor is not blank, so a write to it reaches a place in flight. -/
theorem setDescriptor (h : r.Clean q) {i : Nat} (howned : (r.descriptor i).isOwned r.layout = true)
    (d : Descriptor) : (r.setDescriptor i d).Clean q where
  toCarries := carries_setDescriptor h.toCarries i d
  blank j hj := by
    have hcell : (r.setDescriptor i d).cell j =
        if i % r.capacity = j ∧ i % r.capacity < r.capacity then
          { r.cell (i % r.capacity) with descriptor := d }
        else r.cell j := cell_setCell r _ _ _
    rw [hcell] at hj ⊢
    split at hj
    · have hblank := h.blank _ hj
      rw [descriptor, hblank, RingCell.empty, isOwned_zero] at howned
      cases howned
    next hne =>
      rw [if_neg hne]
      exact h.blank j hj

theorem perform (h : r.Clean q) (t : Turn β) : ∃ rest, (t.perform r).Clean rest := by
  cases t with
  | offer buffer addr? length =>
    simp only [Turn.perform]
    split
    next hrefusal => exact ⟨_, h.post (enabled_of_refusal?_none hrefusal).2 buffer _ length⟩
    · exact ⟨q, h⟩
  | reclaim => exact h.reclaim
  | rewind => exact ⟨[], h.rewind⟩
  | setEnabled enabled => exact ⟨q, h.setEnabled enabled⟩
  | write i d =>
    simp only [Turn.perform]
    split
    next howned => exact ⟨q, h.setDescriptor howned d⟩
    · exact ⟨q, h⟩

/-- Any run of the host and an honest device leaves the ring clean. -/
theorem after (h : r.Clean q) (turns : List (Turn β)) : ∃ rest, (r.after turns).Clean rest := by
  induction turns generalizing r q with
  | nil => exact ⟨q, h⟩
  | cons t rest ih =>
    obtain ⟨q', h'⟩ := h.perform t
    exact ih h'

/-- A descriptor of the device belongs to a buffer in flight. -/
theorem isSome_of_isOwned (h : r.Clean q) {i : Nat}
    (howned : (r.cell i).descriptor.isOwned r.layout = true) : (r.cell i).slot.isSome = true := by
  cases hslot : (r.cell i).slot with
  | some s => rfl
  | none =>
    rw [h.blank i hslot, RingCell.empty, isOwned_zero] at howned
    cases howned

theorem owned_le_occupancy (h : r.Clean q) : r.owned ≤ r.occupancy := by
  rw [owned, occupancy]
  apply Array.countP_mono_left
  intro c hc howned
  obtain ⟨i, hi, rfl⟩ := Array.mem_iff_getElem.mp hc
  have hcell : r.cell i = r.cells[i] := by simp [cell, hi]
  rw [← hcell] at howned ⊢
  exact h.isSome_of_isOwned howned

/-- All that is said of an honest device follows from the queue and from the blank places. -/
theorem orderly (h : r.Clean q) : r.Orderly := by
  have hc := h.toCarries
  have hlen := hc.length_lt
  have hin := hc.inFlight_eq
  have hocc : r.occupancy = q.length := r.length_slots ▸ hc.length_slots_eq
  have hfree := hc.freeSlots_eq
  have hcellOutside : ∀ i < r.capacity, ¬ r.Spans i → r.cell i = .empty := fun i hi hspans =>
    h.blank i (Option.not_isSome_iff_eq_none.mp fun hsome => hspans ((hc.occupied_iff hi).mp hsome))
  have hhead : ¬ r.Spans r.head := by
    rw [Spans]
    split <;> omega
  exact
    { head_lt := hc.head_lt
      tail_lt := hc.tail_lt
      occupied_iff := fun i hi => hc.occupied_iff hi
      zero_outside := fun i hi hspans => by
        rw [descriptor_eq hi, hcellOutside i hi hspans]
        exact ⟨rfl, isOwned_zero _⟩
      inFlight_eq := by omega
      inFlight_add := by omega
      isFull_iff := by
        rw [hc.isFull_iff]
        omega
      isEmpty_iff := by rw [hc.isEmpty_iff, hin, List.length_eq_zero_iff]
      owned_le := by
        have := h.owned_le_occupancy
        omega
      head_free := by
        rw [descriptor_eq hc.head_lt, hcellOutside _ hc.head_lt hhead]
        exact isOwned_zero _
      reclaim_free := fun t s hr => by
        rw [descriptor_eq hc.tail_lt]
        exact tail_of_reclaim_some hr
      discarded_eq := fun _ _ _ => hc.length_slots_eq.trans hin.symm
      reset_blank := fun _ _ _ => r.cell_rewind }

end Clean

theorem layout_perform (t : Turn β) (r : Ring β) : (t.perform r).layout = r.layout := by
  cases t with
  | offer buffer addr? length =>
    simp only [Turn.perform]
    split <;> rfl
  | reclaim => exact r.layout_reclaim
  | rewind => rfl
  | setEnabled enabled => rfl
  | write i d =>
    simp only [Turn.perform]
    split <;> rfl

theorem capacity_perform (t : Turn β) (r : Ring β) : (t.perform r).capacity = r.capacity := by
  cases t with
  | offer buffer addr? length =>
    simp only [Turn.perform]
    split
    · exact capacity_setCell r _ _
    · rfl
  | reclaim => exact r.capacity_reclaim
  | rewind => exact Array.size_replicate
  | setEnabled enabled => rfl
  | write i d =>
    simp only [Turn.perform]
    split
    · exact capacity_setCell r _ _
    · rfl

/-- A run changes neither how descriptors are laid out nor how many there are. -/
theorem shape_after (turns : List (Turn β)) (r : Ring β) :
    (r.after turns).layout = r.layout ∧ (r.after turns).capacity = r.capacity := by
  induction turns generalizing r with
  | nil => exact ⟨rfl, rfl⟩
  | cons t rest ih =>
    have := ih (t.perform r)
    rwa [layout_perform, capacity_perform] at this

/-- A new ring is clean. -/
theorem clean_of_create?_ok {layout : DescriptorLayout} {capacity maxSize : Nat} {r : Ring β}
    (h : create? layout capacity maxSize = .ok r) (base : BusAddress) :
    { r with base := base }.Clean [] := by
  obtain ⟨rfl, hcap⟩ := eq_of_create?_ok h
  refine ⟨carries_replicate layout hcap false base, fun i _ => ?_⟩
  simp only [cell, Array.getElem?_replicate]
  split <;> rfl

/-- As long as the device is honest, a ring stays orderly: whatever the layout, the size and the
place of a new ring, and whatever turns the host and the device have taken since. -/
theorem orderly_of_honest {layout : DescriptorLayout} {capacity maxSize : Nat} {r : Ring β}
    (h : create? layout capacity maxSize = .ok r) (base : BusAddress) (turns : List (Turn β)) :
    ({ r with base := base }.after turns).layout = layout ∧
      ({ r with base := base }.after turns).capacity = capacity ∧
      ({ r with base := base }.after turns).Orderly := by
  obtain ⟨q, hq⟩ := (clean_of_create?_ok h base).after turns
  obtain ⟨hlayout, hcapacity⟩ := shape_after turns { r with base := base }
  obtain ⟨rfl, -⟩ := eq_of_create?_ok h
  exact ⟨hlayout, hcapacity.trans Array.size_replicate, hq.orderly⟩

/-- Three buffers for a ring of three places, which takes two. The device finishes the first and
tries to write to its descriptor once more. -/
def honestTrip : List (Turn Nat) :=
  let done : Descriptor := (Descriptor.armed .standard .null 64).complete .standard 60 0 none
  [.setEnabled true, .offer 1 (some .null) 64, .offer 2 (some .null) 64, .offer 3 (some .null) 64,
    .reclaim, .write 0 done, .write 0 default, .reclaim, .offer 3 (some .null) 64]

theorem orderly_of_honest_trip : ∃ r : Ring Nat, create? .standard 3 8 = .ok r ∧
    (r.after honestTrip).inFlight = 2 ∧ (r.after honestTrip).tail = 1 ∧
    (r.after honestTrip).Orderly := by
  have hmade : (create? .standard 3 8 : Except Error (Ring Nat)) =
      .ok ⟨.standard, Array.replicate 3 .empty, 0, 0, false, .null⟩ := rfl
  exact ⟨_, hmade, by decide +kernel, by decide +kernel,
    (orderly_of_honest hmade .null honestTrip).2.2⟩

end PacketDma.Ring

namespace PacketDma.Channel

variable {β : Type}

/-- A channel with rings posts a buffer as its ring is offered it: with the mapper's answer. -/
theorem ring_enqueue {c : Channel β} (hinit : c.initialized = true) (direction : Direction)
    (buffer : β) (length : Nat) (m : Machine β) :
    (c.enqueue direction buffer length m).2.1.ring direction =
      (Ring.Turn.offer buffer
        (m.mapBuffer c.id direction (c.ring direction).head buffer length).1 length).perform
          (c.ring direction) := by
  simp only [enqueue, hinit, Ring.Turn.perform]
  cases hrefusal : (c.ring direction).refusal? length with
  | some e => rfl
  | none =>
    rcases m.mapBuffer c.id direction (c.ring direction).head buffer length with ⟨_ | addr, m'⟩
    · rfl
    · exact ring_setRing c direction _

/-- A channel looks for a finished transfer as its ring does. -/
theorem ring_reclaim (c : Channel β) (direction : Direction) (m : Machine β) :
    (c.reclaim direction m).2.1.ring direction =
      (Ring.Turn.reclaim : Ring.Turn β).perform (c.ring direction) := by
  rw [reclaim, Ring.Turn.perform]
  rcases (c.ring direction).reclaim with ⟨_ | t, r⟩ <;> exact ring_setRing c direction _

/-- A channel whose rings are orderly empties both, and answers how many transfers were in
flight. -/
theorem resetRings_of_orderly {c : Channel β} (htx : c.tx.Orderly) (hrx : c.rx.Orderly)
    (m : Machine β) :
    (c.resetRings m).1 = c.tx.inFlight + c.rx.inFlight ∧
      ∀ direction, (c.resetRings m).2.1.ring direction =
        (Ring.Turn.rewind : Ring.Turn β).perform (c.ring direction) := by
  constructor
  · rw [← htx.discarded_eq c.id .toDevice m, ← hrx.discarded_eq c.id .fromDevice m]
    rfl
  · intro direction
    cases direction <;> rfl

end PacketDma.Channel
