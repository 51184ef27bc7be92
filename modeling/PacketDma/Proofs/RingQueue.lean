import PacketDma.Ring

/-!
# The queue in a ring

From the tail on, around the ring, the slots of a ring hold the buffers in flight without a gap,
oldest first. Posting appends to this queue, taking back removes its first entry, and nothing the
device writes to a descriptor changes it.

## Implementation notes

The queue is read off the slots alone. Its place and length are tied to the indices by a separate
predicate, so that the indices never enter a statement about buffers.
-/

namespace PacketDma.Ring

variable {β : Type}

/-- What the host remembers of the buffers in flight, oldest first. -/
def queue (r : Ring β) : List (Slot β) :=
  (r.cells.toList.drop r.tail ++ r.cells.toList.take r.tail).filterMap (·.slot)

/-- The place that is `i` places after the tail, around the ring. -/
def place (r : Ring β) (i : Nat) : Nat := (r.tail + i) % r.capacity

/-- The ring carries these buffers: they fill the places from the tail up to the head, in their
order, and every other place is free. -/
structure Carries (r : Ring β) (q : List (Slot β)) : Prop where
  tail_lt : r.tail < r.capacity
  length_lt : q.length < r.capacity
  head_eq : r.head = r.place q.length
  slot_place : ∀ i < r.capacity, (r.cell (r.place i)).slot = q[i]?

/-- The queue holds the slots of the ring, in another order. -/
theorem queue_perm_slots (r : Ring β) : r.queue.Perm r.slots := by
  have h : (r.cells.toList.drop r.tail ++ r.cells.toList.take r.tail).Perm r.cells.toList := by
    apply List.perm_append_comm.trans
    rw [List.take_append_drop]
  exact h.filterMap _

/-- A place is found by going up from the tail or down from the end of the ring. -/
theorem place_eq {r : Ring β} (ht : r.tail < r.capacity) {i : Nat} (hi : i < r.capacity) :
    r.place i = if r.tail + i < r.capacity then r.tail + i else r.tail + i - r.capacity := by
  unfold place
  split
  · next h => exact Nat.mod_eq_of_lt h
  · next h =>
    rw [Nat.mod_eq_sub_mod (Nat.le_of_not_lt h)]
    exact Nat.mod_eq_of_lt (by omega)

theorem place_lt {r : Ring β} (ht : r.tail < r.capacity) (i : Nat) : r.place i < r.capacity :=
  Nat.mod_lt _ (by omega)

/-- Different steps from the tail lead to different places. -/
theorem place_inj {r : Ring β} (ht : r.tail < r.capacity) {i j : Nat} (hi : i < r.capacity)
    (hj : j < r.capacity) : r.place i = r.place j ↔ i = j := by
  rw [place_eq ht hi, place_eq ht hj]
  split <;> split <;> omega

/-- The place after the one at a step is the one at the next step. -/
theorem next_place (r : Ring β) (i : Nat) : r.next (r.place i) = r.place (i + 1) := by
  simp only [next, place, Nat.mod_add_mod, Nat.add_assoc]

@[simp] theorem place_zero {r : Ring β} (ht : r.tail < r.capacity) : r.place 0 = r.tail :=
  Nat.mod_eq_of_lt ht

/-- The places from the tail on, around the ring, are the ring turned by its tail. -/
theorem getElem?_turned {r : Ring β} (ht : r.tail < r.capacity) {i : Nat} (hi : i < r.capacity) :
    (r.cells.toList.drop r.tail ++ r.cells.toList.take r.tail)[i]? =
      some (r.cell (r.place i)) := by
  have hlen : (r.cells.toList.drop r.tail).length = r.capacity - r.tail := by
    simp [capacity]
  have hcell : r.cells[r.place i]? = some (r.cell (r.place i)) := by
    have hlt : r.place i < r.cells.size := place_lt ht i
    simp [cell, hlt]
  rw [← hcell, place_eq ht hi]
  split
  · next h =>
    rw [List.getElem?_append_left (by omega), List.getElem?_drop, Array.getElem?_toList]
  · next h =>
    rw [List.getElem?_append_right (by omega), hlen, List.getElem?_take_of_lt (by omega),
      Array.getElem?_toList]
    congr 1
    omega

/-- Entries that are there up to some point and missing afterwards are collected in full. -/
theorem filterMap_of_getElem? {α γ : Type} (f : α → Option γ) :
    ∀ (l : List α) (q : List γ), q.length ≤ l.length →
      (∀ i < l.length, l[i]?.bind f = q[i]?) → l.filterMap f = q
  | [], q, hq, _ => by
    have : q = [] := List.eq_nil_of_length_eq_zero (by simpa using hq)
    simp [this]
  | a :: l, [], _, h => by
    have ha : f a = none := by simpa using h 0 (by simp)
    have hl : l.filterMap f = [] :=
      filterMap_of_getElem? f l [] (by simp) fun i hi => by
        simpa using h (i + 1) (by simpa using hi)
    simp [ha, hl]
  | a :: l, b :: q, hq, h => by
    have ha : f a = some b := by simpa using h 0 (by simp)
    have hl : l.filterMap f = q :=
      filterMap_of_getElem? f l q (by simpa using hq) fun i hi => by
        simpa using h (i + 1) (by simpa using hi)
    simp [ha, hl]

namespace Carries

variable {r : Ring β} {q : List (Slot β)}

theorem queue_eq (h : r.Carries q) : r.queue = q := by
  have hlen : (r.cells.toList.drop r.tail ++ r.cells.toList.take r.tail).length = r.capacity := by
    have := h.tail_lt
    simp only [List.length_append, List.length_drop, List.length_take, Array.length_toList]
    simp only [capacity] at this ⊢
    omega
  apply filterMap_of_getElem?
  · rw [hlen]
    exact Nat.le_of_lt h.length_lt
  · intro i hi
    rw [hlen] at hi
    rw [getElem?_turned h.tail_lt hi, Option.bind_some, h.slot_place i hi]

theorem head_lt (h : r.Carries q) : r.head < r.capacity := h.head_eq ▸ place_lt h.tail_lt _

/-- The indices count the buffers in flight. -/
theorem length_slots_eq (h : r.Carries q) : r.slots.length = q.length := by
  rw [← r.queue_perm_slots.length_eq, h.queue_eq]

theorem inFlight_eq (h : r.Carries q) : r.inFlight = q.length := by
  have ht := h.tail_lt
  have hq := h.length_lt
  rw [inFlight, h.head_eq, place_eq ht hq]
  split
  · rw [show r.tail + q.length + r.capacity - r.tail = q.length + r.capacity by omega,
      Nat.add_mod_right, Nat.mod_eq_of_lt hq]
  · rw [show r.tail + q.length - r.capacity + r.capacity - r.tail = q.length by omega,
      Nat.mod_eq_of_lt hq]

theorem freeSlots_eq (h : r.Carries q) : r.freeSlots = r.capacity - 1 - q.length := by
  rw [freeSlots, h.inFlight_eq]

theorem isEmpty_iff (h : r.Carries q) : r.isEmpty = true ↔ q = [] := by
  have ht := h.tail_lt
  rw [isEmpty, beq_iff_eq, h.head_eq, ← List.length_eq_zero_iff]
  rw [show r.place q.length = r.tail ↔ r.place q.length = r.place 0 by rw [place_zero ht]]
  exact place_inj ht h.length_lt (by omega)

/-- A ring with room has two free places at least. -/
theorem room (h : r.Carries q) (hf : r.isFull = false) : q.length + 1 < r.capacity := by
  have ht := h.tail_lt
  have hq := h.length_lt
  simp only [isFull, Bool.or_eq_false_iff, beq_eq_false_iff_ne] at hf
  have hne : r.place (q.length + 1) ≠ r.tail := by
    rw [← next_place, ← h.head_eq]
    exact hf.2
  rcases Nat.lt_or_ge (q.length + 1) r.capacity with hlt | hge
  · exact hlt
  · have heq : q.length + 1 = r.capacity := by omega
    have : r.place (q.length + 1) = r.tail := by
      rw [heq, place, Nat.add_mod_right, Nat.mod_eq_of_lt ht]
    exact absurd this hne

/-- The oldest buffer is at the tail. -/
theorem slot_tail {s : Slot β} {rest : List (Slot β)} (h : r.Carries (s :: rest)) :
    (r.cell r.tail).slot = some s := by
  have h0 := h.slot_place 0 (by have := h.tail_lt; omega)
  rwa [place_zero h.tail_lt] at h0

/-- Only the descriptors may differ: a ring with the same indices and slots carries the same. -/
theorem congr {s : Ring β} (h : r.Carries q) (hcap : s.capacity = r.capacity)
    (htail : s.tail = r.tail) (hhead : s.head = r.head)
    (hslot : ∀ i, (s.cell i).slot = (r.cell i).slot) : s.Carries q := by
  have hplace : ∀ i, s.place i = r.place i := fun i => by rw [place, place, hcap, htail]
  constructor
  · rw [htail, hcap]
    exact h.tail_lt
  · rw [hcap]
    exact h.length_lt
  · rw [hhead, hplace]
    exact h.head_eq
  · intro i hi
    rw [hplace, hslot]
    exact h.slot_place i (hcap ▸ hi)

/-- A posted buffer becomes the last of the queue. -/
theorem post (h : r.Carries q) (hf : r.isFull = false) (buffer : β) (addr : BusAddress)
    (length : Nat) : (r.post buffer addr length).Carries (q ++ [⟨buffer, addr, length⟩]) := by
  have ht := h.tail_lt
  have hroom := h.room hf
  have hcap : (r.post buffer addr length).capacity = r.capacity := capacity_setCell r _ _
  have hplace : ∀ i, (r.post buffer addr length).place i = r.place i := fun i => by
    rw [place, place, hcap]
    rfl
  constructor
  · rw [hcap]
    exact ht
  · rw [hcap, List.length_append]
    exact hroom
  · rw [hplace, List.length_append, List.length_singleton, ← next_place, ← h.head_eq]
    rfl
  · intro i hi
    rw [hcap] at hi
    have hcell : (r.post buffer addr length).cell (r.place i) =
        if r.head = r.place i ∧ r.head < r.capacity then
          ⟨.armed r.layout addr length, some ⟨buffer, addr, length⟩⟩
        else r.cell (r.place i) := cell_setCell r _ _ _
    have hat : r.head = r.place i ↔ i = q.length := by
      rw [h.head_eq, place_inj ht h.length_lt hi, eq_comm]
    rw [hplace, hcell]
    by_cases hiq : i = q.length
    · rw [if_pos ⟨hat.mpr hiq, h.head_lt⟩, hiq]
      simp
    · rw [if_neg fun hc => hiq (hat.mp hc.1), h.slot_place i hi]
      rcases Nat.lt_or_gt_of_ne hiq with hlt | hgt
      · rw [List.getElem?_append_left hlt]
      · rw [List.getElem?_eq_none (by omega), List.getElem?_eq_none (by simp; omega)]

/-- Once the first place is cleared, the ring carries the rest of the queue. -/
theorem dropOldest {s : Slot β} {rest : List (Slot β)} (h : r.Carries (s :: rest)) :
    { r.setCell r.tail .empty with tail := r.next r.tail : Ring β }.Carries rest := by
  have ht := h.tail_lt
  have hlen : rest.length + 1 < r.capacity := h.length_lt
  have hnext : r.next r.tail = r.place 1 := by
    rw [← next_place, place_zero ht]
  have hcap : { r.setCell r.tail .empty with tail := r.next r.tail : Ring β }.capacity =
      r.capacity := capacity_setCell r _ _
  have hplace : ∀ i, { r.setCell r.tail .empty with tail := r.next r.tail : Ring β }.place i =
      r.place (i + 1) := fun i => by
    simp only [place] at hnext ⊢
    rw [hcap, hnext, Nat.mod_add_mod, Nat.add_assoc, Nat.add_comm 1 i]
  constructor
  · rw [hcap]
    exact hnext ▸ place_lt ht 1
  · rw [hcap]
    omega
  · rw [hplace]
    exact h.head_eq
  · intro i hi
    rw [hcap] at hi
    have hcell : { r.setCell r.tail .empty with tail := r.next r.tail : Ring β }.cell
        (r.place (i + 1)) =
        if r.tail = r.place (i + 1) ∧ r.tail < r.capacity then .empty
        else r.cell (r.place (i + 1)) := cell_setCell r _ _ _
    rw [hplace, hcell]
    rcases Nat.lt_or_ge (i + 1) r.capacity with hlt | hge
    · have hne : r.tail ≠ r.place (i + 1) := by
        rw [← place_zero ht]
        exact fun hc => absurd ((place_inj ht (by omega) hlt).mp hc) (by omega)
      rw [if_neg fun hc => hne hc.1, h.slot_place _ hlt, List.getElem?_cons_succ]
    · have heq : i + 1 = r.capacity := by omega
      have hturn : r.place (i + 1) = r.tail := by
        rw [heq, place, Nat.add_mod_right, Nat.mod_eq_of_lt ht]
      rw [if_pos ⟨hturn.symm, ht⟩, List.getElem?_eq_none (by omega)]
      rfl

end Carries

section Outcomes

variable {r s : Ring β} {q : List (Slot β)}

/-- What a look at the tail can come to: nothing is in flight or the device is not done, the slot is
missing, or the transfer is taken back. -/
theorem reclaim_cases (r : Ring β) :
    r.reclaim = (none, r) ∨
    (r.isEmpty = false ∧ (r.cell r.tail).slot = none ∧
      r.reclaim = (none, r.setCell r.tail .empty)) ∨
    ∃ t : Reclaimed β, r.isEmpty = false ∧ (r.cell r.tail).slot = some t.slot ∧
      t.completion.buffer = t.slot.buffer ∧
      (t.index = r.tail ∧ t.control = (r.cell r.tail).descriptor.control ∧
        t.control &&& r.layout.own = 0) ∧
      r.reclaim = (some t, { r.setCell r.tail .empty with tail := r.next r.tail }) := by
  cases hempty : r.isEmpty with
  | true => exact .inl (by simp [reclaim, hempty])
  | false =>
    cases howned : (r.cell r.tail).descriptor.isOwned r.layout with
    | true => exact .inl (by simp [reclaim, hempty, howned])
    | false =>
      cases hslot : (r.cell r.tail).slot with
      | none => exact .inr (.inl ⟨rfl, rfl, by simp [reclaim, hempty, howned, hslot]⟩)
      | some slot =>
        refine .inr (.inr ⟨⟨⟨slot.buffer, _, _, _⟩, _, _, slot⟩, rfl, rfl, rfl, ⟨rfl, rfl, ?_⟩,
          by simp only [reclaim, hempty, howned, hslot]; rfl⟩)
        simpa [Descriptor.isOwned] using howned

/-- Taking back a transfer removes the oldest buffer of the queue and hands it over. -/
theorem carries_of_reclaim_some {t : Reclaimed β} (h : r.Carries q)
    (hr : r.reclaim = (some t, s)) :
    ∃ rest, q = t.slot :: rest ∧ s.Carries rest ∧ t.completion.buffer = t.slot.buffer := by
  rcases r.reclaim_cases with h0 | ⟨_, _, h0⟩ | ⟨u, hempty, hslot, hbuffer, _, h0⟩
  · simp [h0] at hr
  · simp [h0] at hr
  · rw [h0] at hr
    obtain ⟨ht, rfl⟩ := Prod.mk.inj hr
    obtain rfl := Option.some.inj ht
    cases q with
    | nil => simp [h.isEmpty_iff.mpr rfl] at hempty
    | cons first rest =>
      obtain rfl : first = u.slot := Option.some.inj (h.slot_tail.symm.trans hslot)
      exact ⟨rest, rfl, h.dropOldest, hbuffer⟩

/-- A ring that gives nothing back stays as it is: its oldest slot is never missing. -/
theorem eq_of_reclaim_none (h : r.Carries q) (hr : r.reclaim = (none, s)) : s = r := by
  rcases r.reclaim_cases with h0 | ⟨hempty, hslot, h0⟩ | ⟨u, _, _, _, _, h0⟩
  · exact (Prod.mk.inj (h0.symm.trans hr)).2.symm
  · cases q with
    | nil => simp [h.isEmpty_iff.mpr rfl] at hempty
    | cons first rest => simp [h.slot_tail] at hslot
  · simp [h0] at hr

/-- The host takes back only what it has read to be its own. The word was in the descriptor at the
place of the buffer, which was the tail. -/
theorem found_of_reclaim_some {t : Reclaimed β} (hr : r.reclaim = (some t, s)) :
    t.index = r.tail ∧ (r.cell r.tail).slot = some t.slot ∧
      t.control = (r.cell r.tail).descriptor.control ∧ t.control &&& r.layout.own = 0 ∧
      s = { r.setCell r.tail .empty with tail := r.next r.tail } := by
  rcases r.reclaim_cases with h0 | ⟨_, _, h0⟩ | ⟨u, _, hslot, _, ⟨hindex, hcontrol, hown⟩, h0⟩
  · simp [h0] at hr
  · simp [h0] at hr
  · rw [h0] at hr
    obtain ⟨ht, rfl⟩ := Prod.mk.inj hr
    obtain rfl := Option.some.inj ht
    exact ⟨hindex, hslot, hcontrol, hown, rfl⟩

theorem layout_reclaim (r : Ring β) : r.reclaim.2.layout = r.layout := by
  rcases r.reclaim_cases with h0 | ⟨_, _, h0⟩ | ⟨u, _, _, _, _, h0⟩ <;> rw [h0] <;> rfl

theorem enabled_reclaim (r : Ring β) : r.reclaim.2.enabled = r.enabled := by
  rcases r.reclaim_cases with h0 | ⟨_, _, h0⟩ | ⟨u, _, _, _, _, h0⟩ <;> rw [h0] <;> rfl

theorem base_reclaim (r : Ring β) : r.reclaim.2.base = r.base := by
  rcases r.reclaim_cases with h0 | ⟨_, _, h0⟩ | ⟨u, _, _, _, _, h0⟩ <;> rw [h0] <;> rfl

theorem head_reclaim (r : Ring β) : r.reclaim.2.head = r.head := by
  rcases r.reclaim_cases with h0 | ⟨_, _, h0⟩ | ⟨u, _, _, _, _, h0⟩ <;> rw [h0] <;> rfl

theorem capacity_reclaim (r : Ring β) : r.reclaim.2.capacity = r.capacity := by
  rcases r.reclaim_cases with h0 | ⟨_, _, h0⟩ | ⟨u, _, _, _, _, h0⟩
  · rw [h0]
  · rw [h0]
    exact r.capacity_setCell r.tail .empty
  · rw [h0]
    exact r.capacity_setCell r.tail .empty

/-- A ring of empty places carries nothing. -/
theorem carries_replicate (layout : DescriptorLayout) {capacity : Nat} (hc : 0 < capacity)
    (enabled : Bool) (base : BusAddress) :
    Carries (⟨layout, Array.replicate capacity .empty, 0, 0, enabled, base⟩ : Ring β) [] := by
  constructor
  · simpa [Ring.capacity] using hc
  · simpa [Ring.capacity] using hc
  · simp [place]
  · intro i hi
    simp only [cell, Array.getElem?_replicate, List.getElem?_nil]
    split <;> rfl

theorem carries_rewind (h : r.Carries q) : r.rewind.Carries [] :=
  carries_replicate r.layout (by have := h.tail_lt; omega) r.enabled r.base

theorem carries_setEnabled (h : r.Carries q) (enabled : Bool) : (r.setEnabled enabled).Carries q :=
  h.congr rfl rfl rfl fun _ => rfl

/-- A new ring is a disabled ring of empty places. -/
theorem eq_of_create?_ok {layout : DescriptorLayout} {capacity maxSize : Nat}
    (h : create? layout capacity maxSize = .ok r) :
    r = ⟨layout, Array.replicate capacity .empty, 0, 0, false, .null⟩ ∧ 0 < capacity := by
  unfold create? at h
  split at h
  · simp at h
  split at h
  · next hsize _ =>
    simp only [minRingSize] at hsize
    exact ⟨(Except.ok.inj h).symm, by omega⟩
  · simp at h

/-- Only a ring that allows posting and has room lets a buffer in. -/
theorem enabled_of_refusal?_none {length : Nat} (h : r.refusal? length = none) :
    r.enabled = true ∧ r.isFull = false := by
  unfold refusal? at h
  split at h
  · simp at h
  split at h
  · simp at h
  next henabled hfull => simpa using And.intro henabled hfull

end Outcomes

section Device

theorem capacity_overwrite (f : Nat → Descriptor → Descriptor) (r : Ring β) :
    (r.overwrite f).capacity = r.capacity := by
  simp [overwrite, capacity]

theorem slot_overwrite (f : Nat → Descriptor → Descriptor) (r : Ring β) (i : Nat) :
    ((r.overwrite f).cell i).slot = (r.cell i).slot := by
  simp only [overwrite, cell, Array.getElem?_mapIdx]
  cases r.cells[i]? <;> rfl

/-- No write of the device changes which buffers are in flight. -/
theorem carries_overwrite {r : Ring β} {q : List (Slot β)} (h : r.Carries q)
    (f : Nat → Descriptor → Descriptor) : (r.overwrite f).Carries q :=
  h.congr (capacity_overwrite f r) rfl rfl (slot_overwrite f r)

/-- A write to one descriptor is a case of it. -/
theorem setDescriptor_eq_overwrite (r : Ring β) (i : Nat) (d : Descriptor) :
    r.setDescriptor i d =
      r.overwrite fun j old => if j = i % r.capacity then d else old := by
  have hcells : (r.setDescriptor i d).cells =
      (r.overwrite fun j old => if j = i % r.capacity then d else old).cells := by
    apply Array.ext_getElem?
    intro j
    simp only [setDescriptor, setCell, overwrite, cell, Array.getElem?_setIfInBounds,
      Array.getElem?_mapIdx]
    by_cases hj : i % r.capacity = j
    · subst hj
      cases h : r.cells[i % r.capacity]? with
      | none => simp [Array.getElem?_eq_none_iff.mp h]
      | some c => simp [(Array.getElem?_eq_some_iff.mp h).1]
    · simp only [if_neg hj, if_neg (Ne.symm hj)]
      cases r.cells[j]? <;> rfl
  exact congrArg (fun cells => { r with cells := cells }) hcells

theorem carries_setDescriptor {r : Ring β} {q : List (Slot β)} (h : r.Carries q) (i : Nat)
    (d : Descriptor) : (r.setDescriptor i d).Carries q := by
  rw [setDescriptor_eq_overwrite]
  exact carries_overwrite h _

/-- Looks at a ring in a row, before each of which the device writes to its descriptors. -/
def looks (writes : List (Nat → Descriptor → Descriptor)) (r : Ring β) : Ring β :=
  writes.foldl (fun r f => (r.overwrite f).reclaim.2) r

/-- The oldest transfer was handed back by the device, but the host has forgotten its buffer. -/
def Misses (r : Ring β) : Prop :=
  r.isEmpty = false ∧ (r.cell r.tail).descriptor.isOwned r.layout = false ∧
    (r.cell r.tail).slot = none

/-- A ring that carries its buffers goes on to do so under looks. -/
theorem carries_looks {r : Ring β} {q : List (Slot β)} (h : r.Carries q)
    (writes : List (Nat → Descriptor → Descriptor)) : ∃ rest, (r.looks writes).Carries rest := by
  induction writes generalizing r q with
  | nil => exact ⟨q, h⟩
  | cons f more ih =>
    have hwritten := carries_overwrite h f
    cases hr : (r.overwrite f).reclaim with
    | mk result s =>
      have hs : ∃ rest, s.Carries rest := by
        cases result with
        | none => exact ⟨q, eq_of_reclaim_none hwritten hr ▸ hwritten⟩
        | some t =>
          obtain ⟨rest, _, hrest, _⟩ := carries_of_reclaim_some hwritten hr
          exact ⟨rest, hrest⟩
      obtain ⟨rest, hrest⟩ := hs
      have hlooks := ih hrest
      rw [looks] at hlooks ⊢
      rw [List.foldl_cons, hr]
      exact hlooks

/-- No look at a ring that carries its buffers finds a slot missing. -/
theorem not_misses {r : Ring β} {q : List (Slot β)} (h : r.Carries q) : ¬ r.Misses := by
  rintro ⟨hempty, _, hslot⟩
  cases q with
  | nil => simp [h.isEmpty_iff.mpr rfl] at hempty
  | cons first rest => simp [h.slot_tail] at hslot

end Device

end PacketDma.Ring
