import Mathlib.Data.List.Infix
import PacketDma.Proofs.HonestDevice
import PacketDma.Proofs.LengthField

/-!
# Decoding a completion

The device reports a finished transfer in the words of the descriptor that it was handed. However
the fields of these words are laid out, the host reads the length, the error bits and the time that
were reported, and nothing else: no flag, no bit of another field, and nothing that the place of the
ring held before.

## Implementation notes

The place of a transfer is followed through the turns of the host and the device, from the post that
arms its descriptor to the look that takes it back. The tail tells when that look comes.
-/

namespace PacketDma

/-! ### Flags -/

namespace DescriptorLayout

variable {l : DescriptorLayout}

theorem own_ne_zero (h : l.isConsistent = true) : l.own ≠ 0 := by
  simp only [isConsistent, flagsDisjoint, Bool.and_eq_true, bne_iff_ne] at h
  exact h.1.1.1.1

theorem statusErrorMask_and_tsValid (h : l.isConsistent = true) :
    l.statusErrorMask &&& l.tsValid = 0 := by
  simp only [isConsistent, Bool.and_eq_true, beq_iff_eq] at h
  exact h.2

theorem lengthField_and_own (h : l.isConsistent = true) : l.lengthField &&& l.own = 0 := by
  have hflags := lengthField_and_armedFlags h
  rw [armedFlags, and_or_distrib_left, UInt32.or_eq_zero_iff] at hflags
  exact hflags.2

end DescriptorLayout

/-! ### Descriptors -/

namespace Descriptor

open DescriptorLayout

variable {l : DescriptorLayout} (d : Descriptor) (addr : BusAddress) (length reported : Nat)
  (status : UInt32) (ts : Option UInt64)

/-- A descriptor that was armed belongs to the device. -/
theorem isOwned_armed (h : l.isConsistent = true) : (armed l addr length).isOwned l = true := by
  rw [isOwned, bne_iff_ne]
  intro hzero
  rw [armed, UInt32.and_comm, and_or_distrib_left, UInt32.and_self, UInt32.or_eq_zero_iff] at hzero
  exact own_ne_zero h hzero.2

theorem addr_armed : (armed l addr length).addr = addr := addr.ofWords_low_high

theorem addr_complete : (d.complete l reported status ts).addr = d.addr := by
  cases ts <;> rfl

/-- A descriptor that was completed belongs to the host. -/
theorem isOwned_complete : (d.complete l reported status ts).isOwned l = false := by
  rw [isOwned, bne_eq_false_iff_eq, complete, UInt32.and_assoc, UInt32.not_and_self,
    UInt32.and_zero]

/-- No error bit reports a time, so that error bits come through whether a time was recorded or
not. -/
theorem errorBits_complete (h : l.isConsistent = true) :
    (d.complete l reported status ts).errorBits l = status &&& l.statusErrorMask := by
  have hmask := statusErrorMask_and_tsValid h
  have hcleared :
      (status &&& ~~~l.tsValid) &&& l.statusErrorMask = status &&& l.statusErrorMask := by
    rw [UInt32.and_assoc, UInt32.and_comm _ l.statusErrorMask, and_not_of_and_eq_zero hmask]
  cases ts with
  | none => exact hcleared
  | some t =>
    show ((status &&& ~~~l.tsValid) ||| l.tsValid) &&& l.statusErrorMask = _
    rw [UInt32.and_comm, and_or_distrib_left, hmask, UInt32.or_zero, UInt32.and_comm, hcleared]

/-- A time is read exactly if one was recorded and the layout has a bit to tell of it. -/
theorem timestamp?_complete :
    (d.complete l reported status ts).timestamp? l = if l.tsValid = 0 then none else ts := by
  rw [timestamp?]
  cases ts with
  | none =>
    have hzero : (d.complete l reported status none).status &&& l.tsValid = 0 := by
      show (status &&& ~~~l.tsValid) &&& l.tsValid = 0
      rw [UInt32.and_assoc, UInt32.not_and_self, UInt32.and_zero]
    rw [if_pos hzero, ite_self]
  | some t =>
    have hvalid : (d.complete l reported status (some t)).status &&& l.tsValid = l.tsValid := by
      show ((status &&& ~~~l.tsValid) ||| l.tsValid) &&& l.tsValid = l.tsValid
      rw [UInt32.and_comm, and_or_distrib_left, UInt32.and_self, UInt32.and_comm, UInt32.and_assoc,
        UInt32.not_and_self, UInt32.and_zero, UInt32.zero_or]
    rw [hvalid]
    exact congrArg (ite (l.tsValid = 0) none) (congrArg some (or_halves t))

/-- The length that the device reports is cut to the bits that come through. -/
theorem length_complete (h : l.isConsistent = true) (hshift : l.lenShift.toNat < 32) :
    ((armed l addr length).complete l reported status ts).length l =
      reported &&& l.carriedBits.toNat := by
  have hflags : l.lengthField &&& (~~~l.own &&& l.armedFlags) = 0 := by
    rw [UInt32.and_comm (~~~l.own), ← UInt32.and_assoc, lengthField_and_armedFlags h,
      UInt32.zero_and]
  have hlength : ~~~l.own &&& l.encodeLength reported = l.encodeLength reported := by
    rw [← encodeLength_and_lengthField, UInt32.and_comm, UInt32.and_assoc,
      and_not_of_and_eq_zero (lengthField_and_own h)]
  have hcontrol : ((armed l addr length).complete l reported status ts).control =
      (~~~l.own &&& l.armedFlags) ||| l.encodeLength reported :=
    calc ((armed l addr length).complete l reported status ts).control
      _ = ((armed l addr length).control &&& ~~~l.lengthField ||| l.encodeLength reported) &&&
          ~~~l.own := by cases ts <;> rfl
      _ = ~~~l.own &&& (l.armedFlags ||| l.encodeLength reported) := by
        rw [control_and_not_lengthField h, UInt32.and_comm]
      _ = _ := by rw [and_or_distrib_left, hlength]
  rw [Descriptor.length, hcontrol]
  exact decodeLength_or_encodeLength hshift hflags reported

end Descriptor

/-! ### The place of a transfer -/

namespace Ring

variable {β : Type} {r : Ring β} {q : List (Slot β)} {turns : List (Turn β)} {i : Nat}

/-- A turn is no rewind, and writes to no descriptor at place `i` of a ring of some size. -/
def Turn.Spares (size i : Nat) : Turn β → Prop
  | .rewind => False
  | .write j _ => j % size ≠ i
  | .offer .. | .reclaim | .setEnabled _ => True

/-- A turn of a ring leaves the transfer at place `i` alone, which may belong to the device or may
have been returned. -/
def Turn.LeavesAlone (r : Ring β) (i : Nat) (owned : Bool) : Turn β → Prop
  | .rewind => False
  | .write j _ => j % r.capacity ≠ i ∨ owned = false
  | .reclaim => r.tail ≠ i ∨ owned = true
  | .offer .. | .setEnabled _ => True

theorem after_concat (r : Ring β) (turns : List (Turn β)) (t : Turn β) :
    r.after (turns ++ [t]) = t.perform (r.after turns) :=
  List.foldl_concat ..

/-- A ring that carries its buffers goes on to do so. -/
theorem Carries.perform (h : r.Carries q) (t : Turn β) : ∃ rest, (t.perform r).Carries rest := by
  cases t with
  | offer buffer addr? length =>
    simp only [Turn.perform]
    split
    next hrefusal => exact ⟨_, h.post (enabled_of_refusal?_none hrefusal).2 buffer _ length⟩
    · exact ⟨q, h⟩
  | reclaim =>
    rw [Turn.perform]
    cases hr : r.reclaim with
    | mk result s =>
      cases result with
      | none => exact ⟨q, eq_of_reclaim_none h hr ▸ h⟩
      | some t =>
        obtain ⟨rest, -, hrest, -⟩ := carries_of_reclaim_some h hr
        exact ⟨rest, hrest⟩
  | rewind => exact ⟨[], carries_rewind h⟩
  | setEnabled enabled => exact ⟨q, carries_setEnabled h enabled⟩
  | write j d =>
    simp only [Turn.perform]
    split
    · exact ⟨q, carries_setDescriptor h j d⟩
    · exact ⟨q, h⟩

theorem Carries.after (h : r.Carries q) (turns : List (Turn β)) :
    ∃ rest, (r.after turns).Carries rest := by
  induction turns using List.reverseRecOn with
  | nil => exact ⟨q, h⟩
  | append_singleton turns t ih =>
    obtain ⟨rest, hrest⟩ := ih
    rw [after_concat]
    exact hrest.perform t

theorem Carries.slot_head (h : r.Carries q) : (r.cell r.head).slot = none := by
  rw [h.head_eq, h.slot_place q.length h.length_lt, List.getElem?_eq_none (Nat.le_refl _)]

theorem cell_post (r : Ring β) (buffer : β) (addr : BusAddress) (length j : Nat) :
    (r.post buffer addr length).cell j =
      if r.head = j ∧ r.head < r.capacity then
        ⟨.armed r.layout addr length, some ⟨buffer, addr, length⟩⟩
      else r.cell j :=
  cell_setCell r _ _ _

theorem cell_reclaim_of_ne (hne : r.tail ≠ i) : r.reclaim.2.cell i = r.cell i := by
  have hcell : (r.setCell r.tail .empty).cell i = r.cell i := by
    rw [cell_setCell, if_neg fun heq => hne heq.1]
  rcases r.reclaim_cases with h | ⟨-, -, h⟩ | ⟨t, -, -, -, -, h⟩
  · rw [h]
  · rw [h]
    exact hcell
  · rw [h]
    exact hcell

theorem reclaim_of_owned (howned : (r.cell r.tail).descriptor.isOwned r.layout = true) :
    r.reclaim = (none, r) := by
  rw [reclaim, if_pos howned]
  exact ite_self _

/-- A turn that leaves a transfer alone keeps its place as it is. -/
theorem Carries.cell_perform (h : r.Carries q) {t : Turn β} {owned : Bool}
    (hslot : (r.cell i).slot.isSome = true)
    (howned : (r.cell i).descriptor.isOwned r.layout = owned) (ht : t.LeavesAlone r i owned) :
    (t.perform r).cell i = r.cell i := by
  cases t with
  | offer buffer addr? length =>
    simp only [Turn.perform]
    split
    · have hne : r.head ≠ i := by
        rintro rfl
        rw [h.slot_head] at hslot
        cases hslot
      rw [cell_post, if_neg fun heq => hne heq.1]
    · rfl
  | reclaim =>
    rw [Turn.perform]
    rcases ht with hne | rfl
    · exact cell_reclaim_of_ne hne
    · by_cases hi : r.tail = i
      · rw [reclaim_of_owned (hi ▸ howned)]
      · exact cell_reclaim_of_ne hi
  | rewind => exact ht.elim
  | setEnabled enabled => rfl
  | write j d =>
    simp only [Turn.perform]
    split
    next hwritten =>
      have hne : j % r.capacity ≠ i := by
        rcases ht with hne | rfl
        · exact hne
        · rintro rfl
          rw [descriptor, howned] at hwritten
          cases hwritten
      rw [setDescriptor, cell_setCell, if_neg fun heq => hne heq.1]
    · rfl

/-- Turns that leave a transfer alone keep its place as it is. -/
theorem Carries.cell_after (h : r.Carries q) {owned : Bool}
    (hslot : (r.cell i).slot.isSome = true)
    (howned : (r.cell i).descriptor.isOwned r.layout = owned)
    (hturns : ∀ mid t, mid ++ [t] <+: turns → t.LeavesAlone (r.after mid) i owned) :
    (r.after turns).cell i = r.cell i := by
  induction turns using List.reverseRecOn with
  | nil => rfl
  | append_singleton turns t ih =>
    have hcell := ih fun mid t hmid => hturns mid t (hmid.trans (List.prefix_append _ _))
    obtain ⟨rest, hrest⟩ := h.after turns
    have hlayout := (shape_after turns r).1
    rw [after_concat]
    rw [← hcell] at hslot howned ⊢
    rw [← hlayout] at howned
    exact hrest.cell_perform hslot howned (hturns turns t (List.prefix_refl _))

/-- A transfer that the device has returned is taken back when its place is the oldest. -/
theorem Carries.reclaim_returned (h : r.Carries q) {slot : Slot β}
    (hslot : (r.cell r.tail).slot = some slot)
    (howned : (r.cell r.tail).descriptor.isOwned r.layout = false) :
    r.reclaim.1 = some
      { completion :=
          { buffer := slot.buffer
            length := (r.cell r.tail).descriptor.length r.layout
            status := (r.cell r.tail).descriptor.errorBits r.layout
            timestamp := (r.cell r.tail).descriptor.timestamp? r.layout }
        index := r.tail
        control := (r.cell r.tail).descriptor.control
        slot := slot } := by
  have hempty : r.isEmpty = false := by
    rw [Bool.eq_false_iff, ne_eq, h.isEmpty_iff]
    rintro rfl
    have hnone := h.slot_place 0 (Nat.zero_lt_of_lt h.tail_lt)
    rw [place_zero h.tail_lt, hslot] at hnone
    cases hnone
  simp only [reclaim, hempty, howned, hslot]
  rfl

theorem shape_after_post (r : Ring β) (buffer : β) (addr : BusAddress) (length : Nat)
    (turns : List (Turn β)) :
    ((r.post buffer addr length).after turns).layout = r.layout ∧
      ((r.post buffer addr length).after turns).capacity = r.capacity := by
  obtain ⟨hlayout, hcapacity⟩ := shape_after turns (r.post buffer addr length)
  exact ⟨hlayout, hcapacity.trans (capacity_setCell r _ _)⟩

/-- An armed descriptor stays as it is while nothing is written to it. -/
theorem Carries.cell_armed (h : r.Carries q) (hroom : r.isFull = false)
    (hlayout : r.layout.isConsistent = true) (buffer : β) (addr : BusAddress) (length : Nat)
    (hturns : ∀ t ∈ turns, t.Spares r.capacity r.head) :
    ((r.post buffer addr length).after turns).cell r.head =
      ⟨.armed r.layout addr length, some ⟨buffer, addr, length⟩⟩ := by
  have hcell : (r.post buffer addr length).cell r.head =
      ⟨.armed r.layout addr length, some ⟨buffer, addr, length⟩⟩ := by
    rw [cell_post, if_pos ⟨rfl, h.head_lt⟩]
  have howned : ((r.post buffer addr length).cell r.head).descriptor.isOwned r.layout = true := by
    rw [hcell]
    exact Descriptor.isOwned_armed addr length hlayout
  rw [← hcell]
  apply (h.post hroom buffer addr length).cell_after (by rw [hcell]; rfl) howned
  intro mid t hmid
  have hspares := hturns t (hmid.subset (by simp))
  cases t with
  | rewind => exact hspares
  | write j d =>
    refine .inl ?_
    rw [(shape_after_post r buffer addr length mid).2]
    exact hspares
  | reclaim => exact .inr rfl
  | offer | setEnabled => trivial

/-- A returned descriptor stays as it is until its place is looked at, and the look takes back what
it tells. -/
theorem Carries.reclaim_after (h : r.Carries q) {d : Descriptor} {slot : Slot β}
    (hcell : r.cell i = ⟨d, some slot⟩) (howned : d.isOwned r.layout = false)
    (hrewind : .rewind ∉ turns)
    (htail : ∀ mid, mid ++ [.reclaim] <+: turns → (r.after mid).tail ≠ i)
    (hlast : (r.after turns).tail = i) :
    (r.after turns).reclaim.1 = some
      { completion :=
          { buffer := slot.buffer
            length := d.length r.layout
            status := d.errorBits r.layout
            timestamp := d.timestamp? r.layout }
        index := i
        control := d.control
        slot := slot } := by
  have hreturned : (r.cell i).descriptor.isOwned r.layout = false := by
    rw [hcell]
    exact howned
  have hkept : (r.after turns).cell i = ⟨d, some slot⟩ := by
    rw [← hcell]
    apply h.cell_after (by rw [hcell]; rfl) hreturned
    intro mid t hmid
    cases t with
    | rewind => exact hrewind (hmid.subset (by simp))
    | write j d => exact .inr rfl
    | reclaim => exact .inl (htail mid hmid)
    | offer | setEnabled => trivial
  obtain ⟨rest, hrest⟩ := h.after turns
  have hlayout := (shape_after turns r).1
  rw [← hlast] at hkept
  rw [hrest.reclaim_returned (by rw [hkept]) (by rw [hkept, hlayout]; exact howned), hkept, hlayout,
    hlast]

/-- A completion is decoded to what the device wrote. The descriptor of a posted buffer belongs to
the device until the device completes it, whatever else the host and the device do to other places
in the meantime, and whatever the ring held before. When its turn has come to be taken back, the
host reads the error bits that were reported, the length cut to the bits that come through, and the
time exactly if one was given and the layout has a bit for it. -/
theorem completion_decoded (h : r.Carries q) (hroom : r.isFull = false)
    (hlayout : r.layout.isConsistent = true) (hshift : r.layout.lenShift.toNat < 32)
    (buffer : β) (addr : BusAddress) (length reported : Nat) (status : UInt32) (ts : Option UInt64)
    (hturns : ∀ t ∈ turns, t.Spares r.capacity r.head) :
    let posted := (r.post buffer addr length).after turns
    let armed := posted.descriptor r.head
    let done := armed.complete r.layout reported status ts
    let finished := posted.setDescriptor r.head done
    armed.isOwned r.layout = true ∧ armed.addr = addr ∧
    done.isOwned r.layout = false ∧ done.addr = addr ∧
    ∀ since, .rewind ∉ since →
      (∀ mid, mid ++ [.reclaim] <+: since → (finished.after mid).tail ≠ r.head) →
      (finished.after since).tail = r.head →
      (finished.after since).reclaim.1 = some
        { completion :=
            { buffer := buffer
              length := reported &&& r.layout.carriedBits.toNat
              status := status &&& r.layout.statusErrorMask
              timestamp := if r.layout.tsValid = 0 then none else ts }
          index := r.head
          control := done.control
          slot := ⟨buffer, addr, length⟩ } := by
  intro posted armed done finished
  have hcell : posted.cell r.head = ⟨.armed r.layout addr length, some ⟨buffer, addr, length⟩⟩ :=
    h.cell_armed hroom hlayout buffer addr length hturns
  obtain ⟨hsame, hcapacity⟩ := shape_after_post r buffer addr length turns
  have hhead : r.head < posted.capacity := hcapacity ▸ h.head_lt
  have harmed : armed = .armed r.layout addr length :=
    (descriptor_eq hhead).trans (congrArg (·.descriptor) hcell)
  have haddr : armed.addr = addr := by
    rw [harmed]
    exact Descriptor.addr_armed addr length
  have hdone : done.isOwned r.layout = false := armed.isOwned_complete reported status ts
  refine ⟨?_, haddr, hdone, (armed.addr_complete reported status ts).trans haddr, ?_⟩
  · rw [harmed]
    exact Descriptor.isOwned_armed addr length hlayout
  · intro since hrewind htail hlast
    obtain ⟨rest, hposted⟩ := (h.post hroom buffer addr length).after turns
    have hfinished : finished.Carries rest := carries_setDescriptor hposted r.head done
    have hplace : finished.cell r.head = ⟨done, some ⟨buffer, addr, length⟩⟩ := by
      dsimp only [finished, setDescriptor]
      rw [Nat.mod_eq_of_lt hhead, cell_setCell, if_pos ⟨rfl, hhead⟩, hcell]
    have hlook := hfinished.reclaim_after hplace (hsame ▸ hdone) hrewind htail hlast
    have hread : finished.layout = r.layout := hsame
    have hlength : done.length r.layout = reported &&& r.layout.carriedBits.toNat := by
      dsimp only [done]
      rw [harmed]
      exact Descriptor.length_complete addr length reported status ts hlayout hshift
    have hstatus : done.errorBits r.layout = status &&& r.layout.statusErrorMask :=
      armed.errorBits_complete reported status ts hlayout
    have htime : done.timestamp? r.layout = if r.layout.tsValid = 0 then none else ts :=
      armed.timestamp?_complete reported status ts
    rw [hlook, hread, hlength, hstatus, htime]

/-- A place that held other words before, on a ring with an earlier transfer in flight. The status
that the device reports has the bit of a time set. -/
theorem completion_decoded_trip :
    let stale : RingCell Nat := ⟨⟨0xFFFFFFFF, 0xFFFF, 1, 2, 3, 4⟩, none⟩
    let r := (⟨.standard, Array.replicate 3 stale, 2, 2, true, .null⟩ : Ring Nat).post 7 .null 64
    let earlier := (Descriptor.armed .standard .null 64).complete .standard 64 0 none
    let posted := (r.post 9 ⟨4096⟩ 1500).after [.write 2 earlier]
    let done := (posted.descriptor 0).complete .standard 1200 0x80000005 (some 77)
    (((posted.setDescriptor 0 done).after [.reclaim]).reclaim.1.map (·.completion)) =
      some ⟨9, 1200, 5, some 77⟩ := by
  intro stale r earlier posted done
  have hbare : (⟨.standard, Array.replicate 3 stale, 2, 2, true, .null⟩ : Ring Nat).Carries [] :=
    ⟨by decide, by decide, by decide, by decide⟩
  have hr : r.Carries [⟨7, .null, 64⟩] := hbare.post (by decide) 7 .null 64
  have hcapacity : r.capacity = 3 := by decide
  have hhead : r.head = 0 := by decide
  have hspares : ∀ t ∈ ([.write 2 earlier] : List (Turn Nat)), t.Spares r.capacity r.head := by
    intro t ht
    obtain rfl := List.mem_singleton.mp ht
    rw [hcapacity, hhead]
    show 2 % 3 ≠ 0
    decide
  obtain ⟨-, -, -, -, hlook⟩ := completion_decoded hr (by decide) (by decide) (by decide) 9 ⟨4096⟩
    1500 1200 0x80000005 (some 77) hspares
  rw [hhead] at hlook
  have htail : ∀ mid : List (Turn Nat), mid ++ [.reclaim] <+: [.reclaim] →
      ((posted.setDescriptor 0 done).after mid).tail ≠ 0 := by
    intro mid hmid
    obtain rfl : mid = [] := by simpa using hmid.length_le
    decide
  have htaken := hlook [.reclaim] (by simp) htail (by decide)
  have hcompletion := congrArg (Option.map (·.completion)) htaken
  rw [Option.map_some] at hcompletion
  exact hcompletion.trans (by decide)

end Ring

end PacketDma
