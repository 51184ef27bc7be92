import PacketDma.Proofs.Flow

/-!
# Ring control

Ring control is the register by which the engine runs and halts the rings of a channel. As long as
nobody else writes to it, it shows the last word that the engine wrote, and the effects alone tell
whether a buffer was unmapped while the rings ran.

## Implementation notes

The invariant of the machine looks at every effect with those before it. A stretch of effects is
followed by the words of the ring controls, since nothing else decides whether rings run.
-/

namespace PacketDma

variable {β : Type}

/-- The registers of a device that has a number of channel windows. -/
structure Device extends DeviceRegisters where
  /-- How many channel windows there are. -/
  windows : Nat

instance : Coe Device DeviceRegisters := ⟨Device.toDeviceRegisters⟩

/-- The registers of the configured device. -/
def Config.device (config : Config) (base : Nat) : DeviceRegisters :=
  ⟨config.capabilities.registers, base⟩

/-- The configured device, with so many channel windows. -/
def Config.hardware (config : Config) (base windows : Nat) : Device :=
  ⟨config.device base, windows⟩

theorem Config.toDeviceRegisters_hardware (config : Config) (base windows : Nat) :
    (config.hardware base windows).toDeviceRegisters = config.device base := rfl

/-- The registers of a channel of the device. -/
def DeviceRegisters.channel (d : DeviceRegisters) (id : Nat) : ChannelRegisters :=
  ⟨d.map, d.base + d.map.channelOffset id⟩

/-- The offset of the ring control of a channel. -/
def DeviceRegisters.ringControl (d : DeviceRegisters) (id : Nat) : Nat :=
  (d.channel id).offset .ringControl

/-- No other register of a device with so many windows lies on the ring control of a channel. -/
structure RegisterMap.Apart (map : RegisterMap) (windows : Nat) : Prop where
  device_ne : ∀ r id, id < windows →
    map.deviceOffset r ≠ map.channelOffset id + map.windowOffset .ringControl
  channel_inj : ∀ i j r, i < windows → j < windows →
    map.channelOffset j + map.windowOffset r =
      map.channelOffset i + map.windowOffset .ringControl → j = i ∧ r = .ringControl

namespace RegisterMap.Apart

variable {d : Device} {i j : Nat}

theorem offset_ne (h : d.map.Apart d.windows) (r : DeviceRegister) (hi : i < d.windows) :
    d.offset r ≠ d.ringControl i := by
  rw [DeviceRegisters.offset, DeviceRegisters.ringControl, ChannelRegisters.offset,
    DeviceRegisters.channel, Nat.add_assoc]
  exact fun heq => h.device_ne r i hi (Nat.add_left_cancel heq)

theorem eq_of_offset (h : d.map.Apart d.windows) {r : ChannelRegister} (hi : i < d.windows)
    (hj : j < d.windows) (heq : d.ringControl i = (d.channel j).offset r) :
    j = i ∧ r = .ringControl := by
  simp only [DeviceRegisters.ringControl, ChannelRegisters.offset, DeviceRegisters.channel,
    Nat.add_assoc] at heq
  exact h.channel_inj i j r hi hj (Nat.add_left_cancel heq).symm

end RegisterMap.Apart

/-- The default map keeps ring control apart, however many windows there are. -/
theorem RegisterMap.apart_standard (windows : Nat) : RegisterMap.standard.Apart windows := by
  constructor
  · intro r id _
    cases r <;> simp only [standard, deviceOffset, channelOffset, windowOffset,
      defaultChannelBase] <;> omega
  · intro i j r _ _ h
    cases r with
    | ringControl =>
      simp only [standard, channelOffset, windowOffset, defaultChannelStride] at h
      exact ⟨by omega, rfl⟩
    | ringStatus | errorStatus | descControl =>
      simp only [standard, channelOffset, windowOffset, defaultChannelStride] at h
      omega
    | baseLow d | baseHigh d | size d | head d =>
      cases d <;> simp only [standard, channelOffset, windowOffset, defaultChannelStride] at h <;>
        omega

/-- The word of a register after an event, if only the engine writes to it. -/
def Event.leaves (offset : Nat) (word : UInt32) : Event β → UInt32
  | .write o w => if o = offset then w else word
  | _ => word

/-- The word that was last written to a register, which starts at zero. -/
def lastWord (offset : Nat) (effects : List (Event β)) : UInt32 :=
  effects.foldl (Event.leaves offset) 0

@[simp] theorem lastWord_concat (offset : Nat) (effects : List (Event β)) (e : Event β) :
    lastWord offset (effects ++ [e]) = e.leaves offset (lastWord offset effects) := by
  simp [lastWord]

theorem Event.leaves_of_isNote {e : Event β} (h : e.isNote = true) (offset : Nat) (word : UInt32) :
    e.leaves offset word = word := by
  cases e <;> first | rfl | simp [isNote] at h

/-- What is asked of an effect that comes after some others. A buffer is unmapped only after the
device handed its descriptor back, as the host read, or while both rings of its channel are halted.
A look at a ring control finds the word that was last written to it. -/
def Event.Safe (d : Device) (own : UInt32) (before : List (Event β)) : Event β → Prop
  | .unmapped id _ _ _ cause =>
    (∃ index control, cause = .returned index control ∧ control &&& own = 0) ∨
      lastWord (d.ringControl id) before &&& RingControl.enableBoth = 0
  | .read offset word => ∀ id < d.windows, offset = d.ringControl id →
    word = lastWord offset before
  | _ => True

theorem Event.safe_of_isNote {e : Event β} (h : e.isNote = true) (d : Device)
    (own : UInt32) (before : List (Event β)) : e.Safe d own before := by
  cases e <;> trivial

/-! ### Accesses to the registers -/

namespace RegisterFile

variable (f : RegisterFile)

/-- What no access of the host changes. -/
def fixed : RegisterMap × Nat × Nat × WordTable := (f.map, f.base, f.windows, f.held)

theorem fixed_eq_iff {f g : RegisterFile} : g.fixed = f.fixed ↔
    g.map = f.map ∧ g.base = f.base ∧ g.windows = f.windows ∧ g.held = f.held := by
  simp only [fixed, Prod.mk.injEq]

theorem fixed_comeUp : f.comeUp.fixed = f.fixed := by
  unfold comeUp
  split <;> rfl

theorem fixed_followControl (word : UInt32) : (f.followControl word).fixed = f.fixed := by
  unfold followControl
  dsimp only
  split <;> rfl

theorem fixed_read (offset : Nat) : (f.read offset).2.fixed = f.fixed := by
  unfold read
  dsimp only
  split
  · exact f.fixed_comeUp
  · rfl

theorem fixed_write (offset : Nat) (word : UInt32) : (f.write offset word).fixed = f.fixed := by
  unfold write
  split
  · rfl
  · dsimp only
    split
    · exact fixed_followControl _ word
    · rfl

variable {f}

theorem stored_comeUp {o : Nat} (h : o ≠ f.deviceOffset .status) :
    f.comeUp.stored.get o = f.stored.get o := by
  unfold comeUp
  split
  · rfl
  · simp [store, h]
  · rfl

theorem stored_followControl {o : Nat} (h : o ≠ f.deviceOffset .status) (word : UInt32) :
    (f.followControl word).stored.get o = f.stored.get o := by
  unfold followControl
  dsimp only
  split <;> simp [store, h]

theorem stored_read {o : Nat} (h : o ≠ f.deviceOffset .status) (offset : Nat) :
    (f.read offset).2.stored.get o = f.stored.get o := by
  unfold read
  dsimp only
  split
  · exact stored_comeUp h
  · rfl

/-- A read shows what is stored, except that a status read may change the status. -/
theorem read_eq_peek {o : Nat} (h : o ≠ f.deviceOffset .status) : (f.read o).1 = f.peek o := by
  unfold read
  rw [if_neg h]

theorem stored_write_ne {o offset : Nat} (hne : o ≠ offset) (h : o ≠ f.deviceOffset .status)
    (word : UInt32) : (f.write offset word).stored.get o = f.stored.get o := by
  unfold write
  split
  · simp [store, hne]
  · dsimp only
    split
    · rw [stored_followControl (f := f.store offset word) h]
      simp [store, hne]
    · simp [store, hne]

/-- A plain register keeps what is written. -/
theorem stored_write_self {o : Nat} (hplain : f.isClearedByOnes o = false)
    (h : o ≠ f.deviceOffset .status) (word : UInt32) :
    (f.write o word).stored.get o = word := by
  unfold write
  rw [if_neg (by simp [hplain])]
  dsimp only
  split
  · rw [stored_followControl (f := f.store o word) h]
    simp [store]
  · simp [store]

end RegisterFile

/-! ### The machine -/

namespace Machine

/-- The word that was last written to the ring control of a channel. -/
def ringWord (d : Device) (id : Nat) (m : Machine β) : UInt32 :=
  lastWord (d.ringControl id) m.effects

/-- Both rings of a channel are halted. -/
def Halted (d : Device) (id : Nat) (m : Machine β) : Prop :=
  m.ringWord d id &&& RingControl.enableBoth = 0

/-- Every effect so far was safe, and ring controls show what was last written to them. -/
structure Guarded (d : Device) (own : UInt32) (m : Machine β) : Prop where
  map_eq : m.registers.map = d.map
  base_eq : m.registers.base = d.base
  windows_eq : m.registers.windows = d.windows
  held_eq : ∀ id < d.windows, m.registers.held.get (d.ringControl id) = 0
  stored_eq : ∀ id < d.windows,
    m.registers.stored.get (d.ringControl id) = m.ringWord d id
  safe : ∀ before e, before ++ [e] <+: m.effects → e.Safe d own before

/-- The ring controls of all channels but some are as they were. -/
def SameWords (d : Device) (other : Nat → Prop) (m n : Machine β) : Prop :=
  ∀ id < d.windows, ¬ other id → n.ringWord d id = m.ringWord d id

theorem SameWords.refl (d : Device) (other : Nat → Prop) (m : Machine β) :
    SameWords d other m m := fun _ _ _ => rfl

theorem SameWords.trans {d : Device} {other : Nat → Prop} {m n p : Machine β}
    (h : SameWords d other m n) (h' : SameWords d other n p) : SameWords d other m p :=
  fun id hid hother => (h' id hid hother).trans (h id hid hother)

theorem SameWords.mono {d : Device} {other wider : Nat → Prop} {m n : Machine β}
    (hw : ∀ id, other id → wider id) (h : SameWords d other m n) : SameWords d wider m n :=
  fun id hid hother => h id hid fun ho => hother (hw id ho)

theorem Halted.of_same {d : Device} {id : Nat} {other : Nat → Prop} {m n : Machine β}
    (h : m.Halted d id) (hsame : SameWords d other m n) (hid : id < d.windows)
    (hother : ¬ other id) : n.Halted d id := by
  rw [Halted, hsame id hid hother]
  exact h

namespace Guarded

variable {d : Device} {own : UInt32} {m n : Machine β}

/-- One more effect is safe, and changes the ring controls as the effect says. -/
theorem add (h : m.Guarded d own) {e : Event β} (heffects : n.effects = m.effects ++ [e])
    (hfixed : n.registers.fixed = m.registers.fixed)
    (hstored : ∀ id < d.windows, n.registers.stored.get (d.ringControl id) =
      e.leaves (d.ringControl id) (m.registers.stored.get (d.ringControl id)))
    (hsafe : e.Safe d own m.effects) : n.Guarded d own := by
  obtain ⟨hmap, hbase, hwindows, hheld⟩ := RegisterFile.fixed_eq_iff.mp hfixed
  constructor
  · exact hmap.trans h.map_eq
  · exact hbase.trans h.base_eq
  · exact hwindows.trans h.windows_eq
  · intro id hid
    rw [hheld]
    exact h.held_eq id hid
  · intro id hid
    rw [hstored id hid, h.stored_eq id hid, ringWord, ringWord, heffects, lastWord_concat]
  · intro before x hx
    rw [heffects, List.prefix_concat_iff] at hx
    rcases hx with hx | hx
    · obtain ⟨rfl, hxe⟩ := List.append_inj' hx rfl
      obtain rfl := List.singleton_inj.mp hxe
      exact hsafe
    · exact h.safe before x hx

/-- One more effect that is no access to a register, and is safe. -/
theorem add_aside (h : m.Guarded d own) {e : Event β} (heffects : n.effects = m.effects ++ [e])
    (hregisters : n.registers = m.registers) (hleaves : ∀ o w, e.leaves o w = w)
    (hsafe : e.Safe d own m.effects) :
    n.Guarded d own ∧ SameWords d (fun _ => False) m n := by
  refine ⟨h.add heffects (by rw [hregisters]) ?_ hsafe, ?_⟩
  · intro id _
    rw [hregisters, hleaves]
  · intro id _ _
    rw [ringWord, ringWord, heffects, lastWord_concat, hleaves]

theorem emit (h : m.Guarded d own) {e : Event β} (he : e.isNote = true) :
    (m.emit e).Guarded d own ∧ SameWords d (fun _ => False) m (m.emit e) :=
  h.add_aside (effects_emit m e) rfl (Event.leaves_of_isNote he) (Event.safe_of_isNote he _ _ _)

/-- The clock, the mapped memory and descriptors that were given up are no effects. -/
theorem aside (h : m.Guarded d own) (clock : Clock) (mapper : Mapper β)
    (retired : List DescriptorArray) : Guarded d own
      { m with clock := clock, mapper := mapper, retired := retired } :=
  ⟨h.map_eq, h.base_eq, h.windows_eq, h.held_eq, h.stored_eq, h.safe⟩

/-- A buffer that the device handed back, or whose channel is halted, is unmapped safely. -/
theorem unmapBuffer (h : m.Guarded d own) {id : Nat} (direction : Direction) (addr : BusAddress)
    (length : Nat) (cause : UnmapCause)
    (hcause : (∃ index control, cause = .returned index control ∧ control &&& own = 0) ∨
      m.Halted d id) :
    (m.unmapBuffer id direction addr length cause).Guarded d own ∧
      SameWords d (fun _ => False) m (m.unmapBuffer id direction addr length cause) :=
  h.add_aside (effects_unmapBuffer m id direction addr length cause) rfl (fun _ _ => rfl) hcause

/-- Discarding transfers of a halted channel is safe. -/
theorem discardSlots (h : m.Guarded d own) {id : Nat} (hid : id < d.windows)
    (hhalt : m.Halted d id) (direction : Direction) (slots : List (Slot β)) :
    (Channel.discardSlots id direction slots m).Guarded d own ∧
      SameWords d (fun _ => False) m (Channel.discardSlots id direction slots m) := by
  induction slots generalizing m with
  | nil => exact ⟨h, .refl _ _ _⟩
  | cons s rest ih =>
    obtain ⟨hfirst, hsame⟩ := h.unmapBuffer direction s.addr s.length .discarded (.inr hhalt)
    obtain ⟨hrest, hsame'⟩ := ih hfirst (hhalt.of_same hsame hid not_false)
    exact ⟨hrest, hsame.trans hsame'⟩

/-- Giving up a ring of a halted channel is safe. -/
theorem releaseRing (h : m.Guarded d own) {id : Nat} (hid : id < d.windows)
    (hhalt : m.Halted d id) (direction : Direction) (r : Ring β) :
    (Channel.releaseRing id direction r m).2.2.Guarded d own ∧
      SameWords d (fun _ => False) m (Channel.releaseRing id direction r m).2.2 := by
  obtain ⟨hslots, hsame⟩ := h.discardSlots hid hhalt direction r.slots
  unfold Channel.releaseRing
  dsimp only
  split
  · exact ⟨hslots, hsame⟩
  · exact ⟨hslots.aside _ _ _, hsame⟩

theorem deviceOffset_eq (h : m.Guarded d own) (r : DeviceRegister) :
    m.registers.deviceOffset r = d.offset r := by
  rw [RegisterFile.deviceOffset, h.map_eq, h.base_eq, DeviceRegisters.offset]

theorem channelOffset_eq (h : m.Guarded d own) (id : Nat) (r : ChannelRegister) :
    m.registers.channelOffset id r = (d.channel id).offset r := by
  rw [RegisterFile.channelOffset, RegisterFile.window, h.map_eq, h.base_eq]
  rfl

variable (hd : d.map.Apart d.windows)
include hd

/-- Ring control is no status register and is not cleared by writing ones. -/
theorem ringControl_ne_status (h : m.Guarded d own) {id : Nat} (hid : id < d.windows) :
    d.ringControl id ≠ m.registers.deviceOffset .status := by
  rw [h.deviceOffset_eq]
  exact (hd.offset_ne .status hid).symm

theorem isClearedByOnes_ringControl (h : m.Guarded d own) {id : Nat} (hid : id < d.windows) :
    m.registers.isClearedByOnes (d.ringControl id) = false := by
  rw [Bool.eq_false_iff]
  intro hcleared
  simp only [RegisterFile.isClearedByOnes, Bool.or_eq_true, beq_iff_eq, List.any_eq_true,
    List.mem_range, h.windows_eq, h.deviceOffset_eq, h.channelOffset_eq] at hcleared
  rcases hcleared with heq | ⟨j, hj, heq⟩
  · exact hd.offset_ne .intStatus hid heq.symm
  · exact ChannelRegister.noConfusion (hd.eq_of_offset hid hj heq).2

omit hd in
/-- A ring control shows what was last written to it. -/
theorem peek_ringControl (h : m.Guarded d own) {id : Nat} (hid : id < d.windows) :
    m.registers.peek (d.ringControl id) = m.ringWord d id := by
  rw [RegisterFile.peek, h.held_eq id hid, h.stored_eq id hid, UInt32.or_zero]

/-- A look at a ring control finds what was last written to it. -/
theorem read_ringControl (h : m.Guarded d own) {id : Nat} (hid : id < d.windows) :
    (m.read (d.ringControl id)).1 = m.ringWord d id := by
  show (m.registers.read (d.ringControl id)).1 = m.ringWord d id
  rw [RegisterFile.read_eq_peek (h.ringControl_ne_status hd hid), h.peek_ringControl hid]

/-- A look at a register changes no ring control. -/
theorem read (h : m.Guarded d own) (offset : Nat) :
    (m.read offset).2.Guarded d own ∧ SameWords d (fun _ => False) m (m.read offset).2 := by
  have heffects := m.effects_read offset
  refine ⟨h.add heffects (m.registers.fixed_read offset) ?_ ?_, ?_⟩
  · intro id hid
    exact RegisterFile.stored_read (h.ringControl_ne_status hd hid) offset
  · intro id hid heq
    subst heq
    exact h.read_ringControl hd hid
  · intro id _ _
    rw [ringWord, ringWord, heffects, lastWord_concat]
    rfl

/-- A write changes at most the ring control that it goes to. -/
theorem write (h : m.Guarded d own) (offset : Nat) (word : UInt32) :
    (m.write offset word).Guarded d own ∧
      SameWords d (fun id => offset = d.ringControl id) m (m.write offset word) := by
  have heffects := m.effects_write offset word
  refine ⟨h.add heffects (m.registers.fixed_write offset word) ?_ trivial, ?_⟩
  · intro id hid
    show (m.registers.write offset word).stored.get (d.ringControl id) = if _ then _ else _
    split
    next heq =>
      rw [heq]
      exact RegisterFile.stored_write_self (h.isClearedByOnes_ringControl hd hid)
        (h.ringControl_ne_status hd hid) word
    next hne =>
      exact RegisterFile.stored_write_ne (Ne.symm hne) (h.ringControl_ne_status hd hid) word
  · intro id _ hother
    rw [ringWord, ringWord, heffects, lastWord_concat]
    exact if_neg hother

omit hd in
theorem ringWord_write (m : Machine β) (id : Nat) (word : UInt32) :
    (m.write (d.ringControl id) word).ringWord d id = word := by
  rw [ringWord, effects_write, lastWord_concat]
  exact if_pos rfl

/-- Changing the ring control of a channel changes no other one. -/
theorem modify (h : m.Guarded d own) {id : Nat} (hid : id < d.windows) (f : UInt32 → UInt32) :
    (m.modify (d.ringControl id) f).Guarded d own ∧
      SameWords d (· = id) m (m.modify (d.ringControl id) f) ∧
      (m.modify (d.ringControl id) f).ringWord d id = f (m.ringWord d id) := by
  obtain ⟨hread, hsame⟩ := h.read hd (d.ringControl id)
  obtain ⟨hwrite, hother⟩ :=
    hread.write hd (d.ringControl id) (f (m.read (d.ringControl id)).1)
  refine ⟨hwrite, ?_, ?_⟩
  · intro j hj hne
    refine (hother j hj fun heq => hne ?_).trans (hsame j hj not_false)
    exact (hd.eq_of_offset (r := .ringControl) hj hid heq.symm).1.symm
  · rw [← h.read_ringControl hd hid]
    exact ringWord_write _ id _

/-- Quiet effects that write to no ring control are safe. -/
theorem quiet (h : m.Guarded d own) {writable : Nat → Prop} (hq : m.Quiet writable n)
    (hplain : ∀ o, writable o → ∀ id < d.windows, o ≠ d.ringControl id) :
    n.Guarded d own ∧ SameWords d (fun _ => False) m n := by
  induction hq with
  | refl => exact ⟨h, .refl _ _ _⟩
  | read _ offset ih =>
    obtain ⟨hguarded, hsame⟩ := ih
    obtain ⟨hread, hsame'⟩ := hguarded.read hd offset
    exact ⟨hread, hsame.trans hsame'⟩
  | write _ hw word ih =>
    obtain ⟨hguarded, hsame⟩ := ih
    obtain ⟨hwrite, hother⟩ := hguarded.write hd _ word
    exact ⟨hwrite, hsame.trans fun id hid _ => hother id hid (hplain _ hw id hid)⟩
  | note _ he ih =>
    obtain ⟨hguarded, hsame⟩ := ih
    obtain ⟨hnote, hsame'⟩ := hguarded.emit he
    exact ⟨hnote, hsame.trans hsame'⟩
  | aside _ clock mapper retired ih => exact ⟨ih.1.aside clock mapper retired, ih.2⟩

end Guarded

end Machine

end PacketDma
