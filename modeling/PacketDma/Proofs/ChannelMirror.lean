import PacketDma.Proofs.Actions
import PacketDma.Proofs.Settings

/-!
# A channel in its registers

What a channel is shows in the registers of its window: where its rings are, how large they are and
how far they are filled, and whether they run. Each action of the channel ends with registers that
show the channel as it is then.

## Implementation notes

Programming a ring writes one register after the other, and a local reset leaves ring control wrong
for a while. So what the registers show is told register by register, and an action is followed by
which of them are right.
-/

namespace PacketDma.Channel

open RegisterFile Machine

variable {β : Type} {config : Config} {d : Device} {known : ChannelRegister → Prop}
  {c c' : Channel β} {m m' : Machine β} {f g : RegisterFile} {r : ChannelRegister} {word : UInt32}

/-- What a channel sets a register of its window to, if it does. -/
def setting? (c : Channel β) : ChannelRegister → Option UInt32
  | .ringControl => some (if c.running then RingControl.enableBoth else 0)
  | .descControl => some (c.features.descriptorControl Descriptor.words)
  | .baseLow direction => some (c.ring direction).base.low
  | .baseHigh direction => some (c.ring direction).base.high
  | .size direction => some (UInt32.ofNat (c.ring direction).capacity)
  | .head direction => some (UInt32.ofNat (c.ring direction).head)
  | .ringStatus | .errorStatus => none

theorem ne_errorStatus_of_setting? (h : c.setting? r = some word) : r ≠ .errorStatus := by
  rintro rfl
  simp [setting?] at h

/-- Running and halting rings shows in ring control only. -/
theorem setting?_setRunning (c : Channel β) (running : Bool) (hr : r ≠ .ringControl) :
    (c.setRunning running).setting? r = c.setting? r := by
  cases r <;> simp only [setting?, ring_setRunning] <;> first | rfl | exact absurd rfl hr

/-- Another ring in place of the old one shows in the head, if it only moved on. -/
theorem setting?_setRing {direction : Direction} {s : Ring β}
    (hbase : s.base = (c.ring direction).base)
    (hcapacity : s.capacity = (c.ring direction).capacity)
    (hhead : r ≠ .head direction ∨ s.head = (c.ring direction).head) :
    (c.setRing direction s).setting? r = c.setting? r := by
  have hring (direction' : Direction) {α : Type} (look : Ring β → α)
      (hlook : direction' = direction → look s = look (c.ring direction)) :
      look ((c.setRing direction s).ring direction') = look (c.ring direction') := by
    by_cases h : direction' = direction
    · subst h
      rw [ring_setRing]
      exact hlook rfl
    · rw [ring_setRing_ne c h]
  cases r with
  | ringControl | descControl => cases direction <;> rfl
  | baseLow direction' => exact congrArg some (hring direction' (·.base.low) fun _ => by rw [hbase])
  | baseHigh direction' =>
    exact congrArg some (hring direction' (·.base.high) fun _ => by rw [hbase])
  | size direction' =>
    exact congrArg some (hring direction' (UInt32.ofNat ·.capacity) fun _ => by rw [hcapacity])
  | head direction' =>
    refine congrArg some (hring direction' (UInt32.ofNat ·.head) fun h => ?_)
    rcases hhead with hhead | hhead
    · exact absurd (congrArg ChannelRegister.head h) hhead
    · rw [hhead]
  | ringStatus | errorStatus => rfl

/-- The registers of a channel are those of the device at the channel's number. -/
structure Placed (d : Device) (c : Channel β) : Prop where
  id_lt : c.id < d.windows
  registers_eq : c.registers = d.channel c.id

theorem Placed.offset_eq (h : c.Placed d) (r : ChannelRegister) :
    c.registers.offset r = d.place (.channel c.id r) := by
  rw [h.registers_eq, d.place_channel]

theorem Placed.isSetting (h : c.Placed d) (hr : r ≠ .errorStatus) :
    (RegisterName.channel c.id r).IsSetting d.windows := ⟨h.id_lt, hr⟩

theorem Placed.exists (h : c.Placed d) (r : ChannelRegister) :
    (RegisterName.channel c.id r).Exists d.windows := h.id_lt

theorem Placed.of_samePlace (h : c.Placed d) (hsame : SamePlace c c') : c'.Placed d :=
  ⟨hsame.id_eq ▸ h.id_lt, by rw [hsame.registers_eq, hsame.id_eq, h.registers_eq]⟩

/-- Registers that are those of `f` outside of a channel's window, and in it are as the channel sets
them, as far as they are known. -/
structure Told (d : Device) (f : RegisterFile) (known : ChannelRegister → Prop)
    (c : Channel β) (g : RegisterFile) : Prop where
  alike : f.Alike d (RegisterName.IsOf c.id) g
  setting_eq : ∀ r word, known r → c.setting? r = some word →
    g.setting d (.channel c.id r) = word

/-- All registers of a channel are as the channel sets them, and those outside of its window are
those of `f`. -/
def Mirrored (d : Device) (f : RegisterFile) (c : Channel β) (g : RegisterFile) : Prop :=
  c.Told d f (fun _ => True) g

namespace Told

theorem mono {wider : ChannelRegister → Prop}
    (hw : ∀ r word, wider r → c.setting? r = some word → known r) (h : c.Told d f known g) :
    c.Told d f wider g :=
  ⟨h.alike, fun r word hr hset => h.setting_eq r word (hw r word hr hset) hset⟩

/-- A channel that sets the known registers alike is told as well. -/
theorem congr (h : c.Told d f known g) (hid : c'.id = c.id)
    (hset : ∀ r, known r → c'.setting? r = c.setting? r) : c'.Told d f known g := by
  constructor
  · rw [hid]
    exact h.alike
  · intro r word hr hword
    rw [hid]
    exact h.setting_eq r word hr (hset r hr ▸ hword)

/-- One more register is known. -/
theorem learn (h : c.Told d f known g)
    (hr : ∀ word, c.setting? r = some word → g.setting d (.channel c.id r) = word) :
    c.Told d f (fun s => known s ∨ s = r) g := by
  refine ⟨h.alike, ?_⟩
  rintro s word (hs | rfl) hset
  · exact h.setting_eq s word hs hset
  · exact hr word hset

variable (hd : d.map.Separate d.windows)
include hd

theorem read (h : c.Told d f known g) (hc : c.Placed d) (offset : Nat) :
    c.Told d f known (g.read offset).2 := by
  refine ⟨h.alike.read hd offset, ?_⟩
  intro s word hs hset
  rw [h.alike.wired.fits.setting_read hd (hc.isSetting (ne_errorStatus_of_setting? hset))]
  exact h.setting_eq s word hs hset

/-- After a write to a register of the channel, the other ones are as they were. -/
theorem put (h : c.Told d f known g) (hc : c.Placed d) (r : ChannelRegister) (word : UInt32) :
    c.Told d f (fun s => known s ∧ s ≠ r) (g.write (c.registers.offset r) word) := by
  rw [hc.offset_eq]
  refine ⟨h.alike.write hd (hc.exists r) (fun _ => ⟨r, rfl⟩) word, ?_⟩
  rintro s old ⟨hs, hne⟩ hset
  rw [h.alike.wired.fits.setting_write hd (hc.isSetting (ne_errorStatus_of_setting? hset))
    (hc.exists r), if_neg ?_]
  · exact h.setting_eq s old hs hset
  · rintro ⟨⟩
    exact hne rfl

theorem setting_put (h : c.Told d f known g) (hc : c.Placed d) (hr : r ≠ .errorStatus)
    (word : UInt32) :
    (g.write (c.registers.offset r) word).setting d (.channel c.id r) = word := by
  rw [hc.offset_eq, h.alike.wired.fits.setting_write hd (hc.isSetting hr) (hc.exists r),
    if_pos rfl]

/-- The channel writes to a register what it sets it to. -/
theorem write (h : c.Told d f known g) (hc : c.Placed d) (hset : c.setting? r = some word) :
    c.Told d f (fun s => known s ∨ s = r) (g.write (c.registers.offset r) word) := by
  have hput := h.put hd hc r word
  have hlearned := hput.learn (r := r) fun w hw => by
    rw [h.setting_put hd hc (ne_errorStatus_of_setting? hset)]
    exact Option.some.inj (hset.symm.trans hw)
  refine hlearned.mono ?_
  intro s _ hs _
  by_cases heq : s = r
  · exact .inr heq
  · exact .inl ⟨hs.resolve_right heq, heq⟩

/-- The channel changes a register. -/
theorem modify (h : c.Told d f known m.registers) (hc : c.Placed d) (hr : r ≠ .errorStatus)
    (change : UInt32 → UInt32) :
    c.Told d f (fun s => known s ∧ s ≠ r) (m.modify (c.registers.offset r) change).registers ∧
      (m.modify (c.registers.offset r) change).registers.setting d (.channel c.id r) =
        change (m.registers.setting d (.channel c.id r)) := by
  have hread := h.read hd hc (c.registers.offset r)
  refine ⟨hread.put hd hc r _, ?_⟩
  rw [hc.offset_eq]
  exact (sets_modify hd h.alike.wired (hc.isSetting hr) change).setting_eq

/-- The device is told where one ring is, how large it is and how far it is filled. -/
theorem programRing (h : c.Told d f known m.registers) (hc : c.Placed d)
    (direction : Direction) :
    c.Told d f (fun s => known s ∨ s = .baseLow direction ∨ s = .baseHigh direction ∨
      s = .size direction ∨ s = .head direction) (c.programRing direction m).registers := by
  have hlow := h.write hd hc (r := .baseLow direction) rfl
  have hhigh := hlow.write hd hc (r := .baseHigh direction) rfl
  have hsize := hhigh.write hd hc (r := .size direction) rfl
  have hhead := hsize.write hd hc (r := .head direction) rfl
  refine hhead.mono ?_
  rintro s _ (hs | hs | hs | hs | hs) _ <;> simp [hs]

/-- If ring control is right, the channel is mirrored after it was programmed. -/
theorem program (h : c.Told d f (· = .ringControl) m.registers) (hc : c.Placed d) :
    c.Mirrored d f (c.program m).registers := by
  have htx := h.programRing hd hc .toDevice
  have hrx := htx.programRing hd hc .fromDevice
  have hform := hrx.write hd hc (r := .descControl) rfl
  refine hform.mono ?_
  intro s word _ hset
  cases s with
  | ringStatus | errorStatus => simp [setting?] at hset
  | ringControl | descControl => simp
  | baseLow direction | baseHigh direction | size direction | head direction =>
    cases direction <;> simp

end Told

/-! ### Actions -/

namespace Mirrored

theorem at_ringControl (h : c.Mirrored d f g) :
    g.setting d (.channel c.id .ringControl) = if c.running then RingControl.enableBoth else 0 :=
  h.setting_eq .ringControl _ trivial rfl

/-- The channel is another one, and the registers that changed are known again. -/
theorem of_told (h : c.Told d f (fun s => True ∧ s ≠ r) g) (hid : c'.id = c.id)
    (hset : ∀ s, s ≠ r → c'.setting? s = c.setting? s)
    (hr : ∀ word, c'.setting? r = some word → g.setting d (.channel c.id r) = word) :
    c'.Mirrored d f g := by
  have hcongr := h.congr hid fun s hs => hset s hs.2
  have hlearned := hcongr.learn (r := r) fun word hword => hid.symm ▸ hr word hword
  refine hlearned.mono ?_
  intro s _ _ _
  by_cases heq : s = r
  · exact .inr heq
  · exact .inl ⟨trivial, heq⟩

/-- Once ring control says so, the channel runs or is halted. -/
theorem setRunning (h : c.Told d f (fun s => True ∧ s ≠ .ringControl) g) (running : Bool)
    (hword : g.setting d (.channel c.id .ringControl) =
      if running then RingControl.enableBoth else 0) :
    (c.setRunning running).Mirrored d f g := by
  refine of_told h rfl (fun s hs => setting?_setRunning c running hs) ?_
  intro word hset
  obtain rfl := Option.some.inj hset
  exact hword

variable (hd : d.map.Separate d.windows)
include hd

theorem start (h : c.Mirrored d f m.registers) (hc : c.Placed d) :
    (c.start m).2.1.Mirrored d f (c.start m).2.2.registers := by
  unfold Channel.start
  split
  · exact h
  split
  · exact h
  next hhalted =>
    have hhalted : c.running = false := by simpa using hhalted
    obtain ⟨htold, hword⟩ := Told.modify hd h hc (r := .ringControl) (by simp)
      (· ||| RingControl.enableBoth)
    refine setRunning htold true (hword.trans ?_)
    rw [h.at_ringControl, hhalted]
    rfl

theorem stop (h : c.Mirrored d f m.registers) (hc : c.Placed d) :
    (c.stop m).2.1.Mirrored d f (c.stop m).2.2.registers := by
  unfold Channel.stop
  split
  next hrunning =>
    obtain ⟨htold, hword⟩ := Told.modify hd h hc (r := .ringControl) (by simp)
      (· &&& ~~~RingControl.enableBoth)
    refine setRunning htold false (hword.trans ?_)
    rw [h.at_ringControl, hrunning]
    rfl
  · exact h

/-- The local reset ends with ring control as it began. -/
theorem pulseReset (h : c.Mirrored d f m.registers) (hc : c.Placed d) (us : Nat) :
    c.Mirrored d f (c.pulseReset us m).registers := by
  obtain ⟨hassert, hword⟩ := Told.modify hd h hc (r := .ringControl) (by simp)
    (· ||| RingControl.reset)
  have hdelay : c.Told d f _ ((c.registers.assertReset m).delay us).registers := hassert
  obtain ⟨hrelease, hword'⟩ := hdelay.modify hd hc (r := .ringControl) (by simp)
    (· &&& ~~~RingControl.reset)
  refine of_told (hrelease.mono fun s _ hs _ => ⟨hs, hs.2⟩) rfl (fun _ _ => rfl) ?_
  intro word hset
  obtain rfl := Option.some.inj hset
  refine (hword'.trans (congrArg (· &&& ~~~RingControl.reset) hword)).trans ?_
  rw [h.at_ringControl]
  cases c.running <;> decide

theorem program (h : c.Mirrored d f m.registers) (hc : c.Placed d) :
    c.Mirrored d f (c.program m).registers :=
  Told.program hd (h.mono fun _ _ _ _ => trivial) hc

/-- Another channel at the place of this one, which runs or is halted as it was, is mirrored once it
was programmed. -/
theorem program_of_samePlace (h : c.Mirrored d f m.registers) (hc : c.Placed d)
    (hsame : SamePlace c c') (hrun : c'.running = c.running) :
    c'.Mirrored d f (c'.program m).registers := by
  have hcontrol : c.Told d f (· = .ringControl) m.registers := h.mono fun _ _ _ _ => trivial
  refine Told.program hd (hcontrol.congr hsame.id_eq ?_) (hc.of_samePlace hsame)
  rintro s rfl
  rw [setting?, hrun, setting?]

/-- A buffer that is accepted moves the head, and the doorbell tells. -/
theorem enqueue (h : c.Mirrored d f m.registers) (hc : c.Placed d) (direction : Direction)
    (buffer : β) (length : Nat) :
    (c.enqueue direction buffer length m).2.1.Mirrored d f
      (c.enqueue direction buffer length m).2.2.registers := by
  have hregisters := m.registers_mapBuffer c.id direction (c.ring direction).head buffer length
  unfold Channel.enqueue
  split
  · exact h
  dsimp only
  split
  · exact h
  split
  next m₁ hmap =>
    rw [hmap] at hregisters
    exact hregisters ▸ h
  next addr m₁ hmap =>
    rw [hmap] at hregisters
    have hmapped : c.Mirrored d f m₁.registers := hregisters ▸ h
    have hid : (c.setRing direction ((c.ring direction).post buffer addr length)).id = c.id :=
      (SamePlace.setRing c direction _).id_eq
    have hput := Told.put hd hmapped hc (.head direction)
      (UInt32.ofNat ((c.ring direction).post buffer addr length).head)
    refine of_told hput hid ?_ ?_
    · intro s hs
      exact setting?_setRing rfl (Ring.capacity_setCell _ _ _) (.inl hs)
    · intro word hset
      rw [setting?, ring_setRing] at hset
      obtain rfl := Option.some.inj hset
      exact Told.setting_put hd hmapped hc (by simp) _

omit hd in
/-- Taking back a buffer shows in no register. -/
theorem reclaim (h : c.Mirrored d f m.registers) (direction : Direction) :
    (c.reclaim direction m).2.1.Mirrored d f (c.reclaim direction m).2.2.registers := by
  have hsame (s : Ring β) (hs : (c.ring direction).reclaim.2 = s) :
      (c.setRing direction s).Mirrored d f m.registers := by
    refine Told.congr h (SamePlace.setRing c direction s).id_eq fun r _ => ?_
    subst hs
    exact setting?_setRing (Ring.base_reclaim _) (Ring.capacity_reclaim _)
      (.inr (Ring.head_reclaim _))
  unfold Channel.reclaim
  split
  next hr => exact hsame _ (by rw [hr])
  next hr => exact hsame _ (by rw [hr])

end Mirrored

/-- An action keeps the place of a channel. -/
theorem Act.samePlace {s t : Channel β × Machine β} (ha : Act config s t) : SamePlace s.1 t.1 := by
  cases ha with
  | aside | look | clear | pulse | program => exact .refl _
  | start c m => exact (c.run_start config m).samePlace
  | stop c m => exact (c.run_stop config m).samePlace
  | enqueue c m direction buffer length =>
    cases hpost : c.enqueue direction buffer length m with
    | mk result t =>
      cases result with
      | error x =>
        have hrun : Run config c m [] t.1 t.2 := (run_enqueue_error hpost).1
        exact hrun.samePlace
      | ok =>
        have hrun : Run config c m [.accepted direction buffer] t.1 t.2 := run_enqueue_ok hpost
        exact hrun.samePlace
  | reclaim c m direction =>
    simp only [Channel.reclaim]
    split <;> exact .setRing c direction _
  | empty | overwrite => exact ⟨rfl, rfl, rfl, rfl⟩
  | reload h =>
    obtain ⟨_, _, _, _, rfl, _⟩ := of_reloadRings_ok h
    exact ⟨rfl, rfl, rfl, rfl⟩

/-- After every action of a channel that is mirrored, the channel is mirrored as it is then. -/
theorem Act.mirrored {s t : Channel β × Machine β} (ha : Act config s t)
    (hd : d.map.Separate d.windows) (hs : s.1.Placed d) (h : s.1.Mirrored d f s.2.registers) :
    t.1.Mirrored d f t.2.registers := by
  cases ha with
  | aside hregisters => exact hregisters ▸ h
  | look c m => exact Told.read hd h hs _
  | clear c m faults =>
    have hput := Told.put hd h hs .errorStatus faults.bits
    refine Mirrored.of_told hput rfl (fun _ _ => rfl) ?_
    intro word hset
    exact absurd rfl (ne_errorStatus_of_setting? hset)
  | pulse c m us => exact h.pulseReset hd hs us
  | program c m => exact h.program hd hs
  | start c m => exact h.start hd hs
  | stop c m => exact h.stop hd hs
  | enqueue c m direction buffer length => exact h.enqueue hd hs direction buffer length
  | reclaim c m direction => exact h.reclaim direction
  | empty c m =>
    have hregisters := c.registers_resetRings m
    have hreset : c.Mirrored d f (c.resetRings m).2.2.registers := hregisters ▸ h
    exact hreset.program_of_samePlace hd hs ⟨rfl, rfl, rfl, rfl⟩ rfl
  | @reload c c' m m' _ hreload =>
    have hregisters := c.registers_reloadRings config m
    rw [hreload] at hregisters
    have hloaded : c.Mirrored d f m'.registers := hregisters ▸ h
    obtain ⟨_, _, _, _, rfl, _⟩ := of_reloadRings_ok hreload
    exact hloaded.program_of_samePlace hd hs ⟨rfl, rfl, rfl, rfl⟩ rfl
  | overwrite c m writes =>
    refine Told.congr h rfl fun r _ => ?_
    cases r <;> simp only [setting?, ring_overwrite, Ring.capacity_overwrite] <;> rfl

end PacketDma.Channel
