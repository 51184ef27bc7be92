import Mathlib.Data.Set.Function
import PacketDma.Proofs.RingControl

/-!
# Settings

A setting is a register that keeps what the engine writes to it: the device does not set its bits,
and ones do not clear them. As long as no two registers lie on each other, a write changes at most
the setting that it names, and a read changes none.

## Implementation notes

Registers are compared by name, so that two settings differ as soon as their names do. Effects that
leave the settings alone, or change those of one channel only, are told by what they may change.
-/

namespace PacketDma

variable {β : Type}

/-- The registers of a device, those of its channels included. -/
inductive RegisterName where
  /-- A register of the device as a whole. -/
  | device (r : DeviceRegister)
  /-- A register of one channel. -/
  | channel (id : Nat) (r : ChannelRegister)
  deriving DecidableEq, Inhabited

namespace RegisterName

/-- A device with so many windows has the register. -/
def Exists (windows : Nat) : RegisterName → Prop
  | device _ => True
  | channel id _ => id < windows

/-- The register exists and holds what was last written to it. -/
def IsSetting (windows : Nat) : RegisterName → Prop
  | device r => r ≠ .status ∧ r ≠ .intStatus
  | channel id r => id < windows ∧ r ≠ .errorStatus

/-- The register is one of the device as a whole. -/
def IsShared (n : RegisterName) : Prop := ∃ r, n = device r

/-- The register is one of a channel. -/
def IsOf (id : Nat) (n : RegisterName) : Prop := ∃ r, n = channel id r

variable {windows : Nat}

theorem isSetting_control : (device .control).IsSetting windows := ⟨by simp, by simp⟩

theorem isSetting_intMask : (device .intMask).IsSetting windows := ⟨by simp, by simp⟩

theorem isSetting_ringControl {id : Nat} (hid : id < windows) :
    (channel id .ringControl).IsSetting windows := ⟨hid, by simp⟩

theorem not_isShared_channel (id : Nat) (r : ChannelRegister) : ¬ (channel id r).IsShared := by
  rintro ⟨_, ⟨⟩⟩

theorem not_isOf_device (id : Nat) (r : DeviceRegister) : ¬ (device r).IsOf id := by
  rintro ⟨_, ⟨⟩⟩

theorem isOf_channel_iff {id id' : Nat} {r : ChannelRegister} :
    (channel id r).IsOf id' ↔ id = id' := by
  constructor
  · rintro ⟨_, ⟨⟩⟩
    rfl
  · rintro rfl
    exact ⟨r, rfl⟩

theorem IsSetting.exists {n : RegisterName} (h : n.IsSetting windows) : n.Exists windows := by
  cases n with
  | device => trivial
  | channel => exact h.1

theorem IsSetting.ne_status {n : RegisterName} (h : n.IsSetting windows) : n ≠ device .status := by
  rintro rfl
  exact h.1 rfl

end RegisterName

/-- Where a register is, counted from the register base. -/
def RegisterMap.place (map : RegisterMap) : RegisterName → Nat
  | .device r => map.deviceOffset r
  | .channel id r => map.channelOffset id + map.windowOffset r

/-- No two registers of a device with so many windows lie on each other. -/
def RegisterMap.Separate (map : RegisterMap) (windows : Nat) : Prop :=
  Set.InjOn map.place {n | n.Exists windows}

/-- The offset of a register. -/
def DeviceRegisters.place (d : DeviceRegisters) (n : RegisterName) : Nat := d.base + d.map.place n

theorem DeviceRegisters.place_device (d : DeviceRegisters) (r : DeviceRegister) :
    d.place (.device r) = d.offset r := rfl

theorem DeviceRegisters.place_channel (d : DeviceRegisters) (id : Nat) (r : ChannelRegister) :
    d.place (.channel id r) = (d.channel id).offset r := (Nat.add_assoc _ _ _).symm

theorem RegisterMap.Separate.eq_of_place {d : Device} (h : d.map.Separate d.windows)
    {n n' : RegisterName} (hn : n.Exists d.windows) (hn' : n'.Exists d.windows)
    (heq : d.place n = d.place n') : n = n' := h hn hn' (Nat.add_left_cancel heq)

/-- Where no two registers lie on each other, none lies on a ring control. -/
theorem RegisterMap.Separate.apart {map : RegisterMap} {windows : Nat}
    (h : map.Separate windows) : map.Apart windows := by
  constructor
  · intro r id hid heq
    have hr : (RegisterName.device r).Exists windows := trivial
    have hsame : RegisterName.device r = .channel id .ringControl := h hr hid heq
    cases hsame
  · intro i j r hi hj heq
    have hsame : RegisterName.channel j r = .channel i .ringControl := h hj hi heq
    cases hsame
    exact ⟨rfl, rfl⟩

/-- In the default map, a channel's registers lie apart in its window. -/
theorem RegisterMap.windowOffset_standard_injective :
    Function.Injective RegisterMap.standard.windowOffset := by
  intro r s h
  rcases r with _ | _ | _ | _ | d | d | d | d <;>
    rcases s with _ | _ | _ | _ | d' | d' | d' | d' <;> try cases d
  all_goals try cases d'
  all_goals first | rfl | exact absurd h (by decide)

theorem RegisterMap.windowOffset_standard_lt (r : ChannelRegister) :
    RegisterMap.standard.windowOffset r < RegisterMap.defaultChannelStride := by
  rcases r with _ | _ | _ | _ | d | d | d | d <;> first | decide | cases d <;> decide

/-- The default map keeps all registers apart, however many windows there are. -/
theorem RegisterMap.separate_standard (windows : Nat) :
    RegisterMap.standard.Separate windows := by
  have hdevice (r : DeviceRegister) :
      RegisterMap.standard.deviceOffset r < RegisterMap.defaultChannelBase := by
    cases r <;> decide
  rintro (r | ⟨i, r⟩) hr (s | ⟨j, s⟩) hs h
  · cases r <;> cases s <;> first | rfl | exact absurd h (by decide)
  · have := hdevice r
    simp only [place, channelOffset] at h
    have hbase : standard.channelBase = defaultChannelBase := rfl
    omega
  · have := hdevice s
    simp only [place, channelOffset] at h
    have hbase : standard.channelBase = defaultChannelBase := rfl
    omega
  · have hr := windowOffset_standard_lt r
    have hs := windowOffset_standard_lt s
    have hstride : standard.channelStride = defaultChannelStride := rfl
    simp only [place, channelOffset, hstride, defaultChannelStride] at h hr hs
    obtain rfl : i = j := by omega
    rw [windowOffset_standard_injective (Nat.add_left_cancel h)]

/-! ### The register file -/

namespace RegisterFile

variable {d : Device} {f g k : RegisterFile} {n : RegisterName}

/-- What a register holds. -/
def setting (d : Device) (n : RegisterName) (f : RegisterFile) : UInt32 :=
  f.stored.get (d.place n)

/-- The registers lie where the engine looks for them. -/
def At (d : DeviceRegisters) (f : RegisterFile) : Prop := f.map = d.map ∧ f.base = d.base

namespace At

variable {d : DeviceRegisters}

theorem of_fixed (h : f.At d) (hfixed : g.fixed = f.fixed) : g.At d := by
  obtain ⟨hmap, hbase, -⟩ := fixed_eq_iff.mp hfixed
  exact ⟨hmap.trans h.1, hbase.trans h.2⟩

theorem deviceOffset_eq (h : f.At d) (r : DeviceRegister) :
    f.deviceOffset r = d.place (.device r) := by
  rw [deviceOffset, h.1, h.2]
  rfl

theorem channelOffset_eq (h : f.At d) (id : Nat) (r : ChannelRegister) :
    f.channelOffset id r = d.place (.channel id r) := by
  rw [channelOffset, window, h.1, h.2, d.place_channel]
  rfl

end At

/-- The registers lie where the engine looks for them, with as many windows as the device has. -/
structure Fits (d : Device) (f : RegisterFile) : Prop where
  atDevice : f.At d
  windows_eq : f.windows = d.windows

namespace Fits

theorem of_fixed (h : f.Fits d) (hfixed : g.fixed = f.fixed) : g.Fits d := by
  obtain ⟨-, -, hwindows, -⟩ := fixed_eq_iff.mp hfixed
  exact ⟨h.atDevice.of_fixed hfixed, hwindows.trans h.windows_eq⟩

variable (hd : d.map.Separate d.windows)
include hd

theorem place_ne_status (h : f.Fits d) (hn : n.IsSetting d.windows) :
    d.place n ≠ f.deviceOffset .status := by
  rw [h.atDevice.deviceOffset_eq]
  intro heq
  have hstatus : n = .device .status := hd.eq_of_place hn.exists trivial heq
  exact hn.ne_status hstatus

theorem isClearedByOnes_place (h : f.Fits d) (hn : n.IsSetting d.windows) :
    f.isClearedByOnes (d.place n) = false := by
  rw [Bool.eq_false_iff]
  intro hcleared
  simp only [isClearedByOnes, Bool.or_eq_true, beq_iff_eq, List.any_eq_true, List.mem_range,
    h.windows_eq, h.atDevice.deviceOffset_eq, h.atDevice.channelOffset_eq] at hcleared
  rcases hcleared with heq | ⟨id, hid, heq⟩
  · obtain rfl : n = .device .intStatus := hd.eq_of_place hn.exists trivial heq
    exact hn.2 rfl
  · obtain rfl : n = .channel id .errorStatus := hd.eq_of_place hn.exists hid heq
    exact hn.2 rfl

theorem setting_read (h : f.Fits d) (hn : n.IsSetting d.windows) (offset : Nat) :
    (f.read offset).2.setting d n = f.setting d n :=
  stored_read (h.place_ne_status hd hn) offset

/-- A write changes the setting that it names, and no other one. -/
theorem setting_write (h : f.Fits d) (hn : n.IsSetting d.windows) {n' : RegisterName}
    (hn' : n'.Exists d.windows) (word : UInt32) :
    (f.write (d.place n') word).setting d n = if n = n' then word else f.setting d n := by
  have hstatus := h.place_ne_status hd hn
  split
  next heq =>
    subst heq
    exact stored_write_self (h.isClearedByOnes_place hd hn) hstatus word
  next hne =>
    exact stored_write_ne (fun heq => hne (hd.eq_of_place hn.exists hn' heq)) hstatus word

end Fits

/-- A register of the device, which holds no bit of it. -/
structure Bare (d : Device) (n : RegisterName) (f : RegisterFile) : Prop where
  fits : f.Fits d
  held_eq : f.held.get (d.place n) = 0

namespace Bare

/-- What no access changes leaves the register bare. -/
theorem of_fixed (h : f.Bare d n) (hfixed : g.fixed = f.fixed) : g.Bare d n := by
  refine ⟨h.fits.of_fixed hfixed, ?_⟩
  obtain ⟨-, -, -, hheld⟩ := fixed_eq_iff.mp hfixed
  rw [hheld]
  exact h.held_eq

/-- A bare register shows what is stored. -/
theorem peek_eq (h : f.Bare d n) : f.peek (d.place n) = f.setting d n := by
  rw [peek, h.held_eq, UInt32.or_zero, setting]

/-- A read shows what a bare setting holds. -/
theorem read_eq (hd : d.map.Separate d.windows) (h : f.Bare d n) (hn : n.IsSetting d.windows) :
    (f.read (d.place n)).1 = f.setting d n := by
  rw [read_eq_peek (h.fits.place_ne_status hd hn), h.peek_eq]

end Bare

/-- The registers are those of the device, which holds no bit of a setting. -/
structure Wired (d : Device) (f : RegisterFile) : Prop where
  map_eq : f.map = d.map
  base_eq : f.base = d.base
  windows_eq : f.windows = d.windows
  held_eq : ∀ n : RegisterName, n.IsSetting d.windows → f.held.get (d.place n) = 0

namespace Wired

theorem fits (h : f.Wired d) : f.Fits d := ⟨⟨h.map_eq, h.base_eq⟩, h.windows_eq⟩

theorem bare (h : f.Wired d) (hn : n.IsSetting d.windows) : f.Bare d n :=
  ⟨h.fits, h.held_eq n hn⟩

/-- What no access changes keeps the registers wired. -/
theorem of_fixed (h : f.Wired d) (hfixed : g.fixed = f.fixed) : g.Wired d := by
  obtain ⟨⟨hmap, hbase⟩, hwindows⟩ := h.fits.of_fixed hfixed
  exact ⟨hmap, hbase, hwindows, fun _ hn => ((h.bare hn).of_fixed hfixed).held_eq⟩

/-- A setting shows what it holds. -/
theorem peek_eq (h : f.Wired d) (hn : n.IsSetting d.windows) : f.peek (d.place n) = f.setting d n :=
  (h.bare hn).peek_eq

end Wired

/-- The registers of a device, with the settings that some registers had before, but for those that
may have changed. -/
structure Alike (d : Device) (may : RegisterName → Prop) (f g : RegisterFile) : Prop where
  wired : g.Wired d
  setting_eq : ∀ n : RegisterName, n.IsSetting d.windows → ¬ may n → g.setting d n = f.setting d n

namespace Alike

variable {may : RegisterName → Prop}

theorem refl (h : f.Wired d) (may : RegisterName → Prop) : f.Alike d may f :=
  ⟨h, fun _ _ _ => rfl⟩

theorem trans (h : f.Alike d may g) (h' : g.Alike d may k) : f.Alike d may k :=
  ⟨h'.wired, fun n hn hmay => (h'.setting_eq n hn hmay).trans (h.setting_eq n hn hmay)⟩

theorem mono {wider : RegisterName → Prop} (hw : ∀ n, may n → wider n) (h : f.Alike d may g) :
    f.Alike d wider g :=
  ⟨h.wired, fun n hn hnot => h.setting_eq n hn fun hmay => hnot (hw n hmay)⟩

/-- If no setting has changed, any may have. -/
theorem weaken (h : f.Alike d (fun _ => False) g) (may : RegisterName → Prop) :
    f.Alike d may g := h.mono fun _ hn => hn.elim

variable (hd : d.map.Separate d.windows)
include hd

theorem read (h : f.Alike d may g) (offset : Nat) : f.Alike d may (g.read offset).2 := by
  refine ⟨h.wired.of_fixed (g.fixed_read offset), ?_⟩
  intro n hn hmay
  rw [h.wired.fits.setting_read hd hn]
  exact h.setting_eq n hn hmay

/-- A write goes to a register that may change, or to one that is no setting. -/
theorem write (h : f.Alike d may g) {n : RegisterName} (hn : n.Exists d.windows)
    (hmay : n.IsSetting d.windows → may n) (word : UInt32) :
    f.Alike d may (g.write (d.place n) word) := by
  refine ⟨h.wired.of_fixed (g.fixed_write _ word), ?_⟩
  intro n' hn' hnot
  rw [h.wired.fits.setting_write hd hn' hn, if_neg ?_]
  · exact h.setting_eq n' hn' hnot
  · rintro rfl
    exact hnot (hmay hn')

end Alike

/-- The registers of a device, with the settings that some registers had before, but for one. -/
structure Sets (d : Device) (n : RegisterName) (word : UInt32) (f g : RegisterFile) :
    Prop where
  alike : f.Alike d (· = n) g
  setting_eq : g.setting d n = word

namespace Sets

variable {word word' : UInt32}

theorem trans (h : f.Sets d n word g) (h' : g.Sets d n word' k) : f.Sets d n word' k :=
  ⟨h.alike.trans h'.alike, h'.setting_eq⟩

/-- If the one setting is as it was, no setting has changed. -/
theorem alike_of_eq (h : f.Sets d n word g) (hword : word = f.setting d n) :
    f.Alike d (fun _ => False) g := by
  refine ⟨h.alike.wired, fun n' hn' _ => ?_⟩
  by_cases heq : n' = n
  · rw [heq, h.setting_eq, hword]
  · exact h.alike.setting_eq n' hn' heq

theorem of_write (hd : d.map.Separate d.windows) (h : f.Wired d) (hn : n.IsSetting d.windows)
    (word : UInt32) :
    f.Sets d n word (f.write (d.place n) word) := by
  refine ⟨(Alike.refl h (· = n)).write hd hn.exists (fun _ => rfl) word, ?_⟩
  rw [h.fits.setting_write hd hn hn.exists, if_pos rfl]

end Sets

end RegisterFile

/-! ### The machine -/

namespace Machine

variable {d : Device} {may : RegisterName → Prop} {f : RegisterFile} {m m' : Machine β}
  {n : RegisterName}

/-- A bare setting that is read and written back becomes what the change makes of it. -/
theorem setting_modify (hd : d.map.Separate d.windows) (h : m.registers.Bare d n)
    (hn : n.IsSetting d.windows) (change : UInt32 → UInt32) :
    (m.modify (d.place n) change).registers.setting d n =
      change (m.registers.setting d n) := by
  have hread := h.of_fixed (m.registers.fixed_read (d.place n))
  have hwrite := hread.fits.setting_write hd hn hn.exists
    (change (m.registers.read (d.place n)).1)
  rw [if_pos rfl] at hwrite
  exact hwrite.trans (congrArg change (h.read_eq hd hn))

theorem sets_modify (hd : d.map.Separate d.windows) (h : m.registers.Wired d)
    (hn : n.IsSetting d.windows) (change : UInt32 → UInt32) :
    m.registers.Sets d n (change (m.registers.setting d n))
      (m.modify (d.place n) change).registers := by
  have hread := (RegisterFile.Alike.refl h (· = n)).read hd (d.place n)
  exact ⟨hread.write hd hn.exists (fun _ => rfl) _, setting_modify hd (h.bare hn) hn change⟩

/-- Quiet effects change settings only where they may write. -/
theorem Quiet.alike {writable : Nat → Prop} (hd : d.map.Separate d.windows)
    (hq : m.Quiet writable m') (hw : ∀ o, writable o → ∃ n : RegisterName,
      o = d.place n ∧ n.Exists d.windows ∧ (n.IsSetting d.windows → may n))
    (h : f.Alike d may m.registers) : f.Alike d may m'.registers := by
  induction hq with
  | refl => exact h
  | read _ offset ih => exact ih.read hd offset
  | write _ ho word ih =>
    obtain ⟨n, rfl, hn, hmay⟩ := hw _ ho
    exact ih.write hd hn hmay word
  | note _ _ ih => exact ih
  | aside _ _ _ _ ih => exact ih

/-- Effects that write to no register change no setting. -/
theorem Quiet.alike_of_reads (hd : d.map.Separate d.windows)
    (hq : m.Quiet (fun _ => False) m') (h : f.Alike d may m.registers) :
    f.Alike d may m'.registers :=
  hq.alike hd (fun _ ho => ho.elim) h

end Machine

end PacketDma
