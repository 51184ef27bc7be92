import PacketDma.Proofs.ChannelMirror

/-!
# The engine in the registers

What the engine knows of the device shows in the registers: whether it lets the device move data,
which interrupts it listens to, and every channel in its window. Operations that let the engine stay
up or down keep it so, since they consist of actions of channels.

## Implementation notes

Where there is no channel, rings are halted. Otherwise a channel that is made there later would find
its ring control set.
-/

namespace PacketDma

open RegisterFile RegisterName

variable {σ β : Type} {d : Device} {may : RegisterName → Prop}

namespace Channel

variable {c : Channel β} {f g k : RegisterFile}

/-- A channel stays mirrored as long as no register of its window changes. -/
theorem Mirrored.of_alike (h : c.Mirrored d f g) (hc : c.Placed d) (ha : g.Alike d may k)
    (hmay : ∀ r, ¬ may (.channel c.id r)) : c.Mirrored d k k := by
  refine ⟨.refl ha.wired _, ?_⟩
  intro r word _ hset
  rw [ha.setting_eq _ (hc.isSetting (ne_errorStatus_of_setting? hset)) (hmay r)]
  exact h.setting_eq r word trivial hset

end Channel

/-! ### All channels -/

namespace Plant

variable {config : Config} {count : Nat} {f : RegisterFile} {p p' : Plant β}

/-- So many channels stand at their numbers and are mirrored, and the settings of the device as a
whole are those of `f`. -/
structure Mirrored (d : Device) (count : Nat) (f : RegisterFile) (p : Plant β) :
    Prop where
  wired : p.machine.registers.Wired d
  shared : ∀ r, (RegisterName.device r).IsSetting d.windows →
    p.machine.registers.setting d (.device r) = f.setting d (.device r)
  length_eq : p.channels.length = count
  id_eq : ∀ (i : Nat) (c : Channel β), p.channels[i]? = some c → c.id = i
  placed : ∀ (i : Nat) (c : Channel β), p.channels[i]? = some c → c.Placed d
  mirrored : ∀ (i : Nat) (c : Channel β), p.channels[i]? = some c →
    c.Mirrored d p.machine.registers p.machine.registers
  spare : ∀ id < d.windows, count ≤ id →
    p.machine.registers.setting d (.channel id .ringControl) = 0

namespace Mirrored

/-- Other registers may have the same settings of the device as a whole. -/
theorem of_shared {g : RegisterFile} (h : p.Mirrored d count f)
    (hshared : ∀ r, (RegisterName.device r).IsSetting d.windows →
      f.setting d (.device r) = g.setting d (.device r)) : p.Mirrored d count g :=
  { h with shared := fun r hr => (h.shared r hr).trans (hshared r hr) }

/-- Only settings of the device as a whole change. -/
theorem of_alike (h : p.Mirrored d count f) {m : Machine β}
    (ha : p.machine.registers.Alike d RegisterName.IsShared m.registers) :
    (⟨p.channels, m⟩ : Plant β).Mirrored d count m.registers := by
  refine ⟨ha.wired, fun _ _ => rfl, h.length_eq, h.id_eq, h.placed, ?_, ?_⟩
  · intro i c hc
    exact (h.mirrored i c hc).of_alike (h.placed i c hc) ha (not_isShared_channel c.id)
  · intro id hid hle
    rw [ha.setting_eq _ (isSetting_ringControl hid) (not_isShared_channel id _)]
    exact h.spare id hid hle

/-- One channel acts, and the others see nothing of it. -/
theorem act (h : p.Mirrored d count f) (hd : d.map.Separate d.windows) {id : Nat} {c : Channel β}
    {t : Channel β × Machine β} (hc : p.channels[id]? = some c)
    (ha : Channel.Act config (c, p.machine) t) :
    (⟨p.channels.set id t.1, t.2⟩ : Plant β).Mirrored d count f := by
  have hplaced := h.placed id c hc
  have hsame := ha.samePlace
  have ht : t.1.Mirrored d p.machine.registers t.2.registers :=
    ha.mirrored hd hplaced (h.mirrored id c hc)
  have halike : p.machine.registers.Alike d (RegisterName.IsOf id) t.2.registers := by
    rw [← h.id_eq id c hc, ← hsame.id_eq]
    exact ht.alike
  have hself : t.1.Mirrored d t.2.registers t.2.registers := ⟨.refl halike.wired _, ht.setting_eq⟩
  constructor
  · exact halike.wired
  · intro r hr
    rw [halike.setting_eq _ hr (not_isOf_device id r)]
    exact h.shared r hr
  · rw [List.length_set]
    exact h.length_eq
  · intro i x hx
    rcases getElem?_replace hx with ⟨rfl, rfl⟩ | ⟨_, hx⟩
    · exact hsame.id_eq.trans (h.id_eq i c hc)
    · exact h.id_eq i x hx
  · intro i x hx
    rcases getElem?_replace hx with ⟨_, rfl⟩ | ⟨_, hx⟩
    · exact hplaced.of_samePlace hsame
    · exact h.placed i x hx
  · intro i x hx
    rcases getElem?_replace hx with ⟨_, rfl⟩ | ⟨hne, hx⟩
    · exact hself
    · refine (h.mirrored i x hx).of_alike (h.placed i x hx) halike fun r => ?_
      rw [isOf_channel_iff, h.id_eq i x hx]
      exact hne
  · intro i hi hle
    have hlt : id < count := h.length_eq ▸ (List.getElem?_eq_some_iff.mp hc).1
    rw [halike.setting_eq _ (isSetting_ringControl hi) ?_]
    · exact h.spare i hi hle
    · rw [isOf_channel_iff]
      omega

theorem acts (h : p.Mirrored d count f) (hd : d.map.Separate d.windows) (ha : Acts config p p') :
    p'.Mirrored d count f := by
  induction ha with
  | refl => exact h
  | @tail q _ _ hact ih =>
    cases hact with
    | channel hc hchannel => exact ih.act hd hc hchannel
    | @aside m hregisters =>
      have halike : q.machine.registers.Alike d IsShared m.registers := by
        rw [hregisters]
        exact .refl ih.wired _
      exact (ih.of_alike halike).of_shared fun r hr => hregisters ▸ ih.shared r hr

/-- If all channels are halted, all ring controls are zero. -/
theorem ringControl_of_halted (h : p.Mirrored d count f)
    (hhalted : ∀ c ∈ p.channels, c.running = false) :
    ∀ id < d.windows, p.machine.registers.setting d (.channel id .ringControl) = 0 := by
  intro id hid
  by_cases hlt : id < count
  · obtain ⟨c, hc⟩ : ∃ c, p.channels[id]? = some c :=
      ⟨_, List.getElem?_eq_getElem (h.length_eq ▸ hlt)⟩
    have hcontrol := (h.mirrored id c hc).at_ringControl
    rwa [h.id_eq id c hc, hhalted c (List.mem_of_getElem? hc)] at hcontrol
  · exact h.spare id hid (Nat.le_of_not_lt hlt)

/-- There are no channels, and all ring controls are zero. -/
theorem empty {m : Machine β} (hwired : m.registers.Wired d)
    (hzero : ∀ id < d.windows, m.registers.setting d (.channel id .ringControl) = 0) :
    (⟨[], m⟩ : Plant β).Mirrored d 0 m.registers :=
  ⟨hwired, fun _ _ => rfl, rfl, by simp, by simp, by simp, fun id hid _ => hzero id hid⟩

end Mirrored

end Plant

/-! ### The engine -/

namespace Engine

variable {config : Config} {base windows : Nat} {e e' : Engine β}

/-- The registers show the engine. -/
structure Mirrored (config : Config) (base windows : Nat) (e : Engine β) :
    Prop where
  idle : e.IdleEmpty
  config_eq : e.config = config
  base_eq : e.initialized = true → e.base = base
  enabled_eq : e.enabled = e.initialized
  plant : e.plant.Mirrored (config.hardware base windows) e.channels.length e.machine.registers
  control_eq : e.machine.registers.setting (config.hardware base windows) (.device .control) =
    if e.enabled then Control.dmaEnable else 0
  mask_eq : e.initialized = true →
    e.machine.registers.setting (config.hardware base windows) (.device .intMask) =
      ~~~InterruptBits.ofChannels e.channels.length

namespace Mirrored

/-- The engine is at the register base of the device while it is up. -/
theorem device_eq (h : e.Mirrored config base windows) (hup : e.initialized = true) :
    e.device = config.device base := by
  rw [device, h.config_eq, h.base_eq hup]
  rfl

/-- No setting changes. -/
theorem machine (h : e.Mirrored config base windows) {m : Machine β}
    (ha : e.machine.registers.Alike (config.hardware base windows) (fun _ => False) m.registers) :
    Mirrored config base windows { e with machine := m } := by
  refine ⟨h.idle, h.config_eq, h.base_eq, h.enabled_eq, ?_, ?_, ?_⟩
  · exact h.plant.of_alike (ha.weaken _)
  · exact (ha.setting_eq _ isSetting_control not_false).trans h.control_eq
  · intro hup
    exact (ha.setting_eq _ isSetting_intMask not_false).trans (h.mask_eq hup)

variable (hd : config.capabilities.registers.Separate windows)
include hd

theorem acts (h : e.Mirrored config base windows) (ha : Acts e e') :
    e'.Mirrored config base windows := by
  have hplant := h.plant.acts hd ha.acts
  have hlength : e'.channels.length = e.channels.length := hplant.length_eq
  constructor
  · intro hdown
    apply List.eq_nil_of_length_eq_zero
    rw [hlength, h.idle (ha.initialized_eq ▸ hdown), List.length_nil]
  · exact ha.config_eq.trans h.config_eq
  · rw [ha.initialized_eq, ha.base_eq]
    exact h.base_eq
  · rw [ha.enabled_eq, ha.initialized_eq]
    exact h.enabled_eq
  · rw [hlength]
    exact hplant.of_shared fun r hr => (hplant.shared r hr).symm
  · rw [ha.enabled_eq]
    exact (hplant.shared .control isSetting_control).trans h.control_eq
  · rw [ha.initialized_eq, hlength]
    intro hup
    exact (hplant.shared .intMask isSetting_intMask).trans (h.mask_eq hup)

/-- The interrupt status is no setting, so that looking at it and acknowledging it changes none. -/
theorem quiet (h : e.Mirrored config base windows) {m : Machine β}
    (hquiet : e.machine.Quiet
      (fun o => e.initialized = true ∧ o = e.device.offset .intStatus) m) :
    Mirrored config base windows { e with machine := m } := by
  refine h.machine (hquiet.alike hd ?_ (.refl h.plant.wired _))
  rintro o ⟨hup, rfl⟩
  rw [h.device_eq hup]
  exact ⟨.device .intStatus, rfl, trivial, fun hn => hn.2 rfl⟩

end Mirrored

end Engine

end PacketDma
