import PacketDma.Proofs.RegisterMirror

/-!
# Going up and down in the registers

A device reset leaves control as it was, and a channel that is made or given up is halted and
touches no register. So the registers show the engine again once it came up, once it failed to come
up, wherever that was, and once it went down.

## Implementation notes

While the engine comes up, the registers run ahead of it: the device may move data before there is
a channel. What holds in between is told by the settings that changed.
-/

namespace PacketDma

open RegisterFile RegisterName

variable {β : Type} {config : Config} {base windows : Nat} {d : Device} {m m' : Machine β}

theorem Config.device_mk (config : Config) (base : Nat) :
    (⟨config.capabilities.registers, base⟩ : DeviceRegisters) = config.device base := rfl

/-! ### The device as a whole -/

namespace Device

theorem sets_modify (hd : d.map.Separate d.windows) (hwired : m.registers.Wired d)
    {r : DeviceRegister} (hr : (RegisterName.device r).IsSetting d.windows)
    (change : UInt32 → UInt32) :
    m.registers.Sets d (.device r) (change (m.registers.setting d (.device r)))
      (m.modify (d.offset r) change).registers := Machine.sets_modify hd hwired hr change

theorem sets_write (hd : d.map.Separate d.windows) (hwired : m.registers.Wired d)
    {r : DeviceRegister} (hr : (RegisterName.device r).IsSetting d.windows) (word : UInt32) :
    m.registers.Sets d (.device r) word (d.write r word m).registers :=
  Sets.of_write hd hwired hr word

/-- A device reset puts its bit into control and takes it away again. -/
theorem sets_resetDevice (hd : d.map.Separate d.windows) (hwired : m.registers.Wired d)
    (timing : ResetTiming) :
    m.registers.Sets d (.device .control)
      ((m.registers.setting d (.device .control) ||| Control.reset) &&& ~~~Control.reset)
      (d.resetDevice timing m).2.registers := by
  have hassert := d.sets_modify hd hwired isSetting_control (· ||| Control.reset)
  have hdelay : m.registers.Sets d (.device .control) _
      ((d.assertReset m).delay timing.settleUs).registers := hassert
  have hclear := d.sets_modify hd hdelay.alike.wired isSetting_control (· &&& ~~~Control.reset)
  rw [hdelay.setting_eq] at hclear
  have hpulse := hdelay.trans hclear
  have hwait : (d.releaseReset ((d.assertReset m).delay timing.settleUs)).registers.Alike d
      (fun _ => False) (d.resetDevice timing m).2.registers :=
    (DeviceRegisters.quiet_awaitReady (.refl _) _ _).alike_of_reads hd (.refl hpulse.alike.wired _)
  exact ⟨hpulse.alike.trans (hwait.weaken _),
    (hwait.setting_eq _ isSetting_control not_false).trans hpulse.setting_eq⟩

theorem alike_resetDevice (hd : d.map.Separate d.windows) (hwired : m.registers.Wired d)
    (hcontrol : m.registers.setting d (.device .control) = 0) (timing : ResetTiming) :
    m.registers.Alike d (fun _ => False) (d.resetDevice timing m).2.registers := by
  refine (d.sets_resetDevice hd hwired timing).alike_of_eq ?_
  rw [hcontrol]
  rfl

theorem sets_disableDma (hd : d.map.Separate d.windows) (hwired : m.registers.Wired d) :
    m.registers.Sets d (.device .control)
      (m.registers.setting d (.device .control) &&& ~~~Control.dmaEnable)
      (d.disableDma m).registers :=
  d.sets_modify hd hwired isSetting_control (· &&& ~~~Control.dmaEnable)

/-- A change of one register of the device as a whole. -/
theorem alike_of_sets {f g : RegisterFile} {r : DeviceRegister} {word : UInt32}
    (h : f.Sets d (.device r) word g) : f.Alike d IsShared g :=
  h.alike.mono fun _ hn => ⟨r, hn⟩

/-- A change of one register of the device leaves the other ones. -/
theorem setting_of_sets {f g : RegisterFile} {r s : DeviceRegister} {word : UInt32}
    (h : f.Sets d (.device r) word g) (hs : (RegisterName.device s).IsSetting d.windows)
    (hne : s ≠ r) : g.setting d (.device s) = f.setting d (.device s) := by
  refine h.alike.setting_eq _ hs ?_
  rintro ⟨⟩
  exact hne rfl

/-- The registers of a device that was set up and knows of no channel: it may move data, but no ring
is enabled, and no interrupt comes through. -/
structure Configured (d : Device) (f : RegisterFile) : Prop where
  wired : f.Wired d
  control_eq : f.setting d (.device .control) = Control.dmaEnable
  mask_eq : f.setting d (.device .intMask) = InterruptBits.all
  ringControl_eq : ∀ id < d.windows, f.setting d (.channel id .ringControl) = 0

/-- Setting up a device on which nothing runs changes settings of the device as a whole only. -/
theorem configured_configureDevice (hd : d.map.Separate d.windows) (hwired : m.registers.Wired d)
    (hcontrol : m.registers.setting d (.device .control) = 0)
    (hrings : ∀ id < d.windows, m.registers.setting d (.channel id .ringControl) = 0)
    (config : Config) :
    m.registers.Alike d IsShared (Engine.configureDevice config d m).registers ∧
      d.Configured (Engine.configureDevice config d m).registers := by
  have hmask := d.sets_write hd hwired isSetting_intMask InterruptBits.all
  have hdma := d.sets_write hd hmask.alike.wired (r := .dmaConfig) ⟨by simp, by simp⟩
    (config.capabilities.features.dmaConfig config.burstLength)
  have henable := d.sets_modify hd hdma.alike.wired isSetting_control (· ||| Control.dmaEnable)
  have halike := ((alike_of_sets hmask).trans (alike_of_sets hdma)).trans (alike_of_sets henable)
  have hzero := (setting_of_sets hdma isSetting_control (by simp)).trans
    ((setting_of_sets hmask isSetting_control (by simp)).trans hcontrol)
  have hon := henable.setting_eq
  rw [hzero, UInt32.zero_or] at hon
  have hsilent := (setting_of_sets henable isSetting_intMask (by simp)).trans
    ((setting_of_sets hdma isSetting_intMask (by simp)).trans hmask.setting_eq)
  -- What is left is to count performance, which touches none of these settings.
  have hends {g : RegisterFile} (hg : m.registers.Alike d IsShared g)
      (hcontrol : g.setting d (.device .control) = Control.dmaEnable)
      (hmask : g.setting d (.device .intMask) = InterruptBits.all) :
      m.registers.Alike d IsShared g ∧ d.Configured g := by
    refine ⟨hg, hg.wired, hcontrol, hmask, fun id hid => ?_⟩
    rw [hg.setting_eq _ (isSetting_ringControl hid) (not_isShared_channel id _)]
    exact hrings id hid
  unfold Engine.configureDevice
  dsimp only
  split
  · have hperf := d.sets_write hd henable.alike.wired (r := .perfControl) ⟨by simp, by simp⟩
      (PerfControl.clear ||| PerfControl.enable)
    apply hends (halike.trans (alike_of_sets hperf))
    · exact (setting_of_sets hperf isSetting_control (by simp)).trans hon
    · exact (setting_of_sets hperf isSetting_intMask (by simp)).trans hsilent
  · exact hends halike hon hsilent

/-- The interrupt status is no setting. -/
theorem alike_ackInterrupts (hd : d.map.Separate d.windows) (hwired : m.registers.Wired d)
    (bits : UInt32) : m.registers.Alike d (fun _ => False) (d.ackInterrupts bits m).registers :=
  (Alike.refl hwired _).write (n := .device .intStatus) hd trivial (fun hn => hn.2 rfl) bits

/-- A device that was silenced moves no data any more. -/
theorem of_quietDevice (hd : d.map.Separate d.windows) (hwired : m.registers.Wired d) :
    m.registers.Alike d IsShared (Engine.quietDevice d m).registers ∧
      (Engine.quietDevice d m).registers.setting d (.device .control) =
        m.registers.setting d (.device .control) &&& ~~~Control.dmaEnable := by
  have hdisable := d.sets_disableDma hd hwired
  have hmask := d.sets_write hd hdisable.alike.wired isSetting_intMask InterruptBits.all
  have hack := d.alike_ackInterrupts hd hmask.alike.wired InterruptBits.all
  constructor
  · exact ((alike_of_sets hdisable).trans (alike_of_sets hmask)).trans
      (hack.weaken _)
  · exact (hack.setting_eq _ isSetting_control not_false).trans
      ((setting_of_sets hmask isSetting_control (by simp)).trans hdisable.setting_eq)

end Device

/-! ### Rows of channels -/

namespace Channel

variable {c : Channel β}

/-- Giving up a halted channel touches no register. -/
theorem registers_deinit (hhalted : c.running = false) (m : Machine β) :
    (c.deinit m).2.2.registers = m.registers := by
  have hstop : c.stop m = (false, c, m) := by
    unfold stop
    rw [hhalted]
    rfl
  unfold deinit
  split
  · rfl
  · rw [hstop]
    exact (registers_releaseRing _ _ _ _).trans (registers_releaseRing _ _ _ _)

theorem registers_build (id window : Nat) (config : Config) (m : Machine β) :
    (build id window config m).2.registers = m.registers := by
  have hrings := registers_buildRings id config m
  unfold build
  split
  next he => rwa [he] at hrings
  next he =>
    rw [he] at hrings
    exact hrings

/-- A halted channel is mirrored once the device was told about it, if its ring control is zero. -/
theorem mirrored_program (hd : d.map.Separate d.windows) (hc : c.Placed d)
    (hhalted : c.running = false) (hwired : m.registers.Wired d)
    (hzero : m.registers.setting d (.channel c.id .ringControl) = 0) :
    c.Mirrored d m.registers (c.program m).registers := by
  refine Told.program hd ⟨.refl hwired _, ?_⟩ hc
  rintro r word rfl hset
  rw [setting?, hhalted] at hset
  exact hzero.trans (Option.some.inj hset)

/-- Halted channels of different numbers are all mirrored once the device was told about each. -/
theorem mirrored_programs (hd : d.map.Separate d.windows) {channels : List (Channel β)}
    (hdistinct : channels.Pairwise fun c c' => c.id ≠ c'.id)
    (hplaced : ∀ c ∈ channels, c.Placed d) (hhalted : ∀ c ∈ channels, c.running = false)
    (hwired : m.registers.Wired d)
    (hzero : ∀ c ∈ channels, m.registers.setting d (.channel c.id .ringControl) = 0) :
    m.registers.Alike d (fun n => ∃ c ∈ channels, n.IsOf c.id)
        (channels.foldl (fun m c => c.program m) m).registers ∧
      ∀ c ∈ channels, c.Mirrored d (channels.foldl (fun m c => c.program m) m).registers
        (channels.foldl (fun m c => c.program m) m).registers := by
  induction channels generalizing m with
  | nil => exact ⟨.refl hwired _, by simp⟩
  | cons c rest ih =>
    obtain ⟨hne, hrest⟩ := List.pairwise_cons.mp hdistinct
    simp only [List.forall_mem_cons] at hplaced hhalted hzero
    have hfirst := mirrored_program hd hplaced.1 hhalted.1 hwired hzero.1
    have hzero' : ∀ x ∈ rest,
        (c.program m).registers.setting d (.channel x.id .ringControl) = 0 := by
      intro x hx
      rw [hfirst.alike.setting_eq _ ((hplaced.2 x hx).isSetting (by simp)) ?_]
      · exact hzero.2 x hx
      · rw [isOf_channel_iff]
        exact (hne x hx).symm
    obtain ⟨halike, hmirrored⟩ := ih hrest hplaced.2 hhalted.2 hfirst.alike.wired hzero'
    refine ⟨?_, List.forall_mem_cons.mpr ⟨?_, hmirrored⟩⟩
    · refine (hfirst.alike.mono ?_).trans (halike.mono ?_)
      · exact fun n hn => ⟨c, by simp, hn⟩
      · rintro n ⟨x, hx, hn⟩
        exact ⟨x, by simp [hx], hn⟩
    · refine hfirst.of_alike hplaced.1 halike ?_
      rintro r ⟨x, hx, hn⟩
      exact hne x hx (isOf_channel_iff.mp hn)

end Channel

namespace Engine

/-- Giving up halted channels touches no register. -/
theorem registers_deinitChannels {channels : List (Channel β)}
    (hhalted : ∀ c ∈ channels, c.running = false) (m : Machine β) :
    (deinitChannels channels m).2.registers = m.registers := by
  induction channels generalizing m with
  | nil => rfl
  | cons c rest ih =>
    have hrest := ih (fun x hx => hhalted x (by simp [hx])) (c.deinit m).2.2
    exact hrest.trans (Channel.registers_deinit (hhalted c (by simp)) m)

/-- Making channels touches no register, whether it succeeds or not. -/
theorem registers_buildChannels {made : List (Channel β)}
    (hmade : ∀ c ∈ made, c.running = false) (ids : List Nat) (m : Machine β) :
    (buildChannels config base made ids m).2.registers = m.registers := by
  induction ids generalizing made m with
  | nil => rfl
  | cons id rest ih =>
    have hbuild := Channel.registers_build id
      (base + config.capabilities.registers.channelOffset id) config m
    unfold buildChannels
    split
    next he =>
      rw [he] at hbuild
      exact (registers_deinitChannels hmade _).trans hbuild
    next c m₁ he =>
      rw [he] at hbuild
      obtain ⟨_, _, _, _, hhalted, _⟩ := Channel.of_build he
      refine (ih ?_ m₁).trans hbuild
      intro x hx
      rcases List.mem_append.mp hx with hx | hx
      · exact hmade x hx
      · rw [List.mem_singleton.mp hx]
        exact hhalted

theorem registers_buildRow (config : Config) (base count : Nat) (m : Machine β) :
    (buildRow config base count m).2.registers = m.registers := by
  generalize hrow : buildRow config base count m = row
  obtain ⟨result, m'⟩ := row
  obtain ⟨n, hn, ⟨-, rfl⟩ | hbuild⟩ := buildRow_cases hrow
  · rw [hn]
  · have hkept : (buildChannels config base [] (List.range' 0 count) n).2.registers = _ :=
      registers_buildChannels (by simp) _ n
    rw [hbuild, hn] at hkept
    exact hkept

/-- The channels that are made stand at their numbers. -/
theorem placed_of_buildChannels {k : Nat} {made channels : List (Channel β)}
    (hk : made.length + k ≤ windows)
    (hmade : ∀ (i : Nat) (c : Channel β), made[i]? = some c →
      c.id = i ∧ c.Placed (config.hardware base windows))
    (h : buildChannels config base made (List.range' made.length k) m = (.ok channels, m')) :
    ∀ (i : Nat) (c : Channel β), channels[i]? = some c →
      c.id = i ∧ c.Placed (config.hardware base windows) := by
  induction k generalizing made m with
  | zero =>
    obtain rfl := Except.ok.inj (Prod.mk.inj h).1
    exact hmade
  | succ k ih =>
    simp only [List.range'_succ, buildChannels] at h
    split at h
    · simp at h
    next c m₁ hc =>
      have hlength : (made ++ [c]).length = made.length + 1 := by simp
      rw [← hlength] at h
      obtain ⟨hid, hwindow, hmap, _, _, _⟩ := Channel.of_build hc
      refine ih (by omega) ?_ h
      intro i x hx
      rcases Plant.getElem?_build hx with ⟨rfl, rfl⟩ | hx
      · refine ⟨hid, hid ▸ (by show made.length < windows; omega), ?_⟩
        rw [Channel.registers, hmap, hwindow, hid]
        rfl
      · exact hmade i x hx

theorem placed_of_buildRow {count : Nat} {channels : List (Channel β)}
    (hcount : count ≤ windows) (h : buildRow config base count m = (.ok channels, m')) :
    ∀ (i : Nat) (c : Channel β), channels[i]? = some c →
      c.id = i ∧ c.Placed (config.hardware base windows) := by
  obtain ⟨n, -, ⟨hfailed, -⟩ | hbuild⟩ := buildRow_cases h
  · cases hfailed
  · exact placed_of_buildChannels (by simpa using hcount) (by simp) hbuild

/-- Halting channels in their order consists of actions. -/
theorem acts_haltChannels (config : Config) (before rest : List (Channel β)) (m : Machine β) :
    Plant.Acts config ⟨before ++ rest, m⟩
      ⟨before ++ (haltChannels rest m).1, (haltChannels rest m).2⟩ := by
  induction rest generalizing before m with
  | nil => exact .refl
  | cons c rest ih =>
    have hc : (before ++ c :: rest)[before.length]? = some c := by simp
    have hstop : Plant.Acts config ⟨before ++ c :: rest, m⟩ ⟨_, (c.stop m).2.2⟩ :=
      Plant.acts_channel hc (.single (.stop c m))
    rw [List.set_append_right _ _ (Nat.le_refl _), Nat.sub_self, List.set_cons_zero] at hstop
    have hrest := ih (before ++ [(c.stop m).2.1]) (c.stop m).2.2
    simp only [List.append_assoc, List.singleton_append] at hrest
    exact Relation.ReflTransGen.trans hstop hrest

/-! ### Going up -/

/-- Halted channels at their numbers show in the registers once the device was told about each, and
no setting of the device as a whole has changed by that. -/
theorem mirrored_programs (hd : d.map.Separate d.windows) {channels : List (Channel β)}
    (hplaced : ∀ (i : Nat) (c : Channel β), channels[i]? = some c → c.id = i ∧ c.Placed d)
    (hhalted : ∀ c ∈ channels, c.running = false) (hm : d.Configured m.registers) :
    (⟨channels, channels.foldl (fun m c => c.program m) m⟩ : Plant β).Mirrored d channels.length
      m.registers := by
  have hmem : ∀ c ∈ channels, c.id < channels.length ∧ c.Placed d := by
    intro c hc
    obtain ⟨i, hi, rfl⟩ := List.getElem_of_mem hc
    obtain ⟨hid, hplace⟩ := hplaced i _ (List.getElem?_eq_getElem hi)
    exact ⟨by omega, hplace⟩
  have hdistinct : channels.Pairwise fun c c' => c.id ≠ c'.id := by
    rw [List.pairwise_iff_getElem]
    intro i j hi hj hlt
    rw [(hplaced i _ (List.getElem?_eq_getElem hi)).1,
      (hplaced j _ (List.getElem?_eq_getElem hj)).1]
    omega
  obtain ⟨halike, hmirrored⟩ := Channel.mirrored_programs hd hdistinct
    (fun c hc => (hmem c hc).2) hhalted hm.wired fun c hc =>
      hm.ringControl_eq c.id (hmem c hc).2.id_lt
  constructor
  · exact halike.wired
  · intro r hr
    refine halike.setting_eq _ hr ?_
    rintro ⟨c, _, hn⟩
    exact not_isOf_device c.id r hn
  · rfl
  · exact fun i c hc => (hplaced i c hc).1
  · exact fun i c hc => (hplaced i c hc).2
  · exact fun i c hc => hmirrored c (List.mem_of_getElem? hc)
  · intro id hid hle
    rw [halike.setting_eq _ (isSetting_ringControl hid) ?_]
    · exact hm.ringControl_eq id hid
    · rintro ⟨c, hc, hn⟩
      have hlt := (hmem c hc).1
      have heq := isOf_channel_iff.mp hn
      omega

/-- Channels that are opened at their numbers show in the registers, and their interrupts come
through. -/
theorem mirrored_openDevice (hd : d.map.Separate d.windows) {channels : List (Channel β)}
    (hplaced : ∀ (i : Nat) (c : Channel β), channels[i]? = some c → c.id = i ∧ c.Placed d)
    (hhalted : ∀ c ∈ channels, c.running = false) (hm : d.Configured m.registers) :
    (⟨channels, openDevice d channels channels.length m⟩ : Plant β).Mirrored d channels.length
        (openDevice d channels channels.length m).registers ∧
      (openDevice d channels channels.length m).registers.setting d (.device .control) =
        Control.dmaEnable ∧
      (openDevice d channels channels.length m).registers.setting d (.device .intMask) =
        ~~~InterruptBits.ofChannels channels.length := by
  have hprogrammed := mirrored_programs hd hplaced hhalted hm
  have hack := d.alike_ackInterrupts hd hprogrammed.wired InterruptBits.all
  have hunmask := d.sets_modify hd hack.wired isSetting_intMask
    (· &&& ~~~InterruptBits.ofChannels channels.length)
  refine ⟨hprogrammed.of_alike ?_, ?_, ?_⟩
  · exact (hack.weaken _).trans (Device.alike_of_sets hunmask)
  · exact (Device.setting_of_sets hunmask isSetting_control (by simp)).trans
      ((hack.setting_eq _ isSetting_control not_false).trans
        ((hprogrammed.shared .control isSetting_control).trans hm.control_eq))
  · refine hunmask.setting_eq.trans ?_
    rw [hack.setting_eq _ isSetting_intMask not_false,
      hprogrammed.shared .intMask isSetting_intMask, hm.mask_eq]
    exact UInt32.toBitVec_inj.mp BitVec.allOnes_and

/-! ### Going down -/

/-- A silenced device whose halted channels are given up shows none, and moves no data. -/
theorem mirrored_giveUp (hd : d.map.Separate d.windows) {count : Nat} {f : RegisterFile}
    {p : Plant β} (h : p.Mirrored d count f) (hhalted : ∀ c ∈ p.channels, c.running = false)
    (hm : m.registers = p.machine.registers) :
    (⟨[], (deinitChannels p.channels (quietDevice d m)).2⟩ : Plant β).Mirrored d 0
        (deinitChannels p.channels (quietDevice d m)).2.registers ∧
      (deinitChannels p.channels (quietDevice d m)).2.registers.setting d (.device .control) =
        f.setting d (.device .control) &&& ~~~Control.dmaEnable := by
  obtain ⟨hquiet, hcontrol⟩ := Device.of_quietDevice (m := m) hd (hm ▸ h.wired)
  rw [← registers_deinitChannels hhalted (quietDevice d m)] at hquiet hcontrol
  rw [hm] at hquiet hcontrol
  refine ⟨.empty hquiet.wired fun id hid => ?_, ?_⟩
  · rw [hquiet.setting_eq _ (isSetting_ringControl hid) (not_isShared_channel id _)]
    exact h.ringControl_of_halted hhalted id hid
  · rw [hcontrol, h.shared .control isSetting_control]

namespace Mirrored

variable {e e' : Engine β}

/-- An engine that is down stays down, and so does the bit that lets the device move data. -/
theorem stayDown (h : e.Mirrored config base windows) (hdown : e.initialized = false)
    (ha : e.machine.registers.Alike (config.hardware base windows) IsShared m.registers)
    (hcontrol : m.registers.setting (config.hardware base windows) (.device .control) = 0) :
    Mirrored config base windows { e with machine := m } := by
  have hoff : e.enabled = false := h.enabled_eq.trans hdown
  refine ⟨h.idle, h.config_eq, h.base_eq, h.enabled_eq, h.plant.of_alike ha, ?_, ?_⟩
  · rw [hcontrol, hoff]
    rfl
  · intro hup
    exact Bool.noConfusion (hdown.symm.trans hup)

theorem control_of_down (h : e.Mirrored config base windows) (hdown : e.initialized = false) :
    e.machine.registers.setting (config.hardware base windows) (.device .control) = 0 := by
  rw [h.control_eq, h.enabled_eq, hdown]
  rfl

variable (hd : config.capabilities.registers.Separate windows)
include hd

/-- With its channels made the engine is up. If one of them cannot be made, it stays down, and the
device moves no data. -/
theorem bringUp (h : e.Mirrored config base windows) (hdown : e.initialized = false) {count : Nat}
    (hlimit : config.channelLimit ≤ windows) (hcount : count ≤ config.channelLimit)
    (ha : e.machine.registers.Alike (config.hardware base windows) (fun _ => False) m.registers)
    (monitor : Monitor) (policies : PolicyTable) :
    (e.bringUp base count monitor policies m).2.Mirrored config base windows := by
  obtain rfl := h.config_eq
  have hreset := h.machine ha
  obtain ⟨hset, hconfigured⟩ :=
    Device.configured_configureDevice (d := e.config.hardware base windows) hd ha.wired
      (hreset.control_of_down hdown)
      (hreset.plant.ringControl_of_halted (by simp [Engine.plant, h.idle hdown])) e.config
  have hbuild := registers_buildRow e.config base count
    (configureDevice e.config (e.config.hardware base windows) m)
  unfold Engine.bringUp
  rw [Config.device_mk, ← e.config.toDeviceRegisters_hardware base windows]
  dsimp only
  split
  next x m₁ hfailed =>
    rw [hfailed] at hbuild
    dsimp only at hbuild
    rw [← hbuild] at hset hconfigured
    have hdisable := Device.sets_disableDma hd hset.wired
    have halike := hset.trans (Device.alike_of_sets hdisable)
    refine h.stayDown hdown ((ha.weaken _).trans halike) ?_
    rw [hdisable.setting_eq, hconfigured.control_eq]
    rfl
  next channels m₁ hmade =>
    rw [hmade] at hbuild
    dsimp only at hbuild
    rw [← hbuild] at hconfigured
    obtain ⟨_, rfl, hfresh⟩ := run_buildRow_ok (Eq.refl base) hcount hmade
    have hplaced := placed_of_buildRow (Nat.le_trans hcount hlimit) hmade
    obtain ⟨hplant, hcontrol, hmask⟩ := mirrored_openDevice hd hplaced
      (fun c hc => (hfresh c hc).running_eq) hconfigured
    exact
      { idle := fun hdown => Bool.noConfusion hdown
        config_eq := rfl
        base_eq := fun _ => rfl
        enabled_eq := rfl
        plant := hplant.of_alike (.refl hplant.wired _)
        control_eq := hcontrol
        mask_eq := fun _ => hmask }

/-- Wherever coming up fails, the registers still show an engine that is down. -/
theorem resetAndBringUp (h : e.Mirrored config base windows) (hdown : e.initialized = false)
    {count : Nat} (hlimit : config.channelLimit ≤ windows) (hcount : count ≤ config.channelLimit) :
    (e.resetAndBringUp base count).2.Mirrored config base windows := by
  obtain rfl := h.config_eq
  have hreset := Device.alike_resetDevice (d := e.config.hardware base windows) (m := e.machine) hd
    h.plant.wired (h.control_of_down hdown) (resetTiming e.config)
  unfold Engine.resetAndBringUp
  rw [Config.device_mk, ← e.config.toDeviceRegisters_hardware base windows]
  dsimp only
  split
  next he =>
    rw [he] at hreset
    exact h.machine hreset
  next m₁ he =>
    rw [he] at hreset
    have hstorage {α : Type} {made result : Except Error α} {n n' : Machine β}
        (he : n.reserve made = (result, n')) (ha : e.machine.registers.Alike
          (e.config.hardware base windows) (fun _ => False) n.registers) :
        e.machine.registers.Alike (e.config.hardware base windows) (fun _ => False)
          n'.registers := by
      rwa [Machine.registers_of_reserve he]
    split
    next hmonitor => exact h.machine (hstorage hmonitor hreset)
    next hmonitor =>
      split
      next hpolicies => exact h.machine (hstorage hpolicies (hstorage hmonitor hreset))
      next hpolicies =>
        exact h.bringUp hd hdown hlimit hcount (hstorage hpolicies (hstorage hmonitor hreset)) _ _

theorem init (h : e.Mirrored config base windows) (hlimit : config.channelLimit ≤ windows)
    (count : Nat) : (e.init base count).2.Mirrored config base windows := by
  unfold Engine.init
  split
  · exact h
  next hdown =>
    have hdown : e.initialized = false := by simpa using hdown
    split
    · exact h
    next hvalid =>
      split
      · exact h
      next hcount =>
        obtain rfl := h.config_eq
        exact h.resetAndBringUp hd hdown hlimit (count_le_of_valid hvalid hcount)

/-- After the engine went down every ring is halted, and the device moves no data. -/
theorem deinit (h : e.Mirrored config base windows) (he : e.deinit? = some e') :
    e'.Mirrored config base windows := by
  obtain rfl := h.config_eq
  obtain ⟨-, rfl⟩ | ⟨hup, hdown, m, text, -, hregisters, hmachine⟩ := of_deinit he
  · exact h
  have hacts := acts_haltChannels e.config [] e.channels e.machine
  simp only [List.nil_append] at hacts
  obtain ⟨hempty, hcontrol⟩ := mirrored_giveUp hd (h.plant.acts hd hacts)
    (running_haltChannels e.channels e.machine) hregisters
  have hends : e'.machine.registers = (deinitChannels (haltChannels e.channels e.machine).1
      (quietDevice (e.config.hardware base windows) m)).2.registers := by
    rw [hmachine, h.device_eq hup]
    rfl
  have hoff : (if e.enabled = true then Control.dmaEnable else 0) &&& ~~~Control.dmaEnable = 0 := by
    cases e.enabled <;> rfl
  constructor
  · exact fun _ => hdown.channels_eq
  · exact hdown.config_eq
  · exact fun hup => Bool.noConfusion (hdown.initialized_eq.symm.trans hup)
  · rw [hdown.enabled_eq, hdown.initialized_eq]
  · rw [Engine.plant, hdown.channels_eq]
    refine hempty.of_alike ?_
    rw [hends]
    exact .refl hempty.wired _
  · rw [hends, hdown.enabled_eq]
    exact hcontrol.trans (h.control_eq ▸ hoff)
  · exact fun hup => Bool.noConfusion (hdown.initialized_eq.symm.trans hup)

end Mirrored

end Engine

end PacketDma
