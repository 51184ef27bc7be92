import PacketDma.Proofs.LifecycleMirror
import PacketDma.Proofs.OperationActions
import PacketDma.Proofs.RingShape

/-!
# Agreement of registers and engine

A device that starts with its settings at zero and changes none of them sees the engine as it is,
after every operation of every history: what the engine lets it do, and each ring where it is, as
large as it is and filled as far as it is.

## Implementation notes

The device may do as it likes with registers that are no settings. So the agreement is stated for a
world that leaves settings alone, and raising status bits is shown to be such a change.
-/

namespace PacketDma

open RegisterFile RegisterName

variable {σ β : Type}

/-- Setting bits of a register that is no setting changes none. -/
theorem RegisterFile.alike_raise {d : Device} {f : RegisterFile} {n : RegisterName}
    (hd : d.map.Separate d.windows) (h : f.Wired d) (hn : n.Exists d.windows)
    (hstatus : ¬ n.IsSetting d.windows) (bits : UInt32) :
    f.Alike d (fun _ => False) (f.raise (d.place n) bits) := by
  refine ⟨⟨h.map_eq, h.base_eq, h.windows_eq, h.held_eq⟩, fun n' hn' _ => ?_⟩
  have hne : d.place n' ≠ d.place n := by
    intro heq
    obtain rfl := hd.eq_of_place hn'.exists hn heq
    exact hstatus hn'
  simp [setting, raise, store, hne]

/-- A device that reports faults changes no setting. -/
theorem RegisterFile.alike_injectFaults {d : Device} {f : RegisterFile}
    (hd : d.map.Separate d.windows) (h : f.Wired d) {id : Nat} (hid : id < d.windows)
    (bits : UInt32) : f.Alike d (fun _ => False) (f.injectFaults id bits) := by
  have hlatch : f.Alike d (fun _ => False) (f.latchFaults id bits) := by
    rw [latchFaults, h.fits.atDevice.channelOffset_eq]
    exact alike_raise hd h (n := .channel id .errorStatus) hid (fun hn => hn.2 rfl) bits
  refine hlatch.trans ?_
  rw [injectFaults, raiseInterrupts, hlatch.wired.fits.atDevice.deviceOffset_eq]
  exact alike_raise hd hlatch.wired (n := .device .intStatus) trivial (fun hn => hn.2 rfl) _

/-- The registers of a device before anything was done to it. -/
structure RegisterFile.Blank (d : Device) (f : RegisterFile) : Prop where
  wired : f.Wired d
  setting_eq : ∀ n : RegisterName, n.IsSetting d.windows → f.setting d n = 0

/-- The window of a channel shows the channel: both rings where they are, as large and as far filled
as they are, and enabled as long as the channel runs. -/
structure DeviceRegisters.Shows (d : DeviceRegisters) (f : RegisterFile) (id : Nat)
    (c : Channel β) : Prop where
  base_eq : ∀ direction, BusAddress.ofWords (f.peek ((d.channel id).offset (.baseLow direction)))
    (f.peek ((d.channel id).offset (.baseHigh direction))) = (c.ring direction).base
  size_eq : ∀ direction,
    (f.peek ((d.channel id).offset (.size direction))).toNat = (c.ring direction).capacity
  head_eq : ∀ direction,
    (f.peek ((d.channel id).offset (.head direction))).toNat = (c.ring direction).head
  enabled_eq : f.peek ((d.channel id).offset .ringControl) &&& RingControl.enableBoth =
    if c.running then RingControl.enableBoth else 0
  reset_eq : f.peek ((d.channel id).offset .ringControl) &&& RingControl.reset = 0

namespace Channel

variable {d : Device} {c : Channel β} {f g : RegisterFile}

theorem Mirrored.peek_eq (h : c.Mirrored d f g) (hc : c.Placed d) {r : ChannelRegister}
    {word : UInt32} (hset : c.setting? r = some word) :
    g.peek ((d.channel c.id).offset r) = word := by
  rw [← d.place_channel, h.alike.wired.peek_eq (hc.isSetting (ne_errorStatus_of_setting? hset))]
  exact h.setting_eq r word trivial hset

/-- Registers hold sizes and heads in full as long as rings have no more places than they count. -/
theorem Mirrored.shows (h : c.Mirrored d f g) (hc : c.Placed d) (hsound : c.Sound)
    (hsize : ∀ direction, (c.ring direction).capacity < UInt32.size) : d.Shows g c.id c := by
  have hcontrol := h.peek_eq hc (r := .ringControl) rfl
  constructor
  · intro direction
    rw [h.peek_eq hc (r := .baseLow direction) rfl, h.peek_eq hc (r := .baseHigh direction) rfl,
      BusAddress.ofWords_low_high]
  · intro direction
    rw [h.peek_eq hc (r := .size direction) rfl, UInt32.toNat_ofNat_of_lt' (hsize direction)]
  · intro direction
    have hhead := (hsound direction).head_lt
    have hcapacity := hsize direction
    rw [h.peek_eq hc (r := .head direction) rfl, UInt32.toNat_ofNat_of_lt' (by omega)]
  · rw [hcontrol]
    cases c.running <;> decide
  · rw [hcontrol]
    cases c.running <;> decide

end Channel

/-- If the engine is brought up, then at the register base of the device. If the world changes
registers, it changes no setting. -/
def Moment.LeavesSettings (d : Device) : Moment σ β → Prop
  | .operate (.init base _) => base = d.base
  | .disturb (.registers f) => ∀ r : RegisterFile, r.Wired d → r.Alike d (fun _ => False) (f r)
  | _ => True

namespace Engine

variable {config : Config} {base windows : Nat} {e e' : Engine β} {m : Machine β}

namespace Mirrored

/-- A new engine is down, and so is a device whose settings are zero. -/
theorem new (h : m.registers.Blank (config.hardware base windows)) :
    (Engine.new config m).Mirrored config base windows where
  idle := idleEmpty_new config m
  config_eq := rfl
  base_eq := fun hup => Bool.noConfusion hup
  enabled_eq := rfl
  plant := .empty h.wired fun _ hid => h.setting_eq _ (isSetting_ringControl hid)
  control_eq := h.setting_eq _ isSetting_control
  mask_eq := fun hup => Bool.noConfusion hup

variable (hd : config.capabilities.registers.Separate windows)
include hd

/-- Every moment that leaves settings alone leaves registers that show the engine. -/
theorem pass {moment : Moment σ β} {seen : Story β} (hlimit : config.channelLimit ≤ windows)
    (h : e.Mirrored config base windows)
    (hmoment : moment.LeavesSettings (config.hardware base windows))
    (hpass : moment.pass e = some (seen, e')) : e'.Mirrored config base windows := by
  cases move_of_pass hpass with
  | up base' count =>
    obtain rfl : base' = base := hmoment
    exact h.init hd hlimit count
  | down hdeinit => exact h.deinit hd hdeinit
  | registers f => exact h.machine (hmoment _ h.plant.wired)
  | acts hquiet hacts => exact (h.quiet hd hquiet).acts hd hacts

end Mirrored

/-- After every operation of every history of a new engine whose device has a window for each
channel, control lets the device move data exactly if the engine is enabled. While the engine is up,
the interrupts of its channels and no other ones are let through, and every channel is shown in its
window. -/
theorem registers_agree {moments : List (Moment σ β)} {seen : Story β}
    (hlimit : config.channelLimit ≤ windows)
    (hapart : config.capabilities.registers.Separate windows)
    (hm : m.registers.Blank (config.hardware base windows))
    (htx : config.txRingSize < UInt32.size) (hrx : config.rxRingSize < UInt32.size)
    (hmoments : ∀ moment ∈ moments, moment.LeavesSettings (config.hardware base windows))
    (h : live moments (new config m) = some (seen, e)) :
    (e.enabled = true ↔ e.machine.registers.peek ((config.device base).offset .control) &&&
        Control.dmaEnable ≠ 0) ∧
      (e.initialized = true →
        e.machine.registers.peek ((config.device base).offset .intMask) =
            ~~~InterruptBits.ofChannels e.channels.length ∧
          ∀ (id : Nat) (c : Channel β), e.channels[id]? = some c →
            (config.device base).Shows e.machine.registers id c) := by
  have hmirrored : e.Mirrored config base windows :=
    live_keeps (Mirrored config base windows)
      (fun moment hmem _ _ _ hpass he => he.pass hapart hlimit (hmoments moment hmem) hpass)
      h (.new hm)
  have hshaped := shaped_of_live h
  have hplant := hmirrored.plant
  have hwired : e.machine.registers.Wired (config.hardware base windows) := hplant.wired
  refine ⟨?_, fun hup => ⟨?_, ?_⟩⟩
  · rw [← DeviceRegisters.place_device, ← config.toDeviceRegisters_hardware base windows,
      hwired.peek_eq isSetting_control, hmirrored.control_eq]
    cases e.enabled <;> decide
  · rw [← DeviceRegisters.place_device, ← config.toDeviceRegisters_hardware base windows,
      hwired.peek_eq isSetting_intMask]
    exact hmirrored.mask_eq hup
  · intro id c hc
    obtain rfl := hplant.id_eq id c hc
    have hmem := List.mem_of_getElem? hc
    refine (hplant.mirrored _ c hc).shows (hplant.placed _ c hc) (hshaped.sound.rings _ c hc) ?_
    intro direction
    rw [(hshaped.rings c hmem direction).capacity_eq]
    cases direction with
    | toDevice => exact htx
    | fromDevice => exact hrx

/-- One of two channels is suspended, and the other one gets new rings after a fault, with a buffer
posted on the new ring. -/
def reloadTrip : List (Moment Unit Nat) :=
  [.operate (.init 0 2), .operate .start, .operate (.enqueue 0 .toDevice 7 64),
    .operate (.enqueue 0 .toDevice 8 64), .operate (.suspendChannel 1),
    .operate (.setRecoveryPolicy 0 { RecoveryPolicy.standard with action := .reload }),
    .disturb (.registers fun f => f.injectFaults 0 Fault.descriptor.bit), .operate .onInterrupt,
    .operate (.recoverChannel 0), .operate (.enqueue 0 .toDevice 9 64)]

theorem registers_agree_trip : ∃ seen e c,
    live reloadTrip (new .bench .bench) = some (seen, e) ∧ e.channels[0]? = some c ∧
      c.tx.base = ⟨0x100200⟩ ∧ c.tx.head = 1 ∧ c.running = true ∧
        (Config.bench.device 0).Shows e.machine.registers 0 c ∧
          e.machine.registers.peek ((Config.bench.device 0).offset .intMask) =
            ~~~InterruptBits.ofChannels 2 := by
  have hends : (live reloadTrip (new .bench .bench)).isSome = true := by decide +kernel
  have hreloaded : (live reloadTrip (new .bench .bench)).map (fun r =>
      (r.2.initialized, r.2.channels.length,
        r.2.channels[0]?.map fun c => (c.tx.base, c.tx.head, c.running))) =
          some (true, 2, some (⟨0x100200⟩, 1, true)) := by decide +kernel
  have hblank : Machine.bench.registers.Blank (Config.bench.hardware 0 maxChannels) :=
    ⟨⟨rfl, rfl, rfl, fun _ _ => rfl⟩, fun _ _ => rfl⟩
  have hmoments : ∀ moment ∈ reloadTrip,
      moment.LeavesSettings (Config.bench.hardware 0 maxChannels) := by
    simp only [reloadTrip, List.forall_mem_cons]
    refine ⟨rfl, trivial, trivial, trivial, trivial, trivial, ?_, trivial, trivial, trivial,
      fun _ hmem => nomatch hmem⟩
    exact fun _ hwired =>
      RegisterFile.alike_injectFaults (RegisterMap.separate_standard _) hwired (by decide) _
  obtain ⟨⟨seen, e⟩, h⟩ := Option.isSome_iff_exists.mp hends
  rw [h] at hreloaded
  obtain ⟨hup, hrest⟩ := Prod.mk.inj (Option.some.inj hreloaded)
  obtain ⟨hlength, hchannel⟩ := Prod.mk.inj hrest
  obtain ⟨c, hc, hlook⟩ := Option.map_eq_some_iff.mp hchannel
  obtain ⟨hbase, hlook⟩ := Prod.mk.inj hlook
  obtain ⟨hhead, hrunning⟩ := Prod.mk.inj hlook
  obtain ⟨_, hshown⟩ := registers_agree (Nat.min_le_right ..)
    (RegisterMap.separate_standard _) hblank (by decide) (by decide) hmoments h
  obtain ⟨hmask, hshows⟩ := hshown hup
  exact ⟨seen, e, c, h, hc, hbase, hhead, hrunning, hshows 0 c hc, hlength ▸ hmask⟩

end Engine

end PacketDma
