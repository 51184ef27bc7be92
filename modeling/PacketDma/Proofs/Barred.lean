import PacketDma.Proofs.Confinement
import PacketDma.Proofs.DiscardSafety
import PacketDma.Proofs.LifecycleMirror

/-!
# Barred devices

A device moves no data while the enable bit of its control register is clear. A reset leaves that
bit as it is, and going down clears it, whatever the register held before.

## Implementation notes

The device must hold no bit of control, or the bit could not be cleared. Nothing is asked of its
other registers, of which it may hold any bits.
-/

namespace PacketDma

open RegisterFile RegisterName

variable {β : Type}

/-! ### What the device holds -/

namespace Plant

variable {config : Config} {uses : Nat → Prop} {p p' : Plant β} {story : Story β}

/-- No step moves the registers or changes what the device holds of them. -/
theorem Step.fixed_eq (h : Step config uses p story p') :
    p'.machine.registers.fixed = p.machine.registers.fixed := by
  cases h with
  | channel _ hs => exact hs.confined.fixed_eq
  | quiet hq => exact ((Machine.Confined.refl _ _).quiet hq).fixed_eq
  | build _ _ hbuild =>
    exact ((Machine.Confined.refl _ _).quiet (Channel.quiet_of_build hbuild)).fixed_eq
  | release hhalted _ => exact congrArg fixed (Engine.registers_deinitChannels hhalted p.machine)

/-- No run moves the registers or changes what the device holds of them. -/
theorem Run.fixed_eq (h : Run config uses p story p') :
    p'.machine.registers.fixed = p.machine.registers.fixed := by
  induction h with
  | refl => rfl
  | step _ hs ih => exact hs.fixed_eq.trans ih

end Plant

/-! ### Control -/

/-- The device may not move data, and holds no bit of control. -/
structure Device.Barred (d : Device) (f : RegisterFile) : Prop where
  bare : f.Bare d (.device .control)
  control_eq : f.setting d (.device .control) &&& Control.dmaEnable = 0

namespace Device

variable {d : Device} {m n : Machine β}

theorem Barred.peek_eq {f : RegisterFile} (h : d.Barred f) :
    f.peek (d.offset .control) &&& Control.dmaEnable = 0 := by
  rw [← d.place_device, h.bare.peek_eq]
  exact h.control_eq

variable (hd : d.map.Separate d.windows)
include hd

/-- What is written to other registers leaves a barred device barred. -/
theorem Barred.of_confined (h : d.Barred m.registers) {writable : Nat → Prop}
    (hc : m.Confined writable n) (hw : ¬ writable (d.offset .control)) : d.Barred n.registers := by
  refine ⟨h.bare.of_fixed hc.fixed_eq, ?_⟩
  have hkept : n.registers.setting d (.device .control) =
      m.registers.setting d (.device .control) :=
    hc.stored_eq _ hw (h.bare.fits.place_ne_status hd isSetting_control)
  rw [hkept]
  exact h.control_eq

theorem Barred.write (h : d.Barred m.registers) {r : DeviceRegister} (hr : r ≠ .control)
    (word : UInt32) : d.Barred (d.write r word m).registers := by
  have hwrite : m.Confined (· = d.offset r) (d.write r word m) :=
    (Machine.Confined.refl (· = d.offset r) m).write rfl word
  refine h.of_confined hd hwrite fun heq => ?_
  have hsame : device .control = device r := hd.eq_of_place trivial trivial heq
  exact hr (RegisterName.device.inj hsame).symm

/-- A change of control that leaves the bit clear bars the device. -/
theorem barred_modify (h : m.registers.Bare d (.device .control)) (change : UInt32 → UInt32)
    (hchange : change (m.registers.setting d (.device .control)) &&& Control.dmaEnable = 0) :
    d.Barred (m.modify (d.offset .control) change).registers := by
  have hkept : m.Confined (fun _ => True) (m.modify (d.offset .control) change) :=
    (Machine.Confined.refl _ m).modify trivial change
  refine ⟨h.of_fixed hkept.fixed_eq, ?_⟩
  rw [← d.place_device, Machine.setting_modify hd h isSetting_control]
  exact hchange

theorem barred_disableDma (h : m.registers.Bare d (.device .control)) :
    d.Barred (d.disableDma m).registers :=
  barred_modify hd h (· &&& ~~~Control.dmaEnable) (and_not_and_self _ _)

/-- A device reset leaves a barred device barred, however long it takes. -/
theorem Barred.resetDevice (h : d.Barred m.registers) (timing : ResetTiming) :
    d.Barred (d.resetDevice timing m).2.registers := by
  have hset := Machine.setting_modify hd h.bare isSetting_control (· ||| Control.reset)
  have hassert : m.Confined (fun _ => True) (d.assertReset m) :=
    (Machine.Confined.refl _ m).modify trivial (· ||| Control.reset)
  have hbare := h.bare.of_fixed hassert.fixed_eq
  have hpulse : d.Barred
      (d.releaseReset ((d.assertReset m).delay timing.settleUs)).registers := by
    refine barred_modify (m := (d.assertReset m).delay timing.settleUs) hd hbare
      (· &&& ~~~Control.reset) ?_
    have hword : ((d.assertReset m).delay timing.settleUs).registers.setting d (.device .control) =
        m.registers.setting d (.device .control) ||| Control.reset := hset
    rw [hword]
    exact or_and_not_and h.control_eq Control.reset
  have hwait : (d.releaseReset ((d.assertReset m).delay timing.settleUs)).Quiet (fun _ => False)
      (d.resetDevice timing m).2 :=
    DeviceRegisters.quiet_awaitReady (.refl _) _ _
  exact hpulse.of_confined hd ((Machine.Confined.refl _ _).quiet hwait) not_false

/-- Silencing a device bars it. -/
theorem barred_quietDevice (h : m.registers.Bare d (.device .control)) :
    d.Barred (Engine.quietDevice d m).registers :=
  ((barred_disableDma hd h).write hd (r := .intMask) (by simp) InterruptBits.all).write hd
    (r := .intStatus) (by simp) InterruptBits.all

/-- Silencing a device masks all its interrupts, whatever the device holds of the mask. -/
theorem peek_intMask_quietDevice (h : m.registers.Fits d) :
    (Engine.quietDevice d m).registers.peek (d.offset .intMask) = InterruptBits.all := by
  have hdisable : m.Confined (fun _ => True) (d.disableDma m) :=
    (Machine.Confined.refl _ m).modify trivial (· &&& ~~~Control.dmaEnable)
  have hdisabled := h.of_fixed hdisable.fixed_eq
  have hmask := hdisabled.setting_write hd isSetting_intMask isSetting_intMask.exists
    InterruptBits.all
  have hmasked := hdisabled.of_fixed
    ((d.disableDma m).registers.fixed_write (d.offset .intMask) InterruptBits.all)
  have hstatus : (RegisterName.device .intStatus).Exists d.windows := trivial
  have hack := hmasked.setting_write hd isSetting_intMask hstatus InterruptBits.all
  rw [if_pos rfl] at hmask
  rw [if_neg (by simp)] at hack
  have hstored : (Engine.quietDevice d m).registers.setting d (.device .intMask) =
      InterruptBits.all := hack.trans hmask
  rw [← d.place_device, peek, ← setting, hstored]
  exact UInt32.toBitVec_inj.mp BitVec.allOnes_or

end Device

/-! ### Going down -/

/-- Going down bars the device and masks all its interrupts. -/
theorem Engine.barred_of_deinit {e e' : Engine β} {windows : Nat}
    (hd : e.config.capabilities.registers.Separate windows) (hup : e.initialized = true)
    (hbare : e.machine.registers.Bare ⟨e.device, windows⟩ (.device .control))
    (h : e.deinit? = some e') :
    Device.Barred ⟨e.device, windows⟩ e'.machine.registers ∧
      e'.machine.registers.peek (e.device.offset .intMask) = InterruptBits.all := by
  obtain ⟨hdown, -⟩ | ⟨-, -, m, text, -, hregisters, hmachine⟩ := of_deinit h
  · exact Bool.noConfusion (hdown.symm.trans hup)
  have hhalt := (run_haltChannels e.config (fun _ => False) [] e.channels e.machine).fixed_eq
  have hm : m.registers.Bare ⟨e.device, windows⟩ (.device .control) := by
    rw [hregisters]
    exact hbare.of_fixed hhalt
  have hends : e'.machine.registers = (quietDevice e.device m).registers := by
    rw [hmachine]
    exact registers_deinitChannels (running_haltChannels e.channels e.machine) _
  rw [hends]
  exact ⟨Device.barred_quietDevice hd hm,
    Device.peek_intMask_quietDevice (d := ⟨e.device, windows⟩) hd hm.fits⟩

end PacketDma
