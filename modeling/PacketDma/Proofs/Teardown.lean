import PacketDma.Proofs.FailedStart

/-!
# Teardown

Going down takes everything back: all rings are halted, the device is barred, its interrupts are
masked, and each buffer in flight is unmapped once. From then on the engine does nothing until it is
brought up again. Main statement: `teardown_complete`.

## Implementation notes

A channel that is marked as halted is not halted again when the engine goes down, so what the ring
controls show then depends on all that happened before. The engine is followed from when it was new,
in a world that leaves control and the ring controls alone.
-/

namespace PacketDma

open RegisterName

variable {σ β : Type}

/-! ### Buffers in flight -/

/-- The second machine is the first one after effects of which these make or give up the mappings of
buffers. -/
def Machine.Maps (m : Machine β) (moved : List (Event β)) (n : Machine β) : Prop :=
  ∃ new, n.effects = m.effects ++ new ∧ new.filter Event.isMapping = moved

namespace Machine

variable {m n p : Machine β} {moved later : List (Event β)}

theorem Maps.trans (h : m.Maps moved n) (h' : n.Maps later p) : m.Maps (moved ++ later) p := by
  obtain ⟨new, hnew, rfl⟩ := h
  obtain ⟨more, hmore, rfl⟩ := h'
  exact ⟨new ++ more, by rw [hmore, hnew, List.append_assoc], List.filter_append _ _⟩

theorem Still.maps (h : m.Still n) : m.Maps [] n := by
  obtain ⟨notes, heffects, hnotes⟩ := h
  refine ⟨notes, heffects, List.filter_eq_nil_iff.mpr fun e he => ?_⟩
  simp [hnotes e he]

theorem maps_log (m : Machine β) (level : LogLevel) (text : String) :
    m.Maps [] (m.log level text) := ((Still.refl m).add (effects_emit m _) rfl).maps

end Machine

namespace Channel

variable {c : Channel β}

/-- The effects of giving up the buffers in flight on a channel. -/
def unmappings (c : Channel β) : List (Event β) :=
  discards c.id .toDevice c.tx.slots ++ discards c.id .fromDevice c.rx.slots

theorem filter_discards (channel : Nat) (direction : Direction) (slots : List (Slot β)) :
    (discards channel direction slots).filter Event.isMapping =
      discards channel direction slots := by
  refine List.filter_eq_self.mpr fun e he => ?_
  obtain ⟨s, -, rfl⟩ := List.mem_map.mp he
  rfl

/-- Giving up a halted channel unmaps each of its buffers once. -/
theorem maps_deinit (hbuilt : c.initialized = true) (hhalted : c.running = false)
    (m : Machine β) : m.Maps c.unmappings (c.deinit m).2.2 := by
  obtain ⟨text, hdeinit⟩ := c.deinit_eq_log m hbuilt hhalted
  refine ⟨c.unmappings ++ [.log .debug text], ?_, ?_⟩
  · rw [hdeinit, Machine.log, Machine.effects_emit, effects_releaseRing, effects_releaseRing]
    simp only [unmappings, List.append_assoc]
  · rw [List.filter_append, unmappings, List.filter_append, filter_discards, filter_discards]
    exact List.append_nil _

/-- A channel that is halted keeps its buffers in flight. -/
theorem maps_stop (c : Channel β) (m : Machine β) :
    m.Maps [] (c.stop m).2.2 ∧ (c.stop m).2.1.initialized = c.initialized ∧
      (c.stop m).2.1.unmappings = c.unmappings := by
  unfold stop
  split
  · have hclear := ((Machine.Still.refl m).clearBits (c.registers.offset .ringControl)
      RingControl.enableBoth).maps
    exact ⟨hclear.trans (Machine.maps_log _ _ _), rfl, rfl⟩
  · exact ⟨(Machine.Still.refl m).maps, rfl, rfl⟩

end Channel

namespace Engine

/-- Giving up halted channels unmaps each of their buffers once, channel by channel. -/
theorem maps_deinitChannels {channels : List (Channel β)}
    (hbuilt : ∀ c ∈ channels, c.initialized = true) (hhalted : ∀ c ∈ channels, c.running = false)
    (m : Machine β) :
    m.Maps (channels.flatMap Channel.unmappings) (deinitChannels channels m).2 := by
  induction channels generalizing m with
  | nil => exact (Machine.Still.refl m).maps
  | cons c rest ih =>
    obtain ⟨hc, hrest⟩ := List.forall_mem_cons.mp hbuilt
    obtain ⟨hcHalted, hrestHalted⟩ := List.forall_mem_cons.mp hhalted
    exact (Channel.maps_deinit hc hcHalted m).trans (ih hrest hrestHalted (c.deinit m).2.2)

/-- Channels that are halted keep their buffers in flight. -/
theorem maps_haltChannels {channels : List (Channel β)}
    (hbuilt : ∀ c ∈ channels, c.initialized = true) (m : Machine β) :
    m.Maps [] (haltChannels channels m).2 ∧
      (∀ c ∈ (haltChannels channels m).1, c.initialized = true) ∧
        (haltChannels channels m).1.flatMap Channel.unmappings =
          channels.flatMap Channel.unmappings := by
  induction channels generalizing m with
  | nil => exact ⟨(Machine.Still.refl m).maps, hbuilt, rfl⟩
  | cons c rest ih =>
    obtain ⟨hc, hrest⟩ := List.forall_mem_cons.mp hbuilt
    obtain ⟨hfirst, hinitialized, hkept⟩ := c.maps_stop m
    obtain ⟨hlater, hbuilt', hkept'⟩ := ih hrest (c.stop m).2.2
    refine ⟨hfirst.trans hlater, ?_, ?_⟩
    · exact List.forall_mem_cons.mpr ⟨hinitialized.trans hc, hbuilt'⟩
    · exact congrArg₂ (· ++ ·) hkept hkept'

/-- Going down unmaps each buffer in flight once, channel by channel, and maps none. -/
theorem maps_of_deinit {e e' : Engine β} (hidle : e.IdleEmpty)
    (hbuilt : ∀ c ∈ e.channels, c.initialized = true) (h : e.deinit? = some e') :
    e.machine.Maps (e.channels.flatMap Channel.unmappings) e'.machine := by
  obtain ⟨hdown, rfl⟩ | ⟨-, -, m, text, hwait, -, hmachine⟩ := of_deinit h
  · rw [hidle hdown]
    exact (Machine.Still.refl _).maps
  obtain ⟨hhalt, hbuilt', hkept⟩ := maps_haltChannels hbuilt e.machine
  have hquiet : m.Maps [] (quietDevice e.device m) := (quiet_quietDevice (.refl m)).still.maps
  have hrelease := maps_deinitChannels hbuilt' (running_haltChannels e.channels e.machine)
    (quietDevice e.device m)
  rw [hkept] at hrelease
  rw [hmachine]
  have hends := (((hhalt.trans hwait.still.maps).trans hquiet).trans hrelease).trans
    (Machine.maps_log _ .info text)
  simpa using hends

end Engine

/-! ### Stopping twice -/

theorem ChannelRecord.state_of_stop_ok {r s : ChannelRecord} (h : r.stop = (.ok (), s)) :
    s.state = .stopped := by
  unfold stop at h
  split at h
  · cases h
  · rw [← (Prod.mk.inj h).2]

theorem Monitor.of_stop_ok {m m' : Monitor} {id : Nat} (h : m.stop id = (.ok (), m')) :
    ∃ r s, m.records[id]? = some r ∧ s.state = .stopped ∧
      m' = { m with records := m.records.set id s } := by
  cases hr : m.records[id]? with
  | none =>
    rw [stop, act, record?, hr] at h
    cases h
  | some r =>
    rw [stop, act_eq hr] at h
    obtain ⟨hstop, rfl⟩ := Prod.mk.inj h
    exact ⟨r, r.stop.2, rfl, r.state_of_stop_ok (Prod.ext hstop rfl), rfl⟩

namespace Engine

/-- A channel of an engine that is up is halted, and its record says that it is stopped. -/
def Rests (e : Engine β) (id : Nat) : Prop :=
  e.initialized = true ∧ (∃ c, e.channels[id]? = some c ∧ c.running = false) ∧
    ∃ r, e.monitor.records[id]? = some r ∧ r.state = .stopped

section Stopping

variable {e e' : Engine β} {id : Nat}

/-- Stopping what rests changes nothing. -/
theorem Rests.stopChannel_eq (h : e.Rests id) : e.stopChannel id = (.ok (), e) := by
  obtain ⟨hup, ⟨c, hc, hhalted⟩, r, hr, hstate⟩ := h
  have hchannel : e.channel? id = .ok c := by
    simp only [channel?, hup, Bool.not_true, Bool.false_eq_true, if_false, hc]
  have hrecord : r.stop = (.ok (), r) := by
    simp only [ChannelRecord.stop, hstate]
    rw [← hstate]
  have hmonitor : e.monitor.stop id = (.ok (), e.monitor) := by
    obtain ⟨_, hsame⟩ := List.getElem?_eq_some_iff.mp hr
    rw [Monitor.stop, Monitor.act_eq hr, hrecord, ← hsame, List.set_getElem_self]
  have hstop : c.stop e.machine = (false, c, e.machine) := by
    rw [Channel.stop, hhalted]
    rfl
  obtain ⟨_, hsame⟩ := List.getElem?_eq_some_iff.mp hc
  simp only [stopChannel, hchannel, hmonitor, haltChannel, hc, hstop, put]
  rw [← hsame, List.set_getElem_self]

/-- A channel that is stopped is halted, and its record is that of a stopped channel. -/
theorem of_stopChannel_ok (h : e.stopChannel id = (.ok (), e')) :
    e.initialized = true ∧ ∃ c r s, e.channels[id]? = some c ∧ e.monitor.records[id]? = some r ∧
      s.state = .stopped ∧
        e' = put { e with monitor := { e.monitor with records := e.monitor.records.set id s } } id
          (c.stop e.machine).2.1 (c.stop e.machine).2.2 := by
  unfold stopChannel at h
  split at h
  · cases h
  next c hchannel =>
    have hc := channels_of_channel?_ok hchannel
    have hup : e.initialized = true := by
      cases hdown : e.initialized with
      | true => rfl
      | false => simp [channel?, hdown] at hchannel
    split at h
    · cases h
    next monitor hmonitor =>
      obtain ⟨r, s, hr, hs, rfl⟩ := Monitor.of_stop_ok hmonitor
      refine ⟨hup, c, r, s, hc, hr, hs, ?_⟩
      obtain rfl := (Prod.mk.inj h).2
      simp only [haltChannel, hc]

/-- A channel that was stopped rests, and what rested before does so still. -/
theorem rests_of_stopChannel (h : e.stopChannel id = (.ok (), e')) :
    e'.Rests id ∧ (∀ i, e.Rests i → e'.Rests i) ∧ e'.channels.length = e.channels.length := by
  obtain ⟨hup, c, r, s, hc, hr, hs, rfl⟩ := of_stopChannel_ok h
  have hown : (put { e with monitor := { e.monitor with records := e.monitor.records.set id s } } id
      (c.stop e.machine).2.1 (c.stop e.machine).2.2).Rests id := by
    obtain ⟨hlt, -⟩ := List.getElem?_eq_some_iff.mp hc
    obtain ⟨hlt', -⟩ := List.getElem?_eq_some_iff.mp hr
    exact ⟨hup, ⟨_, List.getElem?_set_self hlt, c.running_stop e.machine⟩, s,
      List.getElem?_set_self hlt', hs⟩
  refine ⟨hown, fun i hi => ?_, List.length_set⟩
  by_cases hid : i = id
  · exact hid ▸ hown
  · obtain ⟨-, ⟨x, hx, hhalted⟩, t, ht, hstate⟩ := hi
    refine ⟨hup, ⟨x, ?_, hhalted⟩, t, ?_, hstate⟩
    · exact (List.getElem?_set_ne (Ne.symm hid)).trans hx
    · exact (List.getElem?_set_ne (Ne.symm hid)).trans ht

/-- Channels that were stopped in turn all rest. -/
theorem rests_of_stopChannels {ids : List Nat} (h : eachChannel stopChannel ids e = (.ok (), e')) :
    (∀ i ∈ ids, e'.Rests i) ∧ (∀ i, e.Rests i → e'.Rests i) ∧
      e'.channels.length = e.channels.length := by
  induction ids generalizing e with
  | nil =>
    obtain rfl := (Prod.mk.inj h).2
    exact ⟨by simp, fun _ hi => hi, rfl⟩
  | cons id rest ih =>
    unfold eachChannel at h
    split at h
    · cases h
    next e₁ hfirst =>
      obtain ⟨hown, hkept, hlength⟩ := rests_of_stopChannel hfirst
      obtain ⟨hrest, hkept', hlength'⟩ := ih h
      exact ⟨List.forall_mem_cons.mpr ⟨hkept' id hown, hrest⟩,
        fun i hi => hkept' i (hkept i hi), hlength'.trans hlength⟩

/-- Stopping channels that rest in turn changes nothing. -/
theorem stopChannels_eq {ids : List Nat} (h : ∀ i ∈ ids, e.Rests i) :
    eachChannel stopChannel ids e = (.ok (), e) := by
  induction ids with
  | nil => rfl
  | cons id rest ih =>
    obtain ⟨hid, hrest⟩ := List.forall_mem_cons.mp h
    rw [eachChannel, hid.stopChannel_eq]
    exact ih hrest

theorem stopChannel_twice (h : e.stopChannel id = (.ok (), e')) :
    e'.stopChannel id = (.ok (), e') := (rests_of_stopChannel h).1.stopChannel_eq

theorem stop_twice (h : e.stop = (.ok (), e')) : e'.stop = (.ok (), e') := by
  have hworks : Works e.UpAt e [] e.stop.2 := works_stop e
  have hkept := hworks.initialized_eq
  rw [h] at hkept
  unfold stop at h
  split at h
  · cases h
  next hup =>
    obtain ⟨hrest, -, hlength⟩ := rests_of_stopChannels h
    have hids : e'.ids = e.ids := by rw [ids, hlength, ids]
    rw [stop, hkept, if_neg hup, hids]
    exact stopChannels_eq hrest

end Stopping

end Engine

/-! ### Rest -/

/-- Neither an attempt to bring the engine up, nor a change of its work queue without it. -/
def Moment.IsRest : Moment σ β → Prop
  | .operate (.init _ _) | .disturb (.work _) => False
  | _ => True

/-- An operation that has nothing to do while the engine is down: it neither brings the engine up
nor clears the statistics. -/
def Operation.IsIdle (op : Operation σ β) : Prop :=
  (∀ base count, op ≠ .init base count) ∧ op ≠ .clearStats

namespace Engine

/-- The second engine is the first one after moments of some kind passed, and others made requests
of its work queue. Only the engine opens the queue. -/
inductive Life (allowed : Moment σ β → Prop) (e : Engine β) : Engine β → Prop where
  | refl : Life allowed e e
  | pass {e₁ e₂ : Engine β} {moment : Moment σ β} {seen : Story β} (h : Life allowed e e₁)
      (hallowed : allowed moment) (hpass : moment.pass e₁ = some (seen, e₂)) : Life allowed e e₂
  | request {e₁ : Engine β} {r : WorkQueue.Request} (h : Life allowed e e₁) (hr : r ≠ .openUp) :
      Life allowed e { e₁ with work := (r.perform e₁.work).2 }

/-- A life that goes on for some moments. -/
theorem Life.live {allowed : Moment σ β → Prop} {e e₁ e₂ : Engine β} {moments : List (Moment σ β)}
    {seen : Story β} (h : Life allowed e e₁) (hallowed : ∀ moment ∈ moments, allowed moment)
    (hlive : live moments e₁ = some (seen, e₂)) : Life allowed e e₂ := by
  induction moments generalizing e₁ seen with
  | nil =>
    obtain ⟨-, rfl⟩ := Prod.mk.inj (Option.some.inj hlive)
    exact h
  | cons moment rest ih =>
    obtain ⟨hfirst, hrest⟩ := List.forall_mem_cons.mp hallowed
    simp only [Engine.live] at hlive
    split at hlive
    · cases hlive
    next now e' hpass =>
      obtain ⟨⟨later, e''⟩, hlater, hpair⟩ := Option.map_eq_some_iff.mp hlive
      obtain ⟨-, rfl⟩ := Prod.mk.inj hpair
      exact ih (h.pass hfirst hpass) hrest hlater

namespace IsDown

variable {e e' : Engine β}

theorem pass (h : e.IsDown) {moment : Moment σ β} {seen : Story β} (hrest : moment.IsRest)
    (hpass : moment.pass e = some (seen, e')) : e'.IsDown := by
  cases moment with
  | operate op =>
    have hinit : ∀ base count, op ≠ .init base count := by
      rintro base count rfl
      exact hrest
    rw [h.perform hinit hpass]
    exact ⟨h.initialized_eq, h.enabled_eq, h.channels_eq, h.isOpen_eq, h.pending_eq⟩
  | disturb d =>
    obtain ⟨-, rfl⟩ := Prod.mk.inj (Option.some.inj hpass)
    refine h.onlyActs (h.onlyActs_apply ?_)
    rintro queue rfl
    exact hrest

/-- Until it is brought up again, an engine that is down stays down. -/
theorem rest (h : e.IsDown) (hlife : Life (σ := σ) Moment.IsRest e e') : e'.IsDown := by
  induction hlife with
  | refl => exact h
  | pass _ hrest hpass ih => exact ih.pass hrest hpass
  | request _ hr ih => exact ih.request hr

/-- However many operations are called on an engine that is down, they do nothing. -/
theorem live_eq (h : e.IsDown) {ops : List (Operation σ β)} (hops : ∀ op ∈ ops, op.IsIdle) :
    live (ops.map .operate) e = some ([], e) := by
  induction ops with
  | nil => rfl
  | cons op rest ih =>
    obtain ⟨⟨hinit, hclear⟩, hrest⟩ := List.forall_mem_cons.mp hops
    have hop : (Moment.operate op).pass e = some ([], e) := h.perform_eq hinit hclear
    rw [List.map_cons, live, hop]
    simp only [ih hrest, Option.map_some, List.append_nil]

/-- A buffer that is posted on an engine that is down comes back. -/
theorem enqueue_eq (h : e.IsDown) (id : Nat) (direction : Direction) (buffer : β) (length : Nat) :
    e.enqueue id direction buffer length = (.error ⟨.config .notInitialized, buffer⟩, e) := by
  simp only [enqueue, h.usable?_eq]

end IsDown

end Engine

/-! ### The engine and its device -/

/-- A change of registers that leaves control and the ring controls alone. -/
structure RegisterFile.SparesControl (d : Device) (f g : RegisterFile) : Prop where
  spares : Spares d f g
  stored_eq : g.stored.get (d.offset .control) = f.stored.get (d.offset .control)
  held_eq : g.held.get (d.offset .control) = f.held.get (d.offset .control)

namespace RegisterFile.SparesControl

variable {d : Device} {f g : RegisterFile}

theorem bare (h : f.SparesControl d g) (hf : f.Bare d (.device .control)) :
    g.Bare d (.device .control) :=
  ⟨⟨⟨h.spares.map_eq.trans hf.fits.atDevice.1, h.spares.base_eq.trans hf.fits.atDevice.2⟩,
    h.spares.windows_eq.trans hf.fits.windows_eq⟩, h.held_eq.trans hf.held_eq⟩

theorem barred (h : f.SparesControl d g) (hf : d.Barred f) : d.Barred g := by
  have hstored : g.setting d (.device .control) = f.setting d (.device .control) := h.stored_eq
  refine ⟨h.bare hf.bare, ?_⟩
  rw [hstored]
  exact hf.control_eq

end RegisterFile.SparesControl

/-- If the engine is brought up, then at the register base of the device. The world leaves control
and the ring controls alone, and changes the work queue by requests only. -/
def Moment.SparesControl (d : Device) : Moment σ β → Prop
  | .operate (.init base _) => base = d.base
  | .disturb (.registers f) =>
    ∀ r, r.map = d.map → r.base = d.base → r.windows = d.windows →
      RegisterFile.SparesControl d r (f r)
  | .disturb (.work _) => False
  | _ => True

theorem Moment.SparesControl.spares {d : Device} {moment : Moment σ β}
    (h : moment.SparesControl d) : moment.Spares d := by
  cases moment with
  | operate op =>
    cases op with
    | init => exact h
    | _ => trivial
  | disturb w =>
    cases w with
    | registers f => exact fun r hmap hbase hwindows => (h r hmap hbase hwindows).spares
    | _ => trivial

/-- The machine of a device whose control and ring controls are zero, before anything was done to
it. -/
structure Machine.Untouched (d : Device) (m : Machine β) : Prop where
  pristine : m.Pristine d
  stored_eq : m.registers.stored.get (d.offset .control) = 0
  held_eq : m.registers.held.get (d.offset .control) = 0

namespace Engine

variable {config : Config} {base windows : Nat} {e e' : Engine β}

/-- An engine that has its device to itself: its discards are safe, the device holds no bit of
control, and whenever the engine is not up, it is down and the device is barred. -/
structure InControl (config : Config) (base windows : Nat) (e : Engine β) : Prop where
  safe : e.Safe config base windows
  bare : e.machine.registers.Bare (config.hardware base windows) (.device .control)
  isDown : e.initialized = false → e.IsDown
  barred : e.initialized = false → (config.hardware base windows).Barred e.machine.registers

namespace InControl

theorem new {m : Machine β} (h : m.Untouched (config.hardware base windows)) :
    (new config m).InControl config base windows := by
  have hbare : m.registers.Bare (config.hardware base windows) (.device .control) :=
    ⟨⟨⟨h.pristine.map_eq, h.pristine.base_eq⟩, h.pristine.windows_eq⟩, h.held_eq⟩
  refine ⟨.new h.pristine, hbare, fun _ => isDown_new config m, fun _ => ⟨hbare, ?_⟩⟩
  show m.registers.stored.get _ &&& Control.dmaEnable = 0
  rw [DeviceRegisters.place_device, h.stored_eq]
  exact UInt32.zero_and

theorem device_eq (h : e.InControl config base windows) (hup : e.initialized = true) :
    e.device = config.device base := by
  rw [device, h.safe.config_eq, h.safe.base_eq hup]
  rfl

theorem bare_of_pass (h : e.InControl config base windows) {moment : Moment σ β} {seen : Story β}
    (hspares : moment.SparesControl (config.hardware base windows))
    (hpass : moment.pass e = some (seen, e')) :
    e'.machine.registers.Bare (config.hardware base windows) (.device .control) := by
  by_cases hregisters : moment.IsRegisterChange
  · cases moment with
    | operate op => exact hregisters.elim
    | disturb d =>
      cases d with
      | registers f =>
        obtain ⟨-, rfl⟩ := Prod.mk.inj (Option.some.inj hpass)
        obtain ⟨⟨hmap, hbase⟩, hwindows⟩ := h.bare.fits
        exact (hspares _ hmap hbase hwindows).bare h.bare
      | _ => exact hregisters.elim
  · have hrun := moment.run_of_pass h.safe.idle hpass hregisters
    exact h.bare.of_fixed hrun.fixed_eq

/-- Going down bars the device and masks all its interrupts. -/
theorem silenced_of_deinit (h : e.InControl e.config base windows)
    (hd : e.config.capabilities.registers.Separate windows) (hup : e.initialized = true)
    (hdeinit : e.deinit? = some e') :
    (e.config.hardware base windows).Barred e'.machine.registers ∧
      e'.machine.registers.peek ((e.config.device base).offset .intMask) = InterruptBits.all := by
  have hdevice := h.device_eq hup
  have hbare : e.machine.registers.Bare ⟨e.device, windows⟩ (.device .control) := by
    rw [hdevice]
    exact h.bare
  have hsilenced := barred_of_deinit hd hup hbare hdeinit
  rw [hdevice] at hsilenced
  exact hsilenced

/-- An engine that an operation leaves down leaves its device barred. -/
theorem barred_of_perform (h : e.InControl config base windows)
    (hd : config.capabilities.registers.Separate windows) {op : Operation σ β} {seen : Story β}
    (hspares : (Moment.operate op).SparesControl (config.hardware base windows))
    (hop : op.perform e = some (seen, e')) (hdown : e'.initialized = false) :
    (config.hardware base windows).Barred e'.machine.registers := by
  obtain rfl := h.safe.config_eq
  cases endsDown_of_perform h.isDown hop hdown with
  | down hup hdeinit =>
    exact (h.silenced_of_deinit hd hup hdeinit).1
  | fails hnot hattempt =>
    obtain rfl := hspares
    exact barred_of_init hd (h.barred hnot) hattempt
  | idle hnot => exact h.barred hnot

/-- What the world does leaves a barred device barred. -/
theorem barred_of_disturb {d : Disturbance β} {device : Device}
    (h : device.Barred e.machine.registers)
    (hspares : (Moment.disturb d : Moment σ β).SparesControl device) :
    device.Barred (d.apply e).machine.registers := by
  cases d with
  | registers f =>
    obtain ⟨⟨hmap, hbase⟩, hwindows⟩ := h.bare.fits
    exact (hspares _ hmap hbase hwindows).barred h
  | descriptors id f =>
    simp only [Disturbance.apply]
    split <;> exact h
  | _ => exact h

/-- An engine that has its device to itself keeps it. -/
theorem pass (hlimit : config.channelLimit ≤ windows) (h : e.InControl config base windows)
    (hd : config.capabilities.registers.Separate windows) {moment : Moment σ β} {seen : Story β}
    (hspares : moment.SparesControl (config.hardware base windows))
    (hpass : moment.pass e = some (seen, e')) : e'.InControl config base windows := by
  have hsafe := h.safe.pass hlimit hd.apart hspares.spares hpass
  have hbare := h.bare_of_pass hspares hpass
  cases moment with
  | operate op =>
    exact ⟨hsafe, hbare, isDown_of_perform h.isDown hpass, h.barred_of_perform hd hspares hpass⟩
  | disturb d =>
    obtain ⟨-, rfl⟩ := Prod.mk.inj (Option.some.inj hpass)
    have hsame : (d.apply e).initialized = e.initialized :=
      congrArg (·.2.2.1) (d.standing_apply e)
    refine ⟨hsafe, hbare, isDown_of_disturb h.isDown ?_, fun hdown => ?_⟩
    · rintro queue rfl
      exact hspares
    · exact barred_of_disturb (h.barred (hsame.symm.trans hdown)) hspares

/-- Requests of its work queue leave the engine alone. -/
theorem request (h : e.InControl config base windows) {r : WorkQueue.Request} (hr : r ≠ .openUp) :
    InControl config base windows { e with work := (r.perform e.work).2 } := by
  refine ⟨?_, h.bare, fun hdown => (h.isDown hdown).request hr, h.barred⟩
  exact ⟨h.safe.idle, h.safe.config_eq, h.safe.base_eq, h.safe.sound, h.safe.safe⟩

theorem life (hlimit : config.channelLimit ≤ windows) (h : e.InControl config base windows)
    (hd : config.capabilities.registers.Separate windows)
    (hlife : Life (σ := σ) (Moment.SparesControl (config.hardware base windows)) e e') :
    e'.InControl config base windows := by
  induction hlife with
  | refl => exact h
  | pass _ hspares hpass ih => exact ih.pass hlimit hd hspares hpass
  | request _ hr ih => exact ih.request hr

/-- While the engine is down, all rings are halted. -/
theorem peek_ringControl (h : e.InControl config base windows) (hdown : e.initialized = false)
    {id : Nat} (hid : id < windows) :
    e.machine.registers.peek ((config.device base).ringControl id) &&& RingControl.enableBoth =
      0 := by
  have hguarded : e.machine.Guarded (config.hardware base windows) config.capabilities.layout.own :=
    h.safe.safe.guarded
  have hnone : e.plant.channels.length ≤ id := by
    rw [plant, h.safe.idle hdown]
    exact Nat.zero_le id
  rw [← config.toDeviceRegisters_hardware base windows, hguarded.peek_ringControl hid]
  exact h.safe.safe.spare id hid hnone

/-- Going down leaves an engine that still has its device to itself. -/
theorem deinit (hlimit : config.channelLimit ≤ windows) (h : e.InControl config base windows)
    (hd : config.capabilities.registers.Separate windows) (hdeinit : e.deinit? = some e') :
    e'.InControl config base windows ∧ e'.initialized = false := by
  have hop : (Moment.operate .deinit : Moment Unit β).pass e = some ([], e') := by
    show e.deinit?.map _ = _
    rw [hdeinit]
    rfl
  have hspares : (Moment.operate .deinit : Moment Unit β).SparesControl
      (config.hardware base windows) := trivial
  refine ⟨h.pass hlimit hd hspares hop, ?_⟩
  obtain ⟨hdown, rfl⟩ | ⟨-, hdown, -⟩ := of_deinit hdeinit
  · exact hdown
  · exact hdown.initialized_eq

end InControl

/-- In every life of a new engine that has its device to itself, with a window for each channel,
going down takes everything back. The engine is down with a closed and empty queue, all rings are
halted, the device may not move data, and each buffer in flight was unmapped once. All interrupts
are masked if the engine was up. Until it is brought up again, no operation does anything, whatever
happens between, and a buffer that is posted comes back. Stopping what was just stopped changes
nothing. -/
theorem teardown_complete {config : Config} {base windows : Nat} {m : Machine β} {e : Engine β}
    (hlimit : config.channelLimit ≤ windows)
    (hd : config.capabilities.registers.Separate windows)
    (hm : m.Untouched (config.hardware base windows))
    (h : Life (σ := σ) (Moment.SparesControl (config.hardware base windows)) (new config m) e) :
    (∀ e₁, e.deinit? = some e₁ →
      e₁.IsDown ∧
        (∀ id < windows, e₁.machine.registers.peek ((config.device base).ringControl id) &&&
          RingControl.enableBoth = 0) ∧
        e₁.machine.registers.peek ((config.device base).offset .control) &&&
          Control.dmaEnable = 0 ∧
        (e.initialized = true →
          e₁.machine.registers.peek ((config.device base).offset .intMask) = InterruptBits.all) ∧
        e.machine.Maps (e.channels.flatMap Channel.unmappings) e₁.machine ∧
        ∀ e₂, Life (σ := σ) Moment.IsRest e₁ e₂ →
          (∀ ops : List (Operation σ β), (∀ op ∈ ops, op.IsIdle) →
            live (ops.map .operate) e₂ = some ([], e₂)) ∧
          ∀ id direction buffer length, e₂.enqueue id direction buffer length =
            (.error ⟨.config .notInitialized, buffer⟩, e₂)) ∧
      (∀ e₁, e.stop = (.ok (), e₁) → e₁.stop = (.ok (), e₁)) ∧
      ∀ id e₁, e.stopChannel id = (.ok (), e₁) → e₁.stopChannel id = (.ok (), e₁) := by
  have he := (InControl.new hm).life hlimit hd h
  refine ⟨fun e₁ hdeinit => ?_, fun _ => stop_twice, fun _ _ => stopChannel_twice⟩
  obtain ⟨he₁, hdown⟩ := he.deinit hlimit hd hdeinit
  have hisDown := he₁.isDown hdown
  refine ⟨hisDown, fun id hid => he₁.peek_ringControl hdown hid, (he₁.barred hdown).peek_eq, ?_,
    ?_, fun e₂ hrest => ⟨fun ops hops => (hisDown.rest hrest).live_eq hops, ?_⟩⟩
  · intro hup
    obtain rfl := he.safe.config_eq
    exact (he.silenced_of_deinit hd hup hdeinit).2
  · refine maps_of_deinit he.safe.idle (fun c hc => ?_) hdeinit
    obtain ⟨i, hi⟩ := List.getElem?_of_mem hc
    exact he.safe.sound.built i c hi
  · exact (hisDown.rest hrest).enqueue_eq

/-- Going down leaves an engine that is not up as it is, and the interrupts of its device
unmasked. -/
theorem deinit_masks_nothing : ∃ e₁ : Engine Nat,
    Machine.Untouched (Config.bench.hardware 0 maxChannels) Machine.bench ∧
      (new .bench .bench).deinit? = some e₁ ∧
        e₁.machine.registers.peek ((Config.bench.device 0).offset .intMask) ≠
          InterruptBits.all := by
  refine ⟨new .bench .bench, ⟨⟨rfl, rfl, rfl, fun _ _ => rfl, fun _ _ => rfl, rfl⟩, rfl, rfl⟩,
    rfl, ?_⟩
  decide +kernel

/-- Two channels with a buffer in flight each, one of them suspended, on a clock that moves fast. -/
def teardownTrip : List (Moment Unit Nat) :=
  [.operate (.init 0 2), .operate .start, .operate (.enqueue 0 .toDevice 7 64),
    .operate (.enqueue 1 .fromDevice 8 32), .operate (.suspendChannel 1),
    .disturb (.clock ⟨20, 10000⟩)]

/-- What is called on an engine that is down. -/
def restTrip : List (Operation Unit Nat) :=
  [.deinit, .start, .enqueue 0 .toDevice 9 64, .onInterrupt, .deinit]

/-- The engine goes down although a worker never left. -/
theorem teardown_complete_trip : ∃ seen e e₁,
    live teardownTrip (new .bench .bench) = some (seen, e) ∧
      deinit? { e with work := e.work.enter.2 } = some e₁ ∧ e₁.IsDown ∧
        e₁.machine.registers.peek ((Config.bench.device 0).offset .intMask) =
          InterruptBits.all ∧
        e.machine.Maps [.unmapped 0 .toDevice ⟨0x10000⟩ 64 .discarded,
          .unmapped 1 .fromDevice ⟨0x11000⟩ 32 .discarded] e₁.machine ∧
        live (restTrip.map .operate) e₁ = some ([], e₁) := by
  have hends : ((live teardownTrip (new .bench .bench)).bind fun r =>
      deinit? { r.2 with work := r.2.work.enter.2 }).isSome = true := by decide +kernel
  have hup : (live teardownTrip (new .bench .bench)).map (·.2.initialized) = some true := by
    decide +kernel
  have hslots : (live teardownTrip (new .bench .bench)).map
      (·.2.channels.flatMap Channel.unmappings) =
      some [.unmapped 0 .toDevice ⟨0x10000⟩ 64 .discarded,
        .unmapped 1 .fromDevice ⟨0x11000⟩ 32 .discarded] := by decide +kernel
  have huntouched : Machine.bench.Untouched (Config.bench.hardware 0 maxChannels) :=
    ⟨⟨rfl, rfl, rfl, fun _ _ => rfl, fun _ _ => rfl, rfl⟩, rfl, rfl⟩
  have hmoments : ∀ moment ∈ teardownTrip,
      moment.SparesControl (Config.bench.hardware 0 maxChannels) := by
    simp only [teardownTrip, List.forall_mem_cons]
    exact ⟨rfl, trivial, trivial, trivial, trivial, trivial, by simp⟩
  have hidle : ∀ op ∈ restTrip, op.IsIdle := by
    simp [restTrip, Operation.IsIdle]
  obtain ⟨e₁, h₁⟩ := Option.isSome_iff_exists.mp hends
  obtain ⟨⟨seen, e⟩, h, hdeinit⟩ := Option.bind_eq_some_iff.mp h₁
  rw [h] at hup hslots
  have hlife : Life (Moment.SparesControl (Config.bench.hardware 0 maxChannels)) (new .bench .bench)
      { e with work := e.work.enter.2 } :=
    (Life.refl.live hmoments h).request (r := .enter) (by simp)
  obtain ⟨hdown, -⟩ := teardown_complete (Nat.min_le_right ..)
    (RegisterMap.separate_standard _) huntouched hlife
  obtain ⟨hisDown, -, -, hmask, hmaps, hrest⟩ := hdown e₁ hdeinit
  obtain ⟨hnothing, -⟩ := hrest e₁ .refl
  have hunmapped := Option.some.inj hslots
  dsimp only at hunmapped hmaps
  rw [hunmapped] at hmaps
  exact ⟨seen, e, e₁, h, hdeinit, hisDown, hmask (Option.some.inj hup), hmaps,
    hnothing restTrip hidle⟩

end Engine

end PacketDma
