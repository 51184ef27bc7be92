import PacketDma.Proofs.Admission
import PacketDma.Proofs.RecoverySequence
import PacketDma.Proofs.RefillRequests

/-!
# Fresh channels

A channel that is set up anew is as good as one that was just made, whatever it went through before.
Main statement: `reinit_fresh`. Its faults are forgotten, its buffers are unmapped, and the device
is told of empty rings. It stays stopped if it was stopped, and otherwise it runs.

## Implementation notes

What is done to the channel itself and what the engine makes of it are kept apart. The first part
needs no rings that run and no record, so nothing can fail there, and the second part starts a
channel that was never faulty.
-/

namespace PacketDma

variable {σ β : Type}

namespace RegisterFile

variable {f g : RegisterFile}

/-- No access changes where the registers are, nor what the device holds. -/
theorem Reaches.fixed_eq (h : f.Reaches g) : g.fixed = f.fixed := by
  induction h with
  | refl => rfl
  | tail _ hlast ih =>
    cases hlast with
    | read offset => exact (fixed_read _ offset).trans ih
    | write offset word => exact (fixed_write _ offset word).trans ih

/-- The registers of a channel show empty rings. -/
structure ShowsFresh (r : ChannelRegisters) (c : Channel β) (f : RegisterFile) : Prop where
  baseLow_eq : ∀ d, f.peek (r.offset (.baseLow d)) = (c.ring d).base.low
  baseHigh_eq : ∀ d, f.peek (r.offset (.baseHigh d)) = (c.ring d).base.high
  size_eq : ∀ d, f.peek (r.offset (.size d)) = UInt32.ofNat (c.ring d).capacity
  head_eq : ∀ d, f.peek (r.offset (.head d)) = 0

end RegisterFile

theorem Machine.registers_log (m : Machine β) (level : LogLevel) (text : String) :
    (m.log level text).registers = m.registers := rfl

namespace Channel

open Machine RegisterFile

variable {us : Nat} {c c' : Channel β} {m m' : Machine β}

/-! ### The channel -/

theorem clock_stop (c : Channel β) (m : Machine β) : (c.stop m).2.2.clock = m.clock := by
  unfold stop
  split <;> rfl

theorem clock_discardSlots (channel : Nat) (direction : Direction) (slots : List (Slot β))
    (m : Machine β) : (discardSlots channel direction slots m).clock = m.clock := by
  induction slots generalizing m with
  | nil => rfl
  | cons s rest ih => exact ih _

theorem clock_resetRings (c : Channel β) (m : Machine β) :
    (c.resetRings m).2.2.clock = m.clock :=
  (clock_discardSlots c.id .fromDevice c.rx.slots _).trans
    (clock_discardSlots c.id .toDevice c.tx.slots m)

/-- A halted channel without faults and buffers, before the device is told. -/
def cleared (c : Channel β) (us : Nat) (m : Machine β) : Channel β × Machine β :=
  let (_, c, m) := c.stop m
  let (_, c, m) := c.resetRings (c.clearErrors .all (c.pulseReset us m))
  (c, m)

/-- What holds of a channel that was halted and cleared. -/
structure Cleared (us : Nat) (c : Channel β) (m : Machine β) (c' : Channel β) (m' : Machine β) :
    Prop where
  running_eq : c'.running = false
  place : SamePlace c c'
  ring_eq : ∀ d, c'.ring d = { c.ring d with
    cells := .replicate (c.ring d).capacity .empty
    head := 0
    tail := 0
    enabled := (c.ring d).enabled && !c.running }
  clock_eq : m'.clock = m.clock.advance us
  course : m.Course c.registers us 1 c.unmappings m'
  reaches : m.registers.Reaches m'.registers
  /-- The last register that was written is the error status. -/
  errors_eq : ∃ f, m.registers.Reaches f ∧
    m'.registers = f.write (c.registers.offset .errorStatus) FaultSet.all.bits

theorem cleared_cleared (us : Nat) (c : Channel β) (m : Machine β) :
    Cleared us c m (c.cleared us m).1 (c.cleared us m).2 := by
  have hstop := course_stop us c m
  have hplace := samePlace_stop c m
  have hrings := ring_stop c m
  have hclock := clock_stop c m
  have hreaches := (run_stop Config.standard c m).reaches
  have hhalted := running_stop c m
  unfold cleared
  generalize c.stop m = stopped at *
  obtain ⟨ran, c₁, m₁⟩ := stopped
  dsimp only at *
  have hpulse := course_pulseReset us c₁ m₁
  have hclear := course_clearErrors us c₁ .all (c₁.pulseReset us m₁)
  have hreset := (aside_resetRings c₁ (c₁.clearErrors .all (c₁.pulseReset us m₁))).course
    c.registers us
  rw [hplace.registers_eq] at hpulse hclear
  have hunmappings : c₁.unmappings = c.unmappings :=
    unmappings_congr hplace.id_eq fun d => by rw [hrings d]; rfl
  rw [hunmappings] at hreset
  have hstep : Step Config.standard c₁ m₁ [] c₁ (c₁.pulseReset us m₁) := .pulse us
  have hpulsed := hreaches.trans hstep.reaches
  have hregisters : (c₁.resetRings (c₁.clearErrors .all (c₁.pulseReset us m₁))).2.2.registers =
      (c₁.pulseReset us m₁).registers.write (c.registers.offset .errorStatus)
        FaultSet.all.bits := by
    rw [registers_resetRings, ← hplace.registers_eq]
    rfl
  constructor
  · exact hhalted
  · exact hplace.trans ⟨rfl, rfl, rfl, rfl⟩
  · intro d
    have hrewound : (c₁.resetRings (c₁.clearErrors .all (c₁.pulseReset us m₁))).2.1.ring d =
        (c₁.ring d).rewind := by
      cases d <;> rfl
    rw [hrewound, hrings d]
    rfl
  · rw [clock_resetRings]
    show m₁.clock.advance us = _
    rw [hclock]
  · exact ((hstop.trans hpulse).still hclear).trans hreset
  · rw [hregisters]
    exact hpulsed.tail (.write _ _)
  · exact ⟨_, hpulsed, hregisters⟩

/-! ### The registers -/

section Registers

variable {d : Device} (hd : d.map.Separate d.windows) (hc : c.Placed d)
include hd hc

/-- A channel that was programmed shows what it sets, but for ring control. -/
theorem told_program (hw : m.registers.Wired d) :
    c.Told d m.registers (· ≠ .ringControl) (c.program m).registers := by
  have hnothing : c.Told d m.registers (fun _ => False) m.registers :=
    ⟨.refl hw _, fun _ _ hno => hno.elim⟩
  have htx := hnothing.programRing hd hc .toDevice
  have hrx := htx.programRing hd hc .fromDevice
  refine (hrx.write hd hc (r := .descControl) rfl).mono ?_
  intro s word hs hset
  cases s with
  | ringControl => exact absurd rfl hs
  | ringStatus | errorStatus => simp [setting?] at hset
  | descControl => simp
  | baseLow direction | baseHigh direction | size direction | head direction =>
    cases direction <;> simp

omit hd in
/-- A setting that was told is shown. -/
theorem Told.peek_eq {known : ChannelRegister → Prop} {f g : RegisterFile} {r : ChannelRegister}
    {word : UInt32} (h : c.Told d f known g) (hr : known r) (hset : c.setting? r = some word) :
    g.peek (c.registers.offset r) = word := by
  rw [hc.offset_eq, h.alike.wired.peek_eq (hc.isSetting (ne_errorStatus_of_setting? hset))]
  exact h.setting_eq r word hr hset

/-- After all known faults were cleared, the error status shows what the device holds, whatever
else is done. -/
theorem stuck_of_cleared {f : RegisterFile} (hf : f.Fits d) :
    (f.write (c.registers.offset .errorStatus) FaultSet.all.bits).Stuck
      (c.registers.offset .errorStatus)
      (.ofRegister (f.held.get (c.registers.offset .errorStatus))) := by
  have hfixed := f.fixed_write (c.registers.offset .errorStatus) FaultSet.all.bits
  have hheld : (f.write (c.registers.offset .errorStatus) FaultSet.all.bits).held = f.held :=
    (fixed_eq_iff.mp hfixed).2.2.2
  have hplace := hc.offset_eq .errorStatus
  have hcleared : f.isClearedByOnes (c.registers.offset .errorStatus) = true := by
    rw [isClearedByOnes, Bool.or_eq_true, List.any_eq_true]
    refine .inr ⟨c.id, List.mem_range.mpr (hf.windows_eq ▸ hc.id_lt), ?_⟩
    rw [hplace, hf.atDevice.channelOffset_eq, beq_self_eq_true]
  refine stuck_of_held ?_ ?_ (by rw [hheld]) ?_
  · rw [isClearedByOnes_of_fixed hfixed, hcleared]
  · rw [(hf.of_fixed hfixed).atDevice.deviceOffset_eq, hplace]
    intro heq
    have hsame : RegisterName.channel c.id .errorStatus = .device .status :=
      hd.eq_of_place (hc.exists .errorStatus) trivial heq
    cases hsame
  · have hnone : FaultSet.ofRegister ((f.write (c.registers.offset .errorStatus)
        FaultSet.all.bits).stored.get (c.registers.offset .errorStatus)) = ∅ := by
      rw [RegisterFile.write, if_pos hcleared, store, WordTable.get_set, if_pos rfl]
      show FaultSet.mk (_ &&& ~~~FaultSet.all.bits &&& FaultSet.all.bits) = ⟨0⟩
      rw [UInt32.and_assoc]
      exact congrArg FaultSet.mk UInt32.and_zero
    rw [hnone]
    refine FaultSet.contains_iff.mpr fun i hi => ?_
    cases (Nat.zero_testBit i).symm.trans hi

/-- The device is told that the rings run, and of nothing else. -/
theorem told_enableRings {f : RegisterFile}
    (h : c.Told d f (· ≠ .ringControl) m.registers) :
    (c.setRunning true).Told d f (· ≠ .ringControl) (c.registers.enableRings m).registers := by
  have hcontrol := (Told.modify hd h hc (r := .ringControl) (by simp)
    (· ||| RingControl.enableBoth)).1
  exact (hcontrol.mono fun s _ hs _ => ⟨hs, hs⟩).congr rfl fun s hs => setting?_setRunning c true hs

/-- What the error status shows since the faults of a channel were cleared. -/
theorem Cleared.errorStatus_eq (h : Cleared us c m c' m') (hm : m.registers.Fits d)
    {g : RegisterFile} (hreaches : m'.registers.Reaches g) :
    FaultSet.ofRegister (g.peek (c.registers.offset .errorStatus)) =
      FaultSet.ofRegister (m.registers.held.get (c.registers.offset .errorStatus)) := by
  obtain ⟨f, hf, hwrite⟩ := h.errors_eq
  have hstuck := stuck_of_cleared hd hc (hm.of_fixed hf.fixed_eq)
  have hheld : f.held = m.registers.held := (fixed_eq_iff.mp hf.fixed_eq).2.2.2
  rw [← hwrite, hheld] at hstuck
  exact hstuck g hreaches

omit hd in
/-- What is shown of a channel with empty rings that was told. -/
theorem showsFresh_of_told (hplace : SamePlace c c') {f g : RegisterFile}
    (htold : c'.Told d f (· ≠ .ringControl) g)
    (hempty : ∀ direction, (c'.ring direction).head = 0) : g.ShowsFresh c.registers c' := by
  have hshown {r : ChannelRegister} {word : UInt32} (hr : r ≠ .ringControl)
      (hset : c'.setting? r = some word) : g.peek (c.registers.offset r) = word := by
    rw [← hplace.registers_eq]
    exact htold.peek_eq (hc.of_samePlace hplace) hr hset
  refine ⟨fun _ => hshown (by simp) rfl, fun _ => hshown (by simp) rfl,
    fun _ => hshown (by simp) rfl, fun direction => ?_⟩
  rw [hshown (r := .head direction) (by simp) rfl, hempty]
  rfl

end Registers

/-! ### The whole channel -/

theorem Cleared.ring_eq_halted (h : Cleared us c m c' m') (hu : c.Uniform)
    (direction : Direction) : c'.ring direction = { c.ring direction with
      cells := .replicate (c.ring direction).capacity .empty
      head := 0
      tail := 0
      enabled := c'.running } := by
  rw [h.ring_eq direction, h.running_eq, hu.enabled_eq direction, Bool.and_not_self]

/-- A channel that was set up anew. -/
structure Anew (d : DeviceRegisters) (us : Nat) (c : Channel β) (m : Machine β) (c' : Channel β)
    (m' : Machine β) : Prop where
  place : SamePlace c c'
  ring_eq : ∀ direction, c'.ring direction = { c.ring direction with
    cells := .replicate (c.ring direction).capacity .empty
    head := 0
    tail := 0
    enabled := c'.running }
  /-- The local reset is pulsed once, and each buffer in flight is unmapped once. -/
  course : m.Course c.registers us 1 c.unmappings m'
  /-- In the end the device is told of the rings, and then they are run if the channel runs. -/
  ends : ∃ before shown text started done, m'.effects = before ++ c'.programming ++
    .log .info text :: if c'.running then
      [.read (c.registers.offset .ringControl) shown,
        .write (c.registers.offset .ringControl) (shown ||| RingControl.enableBoth),
        .log .trace started, .log .debug done]
    else []
  /-- The registers of a device that holds no setting show the channel, if it has a window. -/
  shows : ∀ windows, c.id < windows → d.map.Separate windows →
    m.registers.Wired ⟨d, windows⟩ → m'.registers.ShowsFresh c.registers c'
  /-- The error status shows no fault but those that the device holds, if the channel has a
  window. -/
  errors_eq : ∀ windows, c.id < windows → d.map.Separate windows →
    m.registers.Fits ⟨d, windows⟩ →
      FaultSet.ofRegister (m'.registers.peek (c.registers.offset .errorStatus)) =
        FaultSet.ofRegister (m.registers.held.get (c.registers.offset .errorStatus))

theorem Cleared.head_eq (h : Cleared us c m c' m') (direction : Direction) :
    (c'.ring direction).head = 0 := by
  rw [h.ring_eq direction]

section Whole

variable {d : DeviceRegisters} (hu : c.Uniform) (hc : c.registers = d.channel c.id)
  (h : Cleared us c m c' m') (text : String)
include hu hc h

/-- A channel that was cleared is set up once the device is told of its rings. -/
theorem Cleared.halted : Anew d us c m c' ((c'.program m').log .info text) := by
  have hprogram := course_program us c' m'
  have hreaches := (run_program Config.standard c' m').reaches
  rw [h.place.registers_eq] at hprogram
  refine ⟨h.place, h.ring_eq_halted hu, (h.course.still hprogram).still (.log _ _ _ _ _), ?_,
    fun windows hid hd hw => ?_, fun windows hid hd hm => ?_⟩
  · refine ⟨m'.effects, 0, text, "", "", ?_⟩
    rw [h.running_eq, ← effects_program]
    exact effects_emit _ _
  · have hplaced : c.Placed ⟨d, windows⟩ := ⟨hid, hc⟩
    have htold := told_program hd (hplaced.of_samePlace h.place)
      (hw.of_fixed h.reaches.fixed_eq)
    exact showsFresh_of_told hplaced h.place htold h.head_eq
  · exact h.errorStatus_eq hd ⟨hid, hc⟩ hm hreaches

/-- It may be started after that. -/
theorem Cleared.started (started done : String) : Anew d us c m (c'.setRunning true)
    (((c'.registers.enableRings ((c'.program m').log .info text)).log .trace started).now.2.log
      .debug done) := by
  have hhalted := h.halted hu hc text
  have hreaches := (run_program Config.standard c' m').reaches
  have heffects : ((c'.program m').log .info text).effects =
      m'.effects ++ c'.programming ++ [.log .info text] := by
    rw [← effects_program]
    exact effects_emit _ _
  have htold {d : Device} (hd : d.map.Separate d.windows) (hplaced : c.Placed d)
      (hw : m.registers.Wired d) : c'.Told d m'.registers (· ≠ .ringControl)
        ((c'.program m').log .info text).registers :=
    told_program hd (hplaced.of_samePlace h.place) (hw.of_fixed h.reaches.fixed_eq)
  have hplace : SamePlace c (c'.setRunning true) := h.place.trans ⟨rfl, rfl, rfl, rfl⟩
  have hring (direction : Direction) : (c'.setRunning true).ring direction =
      { c.ring direction with
        cells := .replicate (c.ring direction).capacity .empty
        head := 0
        tail := 0
        enabled := true } := by
    rw [ring_setRunning, h.ring_eq direction]
    rfl
  have hhead (direction : Direction) : ((c'.setRunning true).ring direction).head = 0 := by
    rw [hring direction]
  -- Messages and the clock do not touch the registers.
  rw [← registers_log (c'.program m') .info text] at hreaches
  generalize (c'.program m').log .info text = p at *
  have hrun := course_enableRings us c' p
  have hends : (((c'.registers.enableRings p).log .trace started).now.2.log .debug
      done).registers = (c'.registers.enableRings p).registers := rfl
  have hlater := hreaches.trans (p.reaches_modify (c'.registers.offset .ringControl)
    (· ||| RingControl.enableBoth))
  rw [h.place.registers_eq] at hrun
  refine ⟨hplace, hring, ?_, ?_, fun windows hid hd hw => ?_, fun windows hid hd hm => ?_⟩
  · rw [h.place.registers_eq]
    exact (((hhalted.course.still hrun).still (.log _ _ _ .trace started)).still (.now _ _ _)).still
      (.log _ _ _ .debug done)
  · have hnow (n : Machine β) : n.now.2.effects = n.effects := rfl
    refine ⟨m'.effects, (p.read (c.registers.offset .ringControl)).1, text, started, done, ?_⟩
    rw [log, effects_emit, hnow, log, effects_emit, effects_enableRings, heffects,
      h.place.registers_eq]
    simp only [List.append_assoc]
    rfl
  · rw [hends]
    have hplaced : c.Placed ⟨d, windows⟩ := ⟨hid, hc⟩
    have hstarted := told_enableRings hd (hplaced.of_samePlace h.place) (htold hd hplaced hw)
    exact showsFresh_of_told hplaced hplace hstarted hhead
  · rw [hends]
    exact h.errorStatus_eq hd ⟨hid, hc⟩ hm hlater

end Whole

end Channel

/-! ### The record -/

namespace ChannelRecord

/-- A record of a stopped channel with only its statistics and the beginning of its last run. -/
def forgotten (r : ChannelRecord) : ChannelRecord where
  state := .stopped
  stats := r.stats
  pending := ∅
  retries := 0
  lastAttempt := none
  down := false
  fatal := false
  baseline := r.baseline

theorem reset_eq {r : ChannelRecord} (h : r.state ≠ .recovering) :
    r.reset = (.ok (), r.forgotten) := by
  unfold reset
  split
  next hstate => exact absurd hstate h
  next => rfl

end ChannelRecord

/-! ### The engine -/

namespace Engine

variable {e e' : Engine β} {id : Nat} {c : Channel β} {r : ChannelRecord}

/-- A channel of an engine that is up and what is known of it are replaced. -/
def reseat (e : Engine β) (id : Nat) (c : Channel β) (r : ChannelRecord) (m : Machine β) :
    Engine β :=
  { e with
    channels := e.channels.set id c
    monitor := { e.monitor with records := e.monitor.records.set id r }
    machine := m }

/-- Setting up a channel anew begins with the channel, and nothing can fail there. -/
theorem reinitChannel_eq (hup : e.initialized = true) (hc : e.channels[id]? = some c)
    (hr : e.monitor.records[id]? = some r) (hstate : r.state ≠ .recovering) {c' : Channel β}
    {m' : Machine β} (hcleared : c.cleared e.config.channelResetUs e.machine = (c', m')) :
    ∃ text, e.reinitChannel id =
      if r.state = .stopped then
        (.ok (), e.reseat id c' r.forgotten ((c'.program m').log .info text))
      else (e.reseat id c' r.forgotten ((c'.program m').log .info text)).startChannel id := by
  have hchannel := channel?_of_entry hup (entryAt_of_record hc hr)
  have hreset : e.monitor.reset id =
      (.ok (), { e.monitor with records := e.monitor.records.set id r.forgotten }) := by
    rw [Monitor.reset, Monitor.act_eq hr, ChannelRecord.reset_eq hstate]
  have hstopped : (e.monitor.state? id == some .stopped) = decide (r.state = .stopped) := by
    rw [Monitor.state?_eq hr]
    cases r.state <;> rfl
  obtain ⟨rfl, rfl⟩ := Prod.mk.inj hcleared
  rw [reinitChannel, hchannel]
  dsimp only
  rw [hreset, hstopped]
  simp only [decide_eq_true_eq]
  exact ⟨_, rfl⟩

theorem reseat_reseat (e : Engine β) (id : Nat) (c c' : Channel β) (r r' : ChannelRecord)
    (m m' : Machine β) : (e.reseat id c r m).reseat id c' r' m' = e.reseat id c' r' m' := by
  simp only [reseat, List.set_set]

/-- A stopped channel that is not down can be started, and the time of its start is kept. -/
theorem startChannel_of_stopped (hup : e.initialized = true) (hc : e.channels[id]? = some c)
    (hr : e.monitor.records[id]? = some r) (hstate : r.state = .stopped) (hdown : r.down = false)
    (hbuilt : c.initialized = true) (hhalted : c.running = false) :
    ∃ text done, e.startChannel id = (.ok (), e.reseat id (c.setRunning true)
      { r with state := .running, baseline := e.machine.clock.now }
      (((c.registers.enableRings e.machine).log .trace text).now.2.log .debug done)) := by
  have hgood : e.monitor.downError? id = none := by
    rw [Monitor.downError?, Monitor.record?, hr, Option.bind_some, ChannelRecord.downError?,
      if_neg (by simp [hdown])]
  have husable := usable?_of_up hup hc hgood
  have hrecord : r.start e.machine.clock.now =
      (.ok (), { r with state := .running, baseline := e.machine.clock.now }) := by
    rw [ChannelRecord.start, hstate]
  have hstart : e.monitor.start id e.machine.clock.now = (.ok (), { e.monitor with
      records := e.monitor.records.set id
        { r with state := .running, baseline := e.machine.clock.now } }) := by
    rw [Monitor.start, Monitor.act_eq hr, hrecord]
  rw [startChannel, husable]
  dsimp only
  rw [Monitor.state?_eq hr, hstate]
  dsimp only
  rw [Channel.start_of_halted hbuilt hhalted]
  dsimp only
  have hnow (m : Machine β) (hm : m.clock = e.machine.clock) :
      (e.put id (c.setRunning true) m).now.2.monitor.start id
        (e.put id (c.setRunning true) m).now.1 = (.ok (), { e.monitor with
          records := e.monitor.records.set id
            { r with state := .running, baseline := e.machine.clock.now } }) := by
    rw [← hstart, ← hm]
    rfl
  generalize s!"ch{c.id}: started" = text
  rw [hnow ((c.registers.enableRings e.machine).log .trace text) rfl]
  exact ⟨text, _, rfl⟩

/-- A channel that was set up anew, and the engine and the record that go with it. -/
structure Fresh (e : Engine β) (id : Nat) (c : Channel β) (r : ChannelRecord) (c' : Channel β)
    (e' : Engine β) : Prop where
  /-- Nothing but the channel, its record and the machine is changed. A channel that runs has until
  the threshold after its start to show a sign of life. -/
  engine_eq : e' = e.reseat id c'
    { state := if r.state = .stopped then .stopped else .running
      stats := r.stats
      pending := ∅
      retries := 0
      lastAttempt := none
      down := false
      fatal := false
      baseline := if r.state = .stopped then r.baseline
        else (e.machine.clock.advance e.config.channelResetUs).now } e'.machine
  id_eq : c.id = id
  registers_eq : c.registers = e.device.channel id
  running_eq : c'.running = !decide (r.state = .stopped)
  anew : Channel.Anew e.device e.config.channelResetUs c e.machine c' e'.machine

/-- A channel that is set up anew is fresh, from whatever state it was in. It stays stopped if it
was stopped, and otherwise it runs from then on. -/
theorem reinit_fresh {config : Config} {m : Machine β} {moments : List (Moment σ β)}
    {seen : Story β} (h : live moments (new config m) = some (seen, e))
    (hc : e.channels[id]? = some c) :
    ∃ r c' e', e.monitor.records[id]? = some r ∧ e.reinitChannel id = (.ok (), e') ∧
      e.Fresh id c r c' e' := by
  have hsteady := steady_of_live h
  obtain ⟨r, hr, hfits⟩ := hsteady.coherent.record hc
  have hup := hsteady.up (entryAt_of_record hc hr)
  obtain ⟨hid, -, hplaced⟩ := home_of_live (Nat.le_refl _) h id c hc
  have huniform := hsteady.coherent.uniform id c hc
  have hregisters : c.registers = e.device.channel id := hid ▸ hplaced.registers_eq
  have hcleared := Channel.cleared_cleared e.config.channelResetUs c e.machine
  generalize hclear : c.cleared e.config.channelResetUs e.machine = cleared at hcleared
  obtain ⟨c₁, m₁⟩ := cleared
  dsimp only at hcleared
  obtain ⟨text, heq⟩ := reinitChannel_eq hup hc hr hfits.settled hclear
  by_cases hstopped : r.state = .stopped
  · rw [if_pos hstopped] at heq
    refine ⟨r, c₁, _, hr, heq, ?_, hid, hregisters, ?_,
      hcleared.halted huniform hplaced.registers_eq text⟩
    · simp only [if_pos hstopped]
      rfl
    · rw [hcleared.running_eq, decide_eq_true hstopped]
      rfl
  · rw [if_neg hstopped] at heq
    obtain ⟨hlt, _⟩ := List.getElem?_eq_some_iff.mp hc
    obtain ⟨hlt', _⟩ := List.getElem?_eq_some_iff.mp hr
    obtain ⟨started, done, hstart⟩ := startChannel_of_stopped
      (e := e.reseat id c₁ r.forgotten ((c₁.program m₁).log .info text)) hup
      (List.getElem?_set_self hlt) (List.getElem?_set_self hlt') rfl rfl
      (hcleared.place.initialized_eq.trans huniform.built) hcleared.running_eq
    rw [hstart, reseat_reseat] at heq
    refine ⟨r, c₁.setRunning true, _, hr, heq, ?_, hid, hregisters, ?_,
      hcleared.started huniform hplaced.registers_eq text started done⟩
    · simp only [if_neg hstopped]
      rw [← hcleared.clock_eq]
      rfl
    · rw [decide_eq_false hstopped]
      rfl

/-- A channel with a buffer in flight goes down with a fatal fault. -/
def lostTrip : List (Moment Unit Nat) :=
  [.operate (.init 0 1), .operate .start, .operate (.enqueue 0 .toDevice 7 64),
    .disturb (.registers (·.injectFaults 0 Fault.fatal.bit)), .operate .onInterrupt]

/-- It is set up anew and runs. -/
theorem reinit_fresh_trip : ∃ seen e c r c' e',
    live lostTrip (new .bench .bench) = some (seen, e) ∧ e.channels[0]? = some c ∧
      c.tx.slots.length = 1 ∧ e.monitor.isDown 0 = true ∧
      e.reinitChannel 0 = (.ok (), e') ∧ e.Fresh 0 c r c' e' ∧ c'.running = true ∧
      e'.machine.registers.ShowsFresh c.registers c' ∧
      FaultSet.ofRegister (e'.machine.registers.peek (c.registers.offset .errorStatus)) = ∅ := by
  have hfacts : (live lostTrip (new .bench .bench)).map (fun s =>
      (s.2.channels[0]?.map (·.tx.slots.length), s.2.monitor.isDown 0,
        s.2.monitor.state? 0 == some .stopped, s.2.device)) =
        some (some 1, true, false, ⟨.standard, 0⟩) := by
    decide +kernel
  have hwiring : (live lostTrip (new .bench .bench)).map (·.2.machine.registers.fixed) =
      some (.standard, 0, maxChannels, .zero) := by
    decide +kernel
  obtain ⟨⟨seen, e⟩, hlive, hfacts⟩ := Option.map_eq_some_iff.mp hfacts
  rw [hlive] at hwiring
  simp only [Option.map_some, Option.some.injEq, Prod.mk.injEq, RegisterFile.fixed]
    at hfacts hwiring
  obtain ⟨hslots, hdown, hstate, hdevice⟩ := hfacts
  obtain ⟨hmap, hbase, hwindows, hheld⟩ := hwiring
  obtain ⟨c, hc, hlength⟩ := Option.map_eq_some_iff.mp hslots
  have hwired : e.machine.registers.Wired ⟨e.device, maxChannels⟩ := by
    rw [hdevice]
    exact ⟨hmap, hbase, hwindows, fun n _ => by rw [hheld]; rfl⟩
  obtain ⟨r, c', e', hr, hreinit, hfresh⟩ := reinit_fresh hlive hc
  have hrunning : c'.running = true := by
    rw [Monitor.state?_eq hr] at hstate
    rw [hfresh.running_eq]
    simpa using hstate
  have hseparate : e.device.map.Separate maxChannels :=
    hdevice ▸ RegisterMap.separate_standard _
  have hid : c.id < maxChannels := hfresh.id_eq ▸ by decide
  refine ⟨seen, e, c, r, c', e', hlive, hc, hlength, hdown, hreinit, hfresh, hrunning,
    hfresh.anew.shows _ hid hseparate hwired, ?_⟩
  rw [hfresh.anew.errors_eq _ hid hseparate hwired.fits, hheld, WordTable.get_zero]
  rfl

end Engine

end PacketDma
