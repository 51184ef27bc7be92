import PacketDma.Proofs.Confinement
import PacketDma.Proofs.Counting
import PacketDma.Proofs.FailedStart
import PacketDma.Proofs.OperationActions

/-!
# Isolation of channels

An operation on one channel leaves all other channels alone: their rings, what is known of them,
their policies, the work that waits for them and the registers of their windows. It writes to no
register of the device as a whole. An interrupt leaves alone every channel that did not raise it.
Main statement: `channels_isolated`.

## Implementation notes

A channel writes to its window wherever it was made, so that every channel has to stand in the
window of its number. That is kept by every history, whatever the world does to the registers.
-/

namespace PacketDma

variable {σ β : Type}

/-! ### Windows -/

/-- What lies on a register of a channel is a register of that channel. So windows overlap neither
each other nor the registers of the device as a whole. -/
def RegisterMap.Windowed (map : RegisterMap) (windows : Nat) : Prop :=
  ∀ id r n, (RegisterName.channel id r).Exists windows → n.Exists windows →
    map.place n = map.place (.channel id r) → n.IsOf id

theorem RegisterMap.Separate.windowed {map : RegisterMap} {windows : Nat}
    (h : map.Separate windows) : map.Windowed windows :=
  fun _ r _ hr hn heq => ⟨r, h hn hr heq⟩

namespace Device

variable {d : Device} {id i : Nat} {r : ChannelRegister} {n : RegisterName}

theorem isOf_of_owns (hd : d.map.Windowed d.windows) (hn : n.Exists d.windows)
    (h : d.Owns id (d.place n)) : n.IsOf id := by
  obtain ⟨r, hr, heq⟩ := h
  exact hd id r n hr hn (Nat.add_left_cancel heq)

end Device

namespace Engine

/-! ### Channels in their windows -/

section Home

variable {d : Device} {windows id : Nat} {e e' : Engine β}

/-- If one channel was worked on, the other ones are where they were. -/
theorem KeepsTo.homes (h : KeepsTo d id e e') (he : ∀ id, e.Home d id) (i : Nat) :
    e'.Home d i := by
  by_cases hi : i = id
  · subst hi
    exact h.home
  · intro c hc
    rw [h.channel_eq i hi] at hc
    exact he i c hc

theorem home_of_acts (he : ∀ id, e.Home d id) (h : Acts e e') : ∀ id, e'.Home d id := by
  intro id c hc
  have hplant : ∀ p, Plant.Acts e.config e.plant p → ∀ (i : Nat) (c : Channel β),
      p.channels[i]? = some c → c.id = i ∧ i < maxChannels ∧ c.Placed d := by
    intro p hp
    induction hp with
    | refl => exact he
    | tail _ hact ih =>
      cases hact with
      | aside => exact ih
      | channel hc hact =>
        intro i x hx
        rcases Plant.getElem?_replace hx with ⟨rfl, rfl⟩ | ⟨-, hx⟩
        · obtain ⟨hid, hlt, hplaced⟩ := ih _ _ hc
          exact ⟨hact.samePlace.id_eq.trans hid, hlt, hplaced.of_samePlace hact.samePlace⟩
        · exact ih i x hx
  exact hplant _ h.acts id c hc

/-- The channels that an engine comes up with stand in their windows. -/
theorem home_of_init {base count : Nat} (hlimit : e.config.channelLimit ≤ windows)
    (h : e.init base count = (.ok (), e')) (id : Nat) : e'.Home ⟨e'.device, windows⟩ id := by
  intro c hc
  have hcount := (accepts_of_init h).2.count_le
  obtain ⟨m, hup⟩ := onlyActs_broughtUp h
  have hdevice : e'.unplaced.device = e.config.device base := by
    rw [hup]
    rfl
  have hchannels : e'.unplaced.channels[id]? = some c.unplaced := by
    rw [unplaced, List.getElem?_map, hc, Option.map_some]
  rw [hup, broughtUp, List.getElem?_map, Option.map_eq_some_iff] at hchannels
  obtain ⟨i, hi, hblank⟩ := hchannels
  obtain ⟨hlt, rfl⟩ := List.getElem?_eq_some_iff.mp hi
  rw [List.length_range] at hlt
  rw [List.getElem_range] at hblank
  have hid : c.id = id := (congrArg Channel.id hblank).symm
  have hroom : id < e.config.channelLimit := Nat.lt_of_lt_of_le hlt hcount
  refine ⟨hid, Nat.lt_of_lt_of_le hroom e.config.channelLimit_le,
    hid ▸ Nat.lt_of_lt_of_le hroom hlimit, ?_⟩
  have hregisters : c.registers = (e.config.device base).channel id :=
    (congrArg Channel.registers hblank).symm
  rw [hregisters, hid]
  exact congrArg (·.channel id) hdevice.symm

/-- Whatever happens, channels stand in their windows. -/
theorem home_of_pass {moment : Moment σ β} {seen : Story β}
    (hlimit : e.config.channelLimit ≤ windows) (he : ∀ id, e.Home ⟨e.device, windows⟩ id)
    (h : moment.pass e = some (seen, e')) : ∀ id, e'.Home ⟨e'.device, windows⟩ id := by
  cases move_of_pass h with
  | up base count =>
    generalize hinit : e.init base count = attempt
    obtain ⟨result, e₁⟩ := attempt
    cases result with
    | error x =>
      obtain ⟨m, rfl⟩ := onlyActs_of_init hinit
      exact he
    | ok => exact home_of_init hlimit hinit
  | down hdeinit =>
    obtain ⟨-, ⟨-, rfl⟩ | ⟨-, hdown⟩⟩ := run_deinit (fun _ => True) (fun _ => trivial) hdeinit
    · exact he
    · intro id c hc
      rw [hdown.channels_eq] at hc
      cases hc
  | registers f => exact he
  | acts _ hacts =>
    have hdevice : e'.device = e.device := by
      rw [device, hacts.config_eq, hacts.base_eq]
      rfl
    rw [hdevice]
    refine home_of_acts ?_ hacts
    exact he

/-- In every history of a new engine, channels stand in their windows, of which there are enough. -/
theorem home_of_live {config : Config} {m : Machine β} {moments : List (Moment σ β)}
    {seen : Story β} (hlimit : config.channelLimit ≤ windows)
    (h : live moments (new config m) = some (seen, e)) :
    ∀ id, e.Home ⟨e.device, windows⟩ id := by
  have hkept := live_keeps
    (fun e => e.IdleEmpty ∧ e.config = config ∧ ∀ id, e.Home ⟨e.device, windows⟩ id)
    (fun moment _ _ _ _ hpass ⟨hidle, hconfig, he⟩ => ⟨moment.idleEmpty_of_pass hidle hpass,
      (moment.config_of_pass hidle hpass).trans hconfig, home_of_pass (hconfig ▸ hlimit) he hpass⟩)
    h ⟨idleEmpty_new config m, rfl, fun _ _ hc => nomatch hc⟩
  exact hkept.2.2

end Home

/-! ### Bystanders -/

/-- A channel has its rings, its record, its policy, its work and the registers of its window as it
had them before. -/
structure Undisturbed (d : DeviceRegisters) (i : Nat) (e e' : Engine β) : Prop where
  channel_eq : e'.channels[i]? = e.channels[i]?
  record_eq : e'.monitor.records[i]? = e.monitor.records[i]?
  policy_eq : e'.policies.get? i = e.policies.get? i
  pending_eq : e'.work.pending.of i = e.work.pending.of i
  peek_eq : ∀ r, e'.machine.registers.peek ((d.channel i).offset r) =
    e.machine.registers.peek ((d.channel i).offset r)

section Bystanders

variable {d : Device} {id i : Nat} {e e' e'' : Engine β}

theorem Undisturbed.refl (d : DeviceRegisters) (i : Nat) (e : Engine β) : Undisturbed d i e e :=
  ⟨rfl, rfl, rfl, rfl, fun _ => rfl⟩

theorem Undisturbed.trans {d : DeviceRegisters} (h : Undisturbed d i e e')
    (h' : Undisturbed d i e' e'') : Undisturbed d i e e'' :=
  ⟨h'.channel_eq.trans h.channel_eq, h'.record_eq.trans h.record_eq,
    h'.policy_eq.trans h.policy_eq, h'.pending_eq.trans h.pending_eq,
    fun r => (h'.peek_eq r).trans (h.peek_eq r)⟩

variable (hd : d.map.Windowed d.windows) (hi : i < d.windows)
include hd hi

/-- What is written outside of a window does not change what the window shows. -/
theorem peek_of_confined {writable : Nat → Prop} {m n : Machine β} (hat : m.registers.At d)
    (h : m.Confined writable n) (r : ChannelRegister)
    (hr : ¬ writable (d.place (.channel i r))) :
    n.registers.peek ((d.channel i).offset r) = m.registers.peek ((d.channel i).offset r) := by
  rw [← d.place_channel]
  refine h.peek_eq hr ?_
  rw [RegisterFile.deviceOffset, hat.1, hat.2]
  intro heq
  have hof : (RegisterName.device .status).IsOf i :=
    hd i r _ hi trivial (Nat.add_left_cancel heq).symm
  exact RegisterName.not_isOf_device i .status hof

theorem KeepsTo.undisturbed (h : KeepsTo d id e e') (hat : e.machine.registers.At d)
    (hlt : i < maxChannels) (hne : i ≠ id) : Undisturbed d i e e' := by
  refine ⟨h.channel_eq i hne, h.record_eq i hne, h.policy_eq i hne,
    h.pending_eq i (Nat.lt_trans hlt (by decide)) hne, fun r => ?_⟩
  refine peek_of_confined hd hi hat h.confined r fun howns => hne ?_
  have hof := Device.isOf_of_owns hd (n := .channel i r) hi howns
  exact RegisterName.isOf_channel_iff.mp hof

/-- Handling the interrupts of some channels leaves a channel alone that is not one of them. -/
theorem undisturbed_handleChannels {ids : List Nat} (hids : ∀ id ∈ ids, id < 32 ∧ i ≠ id)
    (hat : e.machine.registers.At d) (he : ∀ id, e.Home d id) (hlt : i < maxChannels)
    (status : InterruptStatus) (now : Nat) :
    Undisturbed d i e (ids.foldl (handleChannel status now) e) := by
  induction ids generalizing e with
  | nil => exact .refl d i e
  | cons id rest ih =>
    obtain ⟨⟨hid, hne⟩, hrest⟩ := List.forall_mem_cons.mp hids
    have hfirst := (KeepsTo.refl (he id)).handleChannel hid status now
    exact (hfirst.undisturbed hd hi hat hlt hne).trans
      (ih hrest (hat.of_fixed hfirst.confined.fixed_eq) (hfirst.homes he))

end Bystanders

/-- An interrupt leaves every channel alone that did not raise it. -/
theorem undisturbed_onInterrupt {windows i : Nat} {e : Engine β}
    (hd : e.device.map.Windowed windows) (hi : i < windows) (hlt : i < maxChannels)
    (hat : e.machine.registers.At e.device) (he : ∀ id, e.Home ⟨e.device, windows⟩ id)
    (hcomplete : (e.device.read .intStatus e.machine).1.toNat.testBit i = false)
    (herror : (e.device.read .intStatus e.machine).1.toNat.testBit (16 + i) = false) :
    Undisturbed e.device i e e.onInterrupt.2 := by
  have hread : e.machine.Confined e.device.Own (e.device.read .intStatus e.machine).2 :=
    (Machine.Confined.refl _ _).read _
  have hmachine {m : Machine β} (hm : e.machine.Confined e.device.Own m) :
      Undisturbed e.device i e { e with machine := m } := by
    refine ⟨rfl, rfl, rfl, rfl, fun r =>
      peek_of_confined (d := ⟨e.device, windows⟩) hd hi hat hm r ?_⟩
    rintro ⟨s, heq⟩
    have hof : (RegisterName.device s).IsOf i :=
      hd i r (.device s) hi trivial (Nat.add_left_cancel heq).symm
    exact RegisterName.not_isOf_device i s hof
  unfold onInterrupt
  split
  · exact .refl _ _ _
  generalize e.device.read .intStatus e.machine = access at hread hcomplete herror
  obtain ⟨raw, m⟩ := access
  dsimp only at hread hcomplete herror ⊢
  split
  · exact hmachine hread
  · have hack := hread.write (e.device.own_offset .intStatus) raw
    have hids := InterruptStatus.ne_of_mem_limit hcomplete herror e.channels.length
    generalize (InterruptStatus.ofWord raw).limit e.channels.length = status at hids ⊢
    have hacked := hmachine hack
    have hhome : ∀ id, Home ⟨e.device, windows⟩ id
      { e with machine := e.device.ackInterrupts raw m } := he
    have hsame : RegisterFile.At e.device (e.device.ackInterrupts raw m).registers :=
      hat.of_fixed hack.fixed_eq
    generalize he₁ : { e with machine := e.device.ackInterrupts raw m } = e₁ at hhome ⊢
    have hloop (f : EngineStats → EngineStats) (t : Nat) : Undisturbed e.device i e₁
        (status.channels.toList.foldl (handleChannel status t) (e₁.now.2.count f)) := by
      have hcount : Undisturbed e.device i e₁ (e₁.now.2.count f) :=
        ⟨rfl, rfl, rfl, rfl, fun _ => rfl⟩
      have hat₁ : RegisterFile.At e.device e₁.machine.registers := he₁ ▸ hsame
      exact hcount.trans
        (undisturbed_handleChannels (e := e₁.now.2.count f) hd hi hids hat₁ hhome hlt status t)
    exact (he₁ ▸ hacked).trans (hloop _ _)

end Engine

/-- The one channel that an operation is addressed to. -/
def Operation.channel? : Operation σ β → Option Nat
  | .startChannel id | .stopChannel id | .suspendChannel id | .resumeChannel id
  | .reinitChannel id | .enqueue id .. | .pollReclaim id _ | .recoverChannel id
  | .setRecoveryPolicy id _ | .resetChannelStats id => some id
  | _ => none

namespace Engine

/-- An operation that is addressed to one channel works on that channel only, whatever its
result. -/
theorem keepsTo_of_perform {d : Device} {id : Nat} {e : Engine β} (he : e.Home d id)
    {op : Operation σ β} (hop : op.channel? = some id) :
    ∃ seen e', op.perform e = some (seen, e') ∧ KeepsTo d id e e' := by
  have hstart : KeepsTo d id e e := .refl he
  cases op with
  | startChannel =>
    obtain rfl := Option.some.inj hop
    exact ⟨_, _, rfl, hstart.startChannel⟩
  | stopChannel =>
    obtain rfl := Option.some.inj hop
    exact ⟨_, _, rfl, hstart.stopChannel⟩
  | suspendChannel =>
    obtain rfl := Option.some.inj hop
    exact ⟨_, _, rfl, hstart.suspendChannel⟩
  | resumeChannel =>
    obtain rfl := Option.some.inj hop
    exact ⟨_, _, rfl, hstart.resumeChannel⟩
  | reinitChannel =>
    obtain rfl := Option.some.inj hop
    exact ⟨_, _, rfl, hstart.reinitChannel⟩
  | recoverChannel =>
    obtain rfl := Option.some.inj hop
    exact ⟨_, _, rfl, hstart.recoverChannel⟩
  | setRecoveryPolicy _ policy =>
    obtain rfl := Option.some.inj hop
    exact ⟨_, _, rfl, hstart.setRecoveryPolicy policy⟩
  | resetChannelStats =>
    obtain rfl := Option.some.inj hop
    exact ⟨_, _, rfl, hstart.resetChannelStats⟩
  | enqueue _ direction buffer length =>
    obtain rfl := Option.some.inj hop
    have hposted := hstart.enqueue direction buffer length
    simp only [Operation.perform]
    split
    next hresult =>
      rw [hresult] at hposted
      exact ⟨_, _, rfl, hposted⟩
    next hresult =>
      rw [hresult] at hposted
      exact ⟨_, _, rfl, hposted⟩
  | pollReclaim _ direction =>
    obtain rfl := Option.some.inj hop
    have htaken := hstart.pollReclaim direction
    simp only [Operation.perform]
    split
    next hresult =>
      rw [hresult] at htaken
      exact ⟨_, _, rfl, htaken⟩
    next hresult =>
      rw [hresult] at htaken
      exact ⟨_, _, rfl, htaken⟩
  | _ => cases hop

/-- In every state that a history reaches, on every device that has a window for each channel and
whose windows do not overlap, an operation that is addressed to one channel leaves all other
channels undisturbed, whatever its result, and writes to no register of the device as a whole. An
interrupt leaves every channel undisturbed of which neither bit is set in the interrupt status. -/
theorem channels_isolated {config : Config} {windows : Nat} {m : Machine β}
    {moments : List (Moment σ β)} {seen : Story β} {e : Engine β}
    (hlimit : config.channelLimit ≤ windows) (h : live moments (new config m) = some (seen, e))
    (hwindows : e.device.map.Windowed windows) (hat : e.machine.registers.At e.device) :
    (∀ (op : Operation σ β) (id : Nat), op.channel? = some id →
      ∃ told e', op.perform e = some (told, e') ∧
        (∀ i < min windows maxChannels, i ≠ id → Undisturbed e.device i e e') ∧
          ∃ new, e'.machine.effects = e.machine.effects ++ new ∧
            ∀ r word, Event.write (e.device.offset r) word ∉ new) ∧
      ∀ i < min windows maxChannels,
        (e.device.read .intStatus e.machine).1.toNat.testBit i = false →
          (e.device.read .intStatus e.machine).1.toNat.testBit (16 + i) = false →
            Undisturbed e.device i e e.onInterrupt.2 := by
  have hhome := home_of_live hlimit h
  constructor
  · intro op id hop
    obtain ⟨told, e', hperform, hkept⟩ := keepsTo_of_perform (hhome id) hop
    refine ⟨told, e', hperform, fun i hi hne => hkept.undisturbed hwindows
      (Nat.lt_min.mp hi).1 hat (Nat.lt_min.mp hi).2 hne, ?_⟩
    obtain ⟨new, hnew, hwrites⟩ := hkept.confined.written
    refine ⟨new, hnew, fun r word hmem => ?_⟩
    have hof := Device.isOf_of_owns (d := ⟨e.device, windows⟩) hwindows (n := .device r) trivial
      (hwrites _ word hmem)
    exact RegisterName.not_isOf_device id r hof
  · intro i hi hcomplete herror
    exact undisturbed_onInterrupt hwindows (Nat.lt_min.mp hi).1 (Nat.lt_min.mp hi).2 hat hhome
      hcomplete herror

/-- Two channels run, each with a buffer in flight, and the device reports faults of the first
one. -/
def pairTrip : List (Moment Unit Nat) :=
  [.operate (.init 0 2), .operate .start, .operate (.enqueue 0 .toDevice 7 64),
    .operate (.enqueue 1 .fromDevice 8 64),
    .disturb (.registers fun f => f.injectFaults 0 Fault.descriptor.bit)]

theorem channels_isolated_trip : ∃ seen e told e',
    live pairTrip (new .bench .bench) = some (seen, e) ∧
      (Operation.reinitChannel 0 : Operation Unit Nat).perform e = some (told, e') ∧
        Undisturbed e.device 1 e e' ∧ Undisturbed e.device 1 e e.onInterrupt.2 ∧
          e'.monitor.records[1]?.map (·.state) = some .running := by
  have hends : (live pairTrip (new .bench .bench)).isSome = true := by decide +kernel
  have hshown : (live pairTrip (new .bench .bench)).map (fun r =>
      (r.2.config, r.2.base, r.2.machine.registers.map, r.2.machine.registers.base)) =
        some (.bench, 0, .standard, 0) := by decide +kernel
  have hraised : (live pairTrip (new .bench .bench)).map (fun r =>
      ((r.2.device.read .intStatus r.2.machine).1, r.2.monitor.records[1]?.map (·.state))) =
        some (0x10000, some .running) := by decide +kernel
  obtain ⟨⟨seen, e⟩, h⟩ := Option.isSome_iff_exists.mp hends
  rw [h] at hshown hraised
  simp only [Option.map_some, Option.some.injEq, Prod.mk.injEq] at hshown hraised
  obtain ⟨hconfig, hbase, hmap, hfilebase⟩ := hshown
  obtain ⟨hraw, hstate⟩ := hraised
  have hdevice : e.device = Config.bench.device 0 := by
    rw [device, hconfig, hbase]
    rfl
  have hat : e.machine.registers.At e.device := by
    rw [hdevice]
    exact ⟨hmap, hfilebase⟩
  have hwindows : e.device.map.Windowed maxChannels := by
    rw [hdevice]
    exact (RegisterMap.separate_standard _).windowed
  obtain ⟨haddressed, hinterrupt⟩ := channels_isolated (Nat.min_le_right ..) h hwindows hat
  obtain ⟨told, e', hperform, hothers, -⟩ := haddressed (.reinitChannel 0) 0 rfl
  have hsecond := hothers 1 (by decide) (by decide)
  refine ⟨seen, e, told, e', h, hperform, hsecond, hinterrupt 1 (by decide) ?_ ?_, ?_⟩
  · rw [hraw]
    decide
  · rw [hraw]
    decide
  · rw [hsecond.record_eq]
    exact hstate

end Engine

end PacketDma
