import PacketDma.Proofs.EngineRun

/-!
# Bringing up and down as runs

Bringing the engine up makes channels from nothing. If that fails, the channels already made are
given up again, and since nothing was posted on them, nothing is lost. Going down halts every
channel before it gives up the rings.
-/

namespace PacketDma.Engine

variable {β : Type} {uses : Nat → Prop}

open Machine

/-! ### Rows of channels -/

theorem run_haltChannels (config : Config) (uses : Nat → Prop) (before rest : List (Channel β))
    (m : Machine β) :
    Plant.Run config uses ⟨before ++ rest, m⟩ []
      ⟨before ++ (haltChannels rest m).1, (haltChannels rest m).2⟩ := by
  induction rest generalizing before m with
  | nil => exact .refl
  | cons c rest ih =>
    have hc : (before ++ c :: rest)[before.length]? = some c := by simp
    have hstop := Plant.run_channel uses hc (c.run_stop config m)
    rw [List.set_append_right _ _ (Nat.le_refl _), Nat.sub_self, List.set_cons_zero] at hstop
    have hrest := ih (before ++ [(c.stop m).2.1]) (c.stop m).2.2
    simp only [List.append_assoc, List.singleton_append] at hrest
    exact hstop.trans hrest

theorem running_haltChannels (channels : List (Channel β)) (m : Machine β) :
    ∀ c ∈ (haltChannels channels m).1, c.running = false := by
  induction channels generalizing m with
  | nil => simp [haltChannels]
  | cons c rest ih =>
    intro d hd
    rcases List.mem_cons.mp hd with rfl | hd
    · exact c.running_stop m
    · exact ih _ d hd

/-- Halted channels keep their numbers. -/
theorem ids_haltChannels (channels : List (Channel β)) (m : Machine β) :
    (haltChannels channels m).1.map (·.id) = channels.map (·.id) := by
  induction channels generalizing m with
  | nil => rfl
  | cons c rest ih =>
    have hid : (c.stop m).2.1.id = c.id := by
      unfold Channel.stop
      split <;> rfl
    simp only [haltChannels, List.map_cons, hid, ih]

/-- Telling the device about channels leaves the channels as they are. -/
theorem run_programs {config : Config} {channels : List (Channel β)} (some : List (Channel β))
    (hsome : ∀ c ∈ some, c ∈ channels) (m : Machine β) :
    Plant.Run config uses ⟨channels, m⟩ []
      ⟨channels, some.foldl (fun m c => c.program m) m⟩ := by
  induction some generalizing m with
  | nil => exact .refl
  | cons c rest ih =>
    obtain ⟨id, hlt, hget⟩ := List.getElem_of_mem (hsome c (by simp))
    have hc : channels[id]? = .some c := List.getElem?_eq_some_iff.mpr ⟨hlt, hget⟩
    have hprogram := Plant.run_channel uses hc (c.run_program config m)
    rw [← hget, List.set_getElem_self, hget] at hprogram
    exact hprogram.trans (ih (fun d hd => hsome d (by simp [hd])) _)

/-! ### Making channels -/

/-- A channel on which nothing was posted yet. -/
structure IsFresh (config : Config) (c : Channel β) : Prop where
  initialized_eq : c.initialized = true
  running_eq : c.running = false
  ring_new : ∀ d, Channel.IsNewRing config (c.ring d)

theorem isFresh_of_build {config : Config} {id window : Nat} {c : Channel β} {m m' : Machine β}
    (h : Channel.build id window config m = (.ok c, m')) : IsFresh config c := by
  obtain ⟨_, _, _, hrings, hrun, hnew⟩ := Channel.of_build h
  exact ⟨hrings, hrun, hnew⟩

/-- The channels already made and the one after them are fresh. -/
theorem isFresh_append {config : Config} {made : List (Channel β)} {c : Channel β}
    (hmade : ∀ c ∈ made, IsFresh config c) (hc : IsFresh config c) :
    ∀ d ∈ made ++ [c], IsFresh config d := by
  intro d hd
  rcases List.mem_append.mp hd with hd | hd
  · exact hmade d hd
  · exact List.mem_singleton.mp hd ▸ hc

/-- Channels are made in the order of their numbers, and all of them are fresh. -/
theorem run_buildChannels_ok {config : Config} {base k : Nat} {made channels : List (Channel β)}
    {m m' : Machine β} (hbase : uses base) (hk : made.length + k ≤ config.channelLimit)
    (hmade : ∀ c ∈ made, IsFresh config c)
    (h : buildChannels config base made (List.range' made.length k) m = (.ok channels, m')) :
    Plant.Run config uses ⟨made, m⟩ [] ⟨channels, m'⟩ ∧ channels.length = made.length + k ∧
      ∀ c ∈ channels, IsFresh config c := by
  induction k generalizing made m with
  | zero =>
    obtain ⟨hchannels, rfl⟩ := Prod.mk.inj h
    obtain rfl := Except.ok.inj hchannels
    exact ⟨.refl, rfl, hmade⟩
  | succ k ih =>
    simp only [List.range'_succ, buildChannels] at h
    split at h
    · simp at h
    next c m₁ hc =>
      have hlength : (made ++ [c]).length = made.length + 1 := by simp
      rw [← hlength] at h
      have hbuild : Plant.Run config uses ⟨made, m⟩ [] ⟨made ++ [c], m₁⟩ :=
        .single (.build hbase (by show made.length < _; omega) hc)
      obtain ⟨hrun, hcount, hfresh⟩ := ih (by rw [hlength]; omega)
        (isFresh_append hmade (isFresh_of_build hc)) h
      exact ⟨hbuild.trans hrun, by rw [hcount, hlength]; omega, hfresh⟩

/-- If a channel cannot be made, no channel is left. -/
theorem run_buildChannels_error {config : Config} {base k : Nat} {made : List (Channel β)}
    {m m' : Machine β} {x : Error} (hbase : uses base) (hk : made.length + k ≤ config.channelLimit)
    (hmade : ∀ c ∈ made, IsFresh config c)
    (h : buildChannels config base made (List.range' made.length k) m = (.error x, m')) :
    Plant.Run config uses ⟨made, m⟩ [] ⟨[], m'⟩ := by
  induction k generalizing made m with
  | zero => simp [buildChannels] at h
  | succ k ih =>
    simp only [List.range'_succ, buildChannels] at h
    split at h
    next y m₁ hc =>
      obtain rfl := (Prod.mk.inj h).2
      have hquiet := Channel.quiet_of_build hc
      have hlog : Plant.Run config uses ⟨made, m⟩ [] ⟨made, _⟩ :=
        Plant.run_still (hquiet.log .warn s!"ch{made.length}: ring allocation failed")
      exact hlog.step (.release (fun c hc => (hmade c hc).running_eq)
        (.inr ⟨rfl, fun c hc d => ((hmade c hc).ring_new d).slots_eq⟩))
    next c m₁ hc =>
      have hlength : (made ++ [c]).length = made.length + 1 := by simp
      rw [← hlength] at h
      have hbuild : Plant.Run config uses ⟨made, m⟩ [] ⟨made ++ [c], m₁⟩ :=
        .single (.build hbase (by show made.length < _; omega) hc)
      exact hbuild.trans (ih (by rw [hlength]; omega)
        (isFresh_append hmade (isFresh_of_build hc)) h)

/-- A row of channels is made in storage of its own. -/
theorem buildRow_cases {config : Config} {base count : Nat} {m m' : Machine β}
    {result : Except Error (List (Channel β))} (h : buildRow config base count m = (result, m')) :
    ∃ n : Machine β, n = { m with mapper := n.mapper } ∧
      (result = .error (.dma .allocationFailed) ∧ m' = n ∨
        buildChannels config base [] (List.range' 0 count) n = (result, m')) := by
  rw [buildRow, List.range_eq_range'] at h
  refine ⟨{ m with mapper := m.mapper.reserve.2 }, rfl, ?_⟩
  cases hgranted : m.mapper.reserve.1 with
  | true =>
    simp only [Machine.reserve, hgranted] at h
    exact .inr h
  | false =>
    simp only [Machine.reserve, hgranted] at h
    obtain ⟨rfl, rfl⟩ := Prod.mk.inj h
    exact .inl ⟨rfl, rfl⟩

/-- The row of channels that is made consists of fresh ones. -/
theorem run_buildRow_ok {config : Config} {base count : Nat} {channels : List (Channel β)}
    {m m' : Machine β} (hbase : uses base) (hcount : count ≤ config.channelLimit)
    (h : buildRow config base count m = (.ok channels, m')) :
    Plant.Run config uses ⟨[], m⟩ [] ⟨channels, m'⟩ ∧ channels.length = count ∧
      ∀ c ∈ channels, IsFresh config c := by
  obtain ⟨n, hn, ⟨hfailed, -⟩ | hbuild⟩ := buildRow_cases h
  · cases hfailed
  · have hstorage : m.Quiet (fun _ => False) n := hn ▸ (Quiet.refl m).aside _ _ _
    obtain ⟨hrun, hlength, hfresh⟩ :=
      run_buildChannels_ok hbase (by simpa using hcount) (by simp) hbuild
    exact ⟨(Plant.run_still hstorage).trans hrun, by simpa using hlength, hfresh⟩

/-- If a row of channels cannot be made, no channel is left. -/
theorem run_buildRow_error {config : Config} {base count : Nat} {m m' : Machine β} {x : Error}
    (hbase : uses base) (hcount : count ≤ config.channelLimit)
    (h : buildRow config base count m = (.error x, m')) :
    Plant.Run config uses ⟨[], m⟩ [] ⟨[], m'⟩ := by
  obtain ⟨n, hn, hcase⟩ := buildRow_cases h
  have hstorage : m.Quiet (fun _ => False) n := hn ▸ (Quiet.refl m).aside _ _ _
  rcases hcase with ⟨-, rfl⟩ | hbuild
  · exact Plant.run_still hstorage
  · exact (Plant.run_still hstorage).trans
      (run_buildChannels_error hbase (by simpa using hcount) (by simp) hbuild)

/-! ### Going up -/

section Device

variable {config : Config} {base : Nat} {m n : Machine β}

theorem quiet_configureDevice (config : Config) {device : DeviceRegisters}
    (h : m.Quiet device.Own n) :
    m.Quiet device.Own (configureDevice config device n) := by
  have hmask := DeviceRegisters.quiet_write h .intMask InterruptBits.all
  have hdma := DeviceRegisters.quiet_write hmask .dmaConfig
    (config.capabilities.features.dmaConfig config.burstLength)
  have henable := DeviceRegisters.quiet_modify hdma .control (· ||| Control.dmaEnable)
  unfold configureDevice
  dsimp only
  split
  · exact DeviceRegisters.quiet_write henable .perfControl _
  · exact henable

theorem quiet_disableDma {device : DeviceRegisters} (h : m.Quiet device.Own n) :
    m.Quiet device.Own (device.disableDma n) :=
  DeviceRegisters.quiet_modify h .control (· &&& ~~~Control.dmaEnable)

theorem quiet_quietDevice {device : DeviceRegisters} (h : m.Quiet device.Own n) :
    m.Quiet device.Own (quietDevice device n) :=
  DeviceRegisters.quiet_write
    (DeviceRegisters.quiet_write (quiet_disableDma h) .intMask InterruptBits.all)
    .intStatus InterruptBits.all

theorem run_openDevice (hbase : uses base) (channels : List (Channel β)) (count : Nat)
    (m : Machine β) :
    Plant.Run config uses ⟨channels, m⟩ []
      ⟨channels, openDevice ⟨config.capabilities.registers, base⟩ channels count m⟩ := by
  refine (run_programs channels (fun _ h => h) m).trans (Plant.run_device hbase ?_)
  exact DeviceRegisters.quiet_modify
    (DeviceRegisters.quiet_write (.refl _) .intStatus InterruptBits.all) .intMask
    (· &&& ~~~InterruptBits.ofChannels count)

end Device

/-- The second engine is the first one after it came up with `count` channels. -/
structure CameUp (e : Engine β) (base count : Nat) (e' : Engine β) : Prop where
  config_eq : e'.config = e.config
  base_eq : e'.base = base
  initialized_eq : e'.initialized = true
  count_le : count ≤ e.config.channelLimit
  channels_length : e'.channels.length = count
  fresh : ∀ c ∈ e'.channels, IsFresh e.config c
  records_eq : e'.monitor.records = List.replicate count .new
  policies_eq : e'.policies.policies = List.replicate count e.config.defaultPolicy
  enabled_eq : e'.enabled = true
  work_eq : e'.work = e.work.openUp
  stats_eq : e'.stats = e.stats

/-- The second engine is the first one, but for the machine. -/
def OnlyActs (e e' : Engine β) : Prop := ∃ m, e' = { e with machine := m }

theorem of_create?_ok {count now : Nat} {config : Config} {monitor : Monitor}
    (h : (Monitor.create? count config now).mapError Error.dma = .ok monitor) :
    monitor.records = List.replicate count .new := by
  unfold Monitor.create? at h
  split at h
  · obtain rfl := Except.ok.inj h
    rfl
  · cases h

theorem of_replicate?_ok {count : Nat} {policy : RecoveryPolicy} {policies : PolicyTable}
    (h : (PolicyTable.replicate? count policy).mapError Error.dma = .ok policies) :
    policies.policies = List.replicate count policy := by
  unfold PolicyTable.replicate? at h
  split at h
  · obtain rfl := Except.ok.inj h
    rfl
  · cases h

/-- The engine comes up with its channels made and opened, or it stays as it was. -/
theorem run_bringUp {e : Engine β} {base count : Nat} {monitor : Monitor}
    {policies : PolicyTable} {m : Machine β} (hbase : uses base)
    (hcount : count ≤ e.config.channelLimit)
    (hidle : e.channels = []) (hrecords : monitor.records = List.replicate count .new)
    (hpolicies : policies.policies = List.replicate count e.config.defaultPolicy) :
    Plant.Run e.config uses ⟨[], m⟩ [] (e.bringUp base count monitor policies m).2.plant ∧
      (OnlyActs e (e.bringUp base count monitor policies m).2 ∨
        CameUp e base count (e.bringUp base count monitor policies m).2) := by
  have hconfigure : Plant.Run e.config uses (⟨[], m⟩ : Plant β) [] ⟨[], _⟩ :=
    Plant.run_device hbase (quiet_configureDevice e.config (.refl m))
  unfold bringUp
  dsimp only
  split
  next x m₁ hbuild =>
    have hrun := hconfigure.trans (run_buildRow_error hbase hcount hbuild)
    have hdisable := hrun.trans (Plant.run_device hbase (quiet_disableDma (.refl m₁)))
    refine ⟨?_, .inl ⟨_, rfl⟩⟩
    rw [plant, hidle]
    exact hdisable
  next channels m₁ hbuild =>
    obtain ⟨hrun, hlength, hfresh⟩ := run_buildRow_ok hbase hcount hbuild
    have hopen := (hconfigure.trans hrun).trans (run_openDevice hbase channels count m₁)
    refine ⟨hopen.trans (Plant.run_still ((Quiet.refl _).log _ _)), .inr ?_⟩
    exact ⟨rfl, rfl, rfl, hcount, hlength, hfresh, hrecords, hpolicies, rfl, rfl, rfl⟩

theorem run_resetAndBringUp {e : Engine β} {base : Nat} (count : Nat) (hbase : uses base)
    (hcount : count ≤ e.config.channelLimit) (hidle : e.channels = []) :
    Plant.Run e.config uses e.plant [] (e.resetAndBringUp base count).2.plant ∧
      (OnlyActs e (e.resetAndBringUp base count).2 ∨
        CameUp e base count (e.resetAndBringUp base count).2) := by
  have hreset := DeviceRegisters.quiet_resetDevice
    (d := ⟨e.config.capabilities.registers, base⟩) (.refl e.machine) (resetTiming e.config)
  unfold resetAndBringUp
  dsimp only
  generalize DeviceRegisters.resetDevice ⟨e.config.capabilities.registers, base⟩
    (resetTiming e.config) e.machine = attempt at hreset ⊢
  obtain ⟨result, m⟩ := attempt
  have hdevice : ∀ {m' : Machine β},
      e.machine.Quiet (DeviceRegisters.mk e.config.capabilities.registers base).Own m' →
      Plant.Run e.config uses e.plant [] ⟨e.channels, m'⟩ := fun hq => Plant.run_device hbase hq
  cases result with
  | error x => exact ⟨hdevice (hreset.log _ _), .inl ⟨_, rfl⟩⟩
  | ok =>
    dsimp only
    split
    next hmonitor => exact ⟨hdevice (hreset.now.of_reserve hmonitor), .inl ⟨_, rfl⟩⟩
    next monitor m₁ hmonitor =>
      have hkept := hreset.now.of_reserve hmonitor
      split
      next hpolicies => exact ⟨hdevice (hkept.of_reserve hpolicies), .inl ⟨_, rfl⟩⟩
      next policies m₂ hpolicies =>
        have hready := hdevice (hkept.of_reserve hpolicies)
        rw [hidle] at hready
        obtain ⟨hrun, houtcome⟩ := run_bringUp (m := m₂) hbase hcount hidle
          (of_create?_ok (Machine.eq_of_reserve_ok hmonitor).1)
          (of_replicate?_ok (Machine.eq_of_reserve_ok hpolicies).1)
        exact ⟨hready.trans hrun, houtcome⟩

/-- A number of channels that was accepted is one the engine may have. -/
theorem count_le_of_valid {config : Config} {count : Nat} (hconfig : config.validate = .ok ())
    (hcount : config.validateChannelCount count = .ok ()) : count ≤ config.channelLimit := by
  have hfamily : config.familyValid = true := by
    unfold Config.validate at hconfig
    split at hconfig
    · simp at hconfig
    next hfamily => simpa using hfamily
  have hlimit : config.capabilities.maxChannels ≤ maxChannels := by
    simp only [Config.familyValid, Bool.and_eq_true, decide_eq_true_eq] at hfamily
    exact hfamily.1.1.1.2
  have hrange : count ≤ config.capabilities.maxChannels := by
    unfold Config.validateChannelCount at hcount
    split at hcount
    · simp at hcount
    next hrange => omega
  exact Nat.le_min.mpr ⟨hrange, Nat.le_trans hrange hlimit⟩

/-- Bringing the engine up is a run that moves no buffer. -/
theorem run_init {e : Engine β} (uses : Nat → Prop) {base : Nat} (count : Nat) (hbase : uses base)
    (hidle : e.initialized = false → e.channels = []) :
    Plant.Run e.config uses e.plant [] (e.init base count).2.plant ∧
      (OnlyActs e (e.init base count).2 ∨
        e.initialized = false ∧ CameUp e base count (e.init base count).2) := by
  have hstay : Plant.Run e.config uses e.plant [] e.plant ∧
      (OnlyActs e e ∨ e.initialized = false ∧ CameUp e base count e) := ⟨.refl, .inl ⟨_, rfl⟩⟩
  unfold init
  split
  · exact hstay
  next hdown =>
    have hdown : e.initialized = false := by simpa using hdown
    split
    · exact hstay
    next hconfig =>
      split
      · exact hstay
      next hcount =>
        obtain ⟨hrun, houtcome⟩ := run_resetAndBringUp count hbase
          (count_le_of_valid hconfig hcount) (hidle hdown)
        refine ⟨hrun, houtcome.imp id fun hup => ⟨hdown, hup⟩⟩

/-! ### Going down -/

/-- The engine after it went down. -/
structure WentDown (e e' : Engine β) : Prop where
  config_eq : e'.config = e.config
  base_eq : e'.base = e.base
  initialized_eq : e'.initialized = false
  channels_eq : e'.channels = []
  records_eq : e'.monitor.records = []
  policies_eq : e'.policies.policies = []
  enabled_eq : e'.enabled = false
  work_eq : e'.work = e.work.close.2
  stats_eq : e'.stats = e.stats

/-- Going down halts all channels, waits for the workers, silences the device and gives up the
channels. An engine that is not up stays as it is. -/
theorem of_deinit {e e' : Engine β} (h : e.deinit? = some e') :
    e.initialized = false ∧ e' = e ∨ e.initialized = true ∧ WentDown e e' ∧
      ∃ (m : Machine β) (text : String),
        (haltChannels e.channels e.machine).2.Quiet (fun _ => False) m ∧
          m.registers = (haltChannels e.channels e.machine).2.registers ∧
            e'.machine = (deinitChannels (haltChannels e.channels e.machine).1
              (quietDevice e.device m)).2.log .info text := by
  unfold deinit? at h
  split at h
  next hdown => exact .inl ⟨by simpa using hdown, (Option.some.inj h).symm⟩
  next hup =>
    dsimp only at h
    split at h
    · cases h
    next idle clock _ =>
      obtain rfl := Option.some.inj h
      refine .inr ⟨by simpa using hup, ⟨rfl, rfl, rfl, rfl, rfl, rfl, rfl, rfl, rfl⟩, _, _, ?_, ?_,
        rfl⟩
      · generalize (haltChannels e.channels e.machine).2 = n
        have hwake : n.Quiet (fun _ => False) { n.wake e.work.close.1 with clock := clock } :=
          ((Quiet.refl n).wake _).clock clock
        split
        · exact hwake
        · exact hwake.log _ _
      · split <;> exact registers_wake _ _

/-- What going down discards: everything in flight on every channel. -/
def teardownDiscards (e : Engine β) : List (Nat × Discard) :=
  if e.initialized then e.channels.map fun c => (c.id, .teardown) else []

/-- Going down is a run that shows no buffer, and discards what is in flight. -/
theorem run_deinit {e e' : Engine β} (uses : Nat → Prop) (huse : e.initialized = true → uses e.base)
    (h : e.deinit? = some e') :
    Plant.Run e.config uses e.plant (.ofDiscards e.teardownDiscards) e'.plant ∧
      (e.initialized = false ∧ e' = e ∨ e.initialized = true ∧ WentDown e e') := by
  obtain ⟨hdown, rfl⟩ | ⟨hup, hdown, m, text, hwait, -, hmachine⟩ := of_deinit h
  · rw [teardownDiscards, if_neg (by simp [hdown])]
    exact ⟨.refl, .inl ⟨hdown, rfl⟩⟩
  refine ⟨?_, .inr ⟨hup, hdown⟩⟩
  have hhalt := run_haltChannels e.config uses [] e.channels e.machine
  simp only [List.nil_append] at hhalt
  have hquiet := (hhalt.trans (Plant.run_still hwait)).trans
    (Plant.run_device (huse hup) (quiet_quietDevice (.refl m)))
  have hrelease := hquiet.step
    (.release (running_haltChannels e.channels e.machine) (.inl rfl))
  have hends := hrelease.trans (Plant.run_still ((Quiet.refl _).log .info text))
  have hdiscards : (haltChannels e.channels e.machine).1.map
      (fun c => (c.id, .discarded .teardown)) = Story.ofDiscards (β := β) e.teardownDiscards := by
    have hids := congrArg (List.map fun id => (id, (.discarded .teardown : Passage β)))
      (ids_haltChannels e.channels e.machine)
    rw [List.map_map, List.map_map] at hids
    rw [teardownDiscards, if_pos hup, Story.ofDiscards, List.map_map]
    exact hids
  rw [plant, plant, hdown.channels_eq, hmachine, ← hdiscards]
  simp only [List.nil_append, List.append_nil] at hends
  exact hends

end PacketDma.Engine
