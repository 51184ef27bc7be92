import PacketDma.Proofs.Barred
import PacketDma.Proofs.Conservation
import PacketDma.Proofs.Provision
import PacketDma.Proofs.QueueRun

/-!
# Starts that fail

Bringing the engine up may fail at many points: the configuration may not be valid, the device may
not come up, there may be no storage for a table or a ring, and a ring may not get mapped. Main
statement: `failed_start_leaves_nothing`. An engine that did not come up is as it was, but for the
machine. It comes up as soon as nothing stands in the way, and then it is the engine that would have
come up at the first attempt.

## Implementation notes

An attempt that failed cannot be told from none by what is left of it, so the second half needs no
run of its own: what comes up is a function of the engine before, and the machine has no part in it.
-/

namespace PacketDma

open RegisterFile RegisterName

variable {σ β : Type}

/-! ### Attempts that fail -/

namespace Engine

variable {e e' e'' : Engine β} {base count : Nat} {m m' : Machine β}

namespace OnlyActs

theorem refl (e : Engine β) : OnlyActs e e := ⟨e.machine, rfl⟩

theorem symm (h : OnlyActs e e') : OnlyActs e' e := by
  obtain ⟨m, rfl⟩ := h
  exact ⟨e.machine, rfl⟩

theorem trans (h : OnlyActs e e') (h' : OnlyActs e' e'') : OnlyActs e e'' := by
  obtain ⟨m, rfl⟩ := h
  obtain ⟨m', rfl⟩ := h'
  exact ⟨m', rfl⟩

end OnlyActs

end Engine

/-- A monitor of so many stopped channels, without the time at which it was made. -/
def Monitor.blank (config : Config) (count : Nat) : Monitor :=
  ⟨List.replicate count .new, config.stallThresholdMs * 1000, config.windowDecayMs * 1000, 0⟩

namespace Engine

open Machine

variable {e e' e'' : Engine β} {base count : Nat} {m m' : Machine β}

theorem monitor_of_create?_ok {now : Nat} {config : Config} {monitor : Monitor}
    (h : (Monitor.create? count config now).mapError Error.dma = .ok monitor) :
    { monitor with lastDecay := 0 } = Monitor.blank config count := by
  unfold Monitor.create? at h
  split at h
  · obtain rfl := Except.ok.inj h
    rfl
  · cases h

/-- Either the attempt ends with the reset of the device or with a table, or there are tables and
the channels come next. -/
theorem resetAndBringUp_cases {result : Except Error Unit}
    (h : e.resetAndBringUp base count = (result, e')) :
    ∃ n : Machine β,
      n.registers = ((e.config.device base).resetDevice (resetTiming e.config)
        e.machine).2.registers ∧
      ((∃ x, result = .error x) ∧ e' = { e with machine := n } ∨
        ∃ monitor, { monitor with lastDecay := 0 } = Monitor.blank e.config count ∧
          e.bringUp base count monitor ⟨List.replicate count e.config.defaultPolicy⟩ n =
            (result, e')) := by
  unfold resetAndBringUp at h
  rw [Config.device_mk] at h
  dsimp only at h
  generalize (e.config.device base).resetDevice (resetTiming e.config) e.machine = reset at h ⊢
  obtain ⟨x | _, m⟩ := reset
  · exact ⟨m.log .error _, rfl, .inl ⟨⟨x, (Prod.mk.inj h).1.symm⟩, (Prod.mk.inj h).2.symm⟩⟩
  dsimp only at h ⊢
  split at h
  next x n hmonitor =>
    have hn := registers_of_reserve hmonitor
    exact ⟨n, hn, .inl ⟨⟨x, (Prod.mk.inj h).1.symm⟩, (Prod.mk.inj h).2.symm⟩⟩
  next monitor n hmonitor =>
    have hn := registers_of_reserve hmonitor
    split at h
    next x n' hpolicies =>
      exact ⟨n', (registers_of_reserve hpolicies).trans hn,
        .inl ⟨⟨x, (Prod.mk.inj h).1.symm⟩, (Prod.mk.inj h).2.symm⟩⟩
    next policies n' hpolicies =>
      refine ⟨n', (registers_of_reserve hpolicies).trans hn, .inr ⟨monitor, ?_, ?_⟩⟩
      · exact monitor_of_create?_ok (eq_of_reserve_ok hmonitor).1
      · rw [← of_replicate?_ok (eq_of_reserve_ok hpolicies).1]
        exact h

theorem onlyActs_of_bringUp {x : Error} {monitor : Monitor} {policies : PolicyTable}
    (h : e.bringUp base count monitor policies m = (.error x, e')) : OnlyActs e e' := by
  unfold bringUp at h
  dsimp only at h
  split at h
  · exact ⟨_, (Prod.mk.inj h).2.symm⟩
  · cases h

/-- An attempt that fails leaves the engine as it was, but for the machine. -/
theorem onlyActs_of_init {x : Error} (h : e.init base count = (.error x, e')) :
    OnlyActs e e' := by
  unfold init at h
  split at h
  · exact ⟨e.machine, (Prod.mk.inj h).2.symm⟩
  · split at h
    · exact ⟨e.machine, (Prod.mk.inj h).2.symm⟩
    · split at h
      · exact ⟨e.machine, (Prod.mk.inj h).2.symm⟩
      · obtain ⟨n, -, ⟨-, rfl⟩ | ⟨_, -, hup⟩⟩ := resetAndBringUp_cases h
        · exact ⟨n, rfl⟩
        · exact onlyActs_of_bringUp hup

end Engine

/-- A configuration that is valid, for a number of channels that it allows. -/
def Config.Accepts (config : Config) (count : Nat) : Prop :=
  config.validate = .ok () ∧ config.validateChannelCount count = .ok ()

namespace Config.Accepts

variable {config : Config} {count : Nat}

theorem count_le (h : config.Accepts count) : count ≤ config.channelLimit :=
  Engine.count_le_of_valid h.1 h.2

theorem count_pos (h : config.Accepts count) : 0 < count := by
  have hcount := h.2
  unfold validateChannelCount at hcount
  split at hcount
  · cases hcount
  next hrange => omega

theorem ringSizeValid (h : config.Accepts count) (d : Direction) :
    config.ringSizeValid (config.ringSize d) = true := by
  have hvalid := h.1
  unfold validate at hvalid
  split at hvalid
  · cases hvalid
  · split at hvalid
    · cases hvalid
    next hsizes =>
      simp only [Bool.not_eq_true, Bool.not_eq_false', Bool.and_eq_true] at hsizes
      cases d with
      | toDevice => exact hsizes.1
      | fromDevice => exact hsizes.2

end Config.Accepts

namespace Engine

variable {e e' e'' : Engine β} {base count : Nat} {m m' : Machine β}

theorem init_of_accepts (hdown : e.initialized = false) (h : e.config.Accepts count) :
    e.init base count = e.resetAndBringUp base count := by
  simp only [init, hdown, h.1, h.2, Bool.false_eq_true, if_false]

/-- What is not valid is refused before anything is done. -/
theorem init_of_not_accepts (hdown : e.initialized = false) (h : ¬ e.config.Accepts count)
    (base : Nat) : ∃ x, e.init base count = (.error (.config x), e) := by
  simp only [init, hdown, Bool.false_eq_true, if_false]
  split
  next x _ => exact ⟨x, rfl⟩
  next hvalid =>
    split
    next x _ => exact ⟨x, rfl⟩
    next hcount => exact absurd ⟨hvalid, hcount⟩ h

end Engine

/-! ### The device -/

namespace Engine

variable {e e' e'' : Engine β} {base count windows : Nat} {m m' : Machine β}

section Barred

variable (hd : e.config.capabilities.registers.Separate windows)
include hd

/-- Once the device may move data, an attempt that fails takes that back. -/
theorem barred_of_bringUp {x : Error} {monitor : Monitor} {policies : PolicyTable}
    (hm : m.registers.Bare (e.config.hardware base windows) (.device .control))
    (h : e.bringUp base count monitor policies m = (.error x, e')) :
    (e.config.hardware base windows).Barred e'.machine.registers := by
  have hrow := registers_buildRow e.config base count
    (configureDevice e.config (e.config.device base) m)
  unfold bringUp at h
  rw [Config.device_mk] at h
  dsimp only at h
  split at h
  next n hfailed =>
    obtain rfl := (Prod.mk.inj h).2
    rw [hfailed] at hrow
    have hbare : n.registers.Bare (e.config.hardware base windows) (.device .control) := by
      rw [hrow]
      exact hm.of_fixed ((Machine.Confined.refl _ m).quiet
        (quiet_configureDevice e.config (.refl m))).fixed_eq
    exact Device.barred_disableDma hd hbare
  · cases h

/-- An attempt that fails does not leave a device behind that may move data. -/
theorem barred_of_init {x : Error}
    (hm : (e.config.hardware base windows).Barred e.machine.registers)
    (h : e.init base count = (.error x, e')) :
    (e.config.hardware base windows).Barred e'.machine.registers := by
  by_cases hdown : e.initialized = false
  swap
  · rw [init, if_pos (by simpa using hdown)] at h
    rwa [← (Prod.mk.inj h).2]
  by_cases hvalid : e.config.Accepts count
  swap
  · obtain ⟨y, hy⟩ := init_of_not_accepts hdown hvalid base
    rw [hy] at h
    rwa [← (Prod.mk.inj h).2]
  have hreset := hm.resetDevice hd (resetTiming e.config)
  rw [init_of_accepts hdown hvalid] at h
  obtain ⟨n, hn, ⟨-, rfl⟩ | ⟨_, -, hup⟩⟩ := resetAndBringUp_cases h
  · exact hn ▸ hreset
  · exact barred_of_bringUp hd (hn ▸ hreset.bare) hup

end Barred

end Engine

/-! ### Attempts that succeed -/

theorem Mapper.serves_zero (m : Mapper β) : m.Serves 0 0 :=
  ⟨fun _ hk => absurd hk (Nat.not_lt_zero _), fun _ hk => absurd hk (Nat.not_lt_zero _)⟩

/-- A device reset maps nothing and asks for no storage. -/
theorem DeviceRegisters.mapper_resetDevice (d : DeviceRegisters) (timing : ResetTiming)
    (m : Machine β) : (d.resetDevice timing m).2.mapper = m.mapper := by
  rw [resetDevice, awaitReady]
  generalize hn : d.releaseReset ((d.assertReset m).delay timing.settleUs) = n
  have hpulse : n.mapper = m.mapper := hn ▸ rfl
  have hpoll := pollUntil_keeps (fun n : Machine β => n.mapper = m.mapper) d.isReady
    (fun us m => m.emit (.delay us)) (fun _ hs => hs) (fun _ _ hs => hs) timing.pollIntervalUs
    (Deadline.after n.clock timing.readyTimeoutUs).1
    (Deadline.after n.clock timing.readyTimeoutUs).2 n hpulse
  dsimp only
  split
  next he =>
    rw [he] at hpoll
    exact hpoll
  next he =>
    rw [he] at hpoll
    exact hpoll

theorem Storage.holds_of_le {count bound bytes : Nat} (hcount : count ≤ bound)
    (hbound : holds bound bytes = true) : holds count bytes = true := by
  simp only [holds, decide_eq_true_eq] at hbound ⊢
  exact Nat.lt_of_le_of_lt (Nat.mul_le_mul_right bytes hcount) hbound

namespace Engine

variable {e e' e'' : Engine β} {base count : Nat} {m m' : Machine β}

theorem mapper_configureDevice (config : Config) (d : DeviceRegisters) (m : Machine β) :
    (configureDevice config d m).mapper = m.mapper := by
  unfold configureDevice
  dsimp only
  split <;> rfl

/-- Nothing stands in the way of coming up: the configuration is valid, the device comes up in time,
there is storage for rings of that size, and the world grants every piece of storage and every
mapping. -/
structure Unhindered (e : Engine β) (base count : Nat) : Prop where
  accepts : e.config.Accepts count
  comesUp : ((e.config.device base).resetDevice (resetTiming e.config) e.machine).1 = .ok ()
  holds : ∀ d, Storage.holds (e.config.ringSize d) Descriptor.bytes = true
  serves : e.machine.mapper.Serves (2 * count + 3) (2 * count)

/-- What an attempt to come up reports, and the machine. -/
def reported (attempt : Except Error Unit × Engine β) : Except Error Unit × Machine β :=
  (attempt.1, attempt.2.machine)

theorem provided_bringUp {monitor : Monitor} {policies : PolicyTable} :
    Provided (reported (e.bringUp base count monitor policies m)) 0 0 ↔
      (0 < count → e.config.RingsFit) ∧ m.mapper.Serves (2 * count + 1) (2 * count) := by
  have hrow : Provided (reported (e.bringUp base count monitor policies m)) 0 0 ↔
      Provided (buildRow e.config base count (configureDevice e.config (e.config.device base) m))
        0 0 := by
    refine provided_map ?_ ?_
    · intro x n he
      exact ⟨_, by simp only [reported, bringUp, Config.device_mk, he]; rfl⟩
    · intro channels n he
      simp only [reported, bringUp, Config.device_mk, he, provided_ok]
      exact iff_of_true (Mapper.serves_zero _) (Mapper.serves_zero _)
  rw [hrow, provided_buildRow, mapper_configureDevice, Nat.zero_add]

theorem provided_resetAndBringUp (hcount : count ≤ maxChannels) :
    Provided (reported (e.resetAndBringUp base count)) 0 0 ↔
      (0 < count → e.config.RingsFit) ∧
        Provided ((e.config.device base).resetDevice (resetTiming e.config) e.machine)
          (2 * count + 3) (2 * count) := by
  have hrecords (now : Nat) : ∃ monitor,
      (Monitor.create? count e.config now).mapError Error.dma = .ok monitor := by
    rw [Monitor.create?, if_pos (Storage.holds_of_le hcount (by decide))]
    exact ⟨_, rfl⟩
  have hpolicies : ∃ policies, (PolicyTable.replicate? count
      e.config.defaultPolicy).mapError Error.dma = .ok policies := by
    rw [PolicyTable.replicate?, if_pos (Storage.holds_of_le hcount (by decide))]
    exact ⟨_, rfl⟩
  refine provided_bind ?_ ?_
  · intro x n he
    exact ⟨_, by simp only [reported, resetAndBringUp, Config.device_mk, he]; rfl⟩
  intro _ n he
  have hmonitor : Provided (reported (e.resetAndBringUp base count)) 0 0 ↔
      (0 < count → e.config.RingsFit) ∧ Provided
        (n.now.2.reserve ((Monitor.create? count e.config n.now.1).mapError Error.dma))
        (2 * count + 2) (2 * count) := by
    refine provided_bind ?_ ?_
    · intro x n' hm
      exact ⟨_, by simp only [reported, resetAndBringUp, Config.device_mk, he, hm]; rfl⟩
    intro monitor n' hm
    have htable : Provided (reported (e.resetAndBringUp base count)) 0 0 ↔
        (0 < count → e.config.RingsFit) ∧ Provided (n'.reserve
          ((PolicyTable.replicate? count e.config.defaultPolicy).mapError Error.dma))
          (2 * count + 1) (2 * count) := by
      refine provided_bind ?_ ?_
      · intro x n'' hp
        exact ⟨_, by simp only [reported, resetAndBringUp, Config.device_mk, he, hm, hp]; rfl⟩
      · intro policies n'' hp
        simp only [reported, resetAndBringUp, Config.device_mk, he, hm, hp]
        exact provided_bringUp
    rw [htable, provided_reserve, and_iff_right hpolicies]
  rw [hmonitor, provided_reserve, and_iff_right (hrecords _)]
  rfl

theorem provided_reported {attempt : Except Error Unit × Engine β} :
    Provided (reported attempt) 0 0 ↔ attempt.1 = .ok () :=
  ⟨fun h => h.made.elim fun _ ha => ha, fun h => ⟨⟨(), h⟩, Mapper.serves_zero _⟩⟩

/-- The engine comes up exactly if nothing stands in the way. -/
theorem init_ok_iff (hdown : e.initialized = false) :
    (e.init base count).1 = .ok () ↔ e.Unhindered base count := by
  constructor
  · intro h
    by_cases hvalid : e.config.Accepts count
    swap
    · obtain ⟨x, hx⟩ := init_of_not_accepts hdown hvalid base
      rw [hx] at h
      cases h
    rw [init_of_accepts hdown hvalid, ← provided_reported,
      provided_resetAndBringUp (Nat.le_trans hvalid.count_le e.config.channelLimit_le)] at h
    obtain ⟨hfit, ⟨_, hup⟩, hserves⟩ := h
    rw [DeviceRegisters.mapper_resetDevice] at hserves
    exact ⟨hvalid, hup, fun d => (hfit hvalid.count_pos d).holds, hserves⟩
  · intro h
    rw [init_of_accepts hdown h.accepts, ← provided_reported,
      provided_resetAndBringUp (Nat.le_trans h.accepts.count_le e.config.channelLimit_le)]
    refine ⟨fun _ d => ⟨h.accepts.ringSizeValid d, h.holds d⟩, ⟨(), h.comesUp⟩, ?_⟩
    rw [DeviceRegisters.mapper_resetDevice]
    exact h.serves

/-! ### What comes up -/

/-- An engine without the addresses at which the device finds its rings, and without the time up to
which the windows of its monitor have been halved. -/
def unplaced (e : Engine β) : Engine β :=
  { e with
    channels := e.channels.map Channel.unplaced
    monitor := { e.monitor with lastDecay := 0 } }

/-- The engine that comes up. -/
def broughtUp (e : Engine β) (base count : Nat) : Engine β :=
  { e with
    base := base
    enabled := true
    channels := (List.range count).map (Channel.blank e.config base)
    monitor := .blank e.config count
    policies := ⟨List.replicate count e.config.defaultPolicy⟩
    work := e.work.openUp
    initialized := true }

/-- Only an engine that is down comes up, and only if its configuration is valid. -/
theorem accepts_of_init (h : e.init base count = (.ok (), e')) :
    e.initialized = false ∧ e.config.Accepts count := by
  have hdown : e.initialized = false := by
    cases hup : e.initialized with
    | false => rfl
    | true =>
      rw [init, if_pos hup] at h
      cases h
  exact ⟨hdown, ((init_ok_iff hdown).mp (congrArg (·.1) h)).accepts⟩

/-- What comes up does not depend on the machine. -/
theorem onlyActs_broughtUp (h : e.init base count = (.ok (), e')) :
    OnlyActs (e.broughtUp base count) e'.unplaced := by
  obtain ⟨hdown, hvalid⟩ := accepts_of_init h
  rw [init_of_accepts hdown hvalid] at h
  obtain ⟨n, -, ⟨⟨_, hfailed⟩, -⟩ | ⟨monitor, hmonitor, hup⟩⟩ := resetAndBringUp_cases h
  · cases hfailed
  unfold bringUp at hup
  dsimp only at hup
  split at hup
  · cases hup
  next channels m hrow =>
    obtain rfl := (Prod.mk.inj hup).2
    rw [broughtUp, ← unplaced_of_buildRow hrow, ← hmonitor]
    exact ⟨_, rfl⟩

/-! ### Engines that are down -/

/-- An engine that is down drives no device and has no channels, and its queue is closed and
empty. -/
structure IsDown (e : Engine β) : Prop where
  initialized_eq : e.initialized = false
  enabled_eq : e.enabled = false
  channels_eq : e.channels = []
  isOpen_eq : e.work.isOpen = false
  pending_eq : e.work.pending = .none

/-- The second engine is the first one after its owner called operations, others made requests of
its work queue, and the world changed. Only the engine opens the queue. -/
inductive Lived (σ : Type) (e : Engine β) : Engine β → Prop where
  | refl : Lived σ e e
  | operate {e₁ e₂ : Engine β} {op : Operation σ β} {seen : Story β} (h : Lived σ e e₁)
      (hop : op.perform e₁ = some (seen, e₂)) : Lived σ e e₂
  | request {e₁ : Engine β} {r : WorkQueue.Request} (h : Lived σ e e₁) (hr : r ≠ .openUp) :
      Lived σ e { e₁ with work := (r.perform e₁.work).2 }
  | disturb {e₁ : Engine β} {d : Disturbance β} (h : Lived σ e e₁)
      (hd : ∀ queue, d ≠ .work queue) : Lived σ e (d.apply e₁)

/-- The second engine is the first one after attempts to bring it up that all failed, with changes
of the world between them. -/
inductive Attempts (e : Engine β) : Engine β → Prop where
  | none : Attempts e e
  | failed {e₁ e₂ : Engine β} {base count : Nat} {x : Error} (h : Attempts e e₁)
      (hx : e₁.init base count = (.error x, e₂)) : Attempts e e₂
  | disturb {e₁ : Engine β} {d : Disturbance β} (h : Attempts e e₁)
      (hd : ∀ queue, d ≠ .work queue) : Attempts e (d.apply e₁)

namespace IsDown

theorem onlyActs (h : e.IsDown) (ha : OnlyActs e e') : e'.IsDown := by
  obtain ⟨m, rfl⟩ := ha
  exact ⟨h.initialized_eq, h.enabled_eq, h.channels_eq, h.isOpen_eq, h.pending_eq⟩

theorem of_wentDown (h : WentDown e e') : e'.IsDown where
  initialized_eq := h.initialized_eq
  enabled_eq := h.enabled_eq
  channels_eq := h.channels_eq
  isOpen_eq := by
    rw [h.work_eq]
    rfl
  pending_eq := by
    rw [h.work_eq]
    rfl

/-- The world reaches nothing but the machine of an engine that is down. -/
theorem onlyActs_apply (h : e.IsDown) {d : Disturbance β} (hd : ∀ queue, d ≠ .work queue) :
    OnlyActs e (d.apply e) := by
  cases d with
  | descriptors id f =>
    rw [Disturbance.apply, h.channels_eq]
    exact .refl e
  | work queue => exact absurd rfl (hd queue)
  | _ => exact ⟨_, rfl⟩

/-- A closed and empty queue stays so, whatever is asked of it. -/
theorem request (h : e.IsDown) {r : WorkQueue.Request} (hr : r ≠ .openUp) :
    IsDown { e with work := (r.perform e.work).2 } := by
  have hqueue : (r.perform e.work).2.isOpen = false ∧ (r.perform e.work).2.pending = .none := by
    have hopen := h.isOpen_eq
    have hpending := h.pending_eq
    cases r with
    | openUp => exact absurd rfl hr
    | close => exact ⟨rfl, rfl⟩
    | take => exact ⟨hopen, rfl⟩
    | leave => exact ⟨hopen, hpending⟩
    | _ =>
      simp only [WorkQueue.Request.perform, WorkQueue.post, WorkQueue.enter, WorkQueue.poll_eq,
        hopen, Bool.not_false, Bool.or_true, Bool.false_eq_true, if_false, if_true]
      exact ⟨trivial, hpending⟩
  exact ⟨h.initialized_eq, h.enabled_eq, h.channels_eq, hqueue.1, hqueue.2⟩

theorem channel?_eq (h : e.IsDown) (id : Nat) :
    e.channel? id = .error (.config .notInitialized) := by
  simp only [channel?, h.initialized_eq, Bool.not_false, if_true]

theorem usable?_eq (h : e.IsDown) (id : Nat) :
    e.usable? id = .error (.config .notInitialized) := by
  simp only [usable?, h.channel?_eq]

/-- Without being brought up, an engine that is down answers to nothing. The statistics may still be
cleared. -/
theorem perform_eq (h : e.IsDown) {op : Operation σ β} (hinit : ∀ base count, op ≠ .init base count)
    (hclear : op ≠ .clearStats) : op.perform e = some ([], e) := by
  have hchannel := h.channel?_eq
  have husable := h.usable?_eq
  have hqueue : e.work.enter = (false, e.work) := by
    simp only [WorkQueue.enter, h.isOpen_eq, Bool.false_eq_true, if_false]
  cases op with
  | init base count => exact absurd rfl (hinit base count)
  | clearStats => exact absurd rfl hclear
  | _ =>
    simp only [Operation.perform, deinit?, start, stop, startChannel, stopChannel, suspendChannel,
      resumeChannel, reinitChannel, enqueue, pollReclaim, onInterrupt, runDeferred,
      watchdogTick, recoverChannel, setRecoveryPolicy, resetChannelStats, hchannel, husable,
      hqueue, h.initialized_eq, Bool.not_false, if_true, Option.map_some]

theorem perform (h : e.IsDown) {op : Operation σ β} {seen : Story β}
    (hinit : ∀ base count, op ≠ .init base count) (hop : op.perform e = some (seen, e')) :
    e' = { e with stats := e'.stats } := by
  by_cases hclear : op = .clearStats
  · subst hclear
    obtain ⟨-, rfl⟩ := Prod.mk.inj (Option.some.inj hop)
    rfl
  · rw [h.perform_eq hinit hclear] at hop
    obtain ⟨-, rfl⟩ := Prod.mk.inj (Option.some.inj hop)
    rfl

end IsDown

theorem isDown_new (config : Config) (m : Machine β) : (new config m).IsDown :=
  ⟨rfl, rfl, rfl, rfl, rfl⟩

/-- The ways in which an operation leaves an engine that is not up: it takes it down, it fails to
bring it up, or it finds it down and may clear its statistics. -/
inductive EndsDown : Operation σ β → Engine β → Engine β → Prop where
  | down {e e' : Engine β} (hup : e.initialized = true) (h : e.deinit? = some e') :
      EndsDown .deinit e e'
  | fails {e e' : Engine β} {base count : Nat} {x : Error} (hdown : e.initialized = false)
      (h : e.init base count = (.error x, e')) : EndsDown (.init base count) e e'
  | idle {op : Operation σ β} {e : Engine β} (hdown : e.initialized = false) (stats : EngineStats) :
      EndsDown op e { e with stats := stats }

theorem endsDown_of_perform {op : Operation σ β} {seen : Story β}
    (he : e.initialized = false → e.IsDown) (hop : op.perform e = some (seen, e'))
    (hdown : e'.initialized = false) : EndsDown op e e' := by
  cases hup : e.initialized with
  | true =>
    cases outcome_of_perform (fun hdown => (he hdown).channels_eq) hop with
    | works h => cases hdown.symm.trans (h.initialized_eq.trans hup)
    | settles => cases hdown.symm.trans hup
    | fails => cases hdown.symm.trans hup
    | up _ _ _ h => cases hdown.symm.trans h.initialized_eq
    | down hdeinit =>
      subst hdeinit
      obtain ⟨e₁, hdeinit, hpair⟩ := Option.map_eq_some_iff.mp hop
      obtain ⟨-, rfl⟩ := Prod.mk.inj hpair
      exact .down hup hdeinit
  | false =>
    by_cases hinit : ∃ base count, op = .init base count
    · obtain ⟨base, count, rfl⟩ := hinit
      obtain ⟨-, rfl⟩ := Prod.mk.inj (Option.some.inj hop)
      generalize hattempt : e.init base count = attempt at hdown ⊢
      obtain ⟨result, e₁⟩ := attempt
      cases result with
      | error x => exact .fails hup hattempt
      | ok =>
        obtain ⟨m, hcame⟩ := onlyActs_broughtUp hattempt
        have hup' : e₁.initialized = true := congrArg Engine.initialized hcame
        cases hdown.symm.trans hup'
    · rw [(he hup).perform (fun base count h => hinit ⟨base, count, h⟩) hop]
      exact .idle hup _

/-- An operation leaves an engine down that does not end up. -/
theorem isDown_of_perform {op : Operation σ β} {seen : Story β}
    (he : e.initialized = false → e.IsDown) (hop : op.perform e = some (seen, e'))
    (hdown : e'.initialized = false) : e'.IsDown := by
  cases endsDown_of_perform he hop hdown with
  | down hup h =>
    obtain ⟨hnot, -⟩ | ⟨-, hwent, -⟩ := of_deinit h
    · cases hnot.symm.trans hup
    · exact .of_wentDown hwent
  | fails hnot h => exact (he hnot).onlyActs (onlyActs_of_init h)
  | idle hnot stats =>
    have hkept := he hnot
    exact ⟨hkept.initialized_eq, hkept.enabled_eq, hkept.channels_eq, hkept.isOpen_eq,
      hkept.pending_eq⟩

/-- The world leaves an engine down that does not end up, as long as it leaves the queue alone. -/
theorem isDown_of_disturb {d : Disturbance β} (he : e.initialized = false → e.IsDown)
    (hd : ∀ queue, d ≠ .work queue) (hdown : (d.apply e).initialized = false) :
    (d.apply e).IsDown := by
  have hsame : (d.apply e).initialized = e.initialized :=
    congrArg (·.2.2.1) (d.standing_apply e)
  have hkept := he (hsame.symm.trans hdown)
  exact hkept.onlyActs (hkept.onlyActs_apply hd)

namespace Lived

/-- Whenever an engine is not up, it is down. -/
theorem isDown (h : Lived σ e e') (he : e.IsDown) : e'.initialized = false → e'.IsDown := by
  induction h with
  | refl => exact fun _ => he
  | operate _ hop ih => exact isDown_of_perform ih hop
  | request _ hr ih => exact fun hdown => (ih hdown).request hr
  | disturb _ hd ih => exact isDown_of_disturb ih hd

/-- A life is a history. -/
theorem moments (h : Lived σ e e') :
    ∃ (moments : List (Moment σ β)) (seen : Story β), live moments e = some (seen, e') := by
  induction h with
  | refl => exact ⟨[], [], rfl⟩
  | @operate e₁ e₂ op now _ hop ih =>
    obtain ⟨moments, seen, hlive⟩ := ih
    have hpass : (Moment.operate op).pass e₁ = some (now, e₂) := hop
    exact ⟨_, _, live_concat hlive hpass⟩
  | @request e₁ r _ _ ih =>
    obtain ⟨moments, seen, hlive⟩ := ih
    have hpass : (Moment.disturb (.work (r.perform e₁.work).2) : Moment σ β).pass e₁ =
        some ([], { e₁ with work := (r.perform e₁.work).2 }) := rfl
    exact ⟨_, _, live_concat hlive hpass⟩
  | @disturb e₁ d _ _ ih =>
    obtain ⟨moments, seen, hlive⟩ := ih
    have hpass : (Moment.disturb d : Moment σ β).pass e₁ = some ([], d.apply e₁) := rfl
    exact ⟨_, _, live_concat hlive hpass⟩

end Lived

namespace Attempts

/-- Attempts that failed leave the engine as it was, but for the machine. -/
theorem onlyActs (h : Attempts e e') (he : e.IsDown) : OnlyActs e e' := by
  induction h with
  | none => exact .refl e
  | failed _ hx ih => exact ih.trans (onlyActs_of_init hx)
  | disturb _ hd ih => exact ih.trans ((he.onlyActs ih).onlyActs_apply hd)

end Attempts

/-- What would have come up on any machine without the attempts that failed comes up after them. -/
theorem onlyActs_of_attempts {up up' : Engine β} (he : e.IsDown) (h : Attempts e e')
    (hup : init { e with machine := m } base count = (.ok (), up))
    (hup' : e'.init base count = (.ok (), up')) : OnlyActs up.unplaced up'.unplaced := by
  obtain ⟨m', rfl⟩ := h.onlyActs he
  have hfirst := onlyActs_broughtUp hup
  have hlater := onlyActs_broughtUp hup'
  have hsame : OnlyActs (broughtUp { e with machine := m } base count)
      (broughtUp { e with machine := m' } base count) := ⟨m', rfl⟩
  exact hfirst.symm.trans (hsame.trans hlater)

/-- In every life of a new engine an attempt to bring it up that fails leaves the engine down, with
nothing changed but the machine, and no buffer is mapped. If the configuration was not valid, the
machine is not touched either. A device that was not allowed to move data is not allowed to
afterwards. However many attempts failed, the next one succeeds exactly if nothing stands in its
way, and what comes up is what would have come up without them, but for the addresses of its rings
and the time. -/
theorem failed_start_leaves_nothing {config : Config} {m : Machine β} {e : Engine β}
    (hm : m.effects = []) (h : Lived σ (new config m) e) (hdown : e.initialized = false)
    (base count : Nat) :
    (∀ x e₁, e.init base count = (.error x, e₁) →
      OnlyActs e e₁ ∧ e₁.IsDown ∧ e₁.mappingsLeft = 0 ∧
        (¬ e.config.Accepts count → (∃ y, x = .config y) ∧ e₁ = e) ∧
          (∀ windows, e.config.capabilities.registers.Separate windows →
            e.machine.registers.Wired (e.config.hardware base windows) →
              e.machine.registers.peek ((e.config.device base).offset .control) &&&
                  Control.dmaEnable = 0 →
                e₁.machine.registers.peek ((e.config.device base).offset .control) &&&
                  Control.dmaEnable = 0)) ∧
      ∀ e', Attempts e e' →
        ((e'.init base count).1 = .ok () ↔ e'.Unhindered base count) ∧
          ∀ machine up up', init { e with machine := machine } base count = (.ok (), up) →
            e'.init base count = (.ok (), up') → OnlyActs up.unplaced up'.unplaced := by
  have he : e.IsDown := h.isDown (isDown_new config m) hdown
  constructor
  · intro x e₁ hx
    have hacts := onlyActs_of_init hx
    have hdown₁ := he.onlyActs hacts
    have hcalled : (Operation.init base count : Operation σ β).perform e = some ([], e₁) := by
      rw [Operation.perform, hx]
    obtain ⟨moments, seen, hlive⟩ := (h.operate hcalled).moments
    obtain ⟨-, hmapped, -, -⟩ := mappings_conserved hm hlive
    refine ⟨hacts, hdown₁, ?_, ?_, ?_⟩
    · rw [hmapped, hdown₁.channels_eq]
      rfl
    · intro hvalid
      obtain ⟨y, hy⟩ := init_of_not_accepts hdown hvalid base
      rw [hy] at hx
      obtain ⟨hxy, hsame⟩ := Prod.mk.inj hx
      exact ⟨⟨y, (Except.error.inj hxy).symm⟩, hsame.symm⟩
    · intro windows hapart hwired hoff
      have hbare := hwired.bare isSetting_control
      rw [← DeviceRegisters.place_device, ← e.config.toDeviceRegisters_hardware base windows,
        hbare.peek_eq] at hoff
      exact (barred_of_init hapart ⟨hbare, hoff⟩ hx).peek_eq
  · intro e' hattempts
    have hacts := hattempts.onlyActs he
    exact ⟨init_ok_iff (he.onlyActs hacts).initialized_eq,
      fun machine up up' hup hup' => onlyActs_of_attempts he hattempts hup hup'⟩

/-- An engine that was up with two channels and went down again. -/
def downTrip : Option (Engine Nat) := (init (new .bench .bench) 0 2).2.deinit?

/-- A mapper that maps three descriptor arrays, but not the fourth. -/
def scantMapper : Mapper Nat := { Mapper.new ⟨0x10000⟩ ⟨0x100000⟩ with arrayPlan := .window 3 1 }

theorem failed_start_leaves_nothing_trip : ∃ e₀ e e₁ up : Engine Nat,
    downTrip = some e₀ ∧ e = (Disturbance.mapper scantMapper).apply e₀ ∧
      e.init 0 2 = (.error (.dma .mappingFailed), e₁) ∧
      OnlyActs e e₁ ∧ e₁.IsDown ∧ e₁.mappingsLeft = 0 ∧
      e₁.machine.registers.peek 0 &&& Control.dmaEnable = 0 ∧
      e₁.init 0 2 = (.ok (), up) ∧
      OnlyActs (init { e with machine := .bench } 0 2).2.unplaced up.unplaced := by
  have hends : downTrip.isSome = true := by decide +kernel
  have hshown : downTrip.map (fun e₀ =>
      let e := (Disturbance.mapper scantMapper).apply e₀
      (e.initialized, e.config, e.machine.registers.peek 0)) = some (false, .bench, 0) := by
    decide +kernel
  have hwiring : downTrip.map (fun e₀ =>
      ((Disturbance.mapper scantMapper).apply e₀).machine.registers.fixed) =
        some (.standard, 0, maxChannels, .zero) := by decide +kernel
  have hattempts : downTrip.map (fun e₀ =>
      let e := (Disturbance.mapper scantMapper).apply e₀
      ((e.init 0 2).1, ((e.init 0 2).2.init 0 2).1, (init { e with machine := .bench } 0 2).1)) =
        some (.error (.dma .mappingFailed), .ok (), .ok ()) := by decide +kernel
  obtain ⟨e₀, h₀⟩ := Option.isSome_iff_exists.mp hends
  have hdeinit : (Operation.deinit : Operation Unit Nat).perform (init (new .bench .bench) 0 2).2 =
      some ([], e₀) := by
    show (downTrip.map _) = _
    rw [h₀]
    rfl
  have hinit : (Operation.init 0 2 : Operation Unit Nat).perform (new .bench .bench) =
      some ([], (init (new .bench .bench) 0 2).2) := rfl
  have hlife : Lived Unit (new .bench .bench) ((Disturbance.mapper scantMapper).apply e₀) :=
    ((Lived.refl.operate hinit).operate hdeinit).disturb (by simp)
  rw [h₀] at hshown hwiring hattempts
  generalize he : (Disturbance.mapper scantMapper).apply e₀ = e at hlife
  simp only [Option.map_some, Option.some.injEq, Prod.mk.injEq, RegisterFile.fixed, he]
    at hshown hwiring hattempts
  obtain ⟨hdown, hconfig, hcontrol⟩ := hshown
  obtain ⟨hmap, hbase, hwindows, hheld⟩ := hwiring
  obtain ⟨hfails, hsucceeds, hfresh⟩ := hattempts
  have hwired : e.machine.registers.Wired (e.config.hardware 0 maxChannels) := by
    rw [hconfig]
    exact ⟨hmap, hbase, hwindows, fun _ _ => by rw [hheld]; rfl⟩
  have hfailed : e.init 0 2 = (.error (.dma .mappingFailed), (e.init 0 2).2) := by rw [← hfails]
  have hcame : (e.init 0 2).2.init 0 2 = (.ok (), ((e.init 0 2).2.init 0 2).2) := by
    rw [← hsucceeds]
  have hother : init { e with machine := .bench } 0 2 =
      (.ok (), (init { e with machine := .bench } 0 2).2) := by rw [← hfresh]
  obtain ⟨hleaves, hnext⟩ := failed_start_leaves_nothing rfl hlife hdown 0 2
  obtain ⟨hacts, hkept, hmapped, -, hoff⟩ := hleaves _ _ hfailed
  obtain ⟨-, hsame⟩ := hnext _ (.failed .none hfailed)
  have hinert := hoff _ (hconfig ▸ RegisterMap.separate_standard _) hwired
  rw [hconfig] at hinert
  have hcontrol' : e.machine.registers.peek ((Config.bench.device 0).offset .control) &&&
      Control.dmaEnable = 0 := by
    show e.machine.registers.peek 0 &&& Control.dmaEnable = 0
    rw [hcontrol]
    rfl
  exact ⟨e₀, e, _, _, h₀, he.symm, hfailed, hacts, hkept, hmapped, hinert hcontrol', hcame,
    hsame _ _ _ hother hcame⟩

end Engine

end PacketDma
