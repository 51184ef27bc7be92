import PacketDma.Proofs.Actions

/-!
# Operations as actions

Every operation of an engine that stays up, or stays down, consists of actions of its channels. The
interrupt handler looks at the interrupt status and acknowledges it besides. So there are only four
ways in which an engine goes through a moment.

## Implementation notes

Operations are followed in the order in which they act, as they are for runs of the plant. What the
owner sees is left out here, and so an operation needs no assumption.
-/

namespace PacketDma.Engine

variable {σ β : Type}

/-! ### Starting and stopping -/

theorem acts_haltChannel (e : Engine β) (id : Nat) : Acts e (e.haltChannel id).2 := by
  unfold haltChannel
  split
  · exact .refl e
  next c hc => exact (Acts.refl e).put hc (.single (.stop c e.machine))

theorem acts_startChannel (e : Engine β) (id : Nat) : Acts e (e.startChannel id).2 := by
  unfold startChannel
  split
  · exact .refl e
  next c hu =>
    have hc := channels_of_usable?_ok hu
    split
    · exact .refl e
    · have hput := (Acts.refl e).put hc (.single (.start c e.machine))
      split
      next he => rwa [he] at hput
      next he =>
        rw [he] at hput
        dsimp only at hput ⊢
        split
        · exact hput.now.monitor _
        · exact (hput.now.monitor _).log _ _
    · exact .refl e

theorem acts_stopChannel (e : Engine β) (id : Nat) : Acts e (e.stopChannel id).2 := by
  unfold stopChannel
  split
  · exact .refl e
  · split
    · exact (Acts.refl e).monitor _
    · exact ((Acts.refl e).monitor _).trans (acts_haltChannel _ id)

theorem acts_suspendChannel (e : Engine β) (id : Nat) : Acts e (e.suspendChannel id).2 := by
  unfold suspendChannel
  split
  · exact .refl e
  · split
    · exact (Acts.refl e).monitor _
    · exact ((Acts.refl e).monitor _).trans (acts_haltChannel _ id)

theorem acts_eachChannel {act : Engine β → Nat → Except Error Unit × Engine β}
    (hact : ∀ e id, Acts e (act e id).2) (ids : List Nat) (e : Engine β) :
    Acts e (eachChannel act ids e).2 := by
  induction ids generalizing e with
  | nil => exact .refl e
  | cons id rest ih =>
    have h := hact e id
    unfold eachChannel
    split
    next he => rwa [he] at h
    next he =>
      rw [he] at h
      exact h.trans (ih _)

theorem acts_start (e : Engine β) : Acts e e.start.2 := by
  unfold start
  split
  · exact .refl e
  · exact acts_eachChannel acts_startChannel _ _

theorem acts_stop (e : Engine β) : Acts e e.stop.2 := by
  unfold stop
  split
  · exact .refl e
  · exact acts_eachChannel acts_stopChannel _ _

theorem acts_resumeChannel (e : Engine β) (id : Nat) : Acts e (e.resumeChannel id).2 := by
  unfold resumeChannel
  split
  · exact .refl e
  next c hu =>
    have hc := channels_of_usable?_ok hu
    have hnow := (Acts.refl e).now
    dsimp only
    split
    · exact hnow.monitor _
    next monitor _ => exact (hnow.monitor monitor).put hc (.single (.start c e.now.2.machine))
    · exact ((hnow.monitor _).post _ _).log _ _

theorem acts_reinitChannel (e : Engine β) (id : Nat) : Acts e (e.reinitChannel id).2 := by
  unfold reinitChannel
  split
  · exact .refl e
  next c hu =>
    have hc := channels_of_channel?_ok hu
    dsimp only
    split
    · exact (Acts.refl e).monitor _
    next monitor _ =>
      have hstop : Channel.Acts e.config (c, e.machine) (c.stop e.machine).2 :=
        .single (.stop c e.machine)
      have hpulse := hstop.andThen (.pulse _ _ e.config.channelResetUs)
      have hclear := hpulse.andThen (.clear _ _ .all)
      have hempty := hclear.andThen (.empty _ _)
      have hput := ((Acts.refl e).monitor monitor).put hc hempty
      split
      · exact hput.log _ _
      · exact (hput.log _ _).trans (acts_startChannel _ id)

/-! ### Posting and taking back -/

theorem acts_enqueue (e : Engine β) (id : Nat) (direction : Direction) (buffer : β)
    (length : Nat) : Acts e (e.enqueue id direction buffer length).2 := by
  unfold enqueue
  split
  · exact .refl e
  next c hu =>
    have hput := (Acts.refl e).put (channels_of_usable?_ok hu)
      (.single (.enqueue c e.machine direction buffer length))
    split
    next he =>
      rw [he] at hput
      dsimp only at hput ⊢
      exact hput.count _
    next he =>
      rw [he] at hput
      dsimp only at hput ⊢
      split
      · dsimp only
        exact (hput.monitor _).count _
      · exact hput

theorem acts_pollReclaim (e : Engine β) (id : Nat) (direction : Direction) :
    Acts e (e.pollReclaim id direction).2 := by
  unfold pollReclaim
  split
  · exact .refl e
  next c hu =>
    have hput := (Acts.refl e).put (channels_of_usable?_ok hu)
      (.single (.reclaim c e.machine direction))
    split
    next he => rwa [he] at hput
    next he =>
      rw [he] at hput
      dsimp only at hput ⊢
      exact hput.count _

theorem acts_setRecoveryPolicy (e : Engine β) (id : Nat) (policy : RecoveryPolicy) :
    Acts e (e.setRecoveryPolicy id policy).2 := by
  unfold setRecoveryPolicy
  split
  · exact .refl e
  · exact (Acts.refl e).aside rfl rfl rfl

theorem acts_resetChannelStats (e : Engine β) (id : Nat) : Acts e (e.resetChannelStats id).2 := by
  unfold resetChannelStats
  split
  · exact .refl e
  · exact (Acts.refl e).monitor _

/-! ### Recovery -/

theorem acts_runRecovery {e : Engine β} {id : Nat} {c : Channel β} (hc : e.channels[id]? = some c)
    (policy : RecoveryPolicy) (faults : FaultSet) :
    Acts e (e.runRecovery id c policy faults).2 := by
  have hrecover := c.acts_recover e.config policy.action faults e.machine
  unfold runRecovery
  split
  next he =>
    rw [he] at hrecover
    exact (Acts.refl e).put hc hrecover
  next d m he =>
    rw [he] at hrecover
    exact (Acts.refl e).put hc (hrecover.andThen (.look d m))
  next he =>
    rw [he] at hrecover
    exact (Acts.refl e).put hc hrecover

theorem acts_recoverClaimed {e : Engine β} {id : Nat} {c : Channel β}
    (hc : e.channels[id]? = some c) (policy : RecoveryPolicy) (faults : FaultSet) :
    Acts e (e.recoverClaimed id c policy faults).2 := by
  unfold recoverClaimed
  dsimp only
  generalize hcount : (e.count fun s =>
    { s with recoveriesAttempted := Counter.add s.recoveriesAttempted 1 }) = e₁
  have h₁ : Acts e e₁ := hcount ▸ (Acts.refl e).count _
  have hc₁ : e₁.channels[id]? = some c := hcount ▸ hc
  have h₂ := h₁.trans (acts_runRecovery hc₁ policy faults)
  generalize e₁.runRecovery id c policy faults = attempt at h₂ ⊢
  obtain ⟨⟨success, residual⟩, e₂⟩ := attempt
  have h₃ := h₂.now.monitor
    (e₂.now.2.monitor.finishRecovery id success residual policy.maxRetries e₂.now.1).2
  split
  · exact ((h₃.count _).post _ _).log _ _
  split
  · exact (h₃.trans (acts_haltChannel _ id)).log _ _
  · exact h₃.log _ _

theorem acts_attemptRecovery (e : Engine β) (id : Nat) : Acts e (e.attemptRecovery id).2 := by
  unfold attemptRecovery
  split
  next c policy hc _ =>
    split
    · exact .refl e
    dsimp only
    have h := (Acts.refl e).now.monitor (e.now.2.monitor.beginRecovery id policy e.now.1).2
    split
    · apply h.trans
      apply acts_recoverClaimed
      exact hc
    · exact h
    · exact h
    · exact h.log _ _
    · have hhalt := h.trans (acts_haltChannel _ id)
      split
      next he =>
        rw [he] at hhalt
        exact hhalt.log _ _
      next he => rwa [he] at hhalt
  · exact .refl e

theorem acts_recoverChannel (e : Engine β) (id : Nat) : Acts e (e.recoverChannel id).2 := by
  unfold recoverChannel
  split
  · exact .refl e
  · exact acts_attemptRecovery e id

theorem acts_autoRecover (id : Nat) (t : RecoveryTally) (e : Engine β) :
    Acts e (autoRecover id t e).2 := by
  unfold autoRecover
  split
  · exact acts_attemptRecovery e id
  · exact .refl e

theorem acts_autoRecoverAll (ids : List Nat) (t : RecoveryTally) (e : Engine β) :
    Acts e (autoRecoverAll ids t e).2 := by
  induction ids generalizing t e with
  | nil => exact .refl e
  | cons id rest ih => exact (acts_autoRecover id t e).trans (ih _ _)

/-! ### Interrupts -/

/-- What every turn of a loop over channels does, the loop does. -/
theorem acts_foldl {α : Type} (engine : α → Engine β) {turn : α → Nat → α}
    (hturn : ∀ a id, Acts (engine a) (engine (turn a id))) (ids : List Nat) (a : α) :
    Acts (engine a) (engine (ids.foldl turn a)) := by
  induction ids generalizing a with
  | nil => exact .refl _
  | cons id rest ih => exact (hturn a id).trans (ih _)

theorem acts_handleError (e : Engine β) (id now : Nat) : Acts e (e.handleError id now) := by
  unfold handleError
  split
  · exact .refl e
  next c hc =>
    dsimp only
    have hlook := ((Acts.refl e).look hc).monitor
      (e.monitor.recordFault id (c.errorStatus e.machine).1 now).2
    split
    · exact ((hlook.trans (acts_haltChannel _ id)).post _ _).log _ _
    · exact (hlook.post _ _).log _ _

theorem acts_handleChannel (status : InterruptStatus) (now : Nat) (e : Engine β) (id : Nat) :
    Acts e (handleChannel status now e id) := by
  unfold handleChannel
  dsimp only
  have hmonitor := (Acts.refl e).monitor
    (e.monitor.onInterrupt id (status.error.contains id) now)
  split <;> split
  · exact (hmonitor.post _ _).trans (acts_handleError _ _ _)
  · exact hmonitor.trans (acts_handleError _ _ _)
  · exact hmonitor.post _ _
  · exact hmonitor

/-- The handler looks at the interrupt status and acknowledges what it finds there. The rest of what
it does are actions of its channels. -/
theorem acts_onInterrupt (e : Engine β) : ∃ m,
    e.machine.Quiet (fun o => e.initialized = true ∧ o = e.device.offset .intStatus) m ∧
      Acts { e with machine := m } e.onInterrupt.2 := by
  unfold onInterrupt
  split
  · exact ⟨e.machine, .refl _, .refl e⟩
  next hup =>
    have hup : e.initialized = true := by simpa using hup
    generalize hread : e.device.read .intStatus e.machine = access
    obtain ⟨raw, m⟩ := access
    have hlooked : e.machine.Quiet
        (fun o => e.initialized = true ∧ o = e.device.offset .intStatus)
        (e.device.read .intStatus e.machine).2 := DeviceRegisters.quiet_read (.refl _) _
    rw [hread] at hlooked
    dsimp only
    split
    · exact ⟨m, hlooked, .refl _⟩
    · have hacked := hlooked.write ⟨hup, rfl⟩ raw
      refine ⟨_, hacked, ?_⟩
      generalize (InterruptStatus.ofWord raw).limit e.channels.length = status
      have hnow := ((Acts.refl { e with machine := e.device.ackInterrupts raw m }).now).count
        fun s =>
          { s with
            interrupts := Counter.add s.interrupts 1
            completionEvents := Counter.add s.completionEvents status.complete.count
            errorEvents := Counter.add s.errorEvents status.error.count }
      exact hnow.trans (acts_foldl (fun e => e) (acts_handleChannel status _) _ _)

/-! ### The watchdog -/

theorem acts_probeFaults {id : Nat} {c : Channel β} {e : Engine β} (hc : e.channels[id]? = some c)
    (now : Nat) (report : WatchdogReport) : Acts e (probeFaults id now c report e).2 := by
  unfold probeFaults
  split
  · exact .refl e
  · have hlook := (Acts.refl e).look hc
    dsimp only
    split
    · exact hlook
    · exact hlook.monitor _

theorem acts_inspectChannel (now : Nat) (acc : WatchdogReport × Engine β) (id : Nat) :
    Acts acc.2 (inspectChannel now acc id).2 := by
  obtain ⟨report, e⟩ := acc
  unfold inspectChannel
  dsimp only
  split
  · exact .refl e
  next c hc =>
    split
    · exact .refl e
    have hprobe : Acts e (probeFaults id now c report e).2 := acts_probeFaults hc now report
    split
    · exact (hprobe.trans (acts_haltChannel _ id)).log _ _
    · exact hprobe

theorem acts_recoverInError (acc : WatchdogReport × Engine β) (id : Nat) :
    Acts acc.2 (recoverInError acc id).2 := by
  obtain ⟨report, e⟩ := acc
  unfold recoverInError
  dsimp only
  split
  · exact acts_autoRecover id _ e
  · exact .refl e

theorem acts_findStalled (e : Engine β) (now : Nat) : Acts e (e.findStalled now).2 := by
  unfold findStalled
  dsimp only
  have hcount := ((Acts.refl e).monitor (e.monitor.watchdogTick now).2).count fun s =>
    { s with
      watchdogTimeouts := Counter.add s.watchdogTimeouts (e.monitor.watchdogTick now).1.count }
  exact hcount.trans (acts_foldl (fun e => e) (fun e id => (Acts.refl e).log _ _) _ _)

theorem acts_watchdogTick (e : Engine β) : Acts e e.watchdogTick.2 := by
  unfold watchdogTick
  split
  · exact .refl e
  next queue _ =>
    have hnow := ((Acts.refl e).queue queue).now
    generalize { e with work := queue }.now = start at hnow
    obtain ⟨now, e₁⟩ := start
    have hfind := hnow.trans (acts_findStalled e₁ now)
    dsimp only
    generalize e₁.findStalled now = found at hfind ⊢
    obtain ⟨stalled, e₂⟩ := found
    have hinspect := hfind.trans (acts_foldl Prod.snd (acts_inspectChannel now) e₂.ids
      ({ WatchdogReport.none with stalled := stalled }, e₂))
    dsimp only
    generalize e₂.ids.foldl (inspectChannel now) _ = acc at hinspect ⊢
    have hrecover := hinspect.trans (acts_foldl Prod.snd acts_recoverInError acc.2.ids acc)
    exact hrecover.queue _

/-! ### Deferred work -/

theorem acts_drainRing (config : Config) (noise : Noise) (sink : Sink σ β) (id : Nat)
    (direction : Direction) (d : Drained σ β) :
    Channel.Acts config (d.channel, d.machine)
      ((drainRing noise sink id direction d).channel,
        (drainRing noise sink id direction d).machine) := by
  have hlook (d : Drained σ β) : Channel.Acts config (d.channel, d.machine)
      ((d.channel.overwrite (noise id direction (d.channel.inFlight direction))).reclaim direction
        d.machine).2 :=
    (Channel.Acts.single (.overwrite d.channel d.machine _)).andThen (.reclaim _ _ _)
  fun_induction drainRing noise sink id direction d with
  | case1 d c m h =>
    have hlast := hlook d
    rwa [h] at hlast
  | case2 d t c m h ih =>
    have hfirst := hlook d
    rw [h] at hfirst
    exact hfirst.trans ih

theorem acts_refillRing (config : Config) (sink : Sink σ β) (id rounds : Nat)
    (d : Refilled σ β) :
    Channel.Acts config (d.channel, d.machine)
      ((refillRing sink id rounds d).channel, (refillRing sink id rounds d).machine) := by
  induction rounds generalizing d with
  | zero => exact .refl _ _
  | succ rounds ih =>
    unfold refillRing
    split
    · exact .refl _ _
    split
    · exact .refl _ _
    next buffer length s _ =>
      have hpost : Channel.Acts config (d.channel, d.machine) _ :=
        .single (.enqueue d.channel d.machine .fromDevice buffer length)
      split
      next he => rwa [he] at hpost
      next he =>
        rw [he] at hpost
        exact hpost.trans (ih ⟨_, _, _, _⟩)

theorem acts_drainChannel (noise : Noise) (sink : Sink σ β) (id : Nat) (s : σ)
    (e : Engine β) : Acts e (drainChannel noise sink id s e).2.2 := by
  unfold drainChannel
  split
  · exact .refl e
  next c hc =>
    have htx := acts_drainRing e.config noise sink id .toDevice ⟨0, 0, s, c, e.machine⟩
    have hrx := htx.trans (acts_drainRing e.config noise sink id .fromDevice _)
    dsimp only
    exact ((Acts.refl e).put hc hrx).count _

theorem acts_refillChannel (sink : Sink σ β) (id : Nat) (s : σ) (e : Engine β) :
    Acts e (refillChannel sink id s e).2.2 := by
  unfold refillChannel
  split
  · exact .refl e
  next c hc =>
    split
    · have hfill := acts_refillRing e.config sink id c.rx.capacity ⟨0, s, c, e.machine⟩
      dsimp only
      exact ((Acts.refl e).put hc hfill).count _
    · exact .refl e

theorem acts_sumOver {work : Nat → σ → Engine β → Nat × σ × Engine β}
    (hwork : ∀ id s e, Acts e (work id s e).2.2) (ids : List Nat) (s : σ) (e : Engine β) :
    Acts e (sumOver work ids s e).2.2 := by
  induction ids generalizing s e with
  | nil => exact .refl e
  | cons id rest ih => exact (hwork id s e).trans (ih _ _)

theorem acts_serve (noise : Noise) (sink : Sink σ β) (work : PendingWork) (s : σ)
    (e : Engine β) : Acts e (serve noise sink work s e).2.2 := by
  have hdrain := acts_sumOver (acts_drainChannel noise sink) work.reclaim.toList s e
  unfold serve
  generalize sumOver (drainChannel noise sink) work.reclaim.toList s e = drained at hdrain ⊢
  obtain ⟨reclaimed, s₁, e₁⟩ := drained
  have hfill := hdrain.trans (acts_sumOver (acts_refillChannel sink) work.refill.toList s₁ e₁)
  dsimp only
  generalize sumOver (refillChannel sink) work.refill.toList s₁ e₁ = filled at hfill ⊢
  obtain ⟨refilled, s₂, e₂⟩ := filled
  exact hfill.trans (acts_autoRecoverAll work.recover.toList .none e₂)

theorem acts_runDeferred (noise : Noise) (sink : Sink σ β) (s : σ) (e : Engine β) :
    Acts e (runDeferred noise sink s e).2.2 := by
  unfold runDeferred
  split
  · exact .refl e
  next queue _ =>
    have hqueue := (Acts.refl e).queue queue.take.2
    have hserve := hqueue.trans (acts_serve noise sink queue.take.1 s _)
    exact hserve.queue _

/-! ### Moments -/

/-- How an engine goes through a moment. -/
inductive Move (e : Engine β) : Moment σ β → Engine β → Prop where
  /-- It is told to come up. -/
  | up (base count : Nat) : Move e (.operate (.init base count)) (e.init base count).2
  /-- It goes down. -/
  | down {e' : Engine β} (h : e.deinit? = some e') : Move e (.operate .deinit) e'
  /-- The world changes registers. -/
  | registers (f : RegisterFile → RegisterFile) :
      Move e (.disturb (.registers f))
        { e with machine := { e.machine with registers := f e.machine.registers } }
  /-- Its channels act. Before that it may look at the interrupt status and acknowledge it. -/
  | acts {moment : Moment σ β} {m : Machine β} {e' : Engine β}
      (hquiet : e.machine.Quiet
        (fun o => e.initialized = true ∧ o = e.device.offset .intStatus) m)
      (h : Acts { e with machine := m } e') : Move e moment e'

variable {e e' : Engine β} {seen : Story β}

theorem Acts.move {moment : Moment σ β} (h : Acts e e') : Move e moment e' := .acts (.refl _) h

theorem move_of_perform {op : Operation σ β} (hop : op.perform e = some (seen, e')) :
    Move e (.operate op) e' := by
  cases op with
  | init base count =>
    obtain ⟨-, rfl⟩ := Prod.mk.inj (Option.some.inj hop)
    exact .up base count
  | deinit =>
    obtain ⟨e₁, hdeinit, hop⟩ := Option.map_eq_some_iff.mp hop
    obtain ⟨-, rfl⟩ := Prod.mk.inj hop
    exact .down hdeinit
  | start =>
    obtain ⟨-, rfl⟩ := Prod.mk.inj (Option.some.inj hop)
    exact (acts_start e).move
  | stop =>
    obtain ⟨-, rfl⟩ := Prod.mk.inj (Option.some.inj hop)
    exact (acts_stop e).move
  | startChannel id =>
    obtain ⟨-, rfl⟩ := Prod.mk.inj (Option.some.inj hop)
    exact (acts_startChannel e id).move
  | stopChannel id =>
    obtain ⟨-, rfl⟩ := Prod.mk.inj (Option.some.inj hop)
    exact (acts_stopChannel e id).move
  | suspendChannel id =>
    obtain ⟨-, rfl⟩ := Prod.mk.inj (Option.some.inj hop)
    exact (acts_suspendChannel e id).move
  | resumeChannel id =>
    obtain ⟨-, rfl⟩ := Prod.mk.inj (Option.some.inj hop)
    exact (acts_resumeChannel e id).move
  | reinitChannel id =>
    obtain ⟨-, rfl⟩ := Prod.mk.inj (Option.some.inj hop)
    exact (acts_reinitChannel e id).move
  | enqueue id direction buffer length =>
    obtain rfl := Operation.eq_of_enqueue hop
    exact (acts_enqueue e id direction buffer length).move
  | pollReclaim id direction =>
    obtain rfl := Operation.eq_of_pollReclaim hop
    exact (acts_pollReclaim e id direction).move
  | onInterrupt =>
    obtain ⟨-, rfl⟩ := Prod.mk.inj (Option.some.inj hop)
    obtain ⟨m, hquiet, hacts⟩ := acts_onInterrupt e
    exact .acts hquiet hacts
  | runDeferred noise sink s =>
    obtain ⟨-, rfl⟩ := Prod.mk.inj (Option.some.inj hop)
    exact (acts_runDeferred noise sink.recorded (s, []) e).move
  | watchdogTick =>
    obtain ⟨-, rfl⟩ := Prod.mk.inj (Option.some.inj hop)
    exact (acts_watchdogTick e).move
  | recoverChannel id =>
    obtain ⟨-, rfl⟩ := Prod.mk.inj (Option.some.inj hop)
    exact (acts_recoverChannel e id).move
  | setRecoveryPolicy id policy =>
    obtain ⟨-, rfl⟩ := Prod.mk.inj (Option.some.inj hop)
    exact (acts_setRecoveryPolicy e id policy).move
  | clearStats =>
    obtain ⟨-, rfl⟩ := Prod.mk.inj (Option.some.inj hop)
    exact ((Acts.refl e).count fun _ => .zero).move
  | resetChannelStats id =>
    obtain ⟨-, rfl⟩ := Prod.mk.inj (Option.some.inj hop)
    exact (acts_resetChannelStats e id).move

theorem move_of_disturb (e : Engine β) (d : Disturbance β) :
    Move e (.disturb d : Moment σ β) (d.apply e) := by
  cases d with
  | descriptors id f =>
    simp only [Disturbance.apply]
    split
    · exact (Acts.refl e).move
    next c hc => exact ((Acts.refl e).put hc (.single (.overwrite c e.machine f))).move
  | registers f => exact .registers f
  | retired | clock | mapper => exact Acts.move (.machine (.refl e) rfl)
  | work q => exact ((Acts.refl e).queue q).move

/-- What the engine does in one moment. -/
theorem move_of_pass {moment : Moment σ β} (h : moment.pass e = some (seen, e')) :
    Move e moment e' := by
  cases moment with
  | operate op => exact move_of_perform h
  | disturb d =>
    obtain ⟨-, rfl⟩ := Prod.mk.inj (Option.some.inj h)
    exact move_of_disturb e d

end PacketDma.Engine
