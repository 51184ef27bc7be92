import PacketDma.Proofs.Coherence

/-!
# The lifecycle invariant

Recovery, interrupts, the watchdog and workers keep an engine coherent as well, and so does every
history. A channel that is claimed for recovery is incoherent only until its attempt is closed, and
a channel that goes down is halted within the operation that finds it down.
-/

namespace PacketDma.Engine

variable {σ β : Type} {e : Engine β}

/-! ### Recovery -/

/-- An attempt that succeeded leaves the channel running, and one that failed leaves faults. -/
theorem runRecovery_eq (e : Engine β) (id : Nat) {c : Channel β} (policy : RecoveryPolicy)
    {faults : FaultSet} (hc : c.Uniform) (hfaults : faults.isEmpty = false) :
    ∃ success residual d m,
      e.runRecovery id c policy faults = ((success, residual), e.put id d m) ∧ d.Uniform ∧
        (success = true → d.running = true) ∧ (success = false → residual.isEmpty = false) := by
  unfold runRecovery
  split
  next d m hd =>
    have hrun := Channel.run_recover hd
    exact ⟨true, ∅, d, m, rfl, hc.run hrun,
      fun _ => Channel.running_of_recover hd hc.built, by simp⟩
  next d m hd =>
    have hrun := Channel.run_recover hd
    refine ⟨false, if (d.errorStatus m).1.isEmpty then faults else (d.errorStatus m).1, d,
      (d.errorStatus m).2, rfl, hc.run hrun, by simp, ?_⟩
    intro _
    by_cases hstatus : (d.errorStatus m).1.isEmpty = true
    · rw [if_pos hstatus]
      exact hfaults
    · rw [if_neg hstatus]
      simpa using hstatus
  next d m hd =>
    have hrun := Channel.run_recover hd
    exact ⟨false, faults, d, m, rfl, hc.run hrun, by simp, fun _ => hfaults⟩

/-- The end of an attempt makes an engine coherent again that was so before its claim. -/
theorem coherent_recoverClaimed {e₀ : Engine β} (h : e₀.Coherent) {id : Nat} {c : Channel β}
    {s : ChannelRecord} {policy : RecoveryPolicy} {faults : FaultSet}
    (hc : e₀.channels[id]? = some c) (hs : s.IsClaimed faults)
    (hchannels : e.channels = e₀.channels)
    (hrecords : e.monitor.records = e₀.monitor.records.set id s)
    (hpolicies : e.policies = e₀.policies) :
    (e.recoverClaimed id c policy faults).2.Coherent := by
  obtain ⟨hlt, _⟩ := List.getElem?_eq_some_iff.mp hc
  have hclaimed : e.monitor.records[id]? = some s := by
    rw [hrecords]
    exact List.getElem?_set_self (h.records_length ▸ hlt)
  unfold recoverClaimed
  dsimp only
  generalize hcount : (e.count fun s =>
    { s with recoveriesAttempted := Counter.add s.recoveriesAttempted 1 }) = e₁
  obtain ⟨success, residual, d, m, hattempt, huniform, hsuccess, hfailure⟩ :=
    e₁.runRecovery_eq id policy (h.uniform id c hc) hs.faults_ne
  rw [hattempt]
  dsimp only
  have hput : (e₁.put id d m).channels = e₀.channels.set id d := by
    rw [← hcount, ← hchannels]
    rfl
  have hrecord : (e₁.put id d m).now.2.monitor.records[id]? = some s := by
    rw [← hcount]
    exact hclaimed
  have hrest : (e₁.put id d m).now.2.policies = e₀.policies := by
    rw [← hcount, ← hpolicies]
    rfl
  have hreplaced : ∀ t, (e₁.put id d m).now.2.monitor.records.set id t =
      e₀.monitor.records.set id t := fun t => by
    rw [← hcount]
    show e.monitor.records.set id t = _
    rw [hrecords, List.set_set]
  rw [Monitor.finishRecovery, Monitor.act_eq hrecord]
  cases success with
  | true =>
    obtain ⟨t, ht, hfit⟩ := hs.succeed residual policy.maxRetries (e₁.put id d m).now.1
    rw [ht]
    exact h.settle id hput (hreplaced t) hrest huniform (hsuccess rfl ▸ hfit)
  | false =>
    obtain ⟨t, ht, hfit⟩ :=
      hs.fail (hfailure rfl) policy.maxRetries (e₁.put id d m).now.1 d.running
    rw [ht]
    dsimp only
    cases hdown : t.down with
    | true =>
      rw [hdown, Bool.not_true, Bool.and_false] at hfit
      refine Coherent.log ?_ _ _
      exact h.haltReplaced hlt hput (hreplaced t) hrest huniform hfit
    | false =>
      rw [hdown, Bool.not_false, Bool.and_true] at hfit
      exact h.settle id hput (hreplaced t) hrest huniform hfit

theorem coherent_attemptRecovery (h : e.Coherent) (id : Nat) :
    (e.attemptRecovery id).2.Coherent := by
  unfold attemptRecovery
  split
  next c policy hc _ =>
    split
    · exact h
    dsimp only
    obtain ⟨r, hr, hfits⟩ := h.record hc
    have hrecord : e.now.2.monitor.records[id]? = some r := hr
    rw [Monitor.beginRecovery, Monitor.act_eq hrecord]
    generalize hb : r.beginRecovery policy e.now.1 = begun
    obtain ⟨claim, s⟩ := begun
    cases claim with
    | claimed faults =>
      exact coherent_recoverClaimed h hc (ChannelRecord.isClaimed_of_begin hfits hb) rfl rfl rfl
    | notNeeded | tooSoon | notCovered =>
      obtain rfl := ChannelRecord.eq_of_begin hb (by simp) (by simp)
      exact h.settleRecord hc rfl rfl rfl hfits
    | down =>
      have hfit := ChannelRecord.fits_of_begin_down hfits hb
      dsimp only
      split
      next he =>
        obtain rfl := congrArg Prod.snd he
        refine Coherent.log ?_ _ _
        exact h.halt hc rfl rfl rfl hfit
      next he =>
        obtain rfl := congrArg Prod.snd he
        exact h.halt hc rfl rfl rfl hfit
  · exact h

theorem coherent_recoverChannel (h : e.Coherent) (id : Nat) :
    (e.recoverChannel id).2.Coherent := by
  unfold recoverChannel
  split
  · exact h
  · exact coherent_attemptRecovery h id

theorem coherent_autoRecover (id : Nat) (t : RecoveryTally) (h : e.Coherent) :
    (autoRecover id t e).2.Coherent := by
  unfold autoRecover
  split
  · exact coherent_attemptRecovery h id
  · exact h

theorem coherent_autoRecoverAll (ids : List Nat) (t : RecoveryTally) (h : e.Coherent) :
    (autoRecoverAll ids t e).2.Coherent := by
  induction ids generalizing t e with
  | nil => exact h
  | cons id rest ih => exact ih _ (coherent_autoRecover id t h)

/-! ### Faults -/

/-- A channel whose faults were noticed is halted if it is down, and its record fits either way. -/
theorem Coherent.judge (h : e.Coherent) (e' : Engine β) {id : Nat} {c : Channel β}
    {s : ChannelRecord} (hc : e.channels[id]? = some c) (hchannels : e'.channels = e.channels)
    (hrecords : e'.monitor.records = e.monitor.records.set id s)
    (hpolicies : e'.policies = e.policies) (hs : s.Fits (c.running && !s.down)) :
    (e'.monitor.isDown id = true → (e'.haltChannel id).2.Coherent) ∧
      (e'.monitor.isDown id = false → e'.Coherent) := by
  obtain ⟨hlt, _⟩ := List.getElem?_eq_some_iff.mp hc
  have hrecord : e'.monitor.records[id]? = some s := by
    rw [hrecords]
    exact List.getElem?_set_self (h.records_length ▸ hlt)
  rw [Monitor.isDown_eq hrecord]
  constructor
  · intro hdown
    rw [hdown, Bool.not_true, Bool.and_false] at hs
    exact h.halt hc hchannels hrecords hpolicies hs
  · intro hup
    rw [hup, Bool.not_false, Bool.and_true] at hs
    exact h.settleRecord hc hchannels hrecords hpolicies hs

/-! ### Interrupts -/

theorem coherent_handleError (h : e.Coherent) (id now : Nat) : (e.handleError id now).Coherent := by
  unfold handleError
  split
  · exact h
  next c hc =>
    obtain ⟨r, hr, hfits⟩ := h.record hc
    generalize c.errorStatus e.machine = look
    obtain ⟨faults, m⟩ := look
    dsimp only
    rw [Monitor.recordFault, Monitor.act_eq hr]
    obtain ⟨hhalt, hgo⟩ := h.judge
      { e with
        machine := m
        monitor := { e.monitor with
          records := e.monitor.records.set id (r.recordFault faults now).2 } }
      hc rfl rfl rfl (hfits.recordFault faults now)
    split
    next hdown => exact ((hhalt hdown).post _ _).log _ _
    next hup => exact ((hgo (by simpa using hup)).post _ _).log _ _

theorem coherent_handleChannel (status : InterruptStatus) (now : Nat) (h : e.Coherent)
    (id : Nat) : (handleChannel status now e id).Coherent := by
  have hseen := h.update id (·.onInterrupt (status.error.contains id) now)
    fun r running hfits => hfits.stats _
  unfold handleChannel
  dsimp only
  split <;> split
  · exact coherent_handleError (hseen.post id .completion) id now
  · exact coherent_handleError hseen id now
  · exact hseen.post id .completion
  · exact hseen

/-- What every turn of a loop over channels keeps, the loop keeps. -/
theorem coherent_foldl {α : Type} (engine : α → Engine β) {turn : α → Nat → α}
    (hturn : ∀ a id, (engine a).Coherent → (engine (turn a id)).Coherent) (ids : List Nat) {a : α}
    (h : (engine a).Coherent) : (engine (ids.foldl turn a)).Coherent := by
  induction ids generalizing a with
  | nil => exact h
  | cons id rest ih => exact ih (hturn a id h)

theorem coherent_onInterrupt (h : e.Coherent) : e.onInterrupt.2.Coherent := by
  unfold onInterrupt
  split
  · exact h
  dsimp only
  split
  · exact h.machine _
  · refine coherent_foldl (fun e => e) ?_ _ (((h.machine _).now).count _)
    intro e id he
    exact coherent_handleChannel _ _ he id

/-! ### The watchdog -/

theorem coherent_findStalled (h : e.Coherent) (now : Nat) : (e.findStalled now).2.Coherent := by
  have hwatch : Coherent { e with monitor := (e.monitor.watchdogTick now).2 } := by
    refine h.refit rfl (List.length_map _) ?_ rfl
    intro i s hs
    obtain ⟨r, hr, rfl⟩ := Option.map_eq_some_iff.mp (List.getElem?_map.symm.trans hs)
    exact ⟨r, hr, fun running hfits => hfits.watch _ _ _⟩
  unfold findStalled
  dsimp only
  exact coherent_foldl (fun e => e) (fun e id he => he.log _ _) _ (hwatch.count _)

/-- A running channel that was asked for faults is to be halted exactly if it is down. -/
theorem judge_probeFaults (h : e.Coherent) {id : Nat} {c : Channel β} (now : Nat)
    (report : WatchdogReport) (hc : e.channels[id]? = some c) (hrunning : c.running = true) :
    ((probeFaults id now c report e).2.monitor.isDown id = true →
      ((probeFaults id now c report e).2.haltChannel id).2.Coherent) ∧
      ((probeFaults id now c report e).2.monitor.isDown id = false →
        (probeFaults id now c report e).2.Coherent) := by
  obtain ⟨r, hr, hfits⟩ := h.record hc
  unfold probeFaults
  split
  next hdown =>
    rw [Monitor.isDown_eq hr] at hdown
    exact absurd ((hfits.of_down hdown).symm.trans hrunning) (by simp)
  next hup =>
    generalize c.errorStatus e.machine = look
    obtain ⟨faults, m⟩ := look
    dsimp only
    split
    · exact ⟨fun hdown => absurd hdown hup, fun _ => h.machine m⟩
    · rw [Monitor.recordFault, Monitor.act_eq hr]
      exact h.judge _ hc rfl rfl rfl (hfits.recordFault faults now)

theorem coherent_inspectChannel (now : Nat) (acc : WatchdogReport × Engine β) (id : Nat)
    (h : acc.2.Coherent) : (inspectChannel now acc id).2.Coherent := by
  obtain ⟨report, e⟩ := acc
  unfold inspectChannel
  dsimp only
  split
  · exact h
  next c hc =>
    split
    · exact h
    next hrunning =>
      obtain ⟨hhalt, hgo⟩ := judge_probeFaults h now report hc (by simpa using hrunning)
      generalize probeFaults id now c report e = probed at hhalt hgo
      obtain ⟨report', e'⟩ := probed
      dsimp only at hhalt hgo ⊢
      split
      next hdown => exact (hhalt hdown).log _ _
      next hup => exact hgo (by simpa using hup)

theorem coherent_recoverInError (acc : WatchdogReport × Engine β) (id : Nat)
    (h : acc.2.Coherent) : (recoverInError acc id).2.Coherent := by
  obtain ⟨report, e⟩ := acc
  unfold recoverInError
  dsimp only
  split
  · exact coherent_autoRecover id report.tally h
  · exact h

theorem coherent_watchdogTick (h : e.Coherent) : e.watchdogTick.2.Coherent := by
  unfold watchdogTick
  split
  · exact h
  next queue _ =>
    have hfind := coherent_findStalled (h.queue queue).now
      ({ e with work := queue } : Engine β).now.1
    generalize ({ e with work := queue } : Engine β).now = start at hfind ⊢
    obtain ⟨now, e₁⟩ := start
    dsimp only at hfind ⊢
    generalize e₁.findStalled now = found at hfind ⊢
    obtain ⟨stalled, e₂⟩ := found
    dsimp only at hfind ⊢
    have hinspect := coherent_foldl Prod.snd (coherent_inspectChannel now) e₂.ids
      (a := ({ WatchdogReport.none with stalled := stalled }, e₂)) hfind
    exact (coherent_foldl Prod.snd coherent_recoverInError _ hinspect).queue _

/-! ### Deferred work -/

theorem running_drainRing (noise : Noise) (sink : Sink σ β) (id : Nat)
    (direction : Direction) (d : Drained σ β) :
    (drainRing noise sink id direction d).channel.running = d.channel.running := by
  fun_induction drainRing noise sink id direction d with
  | case1 d c m h =>
    have hrunning := (d.channel.overwrite
      (noise id direction (d.channel.inFlight direction))).running_reclaim direction d.machine
    rw [h] at hrunning
    exact hrunning
  | case2 d t c m h ih =>
    have hrunning := (d.channel.overwrite
      (noise id direction (d.channel.inFlight direction))).running_reclaim direction d.machine
    rw [h] at hrunning
    exact ih.trans hrunning

theorem running_refillRing (sink : Sink σ β) (id rounds : Nat) (d : Refilled σ β) :
    (refillRing sink id rounds d).channel.running = d.channel.running := by
  induction rounds generalizing d with
  | zero => rfl
  | succ rounds ih =>
    unfold refillRing
    split
    · rfl
    split
    · rfl
    next buffer length s _ =>
      have hrunning := d.channel.running_enqueue .fromDevice buffer length d.machine
      split
      next hpost =>
        rw [hpost] at hrunning
        exact hrunning
      next hpost =>
        rw [hpost] at hrunning
        exact (ih _).trans hrunning

theorem coherent_drainChannel (noise : Noise) (sink : Sink σ β) (id : Nat)
    (s : σ × Story β) (h : e.Coherent) :
    (drainChannel noise sink.recorded id s e).2.2.Coherent := by
  unfold drainChannel
  split
  · exact h
  next c hc =>
    dsimp only
    have htx := runs_drainRing e.config noise sink id .toDevice ⟨0, 0, s, c, e.machine⟩
    obtain ⟨_, hrun, _⟩ := htx.trans (runs_drainRing e.config noise sink id .fromDevice _)
    have hrunning := (running_drainRing noise sink.recorded id .fromDevice _).trans
      (running_drainRing noise sink.recorded id .toDevice ⟨0, 0, s, c, e.machine⟩)
    refine Coherent.count ?_ _
    exact h.settleChannel hc rfl rfl rfl ((h.uniform id c hc).run hrun) hrunning

theorem coherent_refillChannel (sink : Sink σ β) (id : Nat) (s : σ × Story β)
    (h : e.Coherent) : (refillChannel sink.recorded id s e).2.2.Coherent := by
  unfold refillChannel
  split
  · exact h
  next c hc =>
    split
    · obtain ⟨_, hrun, _⟩ := runs_refillRing e.config sink id c.rx.capacity ⟨0, s, c, e.machine⟩
      have hrunning := running_refillRing sink.recorded id c.rx.capacity ⟨0, s, c, e.machine⟩
      dsimp only
      refine Coherent.count ?_ _
      exact h.settleChannel hc rfl rfl rfl ((h.uniform id c hc).run hrun) hrunning
    · exact h

theorem coherent_sumOver {work : Nat → σ → Engine β → Nat × σ × Engine β}
    (hwork : ∀ id s (e : Engine β), e.Coherent → (work id s e).2.2.Coherent) (ids : List Nat)
    (s : σ) (h : e.Coherent) : (sumOver work ids s e).2.2.Coherent := by
  induction ids generalizing s e with
  | nil => exact h
  | cons id rest ih => exact ih _ (hwork id s e h)

theorem coherent_runDeferred (noise : Noise) (sink : Sink σ β) (s : σ × Story β)
    (h : e.Coherent) : (runDeferred noise sink.recorded s e).2.2.Coherent := by
  unfold runDeferred
  split
  · exact h
  next queue _ =>
    have hdrain := coherent_sumOver
      (fun id s e => coherent_drainChannel (e := e) noise sink id s)
      queue.take.1.reclaim.toList s (h.queue queue.take.2)
    have hrefill := coherent_sumOver (fun id s e => coherent_refillChannel (e := e) sink id s)
      queue.take.1.refill.toList (sumOver (drainChannel noise sink.recorded)
        queue.take.1.reclaim.toList s { e with work := queue.take.2 }).2.1 hdrain
    exact (coherent_autoRecoverAll queue.take.1.recover.toList .none hrefill).queue _

/-! ### Histories -/

/-- New channels, new records and default policies are coherent. -/
theorem CameUp.coherent {e' : Engine β} {base count : Nat} (h : CameUp e base count e') :
    e'.Coherent := by
  have hfresh : ∀ (i : Nat) (c : Channel β), e'.channels[i]? = some c → IsFresh e.config c :=
    fun i c hc => h.fresh c (List.mem_of_getElem? hc)
  constructor
  · rw [h.records_eq, List.length_replicate, h.channels_length]
  · rw [h.policies_eq, List.length_replicate, h.channels_length]
  · rw [h.channels_length]
    exact Nat.le_trans h.count_le e.config.channelLimit_le
  · intro i c hc
    refine ⟨(hfresh i c hc).initialized_eq, ?_⟩
    intro d
    rw [((hfresh i c hc).ring_new d).enabled_eq, (hfresh i c hc).running_eq]
  · intro i c r hc hr
    rw [h.records_eq] at hr
    rw [(hfresh i c hc).running_eq, List.eq_of_mem_replicate (List.mem_of_getElem? hr)]
    exact .new

/-- Without channels there is nothing to be incoherent. -/
theorem coherent_of_empty (hchannels : e.channels = []) (hrecords : e.monitor.records = [])
    (hpolicies : e.policies.policies = []) : e.Coherent :=
  ⟨by rw [hrecords, hchannels]; rfl, by rw [hpolicies, hchannels]; rfl,
    by rw [hchannels]; exact Nat.zero_le _, by simp [hchannels], by simp [hchannels]⟩

/-- Every operation keeps an engine coherent. -/
theorem coherent_of_perform {op : Operation σ β} {e' : Engine β} {seen : Story β}
    (hidle : e.IdleEmpty) (h : e.Coherent) (hop : op.perform e = some (seen, e')) :
    e'.Coherent := by
  cases op with
  | init base count =>
    obtain ⟨-, rfl⟩ := Prod.mk.inj (Option.some.inj hop)
    obtain ⟨_, ⟨m, honly⟩ | ⟨_, hup⟩⟩ := run_init (· = base) count rfl hidle
    · rw [honly]
      exact h.machine m
    · exact hup.coherent
  | deinit =>
    obtain ⟨e₁, hdeinit, hsame⟩ := Option.map_eq_some_iff.mp hop
    obtain ⟨-, rfl⟩ := Prod.mk.inj hsame
    obtain ⟨_, ⟨_, rfl⟩ | ⟨_, hdown⟩⟩ := run_deinit e.UpAt (fun hup => ⟨hup, rfl⟩) hdeinit
    · exact h
    · exact coherent_of_empty hdown.channels_eq hdown.records_eq hdown.policies_eq
  | start =>
    obtain ⟨-, rfl⟩ := Prod.mk.inj (Option.some.inj hop)
    unfold start
    split
    · exact h
    · exact coherent_eachChannel (fun e id he => coherent_startChannel he id) _ h
  | stop =>
    obtain ⟨-, rfl⟩ := Prod.mk.inj (Option.some.inj hop)
    unfold stop
    split
    · exact h
    · exact coherent_eachChannel (fun e id he => coherent_stopChannel he id) _ h
  | startChannel id =>
    obtain ⟨-, rfl⟩ := Prod.mk.inj (Option.some.inj hop)
    exact coherent_startChannel h id
  | stopChannel id =>
    obtain ⟨-, rfl⟩ := Prod.mk.inj (Option.some.inj hop)
    exact coherent_stopChannel h id
  | suspendChannel id =>
    obtain ⟨-, rfl⟩ := Prod.mk.inj (Option.some.inj hop)
    exact coherent_suspendChannel h id
  | resumeChannel id =>
    obtain ⟨-, rfl⟩ := Prod.mk.inj (Option.some.inj hop)
    exact coherent_resumeChannel h id
  | reinitChannel id =>
    obtain ⟨-, rfl⟩ := Prod.mk.inj (Option.some.inj hop)
    exact coherent_reinitChannel h id
  | enqueue id direction buffer length =>
    obtain rfl := Operation.eq_of_enqueue hop
    exact coherent_enqueue h id direction buffer length
  | pollReclaim id direction =>
    obtain rfl := Operation.eq_of_pollReclaim hop
    exact coherent_pollReclaim h id direction
  | onInterrupt =>
    obtain ⟨-, rfl⟩ := Prod.mk.inj (Option.some.inj hop)
    exact coherent_onInterrupt h
  | runDeferred noise sink s =>
    obtain ⟨-, rfl⟩ := Prod.mk.inj (Option.some.inj hop)
    exact coherent_runDeferred noise sink (s, []) h
  | watchdogTick =>
    obtain ⟨-, rfl⟩ := Prod.mk.inj (Option.some.inj hop)
    exact coherent_watchdogTick h
  | recoverChannel id =>
    obtain ⟨-, rfl⟩ := Prod.mk.inj (Option.some.inj hop)
    exact coherent_recoverChannel h id
  | setRecoveryPolicy id policy =>
    obtain ⟨-, rfl⟩ := Prod.mk.inj (Option.some.inj hop)
    exact coherent_setRecoveryPolicy h id policy
  | clearStats =>
    obtain ⟨-, rfl⟩ := Prod.mk.inj (Option.some.inj hop)
    exact h.count fun _ => .zero
  | resetChannelStats id =>
    obtain ⟨-, rfl⟩ := Prod.mk.inj (Option.some.inj hop)
    exact coherent_resetChannelStats h id

/-- The world cannot make an engine incoherent. -/
theorem coherent_disturb (h : e.Coherent) (d : Disturbance β) : (d.apply e).Coherent := by
  cases d with
  | descriptors id f =>
    simp only [Disturbance.apply]
    split
    · exact h
    next c hc =>
      have hstep : Channel.Run e.config c e.machine [] (c.overwrite f) e.machine :=
        .single (.overwrite f)
      exact h.settleChannel hc rfl rfl rfl ((h.uniform id c hc).run hstep) rfl
  | _ => exact h.aside rfl rfl rfl

/-- In every history of a new engine, the engine is coherent between any two operations: no channel
is recovering, what the monitor knows of a channel does not contradict whether it runs, both rings
of a channel allow posting exactly if it runs, and all tables have one entry for each channel. -/
theorem coherent_always {config : Config} {m : Machine β} {moments : List (Moment σ β)}
    {seen : Story β} (h : live moments (new config m) = some (seen, e)) : e.Coherent := by
  have hkept : e.IdleEmpty ∧ e.Coherent := by
    refine live_keeps (fun e => e.IdleEmpty ∧ e.Coherent) ?_ h
      ⟨idleEmpty_new config m, coherent_of_empty rfl rfl rfl⟩
    intro moment _ e seen e' hpass he
    refine ⟨moment.idleEmpty_of_pass he.1 hpass, ?_⟩
    cases moment with
    | operate op => exact coherent_of_perform he.1 he.2 hpass
    | disturb d =>
      obtain ⟨-, rfl⟩ := Prod.mk.inj (Option.some.inj hpass)
      exact coherent_disturb he.2 d
  exact hkept.2

/-- A channel reports a fault that goes on, so that its recovery fails. Another one is suspended. -/
def faultTrip : List (Moment Unit Nat) :=
  [.operate (.init 0 2), .operate .start,
    .disturb (.registers fun f => (f.holdFaults 0 Fault.bus.bit).injectFaults 0 Fault.bus.bit),
    .operate .onInterrupt, .operate (.recoverChannel 0), .operate (.suspendChannel 1)]

theorem coherent_always_trip : ∃ seen e,
    live faultTrip (new .bench .bench) = some (seen, e) ∧
      e.monitor.records.map (·.state) = [.error, .suspended] ∧
        e.channels.map (·.running) = [true, false] ∧ e.Coherent := by
  have hends : (live faultTrip (new .bench .bench)).isSome = true := by decide +kernel
  have htables : (live faultTrip (new .bench .bench)).map (fun r =>
      (r.2.monitor.records.map (·.state), r.2.channels.map (·.running))) =
        some ([.error, .suspended], [true, false]) := by decide +kernel
  obtain ⟨⟨seen, e⟩, h⟩ := Option.isSome_iff_exists.mp hends
  rw [h] at htables
  obtain ⟨hstates, hrunning⟩ := Prod.mk.inj (Option.some.inj htables)
  exact ⟨seen, e, h, hstates, hrunning, coherent_always h⟩

end PacketDma.Engine
