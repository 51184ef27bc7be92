import PacketDma.Proofs.Bystanders

/-!
# Service of channels

Interrupts, the watchdog and workers attend to channels that need it, and so does recovery for which
the owner asks. They find faults on running channels and recover channels in error. A channel that
is stopped, suspended or down is at rest: its state stays, nobody starts its rings, and no attempt
is made on it.

## Implementation notes

Noting faults and making attempts are kept apart, as they are in the loops of the watchdog. So an
attempt is counted only in the last part of an operation.
-/

namespace PacketDma

variable {σ β : Type}

namespace ChannelRecord

/-- The channel is stopped, suspended or down. -/
def IsResting (r : ChannelRecord) : Prop :=
  r.state = .stopped ∨ r.state = .suspended ∨ r.down = true

/-- No attempt was made between these two records. -/
structure Unattempted (r s : ChannelRecord) : Prop where
  retries_eq : s.retries = r.retries
  lastAttempt_eq : s.lastAttempt = r.lastAttempt
  recoveryAttempts_eq : s.stats.recoveryAttempts = r.stats.recoveryAttempts

theorem Unattempted.refl (r : ChannelRecord) : r.Unattempted r := ⟨rfl, rfl, rfl⟩

theorem Unattempted.trans {r s t : ChannelRecord} (h : r.Unattempted s) (h' : s.Unattempted t) :
    r.Unattempted t :=
  ⟨h'.retries_eq.trans h.retries_eq, h'.lastAttempt_eq.trans h.lastAttempt_eq,
    h'.recoveryAttempts_eq.trans h.recoveryAttempts_eq⟩

end ChannelRecord

namespace ChannelState

/-- A fault is found on a running channel. -/
def Faults (s t : ChannelState) : Prop := t = s ∨ s = .running ∧ t = .error

/-- A channel in error is recovered. -/
def Recovers (s t : ChannelState) : Prop := t = s ∨ s = .error ∧ t = .running

theorem Faults.stays {s t : ChannelState} (h : s.Faults t) (hs : s = .stopped ∨ s = .suspended) :
    t = s := by
  rcases h with rfl | ⟨rfl, -⟩
  · rfl
  · simp at hs

theorem Recovers.stays {s t : ChannelState} (h : s.Recovers t)
    (hs : s = .stopped ∨ s = .suspended) : t = s := by
  rcases h with rfl | ⟨rfl, -⟩
  · rfl
  · simp at hs

theorem Faults.trans {s t u : ChannelState} (h : s.Faults t) (h' : t.Faults u) : s.Faults u := by
  rcases h with rfl | ⟨hs, rfl⟩
  · exact h'
  · rcases h' with rfl | ⟨ht, -⟩
    · exact .inr ⟨hs, rfl⟩
    · cases ht

end ChannelState

namespace Engine

/-- What becomes of a channel that the engine attends to. Its state moves along some edges, and at
most one attempt is made. A channel at rest is left there. -/
structure Tended (moves : ChannelState → ChannelState → Prop) (attempts : Bool)
    (p q : Entry β) : Prop where
  state : moves p.2.state q.2.state
  down : p.2.down = true → q.2.down = true
  attempted : q.2.stats.recoveryAttempts = p.2.stats.recoveryAttempts ∨
    attempts = true ∧
      q.2.stats.recoveryAttempts = Counter.add p.2.stats.recoveryAttempts 1
  rests : p.2.IsResting → q.2.IsResting ∧ p.1.Unstarted q.1 ∧ p.2.Unattempted q.2

variable {e e' : Engine β} {id : Nat} {p q u : Entry β}

namespace Tended

variable {moves others : ChannelState → ChannelState → Prop} {attempts : Bool}

/-- A channel that goes on as it was, and whose rings were not started. -/
theorem of_calm (hmoves : ∀ s, moves s s) (hc : p.1.Unstarted q.1)
    (hstate : q.2.state = p.2.state) (hdown : q.2.down = p.2.down)
    (htried : p.2.Unattempted q.2) : Tended moves attempts p q := by
  refine ⟨hstate ▸ hmoves _, hdown ▸ id, .inl htried.recoveryAttempts_eq, fun hrest => ?_⟩
  refine ⟨?_, hc, htried⟩
  rwa [ChannelRecord.IsResting, hstate, hdown]

theorem refl (hmoves : ∀ s, moves s s) (p : Entry β) : Tended moves attempts p p :=
  of_calm hmoves .refl rfl rfl (.refl _)

/-- A channel is tended, then tended again, but only then may an attempt be made. -/
theorem trans (h : Tended moves false p q) (h' : Tended others attempts q u) :
    Tended (Relation.Comp moves others) attempts p u := by
  have hattempted : q.2.stats.recoveryAttempts = p.2.stats.recoveryAttempts := by
    simpa using h.attempted
  refine ⟨⟨_, h.state, h'.state⟩, fun hdown => h'.down (h.down hdown), ?_, fun hrest => ?_⟩
  · rw [← hattempted]
    exact h'.attempted
  · obtain ⟨hq, hstarted, htried⟩ := h.rests hrest
    obtain ⟨hu, hstarted', htried'⟩ := h'.rests hq
    exact ⟨hu, hstarted.trans hstarted', htried.trans htried'⟩

theorem mono (h : Tended moves attempts p q) (hmoves : ∀ s t, moves s t → others s t) :
    Tended others attempts p q :=
  ⟨hmoves _ _ h.state, h.down, h.attempted, h.rests⟩

/-- A channel that is tended first and then goes on as it was. -/
theorem calm (h : Tended moves attempts p q) (hc : q.1.Unstarted u.1) (hr : u.2 = q.2) :
    Tended moves attempts p u := by
  refine ⟨hr ▸ h.state, fun hdown => hr ▸ h.down hdown, hr ▸ h.attempted, fun hrest => ?_⟩
  obtain ⟨hq, hstarted, htried⟩ := h.rests hrest
  exact ⟨hr ▸ hq, hstarted.trans hc, hr ▸ htried⟩

end Tended

/-- A channel at rest does not run, and neither do its rings. -/
theorem Coherent.halted (h : e.Coherent) (hp : e.entryAt id = some p) (hrest : p.2.IsResting) :
    p.1.running = false ∧ ∀ direction, (p.1.ring direction).enabled = false := by
  obtain ⟨hc, hr⟩ := entryAt_eq_some.mp hp
  have hfits := h.fits id p.1 p.2 hc hr
  have hhalted : p.1.running = false := by
    rcases hrest with hstate | hstate | hdown
    · exact hfits.of_halted (.inl hstate)
    · exact hfits.of_halted (.inr hstate)
    · exact hfits.of_down hdown
  exact ⟨hhalted, fun direction => ((h.uniform id p.1 hc).enabled_eq direction).trans hhalted⟩

/-- What holds of an engine between any two moments. -/
structure Steady (e : Engine β) : Prop where
  idleEmpty : e.IdleEmpty
  coherent : e.Coherent

theorem Steady.pass {moment : Moment σ β} {seen : Story β} (h : e.Steady)
    (hpass : moment.pass e = some (seen, e')) : e'.Steady := by
  refine ⟨moment.idleEmpty_of_pass h.idleEmpty hpass, ?_⟩
  cases moment with
  | operate op => exact coherent_of_perform h.idleEmpty h.coherent hpass
  | disturb d =>
    obtain ⟨-, rfl⟩ := Prod.mk.inj (Option.some.inj hpass)
    exact coherent_disturb h.coherent d

theorem steady_of_live {config : Config} {m : Machine β} {moments : List (Moment σ β)}
    {told : Story β} (h : live moments (new config m) = some (told, e)) : e.Steady :=
  live_keeps Steady (fun _ _ _ _ _ hpass he => he.pass hpass) h
    ⟨idleEmpty_new config m, coherent_of_empty rfl rfl rfl⟩

/-! ### Faults -/

theorem faults_refl (s : ChannelState) : s.Faults s := .inl rfl

theorem recovers_refl (s : ChannelState) : s.Recovers s := .inl rfl

theorem tended_recordFault (p : Entry β) (faults : FaultSet) (now : Nat) :
    Tended ChannelState.Faults false p (p.1, (p.2.recordFault faults now).2) := by
  unfold ChannelRecord.recordFault
  split
  next => exact .refl faults_refl p
  next =>
    have hdown : p.2.down = true → (p.2.down || faults.isFatal && p.2.state != .stopped) = true :=
      fun hdown => Bool.or_eq_true_iff.mpr (.inl hdown)
    refine ⟨?_, hdown, .inl rfl, fun hrest => ⟨?_, .refl, rfl, rfl, rfl⟩⟩
    · show ChannelState.Faults _ (if p.2.state = .running then .error else p.2.state)
      split
      next hrun => exact .inr ⟨hrun, rfl⟩
      next => exact .inl rfl
    · rcases hrest with hstate | hstate | hd
      · exact .inl (by simp [hstate])
      · exact .inr (.inl (by simp [hstate]))
      · exact .inr (.inr (hdown hd))

/-- A channel whose faults are noticed and that is halted if it is down. -/
theorem touches_noteFaults {e' : Engine β} (id : Nat) (faults : FaultSet) (now : Nat)
    (halts : Bool) (hchannels : e'.channels = e.channels)
    (hmonitor : e'.monitor = (e.monitor.recordFault id faults now).2) :
    Touches id (Tended ChannelState.Faults false) e
      (if halts then (e'.haltChannel id).2 else e') := by
  have hnoted : Touches id (Tended ChannelState.Faults false) e e' := by
    refine Touches.aside (Touches.mono (touches_update e id fun r => (r.recordFault faults now).2)
      ?_) hchannels ?_
    · rintro p _ rfl
      exact tended_recordFault p faults now
    · rw [hmonitor, Monitor.recordFault, Monitor.act_snd]
  split
  · refine Touches.mono (hnoted.comp (touches_haltChannel e' id)) ?_
    rintro p u ⟨q, hpq, hc, hr⟩
    exact hpq.calm hc hr
  · exact hnoted

theorem touches_handleError (e : Engine β) (id now : Nat) :
    Touches id (Tended ChannelState.Faults false) e (e.handleError id now) := by
  unfold handleError
  split
  · exact .refl (.refl faults_refl) e
  next c hc =>
    refine Touches.log (Touches.post ?_ _ _) _ _
    exact touches_noteFaults id _ now _ rfl rfl

theorem unattempted_onInterrupt (r : ChannelRecord) (isError : Bool) (now : Nat) :
    r.Unattempted (r.onInterrupt isError now) := by
  cases isError <;> exact ⟨rfl, rfl, rfl⟩

theorem touches_handleChannel (status : InterruptStatus) (now : Nat) (e : Engine β) (id : Nat) :
    Touches id (Tended ChannelState.Faults false) e (handleChannel status now e id) := by
  have hseen : Touches id (Tended ChannelState.Faults false) e
      { e with monitor := e.monitor.onInterrupt id (status.error.contains id) now } := by
    refine Touches.mono (touches_update e id _) ?_
    rintro p _ rfl
    exact .of_calm faults_refl .refl rfl rfl (unattempted_onInterrupt _ _ _)
  have hfaulty {e₁ : Engine β} (h : Touches id (Tended ChannelState.Faults false) e e₁) :
      Touches id (Tended ChannelState.Faults false) e (e₁.handleError id now) := by
    refine Touches.mono (h.comp (touches_handleError e₁ id now)) ?_
    rintro p u ⟨q, hpq, hqu⟩
    exact (hpq.trans hqu).mono fun s t ⟨_, hs, ht⟩ => hs.trans ht
  unfold handleChannel
  dsimp only
  split <;> split
  · exact hfaulty (hseen.post id .completion)
  · exact hfaulty hseen
  · exact hseen.post id .completion
  · exact hseen

/-- Interrupts take running channels to error. -/
theorem brings_onInterrupt (e : Engine β) :
    Brings (Tended ChannelState.Faults false) e e.onInterrupt.2 := by
  unfold onInterrupt
  split
  · exact .still (.refl faults_refl) rfl rfl
  dsimp only
  split
  · exact .still (.refl faults_refl) rfl rfl
  · generalize (InterruptStatus.ofWord _).limit _ = status
    have hround (now : Nat) (e : Engine β) := (round_foldl (fun e => e)
      (touches_handleChannel status now) status.channels.toList e).brings
      status.channels.nodup_toList (.refl faults_refl)
    exact (hround _ _).before rfl rfl

/-! ### Recovery -/

theorem runRecovery_put (e : Engine β) (id : Nat) (c : Channel β) (policy : RecoveryPolicy)
    (faults : FaultSet) :
    ∃ answer d m, e.runRecovery id c policy faults = (answer, e.put id d m) := by
  unfold runRecovery
  split <;> exact ⟨_, _, _, rfl⟩

/-- What the end of an attempt makes of a record. -/
structure Closed (r s : ChannelRecord) : Prop where
  state_eq : s.state = .running ∨ s.state = .error
  down_eq : r.down = true → s.down = true
  recoveryAttempts_eq : s.stats.recoveryAttempts = r.stats.recoveryAttempts

theorem closed_finishRecovery (r : ChannelRecord) (success : Bool) (residual : FaultSet)
    (maxRetries : UInt8) (now : Nat) :
    Closed r (r.finishRecovery success residual maxRetries now).2 := by
  cases success with
  | true => exact ⟨.inl rfl, id, rfl⟩
  | false => exact ⟨.inr rfl, fun hdown => Bool.or_eq_true_iff.mpr (.inl hdown), rfl⟩

theorem touches_recoverClaimed {c : Channel β} (hc : e.channels[id]? = some c)
    (policy : RecoveryPolicy) (faults : FaultSet) :
    Touches id (fun p q => Closed p.2 q.2) e (e.recoverClaimed id c policy faults).2 := by
  unfold recoverClaimed
  dsimp only
  generalize hcount : (e.count fun s =>
    { s with recoveriesAttempted := Counter.add s.recoveriesAttempted 1 }) = e₁
  obtain ⟨⟨success, residual⟩, d, m, hattempt⟩ := e₁.runRecovery_put id c policy faults
  rw [hattempt]
  dsimp only
  have hput : Touches id (fun p q => q.2 = p.2) e (e₁.put id d m).now.2 := by
    subst hcount
    refine Touches.mono (touches_channel hc rfl rfl) ?_
    rintro p _ ⟨-, rfl⟩
    rfl
  have hclosed : Touches id (fun p q => Closed p.2 q.2) e
      { (e₁.put id d m).now.2 with
        monitor := ((e₁.put id d m).now.2.monitor.finishRecovery id success residual
          policy.maxRetries (e₁.put id d m).now.1).2 } := by
    rw [Monitor.finishRecovery, Monitor.act_snd]
    refine Touches.mono (hput.comp (touches_update _ id _)) ?_
    rintro p _ ⟨q, hq, rfl⟩
    rw [← hq]
    exact closed_finishRecovery _ _ _ _ _
  split
  · exact ((hclosed.count _).post _ _).log _ _
  split
  · refine Touches.log (Touches.mono (hclosed.comp (touches_haltChannel _ id)) ?_) _ _
    rintro p u ⟨q, hpq, -, hr⟩
    exact hr ▸ hpq
  · exact hclosed.log _ _

/-- An attempt that was claimed is made on a channel that is not at rest. -/
theorem tended_of_claimed {c : Channel β} {r s : ChannelRecord} {policy : RecoveryPolicy}
    {now : Nat} {faults : FaultSet} (hb : r.beginRecovery policy now = (.claimed faults, s))
    (hclosed : Closed s u.2) : Tended ChannelState.Recovers true (c, r) u := by
  obtain ⟨hmay, -, rfl⟩ := ChannelRecord.begin_eq_claimed_iff.mp hb
  refine ⟨?_, ?_, .inr ⟨rfl, hclosed.recoveryAttempts_eq⟩, ?_⟩
  · rcases hclosed.state_eq with hs | hs
    · exact .inr ⟨hmay.state_eq, hs⟩
    · exact .inl (hs.trans hmay.state_eq.symm)
  · intro hdown
    cases hmay.down_eq.symm.trans hdown
  · rintro (hrest | hrest | hrest)
    · cases hmay.state_eq.symm.trans hrest
    · cases hmay.state_eq.symm.trans hrest
    · cases hmay.down_eq.symm.trans hrest

/-- Without an attempt a channel may be found down. -/
theorem tended_of_unclaimed {c : Channel β} {r s : ChannelRecord} {policy : RecoveryPolicy}
    {now : Nat} {claim : RecoveryClaim} (hb : r.beginRecovery policy now = (claim, s))
    (hclaim : ∀ faults, claim ≠ .claimed faults) :
    Tended ChannelState.Recovers true (c, r) (c, s) := by
  obtain ⟨hs, hdown⟩ := ChannelRecord.of_begin_unclaimed hb hclaim
  rw [hs]
  refine ⟨.inl rfl, hdown, .inl rfl, fun hrest => ⟨?_, .refl, rfl, rfl, rfl⟩⟩
  exact hrest.imp_right fun h => h.imp_right hdown

/-- An attempt is made on a channel in error that is not down. -/
theorem touches_attemptRecovery (e : Engine β) (id : Nat) :
    Touches id (Tended ChannelState.Recovers true) e (e.attemptRecovery id).2 := by
  have hskip : Touches id (Tended ChannelState.Recovers true) e e := .refl (.refl recovers_refl) e
  unfold attemptRecovery
  split
  next c policy hc _ =>
    split
    · exact hskip
    dsimp only
    cases hr : e.monitor.records[id]? with
    | none =>
      have hbegin : e.now.2.monitor.beginRecovery id policy e.now.1 = (.notNeeded, e.monitor) := by
        have hrecord : e.now.2.monitor.records[id]? = none := hr
        rw [Monitor.beginRecovery, Monitor.act, Monitor.record?, hrecord]
        rfl
      rw [hbegin]
      exact hskip.aside rfl rfl
    | some r =>
      have hrecord : e.now.2.monitor.records[id]? = some r := hr
      rw [Monitor.beginRecovery, Monitor.act_eq hrecord]
      generalize hb : r.beginRecovery policy e.now.1 = begun
      obtain ⟨claim, s⟩ := begun
      dsimp only
      generalize hstart : ({ e.now.2 with monitor := _ } : Engine β) = e₁
      have hbegun : Touches id (fun p q => p.2 = r ∧ q = (p.1, s)) e e₁ := by
        subst hstart
        exact touches_record hr rfl rfl
      have hc₁ : e₁.channels[id]? = some c := hstart ▸ hc
      clear hstart
      have hunclaimed (hclaim : ∀ faults, claim ≠ .claimed faults) :
          Touches id (Tended ChannelState.Recovers true) e e₁ := by
        refine hbegun.mono ?_
        rintro p _ ⟨rfl, rfl⟩
        exact tended_of_unclaimed hb hclaim
      cases claim with
      | claimed faults =>
        refine Touches.mono (hbegun.comp (touches_recoverClaimed hc₁ policy faults)) ?_
        rintro p u ⟨_, ⟨rfl, rfl⟩, hclosed⟩
        exact tended_of_claimed hb hclosed
      | notNeeded | tooSoon => exact hunclaimed (by simp)
      | notCovered faults => exact (hunclaimed (by simp)).log _ _
      | down =>
        have hhalted : Touches id (Tended ChannelState.Recovers true) e (e₁.haltChannel id).2 := by
          refine Touches.mono ((hunclaimed (by simp)).comp (touches_haltChannel e₁ id)) ?_
          rintro p u ⟨q, hpq, hc, hr⟩
          exact hpq.calm hc hr
        dsimp only
        split
        next he =>
          rw [he] at hhalted
          exact hhalted.log _ _
        next he => rwa [he] at hhalted
  · exact hskip

theorem touches_recoverChannel (e : Engine β) (id : Nat) :
    Touches id (Tended ChannelState.Recovers true) e (e.recoverChannel id).2 := by
  unfold recoverChannel
  split
  · exact .refl (.refl recovers_refl) e
  · exact touches_attemptRecovery e id

theorem touches_autoRecover (id : Nat) (t : RecoveryTally) (e : Engine β) :
    Touches id (Tended ChannelState.Recovers true) e (autoRecover id t e).2 := by
  unfold autoRecover
  split
  · exact touches_attemptRecovery e id
  · exact .refl (.refl recovers_refl) e

theorem round_autoRecoverAll (ids : List Nat) (t : RecoveryTally) (e : Engine β) :
    Round (Tended ChannelState.Recovers true) ids e (autoRecoverAll ids t e).2 := by
  induction ids generalizing t e with
  | nil => exact .nil _
  | cons id rest ih => exact .cons (touches_autoRecover id t e) (ih _ _)

/-! ### The watchdog -/

theorem touches_inspectChannel (now : Nat) (acc : WatchdogReport × Engine β) (id : Nat) :
    Touches id (Tended ChannelState.Faults false) acc.2 (inspectChannel now acc id).2 := by
  obtain ⟨report, e⟩ := acc
  have hskip : Touches id (Tended ChannelState.Faults false) e e := .refl (.refl faults_refl) e
  unfold inspectChannel
  dsimp only
  split
  · exact hskip
  next c hc =>
    split
    · exact hskip
    have hprobe : Touches id (Tended ChannelState.Faults false) e
        (probeFaults id now c report e).2 := by
      unfold probeFaults
      split
      · exact hskip
      · dsimp only
        split
        · exact hskip.aside rfl rfl
        · exact touches_noteFaults id _ now false rfl rfl
    split
    · refine Touches.log (Touches.mono (hprobe.comp (touches_haltChannel _ id)) ?_) _ _
      rintro p u ⟨q, hpq, hc, hr⟩
      exact hpq.calm hc hr
    · exact hprobe

theorem touches_recoverInError (acc : WatchdogReport × Engine β) (id : Nat) :
    Touches id (Tended ChannelState.Recovers true) acc.2 (recoverInError acc id).2 := by
  obtain ⟨report, e⟩ := acc
  unfold recoverInError
  dsimp only
  split
  · exact touches_autoRecover id _ e
  · exact .refl (.refl recovers_refl) e

/-- The watchdog looks at the record of every channel, and at nothing else. -/
theorem entryAt_findStalled (e : Engine β) (now i : Nat) :
    (e.findStalled now).2.entryAt i =
      (e.entryAt i).map fun p => (p.1, e.monitor.look now p.2) := by
  unfold findStalled
  dsimp only
  refine Eq.trans (entryAt_foldl (fun e => e) ?_ _) ?_
  · exact fun _ _ _ => rfl
  show (e.channels.zip (e.monitor.records.map (e.monitor.look now)))[i]? = _
  rw [List.zip_map_right, List.getElem?_map]
  rfl

theorem unattempted_look (m : Monitor) (now : Nat) (r : ChannelRecord) :
    r.Unattempted (m.look now r) := by
  unfold Monitor.look
  split <;> exact ⟨rfl, rfl, rfl⟩

theorem tended_look (m : Monitor) (now : Nat) (p : Entry β) :
    Tended ChannelState.Faults false p (p.1, m.look now p.2) := by
  have hstate := Monitor.state_look m now p.2
  have hdown := Monitor.down_look m now p.2
  have htried := unattempted_look m now p.2
  split at hstate
  next hstalled =>
    rw [ChannelRecord.hasStalled, Bool.and_eq_true, beq_iff_eq] at hstalled
    refine ⟨.inr ⟨hstalled.1, hstate⟩, fun h => hdown.trans h, .inl htried.recoveryAttempts_eq, ?_⟩
    rintro (hrest | hrest | hrest)
    · cases hrest.symm.trans hstalled.1
    · cases hrest.symm.trans hstalled.1
    · exact ⟨.inr (.inr (hdown.trans hrest)), .refl, htried⟩
  next => exact .of_calm faults_refl .refl hstate hdown htried

/-- The watchdog takes running channels to error and recovers channels in error, and a channel that
it found to be faulty it may recover in the same turn. -/
theorem brings_watchdogTick (e : Engine β) :
    Brings (Tended (Relation.Comp ChannelState.Faults ChannelState.Recovers) true) e
      e.watchdogTick.2 := by
  have hrefl (s : ChannelState) :
      Relation.Comp ChannelState.Faults ChannelState.Recovers s s :=
    ⟨s, faults_refl s, recovers_refl s⟩
  unfold watchdogTick
  split
  · exact .still (.refl hrefl) rfl rfl
  next queue _ =>
    generalize hstart : ({ e with work := queue } : Engine β).now = start
    obtain ⟨now, e₁⟩ := start
    have hchannels : e₁.channels = e.channels := (congrArg (·.2.channels) hstart).symm
    have hrecords : e₁.monitor.records = e.monitor.records :=
      (congrArg (·.2.monitor.records) hstart).symm
    have hfind : Brings (Tended ChannelState.Faults false) e₁ (e₁.findStalled now).2 := by
      intro i p hp
      rw [entryAt_findStalled, hp]
      exact ⟨_, rfl, tended_look _ now p⟩
    dsimp only
    generalize e₁.findStalled now = found at hfind ⊢
    obtain ⟨stalled, e₂⟩ := found
    have hinspect := (round_foldl Prod.snd (touches_inspectChannel now) e₂.ids
      ({ WatchdogReport.none with stalled := stalled }, e₂)).brings List.nodup_range
      (.refl faults_refl)
    dsimp only
    generalize e₂.ids.foldl (inspectChannel now) _ = acc at hinspect ⊢
    have hrecover := (round_foldl Prod.snd touches_recoverInError acc.2.ids acc).brings
      List.nodup_range (.refl recovers_refl)
    refine (Brings.mono ((hfind.comp hinspect).comp hrecover) ?_).aside rfl rfl |>.before
      hchannels hrecords
    rintro p u ⟨q, ⟨t, hpt, htq⟩, hqu⟩
    refine ((hpt.trans htq).trans hqu).mono ?_
    rintro s t ⟨s₁, ⟨s₂, h₂, h₁⟩, h⟩
    exact ⟨s₁, h₂.trans h₁, h⟩

/-! ### Deferred work -/

theorem unstarted_drainRing (noise : Noise) (sink : Sink σ β) (id : Nat)
    (direction : Direction) (d : Drained σ β) :
    d.channel.Unstarted (drainRing noise sink id direction d).channel := by
  have hlook (d : Drained σ β) : d.channel.Unstarted
      ((d.channel.overwrite (noise id direction (d.channel.inFlight direction))).reclaim direction
        d.machine).2.1 :=
    .tail (.single (.overwrite _)) (.reclaim direction d.machine)
  fun_induction drainRing noise sink id direction d with
  | case1 d c m h =>
    have hlast := hlook d
    rwa [h] at hlast
  | case2 d t c m h ih =>
    have hfirst := hlook d
    rw [h] at hfirst
    exact hfirst.trans ih

theorem unstarted_refillRing (sink : Sink σ β) (id rounds : Nat) (d : Refilled σ β) :
    d.channel.Unstarted (refillRing sink id rounds d).channel := by
  induction rounds generalizing d with
  | zero => exact .refl
  | succ rounds ih =>
    unfold refillRing
    split
    · exact .refl
    split
    · exact .refl
    next buffer length s _ =>
      have hpost : d.channel.Unstarted
          (d.channel.enqueue .fromDevice buffer length d.machine).2.1 := .single (.enqueue _ _ _ _)
      split
      next he => rwa [he] at hpost
      next he =>
        rw [he] at hpost
        exact hpost.trans (ih ⟨_, _, _, _⟩)

theorem touches_drainChannel (noise : Noise) (sink : Sink σ β) (id : Nat) (s : σ)
    (e : Engine β) :
    Touches id (Tended (· = ·) false) e (drainChannel noise sink id s e).2.2 := by
  unfold drainChannel
  split
  · exact .refl (.refl fun _ => rfl) e
  next c hc =>
    dsimp only
    refine Touches.mono (touches_channel hc (by rfl) rfl) ?_
    rintro p _ ⟨rfl, rfl⟩
    have htx := unstarted_drainRing noise sink id .toDevice ⟨0, 0, s, p.1, e.machine⟩
    exact .of_calm (fun _ => rfl) (htx.trans (unstarted_drainRing noise sink id .fromDevice _))
      rfl rfl (.refl _)

theorem touches_refillChannel (sink : Sink σ β) (id : Nat) (s : σ) (e : Engine β) :
    Touches id (Tended (· = ·) false) e (refillChannel sink id s e).2.2 := by
  unfold refillChannel
  split
  · exact .refl (.refl fun _ => rfl) e
  next c hc =>
    split
    · dsimp only
      refine Touches.mono (touches_channel hc (by rfl) rfl) ?_
      rintro p _ ⟨rfl, rfl⟩
      exact .of_calm (fun _ => rfl) (unstarted_refillRing sink id _ ⟨0, s, p.1, e.machine⟩) rfl rfl
        (.refl _)
    · exact .refl (.refl fun _ => rfl) e

/-- A worker recovers channels in error. -/
theorem brings_runDeferred (noise : Noise) (sink : Sink σ β) (s : σ) (e : Engine β) :
    Brings (Tended ChannelState.Recovers true) e (runDeferred noise sink s e).2.2 := by
  unfold runDeferred
  split
  · exact .still (.refl recovers_refl) rfl rfl
  next queue _ =>
    dsimp only
    unfold serve
    generalize queue.take.1 = work
    dsimp only
    have hdrain := (round_sumOver (touches_drainChannel noise sink) work.reclaim.toList s
      { e with work := queue.take.2 }).brings work.reclaim.nodup_toList (.refl fun _ => rfl)
    generalize sumOver (drainChannel noise sink) work.reclaim.toList s _ = drained
      at hdrain ⊢
    obtain ⟨_, s₁, e₁⟩ := drained
    have hrefill := (round_sumOver (touches_refillChannel sink) work.refill.toList s₁ e₁).brings
      work.refill.nodup_toList (.refl fun _ => rfl)
    dsimp only at hdrain hrefill ⊢
    generalize sumOver (refillChannel sink) work.refill.toList s₁ e₁ = refilled at hrefill ⊢
    obtain ⟨_, s₂, e₂⟩ := refilled
    have hrecover := (round_autoRecoverAll work.recover.toList .none e₂).brings
      work.recover.nodup_toList (.refl recovers_refl)
    dsimp only at hrefill ⊢
    refine (Brings.mono ((hdrain.comp hrefill).comp hrecover) ?_).aside rfl rfl |>.before rfl rfl
    rintro p u ⟨q, ⟨t, hpt, htq⟩, hqu⟩
    refine ((hpt.trans htq).trans hqu).mono ?_
    rintro s t ⟨_, ⟨_, rfl, rfl⟩, h⟩
    exact h

end Engine

end PacketDma
