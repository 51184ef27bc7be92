import PacketDma.Engine.Interrupt
import PacketDma.Engine.Watchdog
import PacketDma.Proofs.EngineRun

/-!
# Service as runs

Interrupts, recovery and the watchdog are runs of the plant as well. Only a recovery attempt
discards transfers. What it discards is told by the faults that it was claimed for, and it discards
nothing if no attempt was claimed.

## Implementation notes

Within a round over channels, whether an attempt is claimed is decided by the engine as it is when
the round comes to the channel. So the discards of a round are added up turn by turn.
-/

namespace PacketDma.Engine

variable {β : Type} {uses : Nat → Prop}

/-! ### Rounds over channels -/

section Rounds

variable {α : Type} (engine : α → Engine β) {turn : α → Nat → α}

/-- What a round over channels discards, told by what is discarded at each turn. -/
def roundDiscards (turn : α → Nat → α) (discards : α → Nat → List (Nat × Discard)) :
    List Nat → α → List (Nat × Discard)
  | [], _ => []
  | id :: rest, a => discards a id ++ roundDiscards turn discards rest (turn a id)

/-- A round is a run whose turns are runs. -/
theorem works_round {discards : α → Nat → List (Nat × Discard)}
    (hturn : ∀ a id,
      Works uses (engine a) (.ofDiscards (discards a id)) (engine (turn a id)))
    (ids : List Nat) (a : α) :
    Works uses (engine a) (.ofDiscards (roundDiscards turn discards ids a))
      (engine (ids.foldl turn a)) := by
  induction ids generalizing a with
  | nil => exact .refl _ _
  | cons id rest ih =>
    rw [roundDiscards, Story.ofDiscards_append]
    exact (hturn a id).trans (ih (turn a id))

/-- A round whose turns discard nothing discards nothing. -/
theorem works_foldl {e : Engine β} {a : α} (h : Works uses e [] (engine a))
    (hturn : ∀ a id, Works uses (engine a) [] (engine (turn a id))) (ids : List Nat) :
    Works uses e [] (engine (ids.foldl turn a)) := by
  induction ids generalizing a with
  | nil => exact h
  | cons id rest ih => exact ih (h.andThen (hturn a id))

end Rounds

/-! ### Recovery -/

theorem works_runRecovery {e : Engine β} {id : Nat} {c : Channel β} {policy : RecoveryPolicy}
    {faults : FaultSet} (hc : e.channels[id]? = some c) :
    Works uses e
      (.ofDiscards ((c.recoveryDiscards policy.action faults e.config e.machine).map (id, ·)))
      (e.runRecovery id c policy faults).2 := by
  rw [Story.ofDiscards_map]
  unfold runRecovery
  split
  next d m hd => exact (Works.refl _ _).act hc (Channel.run_recover hd)
  next d m hd =>
    have hstatus := (Channel.run_recover hd).trans (d.run_errorStatus e.config m)
    rw [List.append_nil] at hstatus
    exact (Works.refl _ _).act hc hstatus
  next d m hd => exact (Works.refl _ _).act hc (Channel.run_recover hd)

theorem works_recoverClaimed {e : Engine β} {id : Nat} {c : Channel β} {policy : RecoveryPolicy}
    {faults : FaultSet} (hc : e.channels[id]? = some c) :
    Works uses e
      (.ofDiscards ((c.recoveryDiscards policy.action faults e.config e.machine).map (id, ·)))
      (e.recoverClaimed id c policy faults).2 := by
  unfold recoverClaimed
  dsimp only
  generalize hcount : (e.count fun s =>
    { s with recoveriesAttempted := Counter.add s.recoveriesAttempted 1 }) = e₁
  have h₁ : Works uses e [] e₁ := hcount ▸ (Works.refl uses e).count _
  have hc₁ : e₁.channels[id]? = some c := hcount ▸ hc
  have hconfig : e₁.config = e.config := hcount ▸ rfl
  have hmachine : e₁.machine = e.machine := hcount ▸ rfl
  have h₂ : Works uses e _ (e₁.runRecovery id c policy faults).2 :=
    h₁.trans (works_runRecovery hc₁)
  rw [List.nil_append, hconfig, hmachine] at h₂
  generalize e₁.runRecovery id c policy faults = attempt at h₂ ⊢
  obtain ⟨⟨success, residual⟩, e₂⟩ := attempt
  have h₃ := h₂.now.monitor
    (e₂.now.2.monitor.finishRecovery id success residual policy.maxRetries e₂.now.1).2
  split
  · exact ((h₃.count _).post _ _).log _ _
  split
  · exact (h₃.andThen (works_haltChannel _ id)).log _ _
  · exact h₃.log _ _

/-- What an attempt to recover a channel discards: nothing unless the attempt is claimed, and then
what the recovery of the channel for the claimed faults does. -/
def attemptDiscards (e : Engine β) (id : Nat) : List (Nat × Discard) :=
  match e.channels[id]?, e.policies.get? id with
  | some c, some policy =>
    if policy.action = .none ∧ e.monitor.isDown id = false then []
    else
      match (e.monitor.beginRecovery id policy e.now.1).1 with
      | .claimed faults =>
        (c.recoveryDiscards policy.action faults e.config e.now.2.machine).map (id, ·)
      | _ => []
  | _, _ => []

theorem works_attemptRecovery (e : Engine β) (id : Nat) :
    Works uses e (.ofDiscards (e.attemptDiscards id)) (e.attemptRecovery id).2 := by
  unfold attemptRecovery attemptDiscards
  cases hc : e.channels[id]? with
  | none => exact .refl _ _
  | some c =>
    cases e.policies.get? id with
    | none => exact .refl _ _
    | some policy =>
      dsimp only
      by_cases hskip : policy.action = .none ∧ e.monitor.isDown id = false
      · rw [if_pos hskip, if_pos hskip]
        exact .refl _ _
      rw [if_neg hskip, if_neg hskip]
      have hmonitor : e.now.2.monitor = e.monitor := rfl
      rw [hmonitor]
      have h : Works uses e []
          { e.now.2 with monitor := (e.monitor.beginRecovery id policy e.now.1).2 } :=
        (Works.refl uses e).now.monitor _
      generalize e.monitor.beginRecovery id policy e.now.1 = begun at h ⊢
      obtain ⟨claim, monitor⟩ := begun
      cases claim with
      | claimed faults =>
        exact h.trans (works_recoverClaimed hc)
      | notNeeded => exact h
      | tooSoon => exact h
      | notCovered faults => exact h.log _ _
      | down =>
        have hhalt := h.andThen (works_haltChannel _ id)
        dsimp only at hhalt ⊢
        split
        next he => rw [he] at hhalt; exact hhalt.log _ _
        next he => rwa [he] at hhalt

/-- What is discarded when the owner asks for a channel to be recovered. -/
def recoverDiscards (e : Engine β) (id : Nat) : List (Nat × Discard) :=
  match e.channel? id with
  | .error _ => []
  | .ok _ => e.attemptDiscards id

theorem works_recoverChannel (e : Engine β) (id : Nat) :
    Works uses e (.ofDiscards (e.recoverDiscards id)) (e.recoverChannel id).2 := by
  unfold recoverChannel recoverDiscards
  cases e.channel? id with
  | error x => exact .refl _ _
  | ok c => exact works_attemptRecovery e id

/-- What is discarded when a channel is recovered of itself. -/
def autoDiscards (e : Engine β) (id : Nat) : List (Nat × Discard) :=
  if (e.policies.get? id).any (·.autoRecover) then e.attemptDiscards id else []

theorem works_autoRecover (id : Nat) (t : RecoveryTally) (e : Engine β) :
    Works uses e (.ofDiscards (e.autoDiscards id)) (autoRecover id t e).2 := by
  unfold autoRecover autoDiscards
  split
  · exact works_attemptRecovery e id
  · exact .refl _ _

theorem autoRecoverAll_eq_foldl (ids : List Nat) (t : RecoveryTally) (e : Engine β) :
    autoRecoverAll ids t e = ids.foldl (fun acc id => autoRecover id acc.1 acc.2) (t, e) := by
  induction ids generalizing t e with
  | nil => rfl
  | cons id rest ih => exact ih _ _

/-- What is discarded when channels are recovered of themselves, one after the other. -/
def autoDiscardsAll (e : Engine β) (ids : List Nat) : List (Nat × Discard) :=
  roundDiscards (fun acc id => autoRecover id acc.1 acc.2) (fun acc id => acc.2.autoDiscards id) ids
    (.none, e)

theorem works_autoRecoverAll (ids : List Nat) (e : Engine β) :
    Works uses e (.ofDiscards (e.autoDiscardsAll ids)) (autoRecoverAll ids .none e).2 := by
  rw [autoRecoverAll_eq_foldl]
  exact works_round Prod.snd (fun acc id => works_autoRecover id acc.1 acc.2) ids (.none, e)

/-! ### Interrupts -/

theorem works_handleError (e : Engine β) (id now : Nat) :
    Works uses e [] (e.handleError id now) := by
  unfold handleError
  split
  · exact .refl _ _
  next c hc =>
    dsimp only
    have hlook := ((Works.refl uses e).look hc (c.run_errorStatus e.config e.machine)).monitor
      (e.monitor.recordFault id (c.errorStatus e.machine).1 now).2
    split
    · exact ((hlook.andThen (works_haltChannel _ id)).post _ _).log _ _
    · exact (hlook.post _ _).log _ _

theorem works_handleChannel (status : InterruptStatus) (now : Nat) (e : Engine β) (id : Nat) :
    Works uses e [] (handleChannel status now e id) := by
  unfold handleChannel
  dsimp only
  have hmonitor := (Works.refl uses e).monitor
    (e.monitor.onInterrupt id (status.error.contains id) now)
  split <;> split
  · exact (hmonitor.post _ _).andThen (works_handleError _ _ _)
  · exact hmonitor.andThen (works_handleError _ _ _)
  · exact hmonitor.post _ _
  · exact hmonitor

/-- The handler acknowledges interrupts at the register base of the engine. -/
theorem works_onInterrupt (e : Engine β) (huse : e.initialized = true → uses e.base) :
    Works uses e [] e.onInterrupt.2 := by
  unfold onInterrupt
  split
  · exact .refl _ _
  next hup =>
    have hbase : uses e.base := huse (by simpa using hup)
    have hdevice : ∀ {m : Machine β}, e.machine.Quiet e.device.Own m →
        Works uses e [] { e with machine := m } := fun hq =>
      ⟨rfl, Plant.run_device hbase hq⟩
    have hread : e.machine.Quiet e.device.Own (e.device.read .intStatus e.machine).2 :=
      DeviceRegisters.quiet_read (.refl _) _
    generalize e.device.read .intStatus e.machine = access at hread ⊢
    obtain ⟨raw, m⟩ := access
    dsimp only at hread ⊢
    split
    · exact hdevice hread
    · have hnow := (hdevice (DeviceRegisters.quiet_write hread .intStatus raw)).now
      generalize (InterruptStatus.ofWord raw).limit e.channels.length = status
      rw [DeviceRegisters.ackInterrupts]
      generalize { e with machine := e.device.write .intStatus raw m }.now = start at hnow ⊢
      obtain ⟨now, e₁⟩ := start
      refine works_foldl (fun e => e) ?_ (works_handleChannel status now) _
      exact hnow.count _

/-! ### The watchdog -/

theorem works_probeFaults {id now : Nat} {c : Channel β} {report : WatchdogReport}
    {e : Engine β} (hc : e.channels[id]? = some c) :
    Works uses e [] (probeFaults id now c report e).2 := by
  unfold probeFaults
  split
  · exact .refl _ _
  · have hlook := (Works.refl uses e).look hc (c.run_errorStatus e.config e.machine)
    dsimp only
    split
    · exact hlook
    · exact hlook.monitor _

theorem works_inspectChannel (now : Nat) (acc : WatchdogReport × Engine β) (id : Nat) :
    Works uses acc.2 [] (inspectChannel now acc id).2 := by
  obtain ⟨report, e⟩ := acc
  unfold inspectChannel
  dsimp only
  split
  · exact .refl _ _
  next c hc =>
    split
    · exact .refl _ _
    have hprobe : Works uses e [] (probeFaults id now c report e).2 := works_probeFaults hc
    split
    · exact (hprobe.andThen (works_haltChannel _ id)).log _ _
    · exact hprobe

theorem works_findStalled (e : Engine β) (now : Nat) :
    Works uses e [] (e.findStalled now).2 := by
  unfold findStalled
  dsimp only
  have hmonitor := (Works.refl uses e).monitor (e.monitor.watchdogTick now).2
  refine works_foldl (fun e => e) ?_ (fun e id => (Works.refl _ e).log _ _) _
  exact hmonitor.count _

/-- The watchdog's turn up to the point at which it begins to recover channels. -/
def surveyed (e : Engine β) : WatchdogReport × Engine β :=
  let (now, e) := ({ e with work := e.work.enter.2 } : Engine β).now
  let (stalled, e) := e.findStalled now
  e.ids.foldl (inspectChannel now) ({ WatchdogReport.none with stalled := stalled }, e)

theorem works_surveyed (e : Engine β) : Works uses e [] e.surveyed.2 := by
  unfold surveyed
  have hnow := ((Works.refl uses e).queue e.work.enter.2).now
  generalize ({ e with work := e.work.enter.2 } : Engine β).now = start at hnow ⊢
  obtain ⟨now, e₁⟩ := start
  have hfind := hnow.andThen (works_findStalled e₁ now)
  dsimp only
  generalize e₁.findStalled now = found at hfind ⊢
  obtain ⟨stalled, e₂⟩ := found
  exact works_foldl Prod.snd
    (a := ({ WatchdogReport.none with stalled := stalled }, e₂)) hfind (works_inspectChannel now) _

theorem watchdogTick_eq {e : Engine β} (hopen : e.work.isOpen = true) :
    e.watchdogTick =
      let acc := e.surveyed.2.ids.foldl recoverInError e.surveyed
      (acc.1, { acc.2 with work := acc.2.work.leave }) := by
  have henter : e.work.enter = (true, e.work.enter.2) := by
    rw [WorkQueue.enter, if_pos hopen]
  unfold watchdogTick surveyed
  rw [henter]

/-- What the watchdog discards when it comes to recover a channel. -/
def inErrorDiscards (e : Engine β) (id : Nat) : List (Nat × Discard) :=
  if e.monitor.state? id = some .error then e.autoDiscards id else []

theorem works_recoverInError (acc : WatchdogReport × Engine β) (id : Nat) :
    Works uses acc.2 (.ofDiscards (acc.2.inErrorDiscards id)) (recoverInError acc id).2 := by
  obtain ⟨report, e⟩ := acc
  unfold recoverInError inErrorDiscards
  dsimp only
  split
  · exact works_autoRecover id _ e
  · exact .refl _ _

/-- What a turn of the watchdog discards. -/
def watchdogDiscards (e : Engine β) : List (Nat × Discard) :=
  if e.work.isOpen then
    roundDiscards recoverInError (fun acc id => acc.2.inErrorDiscards id) e.surveyed.2.ids
      e.surveyed
  else []

theorem works_watchdogTick (e : Engine β) :
    Works uses e (.ofDiscards e.watchdogDiscards) e.watchdogTick.2 := by
  unfold watchdogDiscards
  cases hopen : e.work.isOpen with
  | false =>
    have hbarred : e.watchdogTick = (.none, e) := by
      rw [watchdogTick, WorkQueue.enter, hopen]
      rfl
    rw [hbarred]
    exact .refl _ _
  | true =>
    rw [watchdogTick_eq hopen]
    have hround : Works uses e _ _ := (works_surveyed e).trans
      (works_round Prod.snd works_recoverInError e.surveyed.2.ids e.surveyed)
    exact hround.queue _

end PacketDma.Engine
