import PacketDma.Proofs.Posting
import PacketDma.Proofs.StateDiagram

/-!
# Refill requests

A worker that finds a request for receive buffers, but the channel not running, drops the request.
The channel gets another one when it is recovered, and with each of its completion interrupts, but
not when its owner sets it running again. Main statement: `refill_after_pause`. A channel that comes
back from a pause is posted for receive buffers exactly if it was recovered, or if one of its
completion interrupts was handled since a worker last took work. So a request is lost in the pause
of a channel that is suspended and resumed (`refill_lost_on_resume`).

## Implementation notes

A recovery both sets a channel running and asks for buffers, so the two are followed together.
-/

namespace PacketDma

variable {σ β : Type}

namespace Engine

/-- The channel is known to run. -/
def Runs (e : Engine β) (i : Nat) : Prop := e.monitor.state? i = some .running

/-- Receive buffers are asked for on a channel. -/
def AwaitsRefill (e : Engine β) (i : Nat) : Prop := e.work.pending.refill.contains i = true

instance (e : Engine β) (i : Nat) : Decidable (e.Runs i) := inferInstanceAs (Decidable (_ = _))

instance (e : Engine β) (i : Nat) : Decidable (e.AwaitsRefill i) :=
  inferInstanceAs (Decidable (_ = _))

/-- Work is let in for all channels that are known. -/
structure Receptive (e : Engine β) : Prop where
  isOpen : e.work.isOpen = true
  few : e.monitor.records.length ≤ 32

/-- Recovery sets a channel running and asks for receive buffers on it, or does neither. -/
structure Restores (i : Nat) (e e' : Engine β) : Prop where
  receptive : e'.Receptive
  runs : e.Runs i → e'.Runs i
  awaits : e'.AwaitsRefill i ↔ e.AwaitsRefill i ∨ ¬ e.Runs i ∧ e'.Runs i

variable {e e' e'' : Engine β} {i id : Nat} {p : Entry β}

theorem runs_iff_of_record {r : ChannelRecord} (hr : e.monitor.records[i]? = some r) :
    e.Runs i ↔ r.state = .running := by
  rw [Runs, Monitor.state?_eq hr]
  exact ⟨Option.some.inj, congrArg some⟩

theorem runs_congr (h : e'.monitor = e.monitor) : e'.Runs i ↔ e.Runs i := by rw [Runs, Runs, h]

theorem awaitsRefill_congr (h : e'.work = e.work) : e'.AwaitsRefill i ↔ e.AwaitsRefill i := by
  rw [AwaitsRefill, AwaitsRefill, h]

/-- Which channel runs after a record was replaced. -/
theorem runs_set {r s : ChannelRecord} (hr : e.monitor.records[id]? = some r)
    (hmonitor : e'.monitor = { e.monitor with records := e.monitor.records.set id s }) :
    e'.Runs i ↔ if id = i then s.state = .running else e.Runs i := by
  have hrecords : e'.monitor.records = e.monitor.records.set id s := by rw [hmonitor]
  split
  next hi =>
    subst hi
    apply runs_iff_of_record
    rw [hrecords, getElem?_set_of_some hr _]
  next hi =>
    rw [Runs, Runs, Monitor.state?, Monitor.state?, Monitor.record?, Monitor.record?, hrecords,
      List.getElem?_set_ne hi]

/-- A post adds what it asks for. -/
theorem awaitsRefill_post (hopen : e.work.isOpen = true) (hid : id < 32) (hi : i < 32)
    (work : Work) (hwork : e'.work = (e.work.post id work).2) :
    e'.AwaitsRefill i ↔ e.AwaitsRefill i ∨ work.refill = true ∧ id = i := by
  rw [AwaitsRefill, AwaitsRefill, hwork, WorkQueue.refill_post hopen hid hi]
  simp

/-! ### Recovery -/

namespace Restores

theorem refl (he : e.Receptive) : Restores i e e :=
  ⟨he, id, ⟨.inl, fun h => h.elim id fun h => absurd h.2 h.1⟩⟩

theorem trans (h : Restores i e e') (h' : Restores i e' e'') : Restores i e e'' := by
  have hruns := h.runs
  have hruns' := h'.runs
  refine ⟨h'.receptive, fun hr => hruns' (hruns hr), ?_⟩
  rw [h'.awaits, h.awaits]
  tauto

/-- What concerns neither the state of channels nor the queue. -/
theorem aside (h : Restores i e e') (hmonitor : e''.monitor = e'.monitor)
    (hwork : e''.work = e'.work) : Restores i e e'' := by
  refine ⟨⟨hwork ▸ h.receptive.isOpen, hmonitor ▸ h.receptive.few⟩, ?_, ?_⟩
  · rw [runs_congr hmonitor]
    exact h.runs
  · rw [runs_congr hmonitor, awaitsRefill_congr hwork]
    exact h.awaits

end Restores

theorem restores_attemptRecovery (he : e.Receptive) (hi : i < 32) (id : Nat) :
    Restores i e (e.attemptRecovery id).2 := by
  cases attempted_attemptRecovery e id with
  | skipped _ hmonitor _ hwork => exact (Restores.refl he).aside hmonitor hwork
  | @unclaimed r s _ hr hs hmonitor _ hwork =>
    have hruns : (e.attemptRecovery id).2.Runs i ↔ e.Runs i := by
      rw [runs_set hr hmonitor]
      split
      next hid =>
        subst hid
        rw [runs_iff_of_record hr, hs]
      next => rfl
    refine ⟨⟨hwork ▸ he.isOpen, ?_⟩, hruns.mpr, ?_⟩
    · rw [hmonitor, List.length_set]
      exact he.few
    · rw [awaitsRefill_congr hwork, hruns]
      tauto
  | @claimed r s success _ hr herror hstate _ hmonitor _ hwork =>
    have hid : id < 32 := (List.getElem?_eq_some_iff.mp hr).1.trans_le he.few
    have hruns : (e.attemptRecovery id).2.Runs i ↔
        if id = i then success = true else e.Runs i := by
      rw [runs_set hr hmonitor, hstate]
      cases success <;> simp
    have hrest : id = i → ¬ e.Runs i := by
      rintro rfl
      rw [runs_iff_of_record hr, herror]
      nofun
    refine ⟨⟨?_, ?_⟩, ?_, ?_⟩
    · rw [hwork]
      cases success with
      | true => exact (WorkQueue.isOpen_post _ _ _).trans he.isOpen
      | false => exact he.isOpen
    · rw [hmonitor, List.length_set]
      exact he.few
    · intro hr
      rw [hruns, if_neg fun hid => hrest hid hr]
      exact hr
    · rw [hruns]
      cases success with
      | true =>
        rw [awaitsRefill_post he.isOpen hid hi .refillOnly hwork]
        by_cases hid : id = i
        · simp [hid, hrest hid, Work.refillOnly]
        · simp [hid]
      | false =>
        rw [awaitsRefill_congr hwork]
        by_cases hid : id = i
        · simp [hid]
        · simp [hid]

theorem restores_autoRecover (he : e.Receptive) (hi : i < 32) (id : Nat) (t : RecoveryTally) :
    Restores i e (autoRecover id t e).2 := by
  unfold autoRecover
  split
  · exact restores_attemptRecovery he hi id
  · exact .refl he

theorem restores_autoRecoverAll (he : e.Receptive) (hi : i < 32) (ids : List Nat)
    (t : RecoveryTally) : Restores i e (autoRecoverAll ids t e).2 := by
  induction ids generalizing t e with
  | nil => exact .refl he
  | cons id rest ih =>
    have h := restores_autoRecover he hi id t
    exact h.trans (ih h.receptive _)

theorem restores_recoverInError {acc : WatchdogReport × Engine β} (he : acc.2.Receptive)
    (hi : i < 32) (ids : List Nat) : Restores i acc.2 (ids.foldl recoverInError acc).2 := by
  induction ids generalizing acc with
  | nil => exact .refl he
  | cons id rest ih =>
    have h : Restores i acc.2 (recoverInError acc id).2 := by
      obtain ⟨report, e⟩ := acc
      unfold recoverInError
      dsimp only
      split
      · exact restores_autoRecover he hi id _
      · exact .refl he
    exact h.trans (ih h.receptive)

/-! ### The watchdog -/

/-- The queue, and how many channels are known. -/
def intake (e : Engine β) : WorkQueue × Nat := (e.work, e.monitor.size)

theorem intake_haltChannel (e : Engine β) (id : Nat) : (e.haltChannel id).2.intake = e.intake := by
  rw [intake, intake, work_haltChannel, monitor_haltChannel]

theorem size_recordFault (m : Monitor) (id : Nat) (faults : FaultSet) (now : Nat) :
    (m.recordFault id faults now).2.size = m.size := by
  rw [Monitor.recordFault, Monitor.act_snd]
  exact List.length_modify _ _ _

theorem intake_findStalled (e : Engine β) (now : Nat) :
    (e.findStalled now).2.intake = e.intake := by
  unfold findStalled
  dsimp only
  have hlogs (stalled : List Nat) (e₁ : Engine β) :
      (stalled.foldl (fun e id => e.log .warn
        s!"ch{id}: no progress for {e.config.stallThresholdMs} ms") e₁).intake = e₁.intake := by
    induction stalled generalizing e₁ with
    | nil => rfl
    | cons id rest ih => exact ih _
  refine (hlogs _ _).trans ?_
  exact congrArg (Prod.mk e.work) (List.length_map _)

theorem intake_inspectChannel (now : Nat) (acc : WatchdogReport × Engine β) (id : Nat) :
    (inspectChannel now acc id).2.intake = acc.2.intake := by
  obtain ⟨report, e⟩ := acc
  unfold inspectChannel
  dsimp only
  split
  · rfl
  next c hc =>
    split
    · rfl
    have hprobe : (probeFaults id now c report e).2.intake = e.intake := by
      unfold probeFaults
      split
      · rfl
      dsimp only
      split
      · rfl
      · exact congrArg (Prod.mk e.work) (size_recordFault _ _ _ _)
    split
    · exact (intake_haltChannel _ id).trans hprobe
    · exact hprobe

theorem intake_inspectChannels (now : Nat) (ids : List Nat) (acc : WatchdogReport × Engine β) :
    (ids.foldl (inspectChannel now) acc).2.intake = acc.2.intake := by
  induction ids generalizing acc with
  | nil => rfl
  | cons id rest ih => exact (ih _).trans (intake_inspectChannel now acc id)

/-- A turn of the watchdog finds no channel running that did not run, and then recovers channels. -/
theorem watchdogTick_awaits (he : e.Receptive) (hi : i < 32) (hp : e.entryAt i = some p)
    (hrest : ¬ e.Runs i) :
    e.watchdogTick.2.work.isOpen = true ∧
      (e.watchdogTick.2.AwaitsRefill i ↔ e.AwaitsRefill i ∨ e.watchdogTick.2.Runs i) := by
  have hstate : p.2.state ≠ .running := by
    rwa [runs_iff_of_record (entryAt_eq_some.mp hp).2] at hrest
  have henter : e.work.enter = (true, { e.work with active := e.work.active + 1 }) := by
    rw [WorkQueue.enter, if_pos he.isOpen]
  unfold watchdogTick
  rw [henter]
  dsimp only
  generalize hstart : ({ e with work := _ } : Engine β).now = start
  obtain ⟨now, e₁⟩ := start
  have hintake₁ : e₁.intake = ({ e.work with active := e.work.active + 1 }, e.monitor.size) :=
    (congrArg (·.2.intake) hstart).symm
  have hp₁ : e₁.entryAt i = some p := by
    rw [← hp]
    exact entryAt_congr (congrArg (·.2.channels[i]?) hstart).symm
      (congrArg (·.2.monitor.records[i]?) hstart).symm
  -- What is found: a running channel may turn out to be in error.
  have hfound : (e₁.findStalled now).2.entryAt i = some (p.1, e₁.monitor.look now p.2) := by
    rw [entryAt_findStalled, hp₁]
    rfl
  have hintake₂ := intake_findStalled e₁ now
  dsimp only
  generalize e₁.findStalled now = found at hfound hintake₂ ⊢
  obtain ⟨stalled, e₂⟩ := found
  generalize hreport : ({ WatchdogReport.none with stalled := stalled } : WatchdogReport) = report
  obtain ⟨q, hq, hfaults⟩ := (round_foldl Prod.snd (touches_inspectChannel now) e₂.ids
    (report, e₂)).brings List.nodup_range (.refl faults_refl) i _ hfound
  have hintake₃ := intake_inspectChannels now e₂.ids (report, e₂)
  dsimp only
  generalize e₂.ids.foldl (inspectChannel now) (report, e₂) = acc at hq hintake₃ ⊢
  obtain ⟨hwork, hsize⟩ := Prod.mk.inj (hintake₃.trans (hintake₂.trans hintake₁))
  have hreceptive : acc.2.Receptive := ⟨hwork ▸ he.isOpen, hsize.trans_le he.few⟩
  have hrest₃ : ¬ acc.2.Runs i := by
    obtain ⟨s, hs, ht⟩ := ((tended_look e₁.monitor now p).trans hfaults).state
    rw [runs_iff_of_record (entryAt_eq_some.mp hq).2]
    intro hrun
    rcases hs.trans ht with hsame | ⟨-, herror⟩
    · exact hstate (hsame.symm.trans hrun)
    · cases hrun.symm.trans herror
  -- What is recovered after that.
  have h := restores_recoverInError hreceptive hi acc.2.ids
  refine ⟨h.receptive.isOpen, h.awaits.trans ?_⟩
  rw [AwaitsRefill, AwaitsRefill, hwork]
  simp only [hrest₃, not_false_eq_true, true_and]
  rfl

/-! ### Interrupts -/

/-- A channel is posted for receive buffers when it reports finished transfers. -/
theorem handleChannel_awaits (hopen : e.work.isOpen = true) (hid : id < 32) (hi : i < 32)
    (status : InterruptStatus) (now : Nat) :
    (handleChannel status now e id).work.isOpen = true ∧
      ((handleChannel status now e id).AwaitsRefill i ↔
        e.AwaitsRefill i ∨ id = i ∧ status.complete.contains i = true) := by
  have herror (e₁ : Engine β) (hopen₁ : e₁.work.isOpen = true) :
      (e₁.handleError id now).work.isOpen = true ∧
        ((e₁.handleError id now).AwaitsRefill i ↔ e₁.AwaitsRefill i) := by
    rcases work_handleError e₁ id now with hwork | hwork
    · exact ⟨hwork ▸ hopen₁, awaitsRefill_congr hwork⟩
    · refine ⟨?_, (awaitsRefill_post hopen₁ hid hi .recoverOnly hwork).trans ?_⟩
      · rw [hwork, WorkQueue.isOpen_post, hopen₁]
      · simp [Work.recoverOnly]
  unfold handleChannel
  dsimp only
  generalize hseen : ({ e with monitor := _ } : Engine β) = e₁
  have hwork₁ : e₁.work = e.work := hseen ▸ rfl
  generalize hposted : (if status.complete.contains id then e₁.post id .completion else e₁) = e₂
  have h₂ : e₂.work.isOpen = true ∧ (e₂.AwaitsRefill i ↔
      e.AwaitsRefill i ∨ id = i ∧ status.complete.contains i = true) := by
    rw [← hposted, ← awaitsRefill_congr (i := i) hwork₁]
    split
    next hcomplete =>
      refine ⟨?_, (awaitsRefill_post (hwork₁ ▸ hopen) hid hi .completion rfl).trans ?_⟩
      · exact (WorkQueue.isOpen_post _ _ _).trans (hwork₁ ▸ hopen)
      · by_cases hi : id = i
        · simp [← hi, hcomplete, Work.completion]
        · simp [hi]
    next hcomplete =>
      refine ⟨hwork₁ ▸ hopen, ?_⟩
      by_cases hi : id = i
      · simp [← hi, hcomplete]
      · simp [hi]
  split
  · obtain ⟨hopen₃, hawaits⟩ := herror e₂ h₂.1
    exact ⟨hopen₃, hawaits.trans h₂.2⟩
  · exact h₂

theorem handleChannels_awaits (hopen : e.work.isOpen = true) (hi : i < 32)
    (status : InterruptStatus) (now : Nat) {ids : List Nat} (hids : ∀ id ∈ ids, id < 32) :
    (ids.foldl (handleChannel status now) e).work.isOpen = true ∧
      ((ids.foldl (handleChannel status now) e).AwaitsRefill i ↔
        e.AwaitsRefill i ∨ i ∈ ids ∧ status.complete.contains i = true) := by
  induction ids generalizing e with
  | nil => simp [hopen]
  | cons id rest ih =>
    obtain ⟨hid, hrest⟩ := List.forall_mem_cons.mp hids
    obtain ⟨hopen₁, hfirst⟩ := handleChannel_awaits hopen hid hi status now
    obtain ⟨hopen₂, hlater⟩ := ih hopen₁ hrest
    refine ⟨hopen₂, hlater.trans ?_⟩
    rw [hfirst, List.mem_cons, @eq_comm _ i id]
    tauto

/-- The handler posts a channel for receive buffers exactly if it reports finished transfers. -/
theorem onInterrupt_awaits (hopen : e.work.isOpen = true) (hi : i < 32) :
    e.onInterrupt.2.work.isOpen = true ∧
      (e.onInterrupt.2.AwaitsRefill i ↔
        e.AwaitsRefill i ∨ e.onInterrupt.1.complete.contains i = true) := by
  have hnone : InterruptStatus.none.complete.contains i = false := by
    show (0 &&& ChannelMask.bit i != 0) = false
    rw [UInt32.zero_and]
    rfl
  unfold onInterrupt
  split
  · simp [hopen, hnone]
  dsimp only
  split
  · simp [hopen, hnone, AwaitsRefill]
  · generalize (InterruptStatus.ofWord _).limit _ = status
    generalize hnow : (Engine.count _ _ : Engine β) = e₁
    have hwork : e₁.work = e.work := hnow ▸ rfl
    have hids : ∀ id ∈ status.channels.toList, id < 32 :=
      fun id hid => (ChannelMask.mem_toList.mp hid).1
    obtain ⟨hopen₂, hawaits⟩ :=
      handleChannels_awaits (hwork ▸ hopen) hi status (Engine.now _).1 hids
    refine ⟨hopen₂, hawaits.trans ?_⟩
    rw [awaitsRefill_congr hwork, ChannelMask.mem_toList, InterruptStatus.channels,
      ChannelMask.contains_union _ _ hi]
    have hor : status.complete.contains i = true →
        (status.complete.contains i || status.error.contains i) = true := by
      intro hcomplete
      rw [hcomplete, Bool.true_or]
    tauto

/-! ### Workers -/

/-- A worker takes all requests, and then recovers channels. -/
theorem runDeferred_awaits (he : e.Receptive) (hi : i < 32) (hrest : ¬ e.Runs i)
    (noise : Noise) (sink : Sink σ β) (s : σ) :
    (runDeferred noise sink s e).2.2.work.isOpen = true ∧
      ((runDeferred noise sink s e).2.2.AwaitsRefill i ↔
        (runDeferred noise sink s e).2.2.Runs i) := by
  have henter : e.work.enter = (true, { e.work with active := e.work.active + 1 }) := by
    rw [WorkQueue.enter, if_pos he.isOpen]
  unfold runDeferred
  rw [henter]
  dsimp only
  generalize hqueue : WorkQueue.take _ = taken
  obtain ⟨work, queue⟩ := taken
  obtain ⟨-, rfl⟩ := Prod.mk.inj hqueue
  unfold serve
  generalize hstart : ({ e with work := _ } : Engine β) = e₀
  have hopen₀ : e₀.work.isOpen = true := by
    rw [← hstart]
    exact he.isOpen
  have hnone : ¬ e₀.AwaitsRefill i := by
    subst hstart
    show ¬ ((0 : UInt32) &&& ChannelMask.bit i != 0) = true
    rw [UInt32.zero_and]
    exact Bool.false_ne_true
  have hmonitor₀ : e₀.monitor = e.monitor := hstart ▸ rfl
  dsimp only
  -- What is handed over and posted concerns neither the queue nor the states.
  have hdrain := sumOver_aside (fun id s e => ⟨work_drainChannel noise sink id s e,
    monitor_drainChannel noise sink id s e⟩) work.reclaim.toList s e₀
  generalize sumOver (drainChannel noise sink) work.reclaim.toList s e₀ = drained at hdrain ⊢
  obtain ⟨_, s₁, e₁⟩ := drained
  have hrefill := sumOver_aside (fun id s e => ⟨work_refillChannel sink id s e,
    monitor_refillChannel sink id s e⟩) work.refill.toList s₁ e₁
  dsimp only at hdrain hrefill ⊢
  generalize sumOver (refillChannel sink) work.refill.toList s₁ e₁ = refilled at hrefill ⊢
  obtain ⟨_, s₂, e₂⟩ := refilled
  dsimp only at hrefill ⊢
  have hwork₂ : e₂.work = e₀.work := hrefill.1.trans hdrain.1
  have hmonitor₂ : e₂.monitor = e.monitor := hrefill.2.trans (hdrain.2.trans hmonitor₀)
  have h := restores_autoRecoverAll (i := i) (e := e₂)
    ⟨hwork₂ ▸ hopen₀, hmonitor₂ ▸ he.few⟩ hi work.recover.toList .none
  refine ⟨h.receptive.isOpen, h.awaits.trans ?_⟩
  rw [awaitsRefill_congr hwork₂, runs_congr hmonitor₂]
  simp only [hnone, hrest, false_or, not_false_eq_true, true_and]
  rfl

end Engine

/-! ### Every operation -/

namespace Operation

/-- Whether an operation makes recovery attempts. -/
def Recovers : Operation σ β → Prop
  | .runDeferred .. | .watchdogTick | .recoverChannel _ => True
  | _ => False

/-- Whether a completion interrupt of a channel has been handled since a worker last took work,
after an operation. -/
def asked (op : Operation σ β) (i : Nat) (e : Engine β) (before : Bool) : Bool :=
  match op with
  | .onInterrupt => before || e.onInterrupt.1.complete.contains i
  | .runDeferred .. => false
  | _ => before

end Operation

namespace Engine

variable {op : Operation σ β} {e e' : Engine β} {seen : Story β} {i : Nat} {p : Entry β}

/-- What has an entry is up. -/
theorem Steady.up (h : e.Steady) (hp : e.entryAt i = some p) : e.initialized = true := by
  cases hinitialized : e.initialized with
  | true => rfl
  | false =>
    have hc := (entryAt_eq_some.mp hp).1
    simp [h.idleEmpty hinitialized] at hc

theorem Steady.receptive (h : e.Steady) (hopen : e.work.isOpen = true) : e.Receptive := by
  refine ⟨hopen, ?_⟩
  calc e.monitor.records.length = e.channels.length := h.coherent.records_length
    _ ≤ maxChannels := h.coherent.length_le
    _ ≤ 32 := by decide

theorem Steady.lt (h : e.Steady) (hp : e.entryAt i = some p) : i < 32 :=
  calc i < e.channels.length := (List.getElem?_eq_some_iff.mp (entryAt_eq_some.mp hp).1).1
    _ ≤ maxChannels := h.coherent.length_le
    _ ≤ 32 := by decide

/-- What an operation does to a channel that does not run: it is posted for receive buffers if its
recovery set it running, or if its completion interrupt was handled, or was before and no worker
took it. -/
theorem awaits_of_perform (h : e.Steady) (hopen : e.work.isOpen = true)
    (hp : e.entryAt i = some p) (hrest : ¬ e.Runs i) (hop : op.perform e = some (seen, e'))
    (hdeinit : op ≠ .deinit) {before : Bool} (hbefore : e.AwaitsRefill i ↔ before = true) :
    e'.work.isOpen = true ∧
      (e'.AwaitsRefill i ↔ op.Recovers ∧ e'.Runs i ∨ op.asked i e before = true) := by
  have hi := h.lt hp
  have hreceptive := h.receptive hopen
  -- What does not touch the queue.
  have hstill {e' : Engine β} (hwork : e'.work = e.work) (hrecovers : ¬ op.Recovers)
      (hasked : op.asked i e before = before) :
      e'.work.isOpen = true ∧
        (e'.AwaitsRefill i ↔ op.Recovers ∧ e'.Runs i ∨ op.asked i e before = true) := by
    refine ⟨hwork ▸ hopen, ?_⟩
    rw [awaitsRefill_congr hwork, hbefore, hasked]
    tauto
  cases op with
  | deinit => exact absurd rfl hdeinit
  | init base count =>
    obtain ⟨rfl, rfl⟩ := Prod.mk.inj (Option.some.inj hop)
    refine hstill ?_ id rfl
    rw [init, h.up hp]
    rfl
  | start | stop | startChannel | stopChannel | suspendChannel | reinitChannel
  | setRecoveryPolicy =>
    obtain ⟨-, hbooks⟩ := books_of_steering hop trivial
    exact hstill (congrArg (·.2.2) hbooks) (fun h => h) rfl
  | resumeChannel id =>
    obtain ⟨rfl, rfl⟩ := Prod.mk.inj (Option.some.inj hop)
    rcases books_resumeChannel e id with hbooks | hbooks
    · exact hstill (congrArg (·.2.2) hbooks) (fun h => h) rfl
    · have hwork : (e.resumeChannel id).2.work = (e.work.post id .recoverOnly).2 :=
        congrArg (·.2.2) hbooks
      refine ⟨hwork ▸ (WorkQueue.isOpen_post _ _ _).trans hopen, ?_⟩
      have hposted : (e.resumeChannel id).2.AwaitsRefill i ↔ e.AwaitsRefill i := by
        rw [AwaitsRefill, AwaitsRefill, hwork, WorkQueue.pending_post hopen]
        rfl
      rw [hposted, hbefore]
      exact ⟨.inr, fun h => h.elim (fun h => h.1.elim) fun h => h⟩
  | enqueue id direction buffer length =>
    rw [Operation.eq_of_enqueue hop]
    exact hstill (work_enqueue e id direction buffer length) (fun h => h) rfl
  | pollReclaim id direction =>
    rw [Operation.eq_of_pollReclaim hop]
    exact hstill (work_pollReclaim e id direction) (fun h => h) rfl
  | onInterrupt =>
    obtain ⟨rfl, rfl⟩ := Prod.mk.inj (Option.some.inj hop)
    obtain ⟨hopen', hawaits⟩ := onInterrupt_awaits hopen hi
    refine ⟨hopen', hawaits.trans ?_⟩
    simp only [hbefore, Operation.Recovers, Operation.asked, Bool.or_eq_true, false_and, false_or]
  | runDeferred noise sink s =>
    obtain ⟨rfl, rfl⟩ := Prod.mk.inj (Option.some.inj hop)
    obtain ⟨hopen', hawaits⟩ :=
      runDeferred_awaits hreceptive hi hrest noise sink.recorded (s, [])
    refine ⟨hopen', hawaits.trans ⟨fun hr => .inl ⟨trivial, hr⟩, fun h => h.elim And.right ?_⟩⟩
    exact fun hasked => absurd hasked Bool.false_ne_true
  | watchdogTick =>
    obtain ⟨rfl, rfl⟩ := Prod.mk.inj (Option.some.inj hop)
    obtain ⟨hopen', hawaits⟩ := watchdogTick_awaits hreceptive hi hp hrest
    refine ⟨hopen', hawaits.trans ?_⟩
    simp only [hbefore, Operation.Recovers, Operation.asked, true_and, or_comm]
  | recoverChannel id =>
    obtain ⟨rfl, rfl⟩ := Prod.mk.inj (Option.some.inj hop)
    have hrestores : Restores i e (e.recoverChannel id).2 := by
      unfold recoverChannel
      split
      · exact .refl hreceptive
      · exact restores_attemptRecovery hreceptive hi id
    refine ⟨hrestores.receptive.isOpen, hrestores.awaits.trans ?_⟩
    simp only [hbefore, hrest, Operation.Recovers, Operation.asked, true_and, not_false_eq_true,
      or_comm]
  | clearStats =>
    obtain ⟨rfl, rfl⟩ := Prod.mk.inj (Option.some.inj hop)
    exact hstill rfl id rfl
  | resetChannelStats id =>
    obtain ⟨rfl, rfl⟩ := Prod.mk.inj (Option.some.inj hop)
    exact hstill (work_resetChannelStats e id) (fun h => h) rfl

end Engine

end PacketDma
