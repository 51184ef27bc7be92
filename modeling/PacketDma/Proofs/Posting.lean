import PacketDma.Proofs.Service

/-!
# Who posts work

Work is posted in three places only. The interrupt handler posts what each source asks for, a
channel that is resumed with faults pending is posted for recovery, and a channel that was recovered
is posted for receive buffers. Nothing else that the engine does to its channels touches the queue.

## Implementation notes

What an attempt comes to is said once, for the queue, the statistics and the record of the channel
together. What the owner does to steer channels leaves all of these but the state of the channel as
they are, which is said of the books.
-/

namespace PacketDma

variable {σ β : Type}

namespace WorkQueue

variable {q : WorkQueue}

@[simp]
theorem isOpen_post (q : WorkQueue) (channel : Nat) (work : Work) :
    (q.post channel work).2.isOpen = q.isOpen := by
  unfold post
  split <;> rfl

/-- What waits in an open queue after a post. -/
theorem pending_post (h : q.isOpen = true) (channel : Nat) (work : Work) :
    (q.post channel work).2.pending = q.pending.add channel work := by
  rw [post, if_pos h]

/-- The channels that wait for receive buffers after a post. -/
theorem refill_post (h : q.isOpen = true) {channel i : Nat} (hchannel : channel < 32)
    (hi : i < 32) (work : Work) :
    (q.post channel work).2.pending.refill.contains i =
      (q.pending.refill.contains i || work.refill && decide (channel = i)) := by
  rw [pending_post h]
  show (if work.refill then q.pending.refill.insert channel else q.pending.refill).contains i = _
  cases work.refill with
  | true => exact ChannelMask.contains_insert _ hi hchannel
  | false => exact (Bool.or_false _).symm

end WorkQueue

namespace ChannelRecord

theorem stats_start (r : ChannelRecord) (now : Nat) : (r.start now).2.stats = r.stats := by
  unfold start
  split <;> rfl

theorem stats_stop (r : ChannelRecord) : r.stop.2.stats = r.stats := by
  unfold stop
  split <;> rfl

theorem stats_suspend (r : ChannelRecord) : r.suspend.2.stats = r.stats := by
  unfold suspend
  split <;> rfl

theorem stats_resume (r : ChannelRecord) (now : Nat) : (r.resume now).2.stats = r.stats := by
  unfold resume
  split <;> rfl

theorem stats_reset (r : ChannelRecord) : r.reset.2.stats = r.stats := by
  unfold reset
  split <;> rfl

end ChannelRecord

namespace Engine

/-! ### The owner's operations -/

theorem work_haltChannel (e : Engine β) (id : Nat) : (e.haltChannel id).2.work = e.work := by
  unfold haltChannel
  split <;> rfl

theorem monitor_haltChannel (e : Engine β) (id : Nat) :
    (e.haltChannel id).2.monitor = e.monitor := by
  unfold haltChannel
  split <;> rfl

theorem stats_haltChannel (e : Engine β) (id : Nat) : (e.haltChannel id).2.stats = e.stats := by
  unfold haltChannel
  split <;> rfl

theorem work_haltIf (halts : Bool) (e : Engine β) (id : Nat) :
    (if halts then (e.haltChannel id).2 else e).work = e.work := by
  split
  · exact work_haltChannel e id
  · rfl

/-- What an engine has counted, what the monitor has counted for its channels, and the work that
waits. -/
def books (e : Engine β) : EngineStats × List ChannelStats × WorkQueue :=
  (e.stats, e.monitor.records.map (·.stats), e.work)

theorem books_haltChannel (e : Engine β) (id : Nat) : (e.haltChannel id).2.books = e.books := by
  rw [books, books, stats_haltChannel, monitor_haltChannel, work_haltChannel]

/-- The record of a channel changes, but not its statistics. -/
theorem books_act {α : Type} {e e' : Engine β} {id : Nat} {absent : α}
    {f : ChannelRecord → α × ChannelRecord} (hf : ∀ r, (f r).2.stats = r.stats)
    (hstats : e'.stats = e.stats) (hwork : e'.work = e.work)
    (hmonitor : e'.monitor = (e.monitor.act id absent f).2) : e'.books = e.books := by
  have hrecords : e'.monitor.records.map (·.stats) = e.monitor.records.map (·.stats) := by
    apply List.ext_getElem?
    intro i
    rw [hmonitor, Monitor.act_snd, Monitor.update, List.getElem?_map, List.getElem?_map,
      List.getElem?_modify]
    cases e.monitor.records[i]? with
    | none => rfl
    | some r =>
      split
      · exact congrArg some (hf r)
      · rfl
  rw [books, books, hstats, hwork, hrecords]

theorem books_startChannel (e : Engine β) (id : Nat) :
    (e.startChannel id).2.books = e.books := by
  unfold startChannel
  split
  · rfl
  split
  · rfl
  · split
    · rfl
    · dsimp only
      split
      next hstart => exact books_act (fun r => r.stats_start _) rfl rfl (congrArg (·.2) hstart).symm
      next hstart => exact books_act (fun r => r.stats_start _) rfl rfl (congrArg (·.2) hstart).symm
  · rfl

theorem books_stopChannel (e : Engine β) (id : Nat) : (e.stopChannel id).2.books = e.books := by
  unfold stopChannel
  split
  · rfl
  split
  next hstop => exact books_act ChannelRecord.stats_stop rfl rfl (congrArg (·.2) hstop).symm
  next hstop =>
    refine (books_haltChannel _ id).trans ?_
    exact books_act ChannelRecord.stats_stop rfl rfl (congrArg (·.2) hstop).symm

theorem books_suspendChannel (e : Engine β) (id : Nat) :
    (e.suspendChannel id).2.books = e.books := by
  unfold suspendChannel
  split
  · rfl
  split
  next hpause => exact books_act ChannelRecord.stats_suspend rfl rfl (congrArg (·.2) hpause).symm
  next hpause =>
    refine (books_haltChannel _ id).trans ?_
    exact books_act ChannelRecord.stats_suspend rfl rfl (congrArg (·.2) hpause).symm

theorem books_eachChannel {act : Engine β → Nat → Except Error Unit × Engine β}
    (hact : ∀ e id, (act e id).2.books = e.books) (ids : List Nat) (e : Engine β) :
    (eachChannel act ids e).2.books = e.books := by
  induction ids generalizing e with
  | nil => rfl
  | cons id rest ih =>
    have h := hact e id
    unfold eachChannel
    split
    next he => rwa [he] at h
    next e₁ he =>
      rw [he] at h
      exact (ih e₁).trans h

/-- A channel that is resumed may be posted for recovery. -/
theorem books_resumeChannel (e : Engine β) (id : Nat) :
    (e.resumeChannel id).2.books = e.books ∨
      (e.resumeChannel id).2.books = (e.post id .recoverOnly).books := by
  unfold resumeChannel
  split
  · exact .inl rfl
  dsimp only
  split
  next hresume =>
    exact .inl (books_act (fun r => r.stats_resume _) rfl rfl (congrArg (·.2) hresume).symm)
  next hresume =>
    exact .inl (books_act (fun r => r.stats_resume _) rfl rfl (congrArg (·.2) hresume).symm)
  next hresume =>
    exact .inr (books_act (fun r => r.stats_resume _) rfl rfl (congrArg (·.2) hresume).symm)

theorem books_reinitChannel (e : Engine β) (id : Nat) :
    (e.reinitChannel id).2.books = e.books := by
  unfold reinitChannel
  split
  · rfl
  dsimp only
  split
  next hreset => exact books_act ChannelRecord.stats_reset rfl rfl (congrArg (·.2) hreset).symm
  next hreset =>
    split
    · exact books_act ChannelRecord.stats_reset rfl rfl (congrArg (·.2) hreset).symm
    · refine (books_startChannel _ id).trans ?_
      exact books_act ChannelRecord.stats_reset rfl rfl (congrArg (·.2) hreset).symm

theorem work_enqueue (e : Engine β) (id : Nat) (direction : Direction) (buffer : β)
    (length : Nat) : (e.enqueue id direction buffer length).2.work = e.work := by
  unfold enqueue
  split
  · rfl
  split
  · rfl
  · dsimp only
    split <;> rfl

theorem work_pollReclaim (e : Engine β) (id : Nat) (direction : Direction) :
    (e.pollReclaim id direction).2.work = e.work := by
  unfold pollReclaim
  split
  · rfl
  split <;> rfl

theorem work_resetChannelStats (e : Engine β) (id : Nat) :
    (e.resetChannelStats id).2.work = e.work := by
  unfold resetChannelStats
  split <;> rfl

end Engine

/-- The owner steers channels, which is neither counted nor posted. -/
def Operation.IsSteering : Operation σ β → Prop
  | .start | .stop | .startChannel _ | .stopChannel _ | .suspendChannel _ | .reinitChannel _
  | .setRecoveryPolicy .. => True
  | _ => False

namespace Engine

theorem books_of_steering {op : Operation σ β} {e e' : Engine β} {seen : Story β}
    (h : op.perform e = some (seen, e')) (hop : op.IsSteering) :
    seen = [] ∧ e'.books = e.books := by
  cases op with
  | start =>
    obtain ⟨rfl, rfl⟩ := Prod.mk.inj (Option.some.inj h)
    refine ⟨rfl, ?_⟩
    unfold start
    split
    · rfl
    · exact books_eachChannel books_startChannel _ _
  | stop =>
    obtain ⟨rfl, rfl⟩ := Prod.mk.inj (Option.some.inj h)
    refine ⟨rfl, ?_⟩
    unfold stop
    split
    · rfl
    · exact books_eachChannel books_stopChannel _ _
  | startChannel id =>
    obtain ⟨rfl, rfl⟩ := Prod.mk.inj (Option.some.inj h)
    exact ⟨rfl, books_startChannel e id⟩
  | stopChannel id =>
    obtain ⟨rfl, rfl⟩ := Prod.mk.inj (Option.some.inj h)
    exact ⟨rfl, books_stopChannel e id⟩
  | suspendChannel id =>
    obtain ⟨rfl, rfl⟩ := Prod.mk.inj (Option.some.inj h)
    exact ⟨rfl, books_suspendChannel e id⟩
  | reinitChannel id =>
    obtain ⟨rfl, rfl⟩ := Prod.mk.inj (Option.some.inj h)
    exact ⟨rfl, books_reinitChannel e id⟩
  | setRecoveryPolicy id policy =>
    obtain ⟨rfl, rfl⟩ := Prod.mk.inj (Option.some.inj h)
    refine ⟨rfl, ?_⟩
    unfold setRecoveryPolicy
    split <;> rfl
  | _ => exact hop.elim

/-! ### Service -/

/-- A channel with an error is posted for recovery. -/
theorem work_handleError (e : Engine β) (id now : Nat) :
    (e.handleError id now).work = e.work ∨
      (e.handleError id now).work = (e.work.post id .recoverOnly).2 := by
  unfold handleError
  split
  · exact .inl rfl
  · exact .inr (congrArg (fun q => (q.post id .recoverOnly).2) (work_haltIf _ _ id))

theorem work_drainChannel (noise : Noise) (sink : Sink σ β) (id : Nat) (s : σ)
    (e : Engine β) : (drainChannel noise sink id s e).2.2.work = e.work := by
  unfold drainChannel
  split <;> rfl

theorem work_refillChannel (sink : Sink σ β) (id : Nat) (s : σ) (e : Engine β) :
    (refillChannel sink id s e).2.2.work = e.work := by
  unfold refillChannel
  split
  · rfl
  split <;> rfl

theorem monitor_drainChannel (noise : Noise) (sink : Sink σ β) (id : Nat) (s : σ)
    (e : Engine β) : (drainChannel noise sink id s e).2.2.monitor = e.monitor := by
  unfold drainChannel
  split <;> rfl

theorem monitor_refillChannel (sink : Sink σ β) (id : Nat) (s : σ) (e : Engine β) :
    (refillChannel sink id s e).2.2.monitor = e.monitor := by
  unfold refillChannel
  split
  · rfl
  split <;> rfl

/-- Work for channels in turn that concerns neither the queue nor what is known of them. -/
theorem sumOver_aside {work : Nat → σ → Engine β → Nat × σ × Engine β}
    (hwork : ∀ id s e, (work id s e).2.2.work = e.work ∧ (work id s e).2.2.monitor = e.monitor)
    (ids : List Nat) (s : σ) (e : Engine β) :
    (sumOver work ids s e).2.2.work = e.work ∧
      (sumOver work ids s e).2.2.monitor = e.monitor := by
  induction ids generalizing s e with
  | nil => exact ⟨rfl, rfl⟩
  | cons id rest ih =>
    obtain ⟨hwork₁, hmonitor₁⟩ := hwork id s e
    obtain ⟨hwork₂, hmonitor₂⟩ := ih (work id s e).2.1 (work id s e).2.2
    exact ⟨hwork₂.trans hwork₁, hmonitor₂.trans hmonitor₁⟩

/-! ### Attempts -/

/-- What an attempt at a channel comes to. -/
inductive Attempted (e : Engine β) (id : Nat) : RecoveryOutcome → Engine β → Prop where
  /-- The channel was not asked about, or is not known. -/
  | skipped {outcome : RecoveryOutcome} {e' : Engine β} (houtcome : outcome ≠ .recovered)
      (hmonitor : e'.monitor = e.monitor) (hstats : e'.stats = e.stats)
      (hwork : e'.work = e.work) : Attempted e id outcome e'
  /-- The attempt was not granted. -/
  | unclaimed {outcome : RecoveryOutcome} {e' : Engine β} {r s : ChannelRecord}
      (houtcome : outcome ≠ .recovered) (hr : e.monitor.records[id]? = some r)
      (hs : s = { r with down := s.down, fatal := s.fatal })
      (hmonitor : e'.monitor = { e.monitor with records := e.monitor.records.set id s })
      (hstats : e'.stats = e.stats) (hwork : e'.work = e.work) : Attempted e id outcome e'
  /-- The attempt was made. -/
  | claimed {outcome : RecoveryOutcome} {e' : Engine β} {r s : ChannelRecord} {success : Bool}
      (houtcome : outcome = .recovered ↔ success = true)
      (hr : e.monitor.records[id]? = some r) (herror : r.state = .error)
      (hstate : s.state = if success then .running else .error)
      (hrecord : s.stats =
        { r.stats with
          recoveryAttempts := Counter.add r.stats.recoveryAttempts 1
          recoverySuccesses :=
            if success then Counter.add r.stats.recoverySuccesses 1
            else r.stats.recoverySuccesses })
      (hmonitor : e'.monitor = { e.monitor with records := e.monitor.records.set id s })
      (hstats : e'.stats =
        { e.stats with
          recoveriesAttempted := Counter.add e.stats.recoveriesAttempted 1
          recoveriesSucceeded :=
            if success then Counter.add e.stats.recoveriesSucceeded 1
            else e.stats.recoveriesSucceeded })
      (hwork : e'.work = if success then (e.work.post id .refillOnly).2 else e.work) :
      Attempted e id outcome e'

/-- What an attempt that was claimed comes to. -/
theorem recoverClaimed_eq {e : Engine β} {id : Nat} {s : ChannelRecord}
    (hs : e.monitor.records[id]? = some s) (c : Channel β) (policy : RecoveryPolicy)
    (faults : FaultSet) :
    ∃ success residual now,
      ((e.recoverClaimed id c policy faults).1 = .recovered ↔ success = true) ∧
      (e.recoverClaimed id c policy faults).2.monitor =
        { e.monitor with
          records := e.monitor.records.set id
            (s.finishRecovery success residual policy.maxRetries now).2 } ∧
      (e.recoverClaimed id c policy faults).2.stats =
        { e.stats with
          recoveriesAttempted := Counter.add e.stats.recoveriesAttempted 1
          recoveriesSucceeded :=
            if success then Counter.add e.stats.recoveriesSucceeded 1
            else e.stats.recoveriesSucceeded } ∧
      (e.recoverClaimed id c policy faults).2.work =
        if success then (e.work.post id .refillOnly).2 else e.work := by
  unfold recoverClaimed
  dsimp only
  generalize hcount : (e.count fun s =>
    { s with recoveriesAttempted := Counter.add s.recoveriesAttempted 1 }) = e₁
  obtain ⟨⟨success, residual⟩, d, m, hattempt⟩ := e₁.runRecovery_put id c policy faults
  have hs₁ : (e₁.put id d m).now.2.monitor.records[id]? = some s := hcount ▸ hs
  rw [hattempt]
  dsimp only
  rw [Monitor.finishRecovery, Monitor.act_eq hs₁]
  refine ⟨success, residual, (e₁.put id d m).now.1, ?_⟩
  subst hcount
  cases success with
  | true => exact ⟨⟨fun _ => rfl, fun _ => rfl⟩, rfl, rfl, rfl⟩
  | false =>
    simp only [Bool.false_eq_true, if_false]
    split
    · exact ⟨by simp, monitor_haltChannel _ id, stats_haltChannel _ id, work_haltChannel _ id⟩
    · exact ⟨by simp, rfl, rfl, rfl⟩

theorem attempted_attemptRecovery (e : Engine β) (id : Nat) :
    Attempted e id (e.attemptRecovery id).1 (e.attemptRecovery id).2 := by
  unfold attemptRecovery
  split
  next c policy _ _ =>
    split
    · exact .skipped (by simp) rfl rfl rfl
    dsimp only
    cases hr : e.monitor.records[id]? with
    | none =>
      have hbegin : e.now.2.monitor.beginRecovery id policy e.now.1 = (.notNeeded, e.monitor) := by
        have hrecord : e.now.2.monitor.records[id]? = none := hr
        rw [Monitor.beginRecovery, Monitor.act, Monitor.record?, hrecord]
        rfl
      rw [hbegin]
      exact .skipped (by simp) rfl rfl rfl
    | some r =>
      have hrecord : e.now.2.monitor.records[id]? = some r := hr
      rw [Monitor.beginRecovery, Monitor.act_eq hrecord]
      generalize hb : r.beginRecovery policy e.now.1 = begun
      obtain ⟨claim, s⟩ := begun
      dsimp only
      cases claim with
      | claimed faults =>
        obtain ⟨hmay, -, rfl⟩ := ChannelRecord.begin_eq_claimed_iff.mp hb
        generalize hstart : ({ e.now.2 with monitor := _ } : Engine β) = e₁
        have hs : e₁.monitor.records[id]? = some (r.claimedAt e.now.1) := by
          subst hstart
          exact getElem?_set_of_some hr _
        obtain ⟨success, residual, now, houtcome, hmonitor, hstats, hwork⟩ :=
          recoverClaimed_eq hs c policy faults
        refine .claimed (s := ((r.claimedAt e.now.1).finishRecovery success residual
          policy.maxRetries now).2) houtcome hr hmay.state_eq ?_ ?_ (hmonitor.trans ?_)
          (hstats.trans ?_) (hwork.trans ?_)
        · cases success <;> rfl
        · cases success <;> rfl
        all_goals subst hstart
        · exact congrArg (fun records => { e.monitor with records := records })
            (List.set_set _)
        · rfl
        · rfl
      | notNeeded | tooSoon =>
        exact .unclaimed (by simp) hr (ChannelRecord.of_begin_unclaimed hb (by simp)).1 rfl rfl rfl
      | notCovered faults =>
        exact .unclaimed (by simp) hr (ChannelRecord.of_begin_unclaimed hb (by simp)).1 rfl rfl rfl
      | down =>
        have hs := (ChannelRecord.of_begin_unclaimed hb (by simp)).1
        generalize hstart : ({ e.now.2 with monitor := _ } : Engine β) = e₁
        have hmonitor := monitor_haltChannel e₁ id
        have hstats := stats_haltChannel e₁ id
        have hwork := work_haltChannel e₁ id
        dsimp only
        split
        next he =>
          rw [he] at hmonitor hstats hwork
          subst hstart
          exact .unclaimed (by simp) hr hs hmonitor hstats hwork
        next he =>
          rw [he] at hmonitor hstats hwork
          subst hstart
          exact .unclaimed (by simp) hr hs hmonitor hstats hwork
  · exact .skipped (by simp) rfl rfl rfl

end Engine

end PacketDma
