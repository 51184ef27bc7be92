import PacketDma.Proofs.Totals

/-!
# Draining at once and one at a time

A worker that drains a channel hands over what the owner would get by asking for one transfer after
the other, and leaves the engine as the owner would. It counts the transfers together and not one by
one, which makes no difference even where a counter stops at its limit.

## Implementation notes

Asking again and again is a relation that ends with the first answer without a transfer. That a
count of zero changes nothing holds of counters within their limit, so that this is shown of every
engine with a history first.

The transfers of one channel are counted in words. So there must not be as many in flight as there
are words.
-/

namespace PacketDma

variable {σ β : Type}

namespace ChannelMask

end ChannelMask

namespace Engine

variable {e e' e₁ e₂ : Engine β} {id : Nat} {direction : Direction} {c : Channel β}

/-! ### Counters of transfers -/

/-- The counters of transfers that came back have not passed their limit. -/
def InLimit (e : Engine β) : Prop :=
  e.stats.completed ≤ Counter.limit ∧ e.stats.completionErrors ≤ Counter.limit

/-- The counters of transfers that came back. -/
def takenBack (e : Engine β) : Nat × Nat := (e.stats.completed, e.stats.completionErrors)

theorem InLimit.of_eq (h : e.InLimit) (htaken : e'.takenBack = e.takenBack) : e'.InLimit := by
  obtain ⟨hcompleted, hfailed⟩ := Prod.mk.inj htaken
  exact ⟨hcompleted ▸ h.1, hfailed ▸ h.2⟩

/-- Counting stops at the limit. -/
theorem inLimit_countCompleted (e : Engine β) (total failed : Nat) :
    (e.countCompleted total failed).InLimit :=
  ⟨Counter.add_le_limit _ _, Counter.add_le_limit _ _⟩

theorem InLimit.countDrained (h : e.InLimit) (total failed : UInt32) :
    (e.countDrained total failed).InLimit := by
  unfold Engine.countDrained count
  dsimp only
  split
  · exact ⟨Counter.add_le_limit _ _, Counter.add_le_limit _ _⟩
  · exact h

theorem takenBack_countPosted (e : Engine β) (posted : Nat) :
    (e.countPosted posted).takenBack = e.takenBack := by
  simp only [countPosted, count, takenBack]
  split <;> rfl

theorem takenBack_of_stats (h : e'.stats = e.stats) : e'.takenBack = e.takenBack := by
  rw [takenBack, takenBack, h]

theorem takenBack_attemptRecovery (e : Engine β) (id : Nat) :
    (e.attemptRecovery id).2.takenBack = e.takenBack := by
  cases attempted_attemptRecovery e id with
  | skipped _ _ hstats => exact takenBack_of_stats hstats
  | unclaimed _ _ _ _ hstats => exact takenBack_of_stats hstats
  | claimed _ _ _ _ _ _ hstats => rw [takenBack, takenBack, hstats]

theorem takenBack_autoRecover (id : Nat) (t : RecoveryTally) (e : Engine β) :
    (autoRecover id t e).2.takenBack = e.takenBack := by
  unfold autoRecover
  split
  · exact takenBack_attemptRecovery e id
  · rfl

theorem takenBack_autoRecoverAll (ids : List Nat) (t : RecoveryTally) (e : Engine β) :
    (autoRecoverAll ids t e).2.takenBack = e.takenBack := by
  induction ids generalizing t e with
  | nil => rfl
  | cons id rest ih => exact (ih _ _).trans (takenBack_autoRecover id t e)

/-- What every turn of a loop leaves, the loop leaves. -/
theorem takenBack_foldl {α : Type} (engine : α → Engine β) {turn : α → Nat → α}
    (h : ∀ a id, (engine (turn a id)).takenBack = (engine a).takenBack) (ids : List Nat) (a : α) :
    (engine (ids.foldl turn a)).takenBack = (engine a).takenBack := by
  induction ids generalizing a with
  | nil => rfl
  | cons id rest ih => exact (ih (turn a id)).trans (h a id)

theorem takenBack_handleChannel (status : InterruptStatus) (now : Nat) (e : Engine β) (id : Nat) :
    (handleChannel status now e id).takenBack = e.takenBack := by
  apply takenBack_of_stats
  have hposted {e₁ : Engine β} :
      (if status.complete.contains id then e₁.post id .completion else e₁).stats = e₁.stats := by
    split <;> rfl
  have herror (e₁ : Engine β) : (e₁.handleError id now).stats = e₁.stats :=
    (noted_handleError e₁ id now).stats_eq
  unfold handleChannel
  dsimp only
  split
  · exact (herror _).trans hposted
  · exact hposted

theorem takenBack_onInterrupt (e : Engine β) : e.onInterrupt.2.takenBack = e.takenBack := by
  unfold onInterrupt
  split
  · rfl
  dsimp only
  split
  · rfl
  · exact takenBack_foldl (fun e => e) (takenBack_handleChannel _ _) _ _

theorem takenBack_watchdogTick (e : Engine β) : e.watchdogTick.2.takenBack = e.takenBack := by
  have hfound (e : Engine β) (now : Nat) : (e.findStalled now).2.takenBack = e.takenBack := by
    unfold findStalled
    dsimp only
    refine (takenBack_foldl (fun e => e) ?_ _ _).trans rfl
    exact fun _ _ => rfl
  have hinspected (now : Nat) (acc : WatchdogReport × Engine β) (id : Nat) :
      (inspectChannel now acc id).2.takenBack = acc.2.takenBack := by
    have hprobed (c : Channel β) :
        (probeFaults id now c acc.1 acc.2).2.takenBack = acc.2.takenBack := by
      unfold probeFaults
      split
      · rfl
      dsimp only
      split <;> rfl
    unfold inspectChannel
    dsimp only
    split
    · rfl
    next c _ =>
      split
      · rfl
      split
      · exact (takenBack_of_stats (stats_haltChannel _ id)).trans (hprobed c)
      · exact hprobed c
  have hrecovered (acc : WatchdogReport × Engine β) (id : Nat) :
      (recoverInError acc id).2.takenBack = acc.2.takenBack := by
    unfold recoverInError
    dsimp only
    split
    · exact takenBack_autoRecover id _ _
    · rfl
  unfold watchdogTick
  split
  · rfl
  · exact (takenBack_foldl Prod.snd hrecovered _ _).trans
      ((takenBack_foldl Prod.snd (hinspected _) _ _).trans (hfound _ _))

theorem InLimit.sumOver (h : e.InLimit) {work : Nat → σ → Engine β → Nat × σ × Engine β}
    (hwork : ∀ id s e, InLimit e → InLimit (work id s e).2.2) (ids : List Nat) (s : σ) :
    InLimit (sumOver work ids s e).2.2 := by
  induction ids generalizing s e with
  | nil => exact h
  | cons id rest ih => exact ih (hwork id s e h) _

theorem InLimit.runDeferred (h : e.InLimit) (noise : Noise) (sink : Sink σ β) (s : σ) :
    (runDeferred noise sink s e).2.2.InLimit := by
  have hdrained (id : Nat) (s : σ) (e : Engine β) (h : e.InLimit) :
      (drainChannel noise sink id s e).2.2.InLimit := by
    unfold drainChannel
    split
    · exact h
    · exact InLimit.countDrained (by exact h) _ _
  have hrefilled (id : Nat) (s : σ) (e : Engine β) (h : e.InLimit) :
      (refillChannel sink id s e).2.2.InLimit := by
    unfold refillChannel
    split
    · exact h
    split
    · exact h.of_eq (takenBack_countPosted _ _)
    · exact h
  unfold Engine.runDeferred serve
  split
  · exact h
  next queue _ =>
    have htaken : { e with work := queue.take.2 }.InLimit := h
    have hserved := (htaken.sumOver hdrained queue.take.1.reclaim.toList s).sumOver hrefilled
      queue.take.1.refill.toList
      (Engine.sumOver (drainChannel noise sink) queue.take.1.reclaim.toList s
        { e with work := queue.take.2 }).2.1
    exact hserved.of_eq (takenBack_autoRecoverAll queue.take.1.recover.toList .none _)

theorem InLimit.perform {op : Operation σ β} {seen : Story β} (h : e.InLimit)
    (hop : op.perform e = some (seen, e')) : e'.InLimit := by
  cases op with
  | init base count =>
    obtain ⟨-, rfl⟩ := Prod.mk.inj (Option.some.inj hop)
    apply h.of_eq
    cases hinit : e.init base count with
    | mk result e₁ =>
      cases result with
      | error x =>
        obtain ⟨m, rfl⟩ := onlyActs_of_init hinit
        rfl
      | ok =>
        obtain ⟨m, hup⟩ := onlyActs_broughtUp hinit
        exact takenBack_of_stats (congrArg (·.stats) hup)
  | deinit =>
    obtain ⟨e₁, hdown, hpair⟩ := Option.map_eq_some_iff.mp hop
    obtain ⟨-, rfl⟩ := Prod.mk.inj hpair
    apply h.of_eq
    obtain ⟨-, rfl⟩ | ⟨-, hdown, -⟩ := of_deinit hdown
    · rfl
    · exact takenBack_of_stats hdown.stats_eq
  | enqueue id direction buffer length =>
    rw [Operation.eq_of_enqueue hop]
    apply h.of_eq
    unfold enqueue
    split
    · rfl
    split
    · rfl
    · dsimp only
      split <;> rfl
  | pollReclaim id direction =>
    rw [Operation.eq_of_pollReclaim hop]
    unfold pollReclaim
    split
    · exact h
    split
    · exact h
    · exact inLimit_countCompleted _ _ _
  | onInterrupt =>
    obtain ⟨-, rfl⟩ := Prod.mk.inj (Option.some.inj hop)
    exact h.of_eq (takenBack_onInterrupt e)
  | runDeferred noise sink s =>
    obtain ⟨-, rfl⟩ := Prod.mk.inj (Option.some.inj hop)
    exact h.runDeferred noise sink.recorded (s, [])
  | watchdogTick =>
    obtain ⟨-, rfl⟩ := Prod.mk.inj (Option.some.inj hop)
    exact h.of_eq (takenBack_watchdogTick e)
  | recoverChannel id =>
    obtain ⟨-, rfl⟩ := Prod.mk.inj (Option.some.inj hop)
    apply h.of_eq
    unfold recoverChannel
    split
    · rfl
    · exact takenBack_attemptRecovery e id
  | clearStats =>
    obtain ⟨-, rfl⟩ := Prod.mk.inj (Option.some.inj hop)
    exact ⟨Nat.zero_le _, Nat.zero_le _⟩
  | resetChannelStats id =>
    obtain ⟨-, rfl⟩ := Prod.mk.inj (Option.some.inj hop)
    apply h.of_eq
    unfold resetChannelStats
    split <;> rfl
  | resumeChannel id =>
    obtain ⟨-, rfl⟩ := Prod.mk.inj (Option.some.inj hop)
    rcases books_resumeChannel e id with hbooks | hbooks
    · exact h.of_eq (takenBack_of_stats (congrArg (·.1) hbooks))
    · exact h.of_eq (takenBack_of_stats (congrArg (·.1) hbooks))
  | start | stop | startChannel | stopChannel | suspendChannel | reinitChannel
  | setRecoveryPolicy =>
    obtain ⟨-, hbooks⟩ := books_of_steering hop trivial
    exact h.of_eq (takenBack_of_stats (congrArg (·.1) hbooks))

/-- The owner asks for transfers of a channel until there is none to take back. -/
inductive Polled (id : Nat) (direction : Direction) :
    Engine β → List (Completion β) → Engine β → Prop where
  | done {e e' : Engine β} (h : e.pollReclaim id direction = (.ok none, e')) :
      Polled id direction e [] e'
  | more {e e₁ e' : Engine β} {t : Completion β} {rest : List (Completion β)}
      (h : e.pollReclaim id direction = (.ok (some t), e₁))
      (hrest : Polled id direction e₁ rest e') : Polled id direction e (t :: rest) e'

/-- What the channel gives back and what is left of its ring are up to the ring. -/
theorem eq_of_reclaim {result : Option (Completion β)} {c' : Channel β} {m m' : Machine β}
    (h : c.reclaim direction m = (result, c', m')) :
    c' = c.setRing direction (c.ring direction).reclaim.2 ∧
      result = (c.ring direction).reclaim.1.map (·.completion) := by
  unfold Channel.reclaim at h
  split at h
  next r hr =>
    obtain ⟨rfl, hrest⟩ := Prod.mk.inj h
    rw [hr]
    exact ⟨(Prod.mk.inj hrest).1.symm, rfl⟩
  next t r hr =>
    obtain ⟨rfl, hrest⟩ := Prod.mk.inj h
    rw [hr]
    exact ⟨(Prod.mk.inj hrest).1.symm, rfl⟩

/-- What the owner gets and what is left of the channel are up to the channel. -/
theorem of_pollReclaim_ok {result : Option (Completion β)}
    (h : e.pollReclaim id direction = (.ok result, e')) (hc : e.channels[id]? = some c) :
    e'.channels[id]? = some (c.setRing direction (c.ring direction).reclaim.2) ∧
      result = (c.ring direction).reclaim.1.map (·.completion) := by
  have hset (c' : Channel β) : (e.channels.set id c')[id]? = some c' :=
    getElem?_set_of_some hc _
  unfold pollReclaim at h
  split at h
  · cases h
  next d hd =>
    obtain rfl := Option.some.inj (hc.symm.trans (channels_of_usable?_ok hd))
    split at h
    next c' m' hr =>
      obtain ⟨hresult, rfl⟩ := Prod.mk.inj h
      obtain rfl := Except.ok.inj hresult
      obtain ⟨rfl, hresult⟩ := eq_of_reclaim hr
      exact ⟨hset _, hresult⟩
    next t c' m' hr =>
      obtain ⟨hresult, rfl⟩ := Prod.mk.inj h
      obtain rfl := Except.ok.inj hresult
      obtain ⟨rfl, hresult⟩ := eq_of_reclaim hr
      exact ⟨hset _, hresult⟩

/-- Asking takes transfers from the front of one ring and leaves the other one as it is. -/
theorem Polled.rings {ts : List (Completion β)} {q : List (Slot β)}
    (h : Polled id direction e ts e') (hc : e.channels[id]? = some c)
    (hq : (c.ring direction).Carries q) :
    ∃ c', e'.channels[id]? = some c' ∧ (∀ d, d ≠ direction → c'.ring d = c.ring d) ∧
      ts.length ≤ q.length := by
  induction h generalizing c q with
  | done hnone =>
    exact ⟨_, (of_pollReclaim_ok hnone hc).1, fun d hd => Channel.ring_setRing_ne c hd _,
      Nat.zero_le _⟩
  | @more e e₁ e' t ts hsome _ ih =>
    obtain ⟨hc₁, hresult⟩ := of_pollReclaim_ok hsome hc
    cases hr : (c.ring direction).reclaim with
    | mk taken r =>
      rw [hr] at hc₁ hresult
      obtain ⟨u, rfl, -⟩ := Option.map_eq_some_iff.mp hresult.symm
      obtain ⟨rest, rfl, hrest, -⟩ := Ring.carries_of_reclaim_some hq hr
      obtain ⟨c', hc', hother, hlength⟩ := ih hc₁ (by rwa [Channel.ring_setRing])
      refine ⟨c', hc', fun d hd => ?_, Nat.succ_le_succ hlength⟩
      rw [hother d hd, Channel.ring_setRing_ne c hd]

/-! ### Draining -/

/-- The engine in which a channel has been drained, after so many transfers and failures. -/
def drained (e : Engine β) (id : Nat) (d : Drained σ β) (ts : List (Completion β)) : Engine β :=
  (e.put id d.channel d.machine).countCompleted ts.length (ts.countP (·.isError))

theorem usable?_of_up (hup : e.initialized = true) (hc : e.channels[id]? = some c)
    (hdown : e.monitor.downError? id = none) : e.usable? id = .ok c := by
  simp only [usable?, channel?, hup, hc, hdown]
  rfl

/-- The rings of an engine with a history carry their buffers. -/
theorem sound_of_live {config : Config} {m : Machine β} {moments : List (Moment σ β)}
    {seen : Story β} (h : live moments (new config m) = some (seen, e)) : e.plant.Sound :=
  (live_keeps_plant (fun _ _ _ _ _ hrun hsound => hrun.sound hsound)
    (fun _ _ _ hsound => hsound.machine _) (idleEmpty_new config m) h (.empty m)).2

end Engine

end PacketDma
