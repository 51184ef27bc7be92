import PacketDma.Proofs.WatchdogTurn

/-!
# Sticky faults

A running channel begins to report a fault that does not go away. At each of its next turns the
watchdog makes one attempt at recovery, which fails, until the budget of the policy is spent. With
the last attempt the channel goes down, and from then on it is left alone.

## Implementation notes

Between two turns of the watchdog the channel is beset: either the next turn is sure to find it in
error, with room for another attempt, or it is down. A turn leads from one such state to the next.
-/

namespace PacketDma

variable {σ β : Type}

/-! ### Records -/

/-- A policy that leads to attempts at recovery from some faults without being asked for. -/
structure RecoveryPolicy.Tries (policy : RecoveryPolicy) (faults : FaultSet) : Prop where
  auto_eq : policy.autoRecover = true
  action_ne : policy.action ≠ .none
  budget_pos : 1 ≤ policy.maxRetries.toNat
  meets : policy.categories.meets faults = true

namespace ChannelRecord

/-- Some attempts have failed, and the channel reports faults that leave room for another one. -/
structure Ails (r : ChannelRecord) (stuck : FaultSet) (spent : Nat) : Prop where
  state_eq : r.state = .error
  down_eq : r.down = false
  retries_eq : r.retries = spent
  fatal_eq : r.pending.isFatal = false
  contains : r.pending.contains stuck = true

variable {r : ChannelRecord} {stuck : FaultSet} {spent : Nat} {policy : RecoveryPolicy}

theorem unattempted_recordFault (r : ChannelRecord) (faults : FaultSet) (now : Nat) :
    r.Unattempted (r.recordFault faults now).2 := by
  unfold recordFault
  split <;> exact ⟨rfl, rfl, rfl⟩

/-- Another attempt may be claimed as soon as it is time. -/
theorem Ails.mayClaim (h : r.Ails stuck spent) (hpolicy : policy.Tries stuck)
    (hspent : spent < policy.maxRetries.toNat) {now : Nat}
    (hdue : ∀ last, r.lastAttempt = some last →
      policy.retryIntervalMs * 1000 ≤ Instant.since now last) : r.MayClaim policy now := by
  refine ⟨h.down_eq, h.state_eq, h.fatal_eq, h.retries_eq ▸ hspent,
    .inr (FaultSet.meets_of_contains hpolicy.meets h.contains), ?_⟩
  unfold isTooSoon
  split
  next last hlast => exact decide_eq_false (Nat.not_lt.mpr (hdue last hlast))
  next => rfl

/-- What is known of a channel after one more attempt that left faults behind. -/
structure Fails (r : ChannelRecord) (stuck : FaultSet) (budget now : Nat) (s : ChannelRecord) :
    Prop where
  state_eq : s.state = .error
  down_eq : s.down = decide (budget ≤ r.retries + 1)
  retries_eq : s.retries = r.retries + 1
  lastAttempt_eq : s.lastAttempt = some now
  recoveryAttempts_eq : s.stats.recoveryAttempts = Counter.add r.stats.recoveryAttempts 1
  fatal_eq : s.pending.isFatal = false
  contains : s.pending.contains stuck = true

theorem Unattempted.fails {n s : ChannelRecord} {budget now : Nat} (h : r.Unattempted n)
    (hs : n.Fails stuck budget now s) : r.Fails stuck budget now s :=
  ⟨hs.state_eq, h.retries_eq ▸ hs.down_eq, h.retries_eq ▸ hs.retries_eq, hs.lastAttempt_eq,
    h.recoveryAttempts_eq ▸ hs.recoveryAttempts_eq, hs.fatal_eq, hs.contains⟩

theorem Ails.fails (h : r.Ails stuck spent) (hstuck : stuck.isFatal = false) {residual : FaultSet}
    (hresidual : residual = stuck ∨ residual = r.pending) (maxRetries : UInt8) (now : Nat) :
    r.Fails stuck maxRetries.toNat now
      ((r.claimedAt now).onRecoveryFailed residual maxRetries) := by
  have hfatal : residual.isFatal = false := by
    rcases hresidual with rfl | rfl
    · exact hstuck
    · exact h.fatal_eq
  have hcontains : residual.contains stuck = true := by
    rcases hresidual with rfl | rfl
    · exact FaultSet.contains_refl _
    · exact h.contains
  refine ⟨rfl, ?_, rfl, rfl, rfl, ?_, ?_⟩
  · show (r.down || (decide (maxRetries.toNat ≤ r.retries + 1) || residual.isFatal)) = _
    rw [h.down_eq, hfatal, Bool.or_false, Bool.false_or]
  · show (∅ ∪ residual : FaultSet).isFatal = false
    rw [FaultSet.isFatal_union, hfatal, Bool.or_false]
    rfl
  · exact FaultSet.contains_union_of_right hcontains ∅

end ChannelRecord

namespace Engine

variable {e : Engine β} {i : Nat} {policy : RecoveryPolicy} {stuck : FaultSet} {p q : Entry β}

/-! ### A turn of the watchdog -/

/-- Some attempts have failed, and the channel will be found to report faults that leave room for
another one: its rings run, or the faults were noticed before. -/
structure Suffers (stuck : FaultSet) (spent : Nat) (p : Entry β) : Prop where
  down_eq : p.2.down = false
  retries_eq : p.2.retries = spent
  fatal_eq : p.2.pending.isFatal = false
  shown : p.1.running = true ∧ (p.2.state = .running ∨ p.2.state = .error) ∨
    p.2.state = .error ∧ p.2.pending.contains stuck = true

variable {spent : Nat}

theorem Suffers.look (h : Suffers stuck spent p) (m : Monitor) (now : Nat) :
    Suffers stuck spent (p.1, m.look now p.2) := by
  have hretries := (unattempted_look m now p.2).retries_eq.trans h.retries_eq
  refine ⟨(m.down_look now p.2).trans h.down_eq, hretries, ?_, ?_⟩
  · unfold Monitor.look
    split
    · exact (FaultSet.isFatal_union _ _).trans (Bool.or_eq_false_iff.mpr ⟨h.fatal_eq, rfl⟩)
    · exact h.fatal_eq
  · unfold Monitor.look
    split
    · refine h.shown.imp (fun ⟨hrun, _⟩ => ⟨hrun, .inr rfl⟩) fun ⟨_, hcontains⟩ => ⟨rfl, ?_⟩
      exact FaultSet.contains_union_of_left hcontains _
    · exact h.shown

theorem Suffers.ails (h : Suffers stuck spent p) (hfaulty : stuck.isEmpty = false)
    (hfatal : stuck.isFatal = false) (now : Nat) : (noticed stuck now p).2.Ails stuck spent := by
  unfold noticed
  split
  next hrun =>
    have hstate : p.2.state = .running ∨ p.2.state = .error := h.shown.elim (·.2) fun h => .inr h.1
    unfold ChannelRecord.recordFault
    rw [hfaulty, hfatal]
    refine ⟨?_, (Bool.or_false _).trans h.down_eq, h.retries_eq, ?_, ?_⟩
    · show (if p.2.state = .running then ChannelState.error else p.2.state) = .error
      split
      next => rfl
      next hne => exact hstate.resolve_left hne
    · exact (FaultSet.isFatal_union _ _).trans (Bool.or_eq_false_iff.mpr ⟨h.fatal_eq, hfatal⟩)
    · exact FaultSet.contains_union_of_right (FaultSet.contains_refl stuck) _
  next hrun =>
    obtain ⟨hstate, hcontains⟩ := h.shown.resolve_left fun hs => hrun hs.1
    exact ⟨hstate, h.down_eq, h.retries_eq, h.fatal_eq, hcontains⟩

theorem unattempted_noticed (stuck : FaultSet) (m : Monitor) (now : Nat) (p : Entry β) :
    p.2.Unattempted (noticed stuck now (p.1, m.look now p.2)).2 := by
  refine (unattempted_look m now p.2).trans ?_
  unfold noticed
  split
  · exact (m.look now p.2).unattempted_recordFault stuck now
  · exact .refl _

section Turn

variable (hopen : e.work.isOpen = true) (hp : e.entryAt i = some p)
  (hpolicy : e.policies.get? i = some policy)
  (hstuck : e.machine.registers.Stuck (p.1.registers.offset .errorStatus) stuck)
  (hlength : e.channels.length ≤ maxChannels) (htries : policy.Tries stuck)
  (hfaulty : stuck.isEmpty = false) (hfatal : stuck.isFatal = false)
include hopen hp hpolicy hstuck hlength htries hfaulty hfatal

/-- As long as the budget lasts, a turn makes one attempt, which fails. -/
theorem fails_watchdogTick (h : Suffers stuck spent p) (hspent : spent < policy.maxRetries.toNat)
    (hdue : ∀ last, p.2.lastAttempt = some last →
      policy.retryIntervalMs * 1000 ≤ Instant.since (e.attemptTime i) last) :
    ∃ q, p.2.Fails stuck policy.maxRetries.toNat (e.attemptTime i) q.2 ∧
      Finds i policy stuck (some (if q.2.down then .down else .failed)) q e.watchdogTick := by
  have hsurveyed := finds_surveyed hp hpolicy hstuck hlength (fun _ => h.down_eq) hfaulty hfatal
  have hails := (h.look e.monitor e.machine.clock.now).ails hfaulty hfatal e.machine.clock.now
  have htried := unattempted_noticed stuck e.monitor e.machine.clock.now p
  generalize noticed stuck e.machine.clock.now _ = n at hsurveyed hails htried
  have hreached := finds_reached hsurveyed
  have hmay : n.2.MayClaim policy (e.attemptTime i) := by
    refine hails.mayClaim htries hspent ?_
    rwa [htried.lastAttempt_eq]
  obtain ⟨residual, d, s, hs, hresidual, hplace, hentry, houtcome⟩ := attemptRecovery_stuck
    hreached.entry_eq hreached.policy_eq htries.action_ne hfaulty hreached.stuck_at hmay
  have hfails : n.2.Fails stuck policy.maxRetries.toNat (e.attemptTime i) s :=
    hs ▸ hails.fails hfatal hresidual policy.maxRetries (e.attemptTime i)
  refine ⟨(d, s), htried.fails hfails, finds_watchdogTick hopen hsurveyed ?_⟩
  rw [← houtcome]
  refine hreached.attempted hails.state_eq htries.auto_eq hentry hplace ?_
  rw [houtcome]
  split
  · exact .inr (.inr rfl)
  · exact .inr (.inl rfl)

/-- A turn makes no attempt on a channel that is down. -/
theorem rests_watchdogTick (hstate : p.2.state = .error) (hdown : p.2.down = true)
    (hhalted : p.1.running = false) :
    ∃ q, p.2.Unattempted q.2 ∧ q.2.state = .error ∧ q.2.down = true ∧
      Finds i policy stuck (some .down) q e.watchdogTick := by
  have hsurveyed := finds_surveyed hp hpolicy hstuck hlength
    (fun hrun => absurd (hhalted.symm.trans hrun) Bool.false_ne_true) hfaulty hfatal
  rw [noticed, if_neg (by simp [hhalted])] at hsurveyed
  have htried := unattempted_look e.monitor e.machine.clock.now p.2
  have hstate : (e.monitor.look e.machine.clock.now p.2).state = .error := by
    rw [Monitor.state_look, hstate, ite_self]
  have hdown := (e.monitor.down_look e.machine.clock.now p.2).trans hdown
  generalize e.monitor.look e.machine.clock.now p.2 = r at hsurveyed htried hstate hdown
  have hreached := finds_reached hsurveyed
  obtain ⟨d, hplace, hentry, houtcome⟩ := attemptRecovery_down hreached.entry_eq
    hreached.policy_eq htries.action_ne hdown
  refine ⟨(d, r), htried, hstate, hdown, finds_watchdogTick hopen hsurveyed ?_⟩
  rw [← houtcome]
  exact hreached.attempted hstate htries.auto_eq hentry hplace (houtcome ▸ .inr (.inr rfl))

end Turn

/-! ### Runs of the watchdog -/

/-- A channel is left alone: nothing is done to it or learned of it, and its faults do not go
away. -/
structure Spares (i : Nat) (stuck : FaultSet) (e e' : Engine β) : Prop where
  record_eq : e'.monitor.records[i]? = e.monitor.records[i]?
  running_eq : (e'.channels[i]?).map (·.running) = (e.channels[i]?).map (·.running)
  policy_eq : e'.policies.get? i = e.policies.get? i
  stuck_at : ∀ c : Channel β, e'.channels[i]? = some c →
    e'.machine.registers.Stuck (c.registers.offset .errorStatus) stuck

/-- The second engine is the first one after some turns of the watchdog, which began at these
engines. Between two turns anything may happen that leaves the channel alone. -/
inductive Watched (σ : Type) (i : Nat) (stuck : FaultSet) (e : Engine β) :
    List (Engine β) → Engine β → Prop where
  | nil : Watched σ i stuck e [] e
  | turn {turns : List (Engine β)} {e' : Engine β} (h : Watched σ i stuck e turns e') :
      Watched σ i stuck e (turns ++ [e']) e'.watchdogTick.2
  | aside {turns : List (Engine β)} {e' e'' : Engine β} {moment : Moment σ β} {seen : Story β}
      (h : Watched σ i stuck e turns e') (hpass : moment.pass e' = some (seen, e''))
      (hspares : Spares i stuck e' e'') : Watched σ i stuck e turns e''

/-- When the watchdog comes to the channel, the last attempt lies far enough back for another
one. -/
def IsDue (i : Nat) (policy : RecoveryPolicy) (e : Engine β) : Prop :=
  ∀ r last, e.monitor.records[i]? = some r → r.lastAttempt = some last →
    policy.retryIntervalMs * 1000 ≤ Instant.since (e.attemptTime i) last

/-- What a turn of the watchdog makes of a channel whose faults do not go away, after as many turns
as given. The channel had seen `attempts` attempts before the first one. -/
structure Futile (i budget attempts turn : Nat) (e : Engine β) (p q : Entry β) : Prop where
  /-- As long as the budget lasts, one attempt is made. -/
  attempted : turn < budget → q.2.retries = p.2.retries + 1 ∧
    q.2.lastAttempt = some (e.attemptTime i) ∧
    q.2.stats.recoveryAttempts = Counter.add p.2.stats.recoveryAttempts 1
  /-- After that, none is. -/
  unattempted : budget ≤ turn → p.2.Unattempted q.2
  /-- The attempts so far. The counter of all attempts stops at its limit. -/
  retries_eq : q.2.retries = min (turn + 1) budget
  recoveryAttempts_eq : q.2.stats.recoveryAttempts = Counter.add attempts (min (turn + 1) budget)
  /-- The report tells of a failure, or from the last attempt on, that the channel is down. -/
  tells_iff : ∀ outcome, e.watchdogTick.1.tally.tells i outcome = true ↔
    outcome = if turn + 1 < budget then .failed else .down
  /-- The channel is in error. -/
  state_eq : q.2.state = .error
  /-- The channel is down from the last attempt on, and then its rings are halted. -/
  down_iff : q.2.down = true ↔ budget ≤ turn + 1
  halted : budget ≤ turn + 1 → q.1.running = false ∧
    ∀ direction, (q.1.ring direction).enabled = false

/-- What holds, between two turns of the watchdog, of a channel whose faults do not go away. -/
structure Beset (i : Nat) (policy : RecoveryPolicy) (stuck : FaultSet) (attempts turns : Nat)
    (e : Engine β) (p : Entry β) : Prop where
  steady : e.Steady
  entry_eq : e.entryAt i = some p
  policy_eq : e.policies.get? i = some policy
  stuck_at : e.machine.registers.Stuck (p.1.registers.offset .errorStatus) stuck
  suffers : turns < policy.maxRetries.toNat → Suffers stuck turns p ∧
    ∀ n, Counter.add p.2.stats.recoveryAttempts n = Counter.add attempts (turns + n)
  rests : policy.maxRetries.toNat ≤ turns → p.2.state = .error ∧ p.2.down = true ∧
    p.2.retries = policy.maxRetries.toNat ∧
    p.2.stats.recoveryAttempts = Counter.add attempts policy.maxRetries.toNat

namespace Beset

variable {attempts turns : Nat}

/-- What leaves the channel alone leaves it beset. -/
theorem spared {moment : Moment σ β} {e' : Engine β} {seen : Story β}
    (h : Beset i policy stuck attempts turns e p) (hpass : moment.pass e = some (seen, e'))
    (hspares : Spares i stuck e e') : ∃ q, Beset i policy stuck attempts turns e' q := by
  obtain ⟨hc, hr⟩ := entryAt_eq_some.mp h.entry_eq
  have hrunning := hspares.running_eq
  rw [hc, Option.map_some] at hrunning
  obtain ⟨d, hd, hrunning⟩ := Option.map_eq_some_iff.mp hrunning
  refine ⟨(d, p.2), h.steady.pass hpass, entryAt_of_record hd (hspares.record_eq.trans hr),
    hspares.policy_eq.trans h.policy_eq, hspares.stuck_at d hd, fun hturns => ?_, h.rests⟩
  obtain ⟨hs, hcounted⟩ := h.suffers hturns
  exact ⟨⟨hs.down_eq, hs.retries_eq, hs.fatal_eq, hrunning ▸ hs.shown⟩, hcounted⟩

theorem watched (h : Beset i policy stuck attempts turns e p) : e.watchdogTick.2.Steady :=
  h.steady.pass (show (Moment.operate .watchdogTick : Moment Unit β).pass e = _ from rfl)

variable (hopen : e.work.isOpen = true) (htries : policy.Tries stuck)
  (hfaulty : stuck.isEmpty = false) (hfatal : stuck.isFatal = false)
include hopen htries hfaulty hfatal

/-- A turn within the budget spends one attempt of it. -/
theorem turn_within (h : Beset i policy stuck attempts turns e p)
    (hturns : turns < policy.maxRetries.toNat) (hdue : IsDue i policy e) :
    ∃ q, Futile i policy.maxRetries.toNat attempts turns e p q ∧
      Beset i policy stuck attempts (turns + 1) e.watchdogTick.2 q := by
  have hsteady := h.watched
  obtain ⟨hs, hcounted⟩ := h.suffers hturns
  obtain ⟨q, hfails, hfinds⟩ := fails_watchdogTick hopen h.entry_eq h.policy_eq h.stuck_at
    h.steady.coherent.length_le htries hfaulty hfatal hs hturns
    fun last => hdue p.2 last (entryAt_eq_some.mp h.entry_eq).2
  have hretries : q.2.retries = turns + 1 := by rw [hfails.retries_eq, hs.retries_eq]
  have hattempts : q.2.stats.recoveryAttempts = Counter.add attempts (turns + 1) :=
    hfails.recoveryAttempts_eq.trans (hcounted 1)
  have hdown : q.2.down = decide (policy.maxRetries.toNat ≤ turns + 1) := by
    rw [hfails.down_eq, hs.retries_eq]
  refine ⟨q, ?_, hsteady, hfinds.entry_eq, hfinds.policy_eq, hfinds.stuck_at, ?_, ?_⟩
  · constructor
    · exact fun _ => ⟨hfails.retries_eq, hfails.lastAttempt_eq, hfails.recoveryAttempts_eq⟩
    · exact fun hle => absurd hturns (Nat.not_lt.mpr hle)
    · rw [hretries, Nat.min_eq_left hturns]
    · rw [hattempts, Nat.min_eq_left hturns]
    · intro outcome
      rw [hfinds.tells_iff, hdown, Option.some_inj, eq_comm]
      simp only [decide_eq_true_eq, ← Nat.not_lt, ite_not]
    · exact hfails.state_eq
    · rw [hdown, decide_eq_true_eq]
    · intro hle
      exact hsteady.coherent.halted hfinds.entry_eq (.inr (.inr (hdown.trans (decide_eq_true hle))))
  · intro hlt
    refine ⟨⟨?_, hretries, hfails.fatal_eq, .inr ⟨hfails.state_eq, hfails.contains⟩⟩, fun n => ?_⟩
    · exact hdown.trans (decide_eq_false (Nat.not_le.mpr hlt))
    · rw [hattempts, Counter.add_add]
  · intro hle
    have hlast : policy.maxRetries.toNat = turns + 1 := Nat.le_antisymm hle hturns
    exact ⟨hfails.state_eq, hdown.trans (decide_eq_true hle), hlast ▸ hretries, hlast ▸ hattempts⟩

/-- A turn beyond the budget leaves the channel down. -/
theorem turn_beyond (h : Beset i policy stuck attempts turns e p)
    (hturns : policy.maxRetries.toNat ≤ turns) :
    ∃ q, Futile i policy.maxRetries.toNat attempts turns e p q ∧
      Beset i policy stuck attempts (turns + 1) e.watchdogTick.2 q := by
  have hsteady := h.watched
  obtain ⟨hstate, hdown, hretries, hattempts⟩ := h.rests hturns
  obtain ⟨hhalted, -⟩ := h.steady.coherent.halted h.entry_eq (.inr (.inr hdown))
  obtain ⟨q, htried, hstate, hdown, hfinds⟩ := rests_watchdogTick hopen h.entry_eq h.policy_eq
    h.stuck_at h.steady.coherent.length_le htries hfaulty hfatal hstate hdown hhalted
  have hnext : policy.maxRetries.toNat ≤ turns + 1 := Nat.le_succ_of_le hturns
  have hretries := htried.retries_eq.trans hretries
  have hattempts := htried.recoveryAttempts_eq.trans hattempts
  refine ⟨q, ?_, hsteady, hfinds.entry_eq, hfinds.policy_eq, hfinds.stuck_at, ?_, ?_⟩
  · constructor
    · exact fun hlt => absurd hlt (Nat.not_lt.mpr hturns)
    · exact fun _ => htried
    · rw [hretries, Nat.min_eq_right hnext]
    · rw [hattempts, Nat.min_eq_right hnext]
    · intro outcome
      rw [hfinds.tells_iff, if_neg (Nat.not_lt.mpr hnext), Option.some_inj, eq_comm]
    · exact hstate
    · exact ⟨fun _ => hnext, fun _ => hdown⟩
    · exact fun _ => hsteady.coherent.halted hfinds.entry_eq (.inr (.inr hdown))
  · exact fun hlt => absurd hlt (Nat.not_lt.mpr hnext)
  · exact fun _ => ⟨hstate, hdown, hretries, hattempts⟩

end Beset

/-- Every turn of a run of the watchdog is futile. -/
theorem Watched.futile {attempts : Nat} {turns : List (Engine β)} {e' : Engine β}
    (hrun : Watched σ i stuck e turns e') (h : Beset i policy stuck attempts 0 e p)
    (htries : policy.Tries stuck) (hfaulty : stuck.isEmpty = false) (hfatal : stuck.isFatal = false)
    (hopen : ∀ f ∈ turns, f.work.isOpen = true)
    (hdue : ∀ k f, turns[k]? = some f → k < policy.maxRetries.toNat → IsDue i policy f) :
    (∃ q, Beset i policy stuck attempts turns.length e' q) ∧
      ∀ k f, turns[k]? = some f → ∃ p q, f.entryAt i = some p ∧
        f.watchdogTick.2.entryAt i = some q ∧
        Futile i policy.maxRetries.toNat attempts k f p q := by
  -- Along the run the channel is beset, with as many turns counted as the list has.
  induction hrun with
  | nil => exact ⟨⟨p, h⟩, by simp⟩
  | @turn turns f _ ih =>
    have hlast : (turns ++ [f])[turns.length]? = some f := List.getElem?_concat_length
    obtain ⟨⟨p, hbeset⟩, hturns⟩ := ih (fun g hg => hopen g (List.mem_append_left _ hg))
      fun k g hg => hdue k g ((List.getElem?_append_left
        (List.getElem?_eq_some_iff.mp hg).1).trans hg)
    obtain ⟨q, hfutile, hnext⟩ : ∃ q,
        Futile i policy.maxRetries.toNat attempts turns.length f p q ∧
          Beset i policy stuck attempts (turns.length + 1) f.watchdogTick.2 q := by
      have hopen : f.work.isOpen = true := hopen f (by simp)
      rcases Nat.lt_or_ge turns.length policy.maxRetries.toNat with hlt | hle
      · exact hbeset.turn_within hopen htries hfaulty hfatal hlt (hdue turns.length f hlast hlt)
      · exact hbeset.turn_beyond hopen htries hfaulty hfatal hle
    rw [List.length_append, List.length_singleton]
    refine ⟨⟨q, hnext⟩, fun k g hg => ?_⟩
    rcases Nat.lt_trichotomy k turns.length with hk | rfl | hk
    · rw [List.getElem?_append_left hk] at hg
      exact hturns k g hg
    · obtain rfl := Option.some.inj (hlast.symm.trans hg)
      exact ⟨p, q, hbeset.entry_eq, hnext.entry_eq, hfutile⟩
    · have hlt := (List.getElem?_eq_some_iff.mp hg).1
      rw [List.length_append, List.length_singleton] at hlt
      exact absurd hlt (Nat.not_lt.mpr hk)
  | aside _ hpass hspares ih =>
    obtain ⟨⟨q, hbeset⟩, hturns⟩ := ih hopen hdue
    exact ⟨hbeset.spared hpass hspares, hturns⟩

/-- A running channel begins to report faults that do not go away. Of the turns of the watchdog that
follow, each makes one attempt and reports a failure, until the budget is spent. The last attempt
takes the channel down, and the turns after it make none. -/
theorem sticky_fault_exhausts_budget {config : Config} {m : Machine β}
    {moments : List (Moment σ β)} {told : Story β} {e e' : Engine β} {turns : List (Engine β)}
    {c : Channel β} {r : ChannelRecord}
    (h : live moments (new config m) = some (told, e)) (hc : e.channels[i]? = some c)
    (hr : e.monitor.records[i]? = some r) (hstate : r.state = .running) (hretries : r.retries = 0)
    (hpending : r.pending.isFatal = false)
    (hstuck : e.machine.registers.Stuck (c.registers.offset .errorStatus) stuck)
    (hfaulty : stuck.isEmpty = false) (hfatal : stuck.isFatal = false)
    (hpolicy : e.policies.get? i = some policy) (htries : policy.Tries stuck)
    (hrun : Watched σ i stuck e turns e') (hopen : ∀ f ∈ turns, f.work.isOpen = true)
    (hdue : ∀ k f, turns[k]? = some f → k < policy.maxRetries.toNat → IsDue i policy f) :
    ∀ k f, turns[k]? = some f → ∃ p q, f.entryAt i = some p ∧
      f.watchdogTick.2.entryAt i = some q ∧
      Futile i policy.maxRetries.toNat r.stats.recoveryAttempts k f p q := by
  have hsteady := steady_of_live h
  obtain ⟨hrunning, hdown⟩ := (hsteady.coherent.fits i c r hc hr).of_running hstate
  have hbeset : Beset i policy stuck r.stats.recoveryAttempts 0 e (c, r) :=
    ⟨hsteady, entryAt_of_record hc hr, hpolicy, hstuck,
      fun _ => ⟨⟨hdown, hretries, hpending, .inl ⟨hrunning, .inl hstate⟩⟩, fun n => by
        rw [Nat.zero_add]⟩,
      fun hbudget => absurd htries.budget_pos (Nat.not_le.mpr (Nat.lt_succ_of_le hbudget))⟩
  exact (hrun.futile hbeset htries hfaulty hfatal hopen hdue).2

/-- A policy that allows two attempts. -/
def twoAttempts : RecoveryPolicy := { RecoveryPolicy.standard with maxRetries := 2 }

/-- A channel of which packet data stays damaged. -/
def stickyTrip : List (Moment Unit Nat) :=
  [.operate (.init 0 1), .operate .start, .operate (.setRecoveryPolicy 0 twoAttempts),
    .disturb (.registers fun f => f.holdFaults 0 Fault.data.bit)]

/-- The engine at a later time, after a turn of the watchdog. -/
def afterTurn (e : Engine Nat) : Engine Nat :=
  (Disturbance.clock ⟨1000000, 1⟩).apply e.watchdogTick.2

theorem sticky_fault_exhausts_budget_trip : ∃ told e q,
    live stickyTrip (new .bench .bench) = some (told, e) ∧
      e.afterTurn.watchdogTick.2.entryAt 0 = some q ∧ q.2.retries = 2 ∧ q.2.down = true ∧
      q.1.running = false ∧ e.afterTurn.watchdogTick.1.tally.tells 0 .down = true := by
  -- Engines cannot be compared, so what is evaluated are a few of their fields.
  have hchannel : (live stickyTrip (new .bench .bench)).map (fun r =>
      (r.2.channels.map (·.registers.offset .errorStatus),
        r.2.afterTurn.channels.map (·.registers.offset .errorStatus), r.2.policies.get? 0)) =
        some ([4104], [4104], some twoAttempts) := by decide +kernel
  have hrecord : (live stickyTrip (new .bench .bench)).map (fun r => r.2.monitor.records.map
      fun r => (r.state, r.retries, r.pending, r.lastAttempt)) =
        some [(.running, 0, ∅, none)] := by decide +kernel
  have hregisters : (live stickyTrip (new .bench .bench)).map (fun r =>
      (r.2.machine.registers.isClearedByOnes 4104, r.2.machine.registers.deviceOffset .status,
        r.2.machine.registers.held.get 4104, r.2.machine.registers.stored.get 4104)) =
        some (true, 4, Fault.data.bit, 0) := by decide +kernel
  have hturns : (live stickyTrip (new .bench .bench)).map (fun r =>
      (r.2.work.isOpen, r.2.afterTurn.work.isOpen, r.2.afterTurn.attemptTime 0,
        r.2.afterTurn.monitor.records.map (·.lastAttempt))) =
        some (true, true, 1000001, [some 14]) := by decide +kernel
  obtain ⟨⟨told, e⟩, h, hchannel⟩ := Option.map_eq_some_iff.mp hchannel
  rw [h] at hrecord hregisters hturns
  obtain ⟨hoffsets, hchannel⟩ := Prod.mk.inj hchannel
  obtain ⟨hoffsets', hpolicy⟩ := Prod.mk.inj hchannel
  obtain ⟨hcleared, hregisters⟩ := Prod.mk.inj (Option.some.inj hregisters)
  obtain ⟨hstatus, hregisters⟩ := Prod.mk.inj hregisters
  obtain ⟨hheld, hstored⟩ := Prod.mk.inj hregisters
  obtain ⟨hopen, hturns⟩ := Prod.mk.inj (Option.some.inj hturns)
  obtain ⟨hopen', hturns⟩ := Prod.mk.inj hturns
  obtain ⟨htime, hlast⟩ := Prod.mk.inj hturns
  obtain ⟨c, hc, hoffset⟩ := Option.map_eq_some_iff.mp
    (List.getElem?_map.symm.trans (congrArg (·[0]?) hoffsets))
  obtain ⟨r, hr, hknown⟩ := Option.map_eq_some_iff.mp
    (List.getElem?_map.symm.trans (congrArg (·[0]?) (Option.some.inj hrecord)))
  obtain ⟨hstate, hknown⟩ := Prod.mk.inj hknown
  obtain ⟨hretries, hknown⟩ := Prod.mk.inj hknown
  obtain ⟨hpending, hnone⟩ := Prod.mk.inj hknown
  have hstuck : e.machine.registers.Stuck 4104 (.single .data) := by
    refine RegisterFile.stuck_of_held hcleared ?_ ?_ ?_
    · rw [hstatus]
      decide
    · rw [hheld]
      rfl
    · rw [hstored]
      rfl
  have hspares : Spares 0 (.single .data) e.watchdogTick.2 e.afterTurn := by
    refine ⟨rfl, rfl, rfl, fun d hd => ?_⟩
    have hworks : Works (fun _ => True) e _ e.watchdogTick.2 := works_watchdogTick e
    have hoffset' : d.registers.offset .errorStatus = 4104 := by
      have hmap := congrArg (·[0]?) hoffsets'
      rw [List.getElem?_map, hd] at hmap
      exact Option.some.inj hmap
    rw [hoffset']
    exact hstuck.of_reaches hworks.run.reaches
  have hrun : Watched Unit 0 (.single .data) e [e, e.afterTurn] e.afterTurn.watchdogTick.2 :=
    .turn (.aside (.turn .nil)
      (show (Moment.disturb (.clock ⟨1000000, 1⟩) : Moment Unit Nat).pass _ = _ from rfl) hspares)
  have hdue (k : Nat) (f : Engine Nat) (hf : [e, e.afterTurn][k]? = some f) :
      IsDue 0 twoAttempts f := by
    intro s last hs hattempt
    match k with
    | 0 =>
      obtain rfl := Option.some.inj hf
      obtain rfl := Option.some.inj (hr.symm.trans hs)
      cases hnone.symm.trans hattempt
    | 1 =>
      obtain rfl := Option.some.inj hf
      have hmap := congrArg (·[0]?) hlast
      rw [List.getElem?_map, hs] at hmap
      obtain rfl := Option.some.inj (hattempt.symm.trans (Option.some.inj hmap))
      rw [htime]
      decide
    | k + 2 => cases hf
  obtain ⟨p, q, -, hq, hfutile⟩ := sticky_fault_exhausts_budget h hc hr hstate hretries
    (by rw [hpending]; decide) (hoffset ▸ hstuck) (by decide) (by decide) hpolicy
    ⟨rfl, by decide, by decide, by decide⟩ hrun
    (by simp only [List.mem_cons, List.not_mem_nil, or_false]; rintro f (rfl | rfl) <;> assumption)
    (fun k f hf _ => hdue k f hf) 1 e.afterTurn rfl
  exact ⟨told, e, q, h, hq, hfutile.retries_eq, hfutile.down_iff.mpr (by decide),
    (hfutile.halted (by decide)).1, (hfutile.tells_iff .down).mpr rfl⟩

end Engine

end PacketDma
