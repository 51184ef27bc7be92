import PacketDma.Proofs.StuckFaults

/-!
# Turns of the watchdog

A turn of the watchdog looks for stalled channels, asks running channels for faults, and then comes
to recover the channels in error, one after the other. What it makes of one channel is settled at
three points, and the report tells of it. At all other points it attends to other channels.

## Implementation notes

Time passes within a turn, so whether an attempt may be made is decided by the clock at the moment
at which the watchdog comes to the channel. The engine at that moment is given a name.
-/

namespace PacketDma

variable {β : Type}

/-! ### Tallies -/

/-- Whether an outcome is worth telling. -/
def RecoveryOutcome.IsTold (outcome : RecoveryOutcome) : Prop :=
  outcome = .recovered ∨ outcome = .failed ∨ outcome = .down

namespace RecoveryTally

/-- Whether a tally tells of an outcome for a channel. -/
def tells (t : RecoveryTally) (i : Nat) : RecoveryOutcome → Bool
  | .recovered => t.recovered.contains i
  | .failed => t.failed.contains i
  | .down => t.down.contains i
  | .deferred | .notNeeded | .skipped => false

variable {i j : Nat}

theorem tells_none (i : Nat) (told : RecoveryOutcome) : none.tells i told = false := by
  cases told <;> first | rfl | exact ChannelMask.contains_empty i

theorem tells_record_other (t : RecoveryTally) (hi : i < maxChannels) (hj : j < maxChannels)
    (hne : j ≠ i) (outcome told : RecoveryOutcome) :
    (t.record j outcome).tells i told = t.tells i told := by
  have hinsert (m : ChannelMask) : (m.insert j).contains i = m.contains i := by
    rw [m.contains_insert (Nat.lt_trans hi (by decide)) (Nat.lt_trans hj (by decide)),
      decide_eq_false hne, Bool.or_false]
  cases outcome <;> cases told <;> first | rfl | exact hinsert _

theorem tells_record_self (t : RecoveryTally) (hi : i < maxChannels) {outcome : RecoveryOutcome}
    (houtcome : outcome.IsTold) (told : RecoveryOutcome) :
    (t.record i outcome).tells i told = (t.tells i told || decide (outcome = told)) := by
  have hinsert (m : ChannelMask) : (m.insert i).contains i = true := by
    rw [m.contains_insert (Nat.lt_trans hi (by decide)) (Nat.lt_trans hi (by decide)),
      decide_eq_true rfl, Bool.or_true]
  rcases houtcome with rfl | rfl | rfl <;> cases told <;>
    simp [tells, record, hinsert]

end RecoveryTally

/-! ### Loops over channels -/

section Loops

variable {α : Type} {turn : α → Nat → α} {before after : α → Prop} {i n : Nat} {a : α}

/-- What every turn keeps, the loop keeps. -/
theorem foldl_range_keeps (hturn : ∀ a j, j < n → before a → before (turn a j)) (ha : before a) :
    before ((List.range n).foldl turn a) := by
  induction n with
  | zero => exact ha
  | succ n ih =>
    rw [List.range_succ, List.foldl_concat]
    exact hturn _ n (Nat.lt_succ_self n) (ih fun a j hj => hturn a j (Nat.lt_succ_of_lt hj))

/-- One turn brings something about, and the turns after it keep it. -/
theorem foldl_range_brings (hi : i < n) (hown : after (turn ((List.range i).foldl turn a) i))
    (hturn : ∀ a j, j < n → j ≠ i → after a → after (turn a j)) :
    after ((List.range n).foldl turn a) := by
  induction n with
  | zero => exact absurd hi (Nat.not_lt_zero i)
  | succ n ih =>
    rw [List.range_succ, List.foldl_concat]
    rcases Nat.lt_succ_iff_lt_or_eq.mp hi with hlt | rfl
    · exact hturn _ n (Nat.lt_succ_self n) (Nat.ne_of_gt hlt)
        (ih hlt fun a j hj => hturn a j (Nat.lt_succ_of_lt hj))
    · exact hown

end Loops

/-! ### The parts of a turn -/

namespace Engine

/-- The watchdog's turn up to the point at which it comes to recover a channel. -/
def reached (e : Engine β) (i : Nat) : WatchdogReport × Engine β :=
  (List.range i).foldl recoverInError e.surveyed

/-- When the watchdog comes to recover a channel. -/
def attemptTime (e : Engine β) (i : Nat) : Nat := (e.reached i).2.machine.clock.now

theorem tally_inspectChannel (now : Nat) (acc : WatchdogReport × Engine β) (j : Nat) :
    ∃ outcome, (inspectChannel now acc j).1.tally = acc.1.tally.record j outcome := by
  obtain ⟨report, e⟩ := acc
  have hprobe (c : Channel β) : (probeFaults j now c report e).1.tally = report.tally := by
    unfold probeFaults
    split
    · rfl
    · dsimp only
      split <;> rfl
  unfold inspectChannel
  dsimp only
  split
  · exact ⟨.skipped, rfl⟩
  next c _ =>
    split
    · exact ⟨.skipped, rfl⟩
    · split
      · exact ⟨.down, by rw [hprobe]⟩
      · exact ⟨.skipped, hprobe c⟩

theorem tally_recoverInError (acc : WatchdogReport × Engine β) (j : Nat) :
    ∃ outcome, (recoverInError acc j).1.tally = acc.1.tally.record j outcome := by
  obtain ⟨report, e⟩ := acc
  unfold recoverInError autoRecover
  dsimp only
  split
  · split
    · exact ⟨_, rfl⟩
    · exact ⟨.skipped, rfl⟩
  · exact ⟨.skipped, rfl⟩

/-- What the watchdog finds, in the midst of its turn, of a channel whose faults do not go away. -/
structure Finds (i : Nat) (policy : RecoveryPolicy) (stuck : FaultSet)
    (told : Option RecoveryOutcome) (p : Entry β) (acc : WatchdogReport × Engine β) : Prop where
  entry_eq : acc.2.entryAt i = some p
  policy_eq : acc.2.policies.get? i = some policy
  stuck_at : acc.2.machine.registers.Stuck (p.1.registers.offset .errorStatus) stuck
  length_le : acc.2.channels.length ≤ maxChannels
  tells_iff : ∀ outcome, acc.1.tally.tells i outcome = true ↔ told = some outcome

variable {e : Engine β} {i : Nat} {policy : RecoveryPolicy} {stuck : FaultSet}
  {told told' : Option RecoveryOutcome} {p q : Entry β} {acc acc' : WatchdogReport × Engine β}
  {story : Story β}

namespace Finds

theorem lt (h : Finds i policy stuck told p acc) : i < acc.2.channels.length :=
  (List.getElem?_eq_some_iff.mp (entryAt_eq_some.mp h.entry_eq).1).1

/-- Whatever is done next, policy and register stay as they are. -/
theorem step (h : Finds i policy stuck told p acc)
    (hworks : Works (fun _ => True) acc.2 story acc'.2)
    (hentry : acc'.2.entryAt i = some q) (hplace : q.1.registers = p.1.registers)
    (htells : ∀ outcome, acc'.1.tally.tells i outcome = true ↔ told' = some outcome) :
    Finds i policy stuck told' q acc' := by
  refine ⟨hentry, by rw [hworks.policies_eq, h.policy_eq], ?_, hworks.run.length_le h.length_le,
    htells⟩
  rw [hplace]
  exact h.stuck_at.of_reaches hworks.run.reaches

/-- What is done about another channel is of no concern. -/
theorem other (h : Finds i policy stuck told p acc) {j : Nat} {allowed : Entry β → Entry β → Prop}
    (hj : j < maxChannels) (hne : j ≠ i)
    (hworks : Works (fun _ => True) acc.2 story acc'.2)
    (htouch : Touches j allowed acc.2 acc'.2)
    (htally : ∃ outcome, acc'.1.tally = acc.1.tally.record j outcome) :
    Finds i policy stuck told p acc' := by
  refine h.step hworks ((htouch.other i hne.symm).trans h.entry_eq) rfl fun told => ?_
  obtain ⟨outcome, htally⟩ := htally
  rw [htally, RecoveryTally.tells_record_other _ (Nat.lt_of_lt_of_le h.lt h.length_le) hj hne]
  exact h.tells_iff told

theorem inspect_other (h : Finds i policy stuck told p acc) {j : Nat} (hj : j < maxChannels)
    (hne : j ≠ i) (now : Nat) : Finds i policy stuck told p (inspectChannel now acc j) :=
  h.other hj hne (works_inspectChannel now acc j) (touches_inspectChannel now acc j)
    (tally_inspectChannel now acc j)

theorem recover_other (h : Finds i policy stuck told p acc) {j : Nat} (hj : j < maxChannels)
    (hne : j ≠ i) : Finds i policy stuck told p (recoverInError acc j) :=
  h.other hj hne (works_recoverInError acc j) (touches_recoverInError acc j)
    (tally_recoverInError acc j)

end Finds

/-- What the watchdog makes of a channel when it looks for faults. -/
def noticed (stuck : FaultSet) (now : Nat) (p : Entry β) : Entry β :=
  if p.1.running then (p.1, (p.2.recordFault stuck now).2) else p

theorem registers_noticed (stuck : FaultSet) (now : Nat) (p : Entry β) :
    (noticed stuck now p).1.registers = p.1.registers := by
  unfold noticed
  split <;> rfl

/-- Faults that leave room for recovery are noticed, and the rings go on. -/
theorem inspectChannel_stuck (h : Finds i policy stuck told p acc) (hrunning : p.1.running = true)
    (hdown : p.2.down = false) (hfaulty : stuck.isEmpty = false) (hfatal : stuck.isFatal = false)
    (now : Nat) :
    inspectChannel now acc i =
      ({ acc.1 with faulted := acc.1.faulted.insert i },
        { acc.2 with
          machine := (p.1.errorStatus acc.2.machine).2
          monitor := (acc.2.monitor.recordFault i stuck now).2 }) := by
  obtain ⟨report, e⟩ := acc
  obtain ⟨hc, hr⟩ := entryAt_eq_some.mp h.entry_eq
  have hstatus := p.1.errorStatus_stuck h.stuck_at
  have hprobe : probeFaults i now p.1 report e =
      ({ report with faulted := report.faulted.insert i },
        { e with
          machine := (p.1.errorStatus e.machine).2
          monitor := (e.monitor.recordFault i stuck now).2 }) := by
    unfold probeFaults
    rw [Monitor.isDown_eq hr, hdown, if_neg Bool.false_ne_true]
    dsimp only at hstatus ⊢
    rw [hstatus, hfaulty]
    rfl
  have hstays : (p.2.recordFault stuck now).2.down = false := by
    unfold ChannelRecord.recordFault
    rw [hfaulty, hfatal]
    exact (Bool.or_false _).trans hdown
  have hup : (e.monitor.recordFault i stuck now).2.isDown i = false := by
    rw [Monitor.recordFault, Monitor.act_eq hr]
    exact (Monitor.isDown_eq
      (getElem?_set_of_some hr _)).trans hstays
  unfold inspectChannel
  dsimp only
  rw [hc]
  dsimp only
  rw [hrunning, hprobe, hup]
  rfl

theorem finds_inspectChannel (h : Finds i policy stuck told p acc)
    (hrunning : p.1.running = true → p.2.down = false) (hfaulty : stuck.isEmpty = false)
    (hfatal : stuck.isFatal = false) (now : Nat) :
    Finds i policy stuck told (noticed stuck now p) (inspectChannel now acc i) := by
  have hworks : Works (fun _ => True) acc.2 [] (inspectChannel now acc i).2 :=
    works_inspectChannel now acc i
  obtain ⟨hc, hr⟩ := entryAt_eq_some.mp h.entry_eq
  cases hrun : p.1.running with
  | true =>
    have hturn := inspectChannel_stuck h hrun (hrunning hrun) hfaulty hfatal now
    refine h.step hworks ?_ (registers_noticed stuck now p) ?_
    · rw [hturn, noticed, if_pos hrun, Monitor.recordFault, Monitor.act_eq hr]
      exact entryAt_of_record hc (getElem?_set_of_some hr _)
    · rw [hturn]
      exact h.tells_iff
  | false =>
    have hturn : inspectChannel now acc i = acc := by
      unfold inspectChannel
      dsimp only
      rw [hc]
      dsimp only
      rw [hrun]
      rfl
    rw [hturn, noticed, if_neg (by simp [hrun])]
    exact h

/-- What the watchdog finds when it begins to recover channels. -/
theorem finds_surveyed (hp : e.entryAt i = some p) (hpolicy : e.policies.get? i = some policy)
    (hstuck : e.machine.registers.Stuck (p.1.registers.offset .errorStatus) stuck)
    (hlength : e.channels.length ≤ maxChannels) (hrunning : p.1.running = true → p.2.down = false)
    (hfaulty : stuck.isEmpty = false) (hfatal : stuck.isFatal = false) :
    Finds i policy stuck none
      (noticed stuck e.machine.clock.now (p.1, e.monitor.look e.machine.clock.now p.2))
      e.surveyed := by
  unfold surveyed
  generalize hstart : ({ e with work := e.work.enter.2 } : Engine β).now = start
  have hnow : start.1 = e.machine.clock.now := hstart ▸ rfl
  have hstarted : Works (fun _ => True) e [] start.2 :=
    hstart ▸ ((Works.refl _ e).queue e.work.enter.2).now
  have hentry : start.2.entryAt i = some p := hstart ▸ hp
  have hmonitor : start.2.monitor = e.monitor := hstart ▸ rfl
  obtain ⟨now, e₁⟩ := start
  dsimp only at hnow hstarted hentry hmonitor ⊢
  subst hnow
  have hfind := hstarted.andThen (works_findStalled e₁ e.machine.clock.now)
  have hlook := entryAt_findStalled e₁ e.machine.clock.now i
  rw [hentry, hmonitor] at hlook
  generalize e₁.findStalled e.machine.clock.now = found at hfind hlook ⊢
  obtain ⟨stalled, e₂⟩ := found
  dsimp only at hfind hlook ⊢
  have huntold (outcome : RecoveryOutcome) :
      RecoveryTally.none.tells i outcome = true ↔ none = some outcome := by
    simp [RecoveryTally.tells_none]
  have hbegin : Finds i policy stuck none p (WatchdogReport.none, e) :=
    ⟨hp, hpolicy, hstuck, hlength, huntold⟩
  have hfound : Finds i policy stuck none (p.1, e.monitor.look e.machine.clock.now p.2)
      ({ WatchdogReport.none with stalled := stalled }, e₂) := hbegin.step hfind hlook rfl huntold
  have hreach := foldl_range_keeps (fun _ _ hj hacc => hacc.inspect_other
    (Nat.lt_of_lt_of_le (Nat.lt_trans hj hfound.lt) hfound.length_le) (Nat.ne_of_lt hj)
    e.machine.clock.now) hfound
  have hdown : p.1.running = true → (e.monitor.look e.machine.clock.now p.2).down = false :=
    fun hrun => (Monitor.down_look _ _ _).trans (hrunning hrun)
  rw [ids]
  exact foldl_range_brings hfound.lt (finds_inspectChannel hreach hdown hfaulty hfatal _)
    fun _ _ hj hne hacc => hacc.inspect_other (Nat.lt_of_lt_of_le hj hfound.length_le) hne _

/-- What the watchdog finds when it comes to recover the channel. -/
theorem finds_reached (h : Finds i policy stuck told p e.surveyed) :
    Finds i policy stuck told p (e.reached i) :=
  foldl_range_keeps (fun _ _ hj hacc => hacc.recover_other
    (Nat.lt_of_lt_of_le (Nat.lt_trans hj h.lt) h.length_le) (Nat.ne_of_lt hj)) h

/-- What the watchdog finds after it has recovered the channel, it finds at the end of its turn. -/
theorem finds_watchdogTick (hopen : e.work.isOpen = true)
    (h : Finds i policy stuck told p e.surveyed)
    (hown : Finds i policy stuck told' q (recoverInError (e.reached i) i)) :
    Finds i policy stuck told' q e.watchdogTick := by
  have hall := foldl_range_brings h.lt hown fun _ _ hj hne hacc =>
    hacc.recover_other (Nat.lt_of_lt_of_le hj h.length_le) hne
  rw [watchdogTick_eq hopen]
  exact hall.step ((Works.refl _ _).queue _) hall.entry_eq rfl hall.tells_iff

/-- What the watchdog finds after an outcome that is worth telling. -/
theorem Finds.attempted (h : Finds i policy stuck none p acc) (hstate : p.2.state = .error)
    (hauto : policy.autoRecover = true)
    (hentry : (acc.2.attemptRecovery i).2.entryAt i = some q) (hplace : Channel.SamePlace p.1 q.1)
    (houtcome : (acc.2.attemptRecovery i).1.IsTold) :
    Finds i policy stuck (some (acc.2.attemptRecovery i).1) q (recoverInError acc i) := by
  have hworks : Works (fun _ => True) acc.2 _ (recoverInError acc i).2 := works_recoverInError acc i
  have hturn : recoverInError acc i =
      ({ acc.1 with tally := acc.1.tally.record i (acc.2.attemptRecovery i).1 },
        (acc.2.attemptRecovery i).2) := by
    unfold recoverInError autoRecover
    dsimp only
    rw [Monitor.state?_eq (entryAt_eq_some.mp h.entry_eq).2, hstate, if_pos rfl, h.policy_eq,
      Option.any_some, hauto, if_pos rfl]
  refine h.step hworks (hturn ▸ hentry) hplace.registers_eq fun outcome => ?_
  rw [hturn]
  dsimp only
  rw [RecoveryTally.tells_record_self _ (Nat.lt_of_lt_of_le h.lt h.length_le) houtcome,
    Bool.or_eq_true, h.tells_iff, decide_eq_true_eq, Option.some_inj]
  simp

end Engine

end PacketDma
