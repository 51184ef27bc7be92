import PacketDma.Monitor
import PacketDma.Proofs.ChannelRun

/-!
# Records that fit their channels

What is known of a channel and whether it runs are kept apart, in a record and in the channel
itself. A record fits a running flag if the two do not contradict each other. Each change of a
record tells which flag the new record fits.

## Implementation notes

Between the claim of a recovery attempt and its end no record fits, since the channel is recovering.
What is known of a claimed record is stated apart.
-/

namespace PacketDma

namespace FaultSet

variable {s t : FaultSet}

theorem isEmpty_union_right (h : t.isEmpty = false) : (s ∪ t).isEmpty = false := by
  have ht : t.bits ≠ 0 := by simpa [isEmpty] using h
  show (s.bits ||| t.bits == 0) = false
  exact beq_false_of_ne fun hzero => ht (UInt32.or_eq_zero_iff.mp hzero).2

end FaultSet

namespace ChannelRecord

/-- What is known of a channel does not contradict whether it runs. -/
structure Fits (r : ChannelRecord) (running : Bool) : Prop where
  /-- No attempt is under way. -/
  settled : r.state ≠ .recovering
  /-- A channel known to run runs, and is not down. -/
  of_running : r.state = .running → running = true ∧ r.down = false
  /-- A channel known to be stopped or suspended does not run. -/
  of_halted : r.state = .stopped ∨ r.state = .suspended → running = false
  /-- A channel that is down does not run. -/
  of_down : r.down = true → running = false
  /-- A channel in error has faults that wait for recovery. -/
  of_error : r.state = .error → r.pending.isEmpty = false
  /-- A channel with a fatal fault is down. -/
  of_fatal : r.fatal = true → r.down = true

namespace Fits

variable {r s : ChannelRecord} {running : Bool}

theorem new : ChannelRecord.new.Fits false :=
  ⟨by simp [ChannelRecord.new], by simp [ChannelRecord.new], fun _ => rfl, fun _ => rfl,
    by simp [ChannelRecord.new], by simp [ChannelRecord.new]⟩

/-- Statistics have no part in this. -/
theorem stats (h : r.Fits running) (stats : ChannelStats) :
    { r with stats := stats }.Fits running :=
  ⟨h.settled, h.of_running, h.of_halted, h.of_down, h.of_error, h.of_fatal⟩

/-! ### The owner's changes -/

theorem start (h : r.Fits running) (hstate : r.state = .stopped) (hdown : r.down = false)
    (now : Nat) : ∃ s, r.start now = (.ok (), s) ∧ s.Fits true := by
  refine ⟨{ r with state := .running, baseline := now }, ?_, by simp, fun _ => ⟨rfl, hdown⟩,
    by simp, ?_, by simp, h.of_fatal⟩
  · rw [ChannelRecord.start, hstate]
  · intro hd
    exact absurd (hdown.symm.trans hd) (by simp)

theorem stop (h : r.Fits running) : ∃ s, r.stop = (.ok (), s) ∧ s.Fits false := by
  refine ⟨{ r with state := .stopped }, ?_, by simp, by simp, fun _ => rfl, fun _ => rfl, by simp,
    h.of_fatal⟩
  unfold ChannelRecord.stop
  split
  next hstate => exact absurd hstate h.settled
  next => rfl

theorem suspend (h : r.Fits running) :
    r.suspend = (.error .invalidState, r) ∨ ∃ s, r.suspend = (.ok (), s) ∧ s.Fits false := by
  unfold ChannelRecord.suspend
  split
  · exact .inr ⟨_, rfl, by simp, by simp, fun _ => rfl, fun _ => rfl, by simp, h.of_fatal⟩
  · exact .inl rfl

/-- A channel that is resumed runs, or waits for recovery and does not run. -/
theorem resume (h : r.Fits running) (hdown : r.down = false) (now : Nat) :
    r.resume now = (.error .invalidState, r) ∨
      (∃ s, r.resume now = (.ok .running, s) ∧ s.Fits true) ∨
      ∃ s, r.resume now = (.ok .error, s) ∧ s.Fits running := by
  unfold ChannelRecord.resume
  split
  next hstate =>
    have hhalted := h.of_halted (.inr hstate)
    by_cases hpending : r.pending.isEmpty = true
    · rw [if_pos hpending]
      exact .inr (.inl ⟨_, rfl, by simp, fun _ => ⟨rfl, hdown⟩, by simp,
        fun hd => absurd (hdown.symm.trans hd) (by simp), by simp, h.of_fatal⟩)
    · rw [if_neg hpending]
      exact .inr (.inr ⟨_, rfl, by simp, by simp, by simp, fun _ => hhalted,
        fun _ => by simpa using hpending, h.of_fatal⟩)
  · exact .inl rfl

theorem reset (h : r.Fits running) : ∃ s, r.reset = (.ok (), s) ∧ s.Fits false := by
  unfold ChannelRecord.reset
  split
  next hstate => exact absurd hstate h.settled
  next =>
    exact ⟨_, rfl, by simp, by simp, fun _ => rfl, fun _ => rfl, by simp, by simp⟩

/-! ### Faults -/

/-- Faults leave a running channel in error, and one that went down is to be halted. -/
theorem recordFault (h : r.Fits running) (faults : FaultSet) (now : Nat) :
    (r.recordFault faults now).2.Fits (running && !(r.recordFault faults now).2.down) := by
  unfold ChannelRecord.recordFault
  split
  next =>
    constructor
    · exact h.settled
    · intro hstate
      obtain ⟨hrun, hdown⟩ := h.of_running hstate
      exact ⟨by simp [hrun, hdown], hdown⟩
    · intro hstate
      simp [h.of_halted hstate]
    · intro hd
      have hdown : r.down = true := hd
      simp [hdown]
    · exact h.of_error
    · exact h.of_fatal
  next hfaults =>
    have hpending : (r.pending ∪ faults).isEmpty = false :=
      FaultSet.isEmpty_union_right (by simpa using hfaults)
    dsimp only
    constructor
    · show (if r.state = .running then ChannelState.error else r.state) ≠ .recovering
      split
      · simp
      · exact h.settled
    · show (if r.state = .running then ChannelState.error else r.state) = .running → _
      split
      · simp
      next hne => exact fun hstate => absurd hstate hne
    · show (if r.state = .running then ChannelState.error else r.state) = .stopped ∨
        (if r.state = .running then ChannelState.error else r.state) = .suspended → _
      split
      · simp
      · exact fun hstate => by simp [h.of_halted hstate]
    · intro hd
      simp only at hd
      simp [hd]
    · intro _
      exact hpending
    · intro hfatal
      rcases Bool.or_eq_true_iff.mp hfatal with hf | hkills
      · exact Bool.or_eq_true_iff.mpr (.inl (h.of_fatal hf))
      · exact Bool.or_eq_true_iff.mpr (.inr hkills)

/-- A stall leaves a running channel in error, with a fault to recover from. -/
theorem onStall (h : r.Fits running) (hstate : r.state = .running) (now : Nat) :
    (r.onStall now).Fits running := by
  obtain ⟨hrun, hdown⟩ := h.of_running hstate
  constructor
  · simp [ChannelRecord.onStall]
  · simp [ChannelRecord.onStall]
  · simp [ChannelRecord.onStall]
  · intro hd
    exact absurd (hdown.symm.trans hd) (by simp)
  · intro _
    exact FaultSet.isEmpty_union_right rfl
  · exact h.of_fatal

/-- What a turn of the watchdog makes of a record. -/
theorem watch (h : r.Fits running) (periods thresholdUs now : Nat) :
    (if (r.decay periods).hasStalled thresholdUs now then (r.decay periods).onStall now
      else r.decay periods).Fits running := by
  have hdecay : (r.decay periods).Fits running := h.stats _
  split
  next hstalled =>
    have hstate : (r.decay periods).state = .running := by
      simp only [hasStalled, Bool.and_eq_true, beq_iff_eq] at hstalled
      exact hstalled.1
    exact hdecay.onStall hstate now
  next => exact hdecay

end Fits

/-! ### Recovery -/

/-- What is known of a channel between the claim of an attempt and its end. -/
structure IsClaimed (r : ChannelRecord) (faults : FaultSet) : Prop where
  /-- The attempt is made for some faults. -/
  faults_ne : faults.isEmpty = false
  /-- The channel is not down. -/
  down_eq : r.down = false
  /-- There was no fatal fault. -/
  fatal_eq : r.fatal = false

section Recovery

variable {r s : ChannelRecord} {running : Bool} {policy : RecoveryPolicy} {now : Nat}

/-- The record of a channel while an attempt is under way that was claimed. -/
def claimedAt (r : ChannelRecord) (now : Nat) : ChannelRecord :=
  { r with
    state := .recovering
    retries := r.retries + 1
    lastAttempt := some now
    pending := ∅
    stats := { r.stats with recoveryAttempts := Counter.add r.stats.recoveryAttempts 1 } }

/-- An attempt may be claimed under a policy. -/
structure MayClaim (r : ChannelRecord) (policy : RecoveryPolicy) (now : Nat) : Prop where
  down_eq : r.down = false
  state_eq : r.state = .error
  fatal_eq : r.pending.isFatal = false
  retries_lt : r.retries < policy.maxRetries.toNat
  covered : r.pending.isEmpty = true ∨ policy.categories.meets r.pending = true
  soon_eq : r.isTooSoon policy now = false

/-- An attempt is claimed exactly if it may be. -/
theorem begin_eq_claimed_iff {faults : FaultSet} :
    r.beginRecovery policy now = (.claimed faults, s) ↔
      r.MayClaim policy now ∧ faults = r.pending ∧ s = r.claimedAt now := by
  constructor
  · intro hb
    unfold beginRecovery at hb
    split at hb
    · simp at hb
    next hdown =>
      split at hb
      · simp at hb
      next hstate =>
        split at hb
        · simp at hb
        next hspent =>
          split at hb
          · simp at hb
          next hcovered =>
            split at hb
            · simp at hb
            next hsoon =>
              obtain ⟨hclaim, rfl⟩ := Prod.mk.inj hb
              obtain rfl := RecoveryClaim.claimed.inj hclaim
              simp only [Bool.or_eq_true, decide_eq_true_eq, not_or, Nat.not_le] at hspent
              refine ⟨⟨by simpa using hdown, by simpa using hstate, by simpa using hspent.1,
                hspent.2, ?_, by simpa using hsoon⟩, rfl, rfl⟩
              cases hempty : r.pending.isEmpty with
              | true => exact .inl rfl
              | false => exact .inr (by simpa [hempty] using hcovered)
  · rintro ⟨⟨hdown, hstate, hfatal, hbudget, hcovered, hsoon⟩, rfl, rfl⟩
    have hspent : ¬ (r.pending.isFatal || decide (policy.maxRetries.toNat ≤ r.retries)) = true := by
      simp [hfatal, hbudget]
    have hmeets : ¬ (!r.pending.isEmpty && !policy.categories.meets r.pending) = true := by
      rcases hcovered with h | h <;> simp [h]
    rw [beginRecovery, if_neg (by simp [hdown]), if_neg (by simp [hstate]), if_neg hspent,
      if_neg hmeets, if_neg (by simp [hsoon])]
    rfl

theorem isClaimed_of_begin {faults : FaultSet} (h : r.Fits running)
    (hb : r.beginRecovery policy now = (.claimed faults, s)) : s.IsClaimed faults := by
  obtain ⟨hmay, rfl, rfl⟩ := begin_eq_claimed_iff.mp hb
  refine ⟨h.of_error hmay.state_eq, hmay.down_eq, ?_⟩
  rw [Bool.eq_false_iff]
  exact fun hf => absurd (hmay.down_eq.symm.trans (h.of_fatal hf)) (by simp)

/-- A channel found down is to be halted. -/
theorem fits_of_begin_down (h : r.Fits running) (hb : r.beginRecovery policy now = (.down, s)) :
    s.Fits false := by
  unfold beginRecovery at hb
  split at hb
  next hdown =>
    obtain ⟨-, rfl⟩ := Prod.mk.inj hb
    exact h.of_down hdown ▸ h
  next hdown =>
    split at hb
    · simp at hb
    next hstate =>
      have hstate : r.state = .error := by simpa using hstate
      split at hb
      · obtain ⟨-, rfl⟩ := Prod.mk.inj hb
        exact ⟨h.settled, by simp [hstate], fun _ => rfl, fun _ => rfl, h.of_error, fun _ => rfl⟩
      split at hb
      · simp at hb
      split at hb
      · simp at hb
      · simp at hb

/-- Without an attempt the record stays as it is, unless the channel is down. -/
theorem eq_of_begin {claim : RecoveryClaim} (hb : r.beginRecovery policy now = (claim, s))
    (hclaim : ∀ faults, claim ≠ .claimed faults) (hdown : claim ≠ .down) : s = r := by
  unfold beginRecovery at hb
  split at hb
  · exact absurd (Prod.mk.inj hb).1.symm hdown
  split at hb
  · exact (Prod.mk.inj hb).2.symm
  split at hb
  · exact absurd (Prod.mk.inj hb).1.symm hdown
  split at hb
  · exact (Prod.mk.inj hb).2.symm
  split at hb
  · exact (Prod.mk.inj hb).2.symm
  · exact absurd (Prod.mk.inj hb).1.symm (hclaim _)

/-- Without an attempt nothing changes but whether the channel is down. -/
theorem of_begin_unclaimed {claim : RecoveryClaim} (hb : r.beginRecovery policy now = (claim, s))
    (hclaim : ∀ faults, claim ≠ .claimed faults) :
    s = { r with down := s.down, fatal := s.fatal } ∧ (r.down = true → s.down = true) := by
  unfold beginRecovery at hb
  split at hb
  · obtain ⟨-, rfl⟩ := Prod.mk.inj hb
    exact ⟨rfl, id⟩
  split at hb
  · obtain ⟨-, rfl⟩ := Prod.mk.inj hb
    exact ⟨rfl, id⟩
  split at hb
  · obtain ⟨-, rfl⟩ := Prod.mk.inj hb
    exact ⟨rfl, fun _ => rfl⟩
  split at hb
  · obtain ⟨-, rfl⟩ := Prod.mk.inj hb
    exact ⟨rfl, id⟩
  split at hb
  · obtain ⟨-, rfl⟩ := Prod.mk.inj hb
    exact ⟨rfl, id⟩
  · exact absurd (Prod.mk.inj hb).1.symm (hclaim _)

namespace IsClaimed

variable {faults : FaultSet}

/-- A successful attempt leaves the channel running. -/
theorem succeed (h : r.IsClaimed faults) (residual : FaultSet) (maxRetries : UInt8) (now : Nat) :
    ∃ s, r.finishRecovery true residual maxRetries now = (false, s) ∧ s.Fits true := by
  refine ⟨r.onRecovered now, ?_, by simp [onRecovered], fun _ => ⟨rfl, h.down_eq⟩,
    by simp [onRecovered], fun hd => absurd (h.down_eq.symm.trans hd) (by simp),
    by simp [onRecovered], fun hf => absurd (h.fatal_eq.symm.trans hf) (by simp)⟩
  show (r.down, r.onRecovered now) = _
  rw [h.down_eq]

/-- A failed attempt leaves the channel in error. If it went down, it is to be halted. -/
theorem fail (h : r.IsClaimed faults) {residual : FaultSet} (hresidual : residual.isEmpty = false)
    (maxRetries : UInt8) (now : Nat) (running : Bool) :
    ∃ s, r.finishRecovery false residual maxRetries now = (s.down, s) ∧
      s.Fits (running && !s.down) := by
  refine ⟨r.onRecoveryFailed residual maxRetries, rfl, by simp [onRecoveryFailed],
    by simp [onRecoveryFailed], by simp [onRecoveryFailed], fun hd => by simp [hd],
    fun _ => FaultSet.isEmpty_union_right hresidual, ?_⟩
  intro hf
  simp only [onRecoveryFailed, h.fatal_eq, h.down_eq, Bool.false_or] at hf ⊢
  rw [hf, Bool.or_true]

end IsClaimed

end Recovery

end ChannelRecord

namespace Monitor

variable {m : Monitor} {id : Nat} {r : ChannelRecord}

/-- A change of a record that exists. -/
theorem act_eq {α : Type} (hr : m.records[id]? = some r) (absent : α)
    (f : ChannelRecord → α × ChannelRecord) :
    m.act id absent f = ((f r).1, { m with records := m.records.set id (f r).2 }) := by
  rw [act, record?, hr]

/-- A changed record is the old one, changed if it is the record in question. -/
theorem of_update {f : ChannelRecord → ChannelRecord} {i : Nat} {s : ChannelRecord}
    (hs : (m.update id f).records[i]? = some s) :
    ∃ r, m.records[i]? = some r ∧ (s = r ∨ s = f r) := by
  rw [update, List.getElem?_modify] at hs
  obtain ⟨r, hr, rfl⟩ := Option.map_eq_some_iff.mp hs
  refine ⟨r, hr, ?_⟩
  split
  · exact .inr rfl
  · exact .inl rfl

theorem isDown_eq (hr : m.records[id]? = some r) : m.isDown id = r.down := by
  rw [isDown, record?, hr]
  rfl

theorem state?_eq (hr : m.records[id]? = some r) : m.state? id = some r.state := by
  rw [state?, record?, hr]
  rfl

/-- A channel that may be used is not down. -/
theorem down_of_downError? (hr : m.records[id]? = some r) (h : m.downError? id = none) :
    r.down = false := by
  rw [downError?, record?, hr] at h
  simpa [ChannelRecord.downError?] using h

end Monitor

end PacketDma
