import Mathlib.Tactic.SplitIfs
import PacketDma.Proofs.MonitorRun

/-!
# Cleared statistics

Statistics are kept for the reader, so clearing them should change nothing else. But the time of
the last interrupt is one of them, and the watchdog takes an interrupt for a sign of life. A monitor
with cleared statistics goes on as before, unless a turn of the watchdog finds the channel alive by
nothing but an interrupt that was cleared.
-/

namespace PacketDma.Monitor

/-- Whether a request settles anew when the last interrupt came. -/
def Request.datesInterrupt : Request → Bool
  | .onInterrupt .. | .resetStats => true
  | _ => false

/-- Whether a call settles anew when the last interrupt of a channel came. -/
def Call.datesInterrupt (channel : Nat) : Call → Bool
  | .about i request => i == channel && request.datesInterrupt
  | .watchdogTick _ => false

/-- A turn of the watchdog finds a channel alive by nothing but an interrupt before the calls. -/
def RestsOnInterrupt (m : Monitor) (channel : Nat) (calls : List Call) : Prop :=
  ∃ before now r, before ++ [.watchdogTick now] <+: calls ∧
    (∀ call ∈ before, call.datesInterrupt channel = false) ∧
    (m.after before).records[channel]? = some r ∧ r.state = .running ∧
    m.stallThresholdUs ≤ Instant.since now r.baseline ∧
    Instant.since now r.lastActivity < m.stallThresholdUs

/-! ### Records that differ in their statistics -/

section Record

variable {r s : ChannelRecord}

/-- The record of channel `i`, without its statistics if these are cleared. -/
def cleared (channel i : Nat) (r : ChannelRecord) : ChannelRecord :=
  if i = channel then r.resetStats else r

theorem begin_resetStats (r : ChannelRecord) (policy : RecoveryPolicy) (now : Nat) :
    (r.resetStats.beginRecovery policy now).map id (·.resetStats) =
      (r.beginRecovery policy now).map id (·.resetStats) := by
  unfold ChannelRecord.beginRecovery
  simp only [apply_ite (Prod.map id _)]
  rfl

theorem recordFault_resetStats (r : ChannelRecord) (faults : FaultSet) (now : Nat) :
    (r.resetStats.recordFault faults now).map id (·.resetStats) =
      (r.recordFault faults now).map id (·.resetStats) := by
  unfold ChannelRecord.recordFault
  simp only [apply_ite (Prod.map id _)]
  rfl

/-- Statistics have no part in what a request answers and makes of the rest of a record. -/
theorem touch_resetStats (r : ChannelRecord) (request : Request) :
    (request.touch r.resetStats).map id (·.resetStats) =
      (request.touch r).map id (·.resetStats) := by
  cases request with
  | start | stop | suspend | resume | reset =>
    obtain ⟨state⟩ := r
    cases state <;> rfl
  | recordFault faults now =>
    exact congrArg (Prod.map Answer.noticed id) (recordFault_resetStats r faults now)
  | beginRecovery policy now =>
    exact congrArg (Prod.map Answer.claim id) (begin_resetStats r policy now)
  | finishRecovery success residual maxRetries now => cases success <;> rfl
  | onInterrupt | onRingFull | markDown | resetStats => rfl

theorem touch_congr (h : r.resetStats = s.resetStats) (request : Request) :
    (request.touch r).1 = (request.touch s).1 ∧
      (request.touch r).2.resetStats = (request.touch s).2.resetStats := by
  have heq : (request.touch r).map id (·.resetStats) = (request.touch s).map id (·.resetStats) := by
    rw [← touch_resetStats r, h, touch_resetStats s]
  exact Prod.mk.inj heq

theorem cleared_touch {c i : Nat} (h : cleared c i r = cleared c i s) (request : Request) :
    (request.touch r).1 = (request.touch s).1 ∧
      cleared c i (request.touch r).2 = cleared c i (request.touch s).2 := by
  by_cases hi : i = c
  · simp only [cleared, if_pos hi] at h ⊢
    exact touch_congr h request
  · simp only [cleared, if_neg hi] at h ⊢
    rw [h]
    exact ⟨rfl, rfl⟩

end Record

/-! ### Monitors that differ in the statistics of one channel -/

/-- Two monitors differ in the statistics of a channel at most. -/
structure Alike (c : Nat) (m n : Monitor) : Prop where
  stallThresholdUs_eq : m.stallThresholdUs = n.stallThresholdUs
  windowDecayUs_eq : m.windowDecayUs = n.windowDecayUs
  lastDecay_eq : m.lastDecay = n.lastDecay
  records_eq : ∀ i : Nat, (m.records[i]?).map (cleared c i) = (n.records[i]?).map (cleared c i)

variable {m n : Monitor} {c : Nat} {calls : List Call} {call : Call}

theorem record_resetStats (m : Monitor) (c i : Nat) :
    (m.resetStats c).records[i]? = (m.records[i]?).map (cleared c i) := by
  rw [resetStats, update, List.getElem?_modify]
  congr 1
  funext r
  simp only [cleared, eq_comm]

theorem alike_iff : Alike c m n ↔ m.resetStats c = n.resetStats c := by
  constructor
  · rintro ⟨hstall, hwindow, hdecay, hrecords⟩
    have h : (m.resetStats c).records = (n.resetStats c).records := by
      apply List.ext_getElem?
      intro i
      rw [record_resetStats, record_resetStats, hrecords]
    exact (Monitor.mk.injEq ..).mpr ⟨h, hstall, hwindow, hdecay⟩
  · intro h
    obtain ⟨_, hstall, hwindow, hdecay⟩ := (Monitor.mk.injEq ..).mp h
    refine ⟨hstall, hwindow, hdecay, fun i => ?_⟩
    rw [← record_resetStats, ← record_resetStats, h]

theorem alike_resetStats (m : Monitor) (c : Nat) : Alike c (m.resetStats c) m := by
  refine ⟨rfl, rfl, rfl, fun i => ?_⟩
  rw [record_resetStats, Option.map_map]
  congr 1
  funext r
  simp only [Function.comp, cleared]
  split <;> rfl

namespace Alike

theorem symm (h : Alike c m n) : Alike c n m :=
  alike_iff.mpr (alike_iff.mp h).symm

theorem record (h : Alike c m n) {i : Nat} {r : ChannelRecord} (hr : m.records[i]? = some r) :
    ∃ s, n.records[i]? = some s ∧ cleared c i r = cleared c i s := by
  have heq := h.records_eq i
  rw [hr, Option.map_some] at heq
  obtain ⟨s, hs, hc⟩ := Option.map_eq_some_iff.mp heq.symm
  exact ⟨s, hs, hc.symm⟩

theorem resetStats_eq (h : Alike c m n) {r s : ChannelRecord} (hr : m.records[c]? = some r)
    (hs : n.records[c]? = some s) : r.resetStats = s.resetStats := by
  obtain ⟨t, ht, heq⟩ := h.record hr
  obtain rfl := Option.some.inj (hs.symm.trans ht)
  simpa only [cleared, if_true] using heq

theorem absent (h : Alike c m n) {i : Nat} (hr : m.records[i]? = none) : n.records[i]? = none := by
  have heq := h.records_eq i
  rw [hr, Option.map_none] at heq
  exact Option.map_eq_none_iff.mp heq.symm

theorem size_eq (h : Alike c m n) : m.size = n.size := by
  have hlength := congrArg (fun m : Monitor => m.records.length) (alike_iff.mp h)
  simp only [resetStats, update, List.length_modify] at hlength
  exact hlength

/-- A request finds and leaves monitors alike. -/
theorem request (h : Alike c m n) (i : Nat) (request : Request) :
    (request.perform i m).1 = (request.perform i n).1 ∧
      Alike c (request.perform i m).2 (request.perform i n).2 := by
  cases hr : m.records[i]? with
  | none =>
    rw [Request.perform_absent hr, Request.perform_absent (h.absent hr)]
    exact ⟨rfl, h⟩
  | some r =>
    obtain ⟨s, hs, hrs⟩ := h.record hr
    obtain ⟨hanswer, hcleared⟩ := cleared_touch hrs request
    rw [Request.perform_eq hr, Request.perform_eq hs]
    refine ⟨hanswer, h.stallThresholdUs_eq, h.windowDecayUs_eq, h.lastDecay_eq, fun j => ?_⟩
    simp only [List.getElem?_set]
    by_cases hj : i = j
    · subst hj
      have hm := (List.getElem?_eq_some_iff.mp hr).1
      have hn := (List.getElem?_eq_some_iff.mp hs).1
      simp [hm, hn, hcleared]
    · simp only [if_neg hj]
      exact h.records_eq j

theorem cleared_look (h : Alike c m n) (now : Nat) {i : Nat} {r s : ChannelRecord}
    (hrs : cleared c i r = cleared c i s)
    (hstalled : r.hasStalled m.stallThresholdUs now = s.hasStalled m.stallThresholdUs now) :
    cleared c i (m.look now r) = cleared c i (n.look now s) := by
  have hlook : m.look now = n.look now := by
    funext r
    rw [look, look, decayPeriods, decayPeriods, h.stallThresholdUs_eq, h.windowDecayUs_eq,
      h.lastDecay_eq]
  by_cases hi : i = c
  · simp only [cleared, if_pos hi] at hrs ⊢
    have hdecay : (r.decay (m.decayPeriods now)).hasStalled m.stallThresholdUs now =
        (s.decay (m.decayPeriods now)).hasStalled m.stallThresholdUs now := hstalled
    rw [← hlook, look, look, ← hdecay]
    split
    · have hstall : (r.resetStats.onStall now).resetStats = (s.resetStats.onStall now).resetStats :=
        congrArg (fun t : ChannelRecord => (t.onStall now).resetStats) hrs
      exact hstall
    · exact hrs
  · simp only [cleared, if_neg hi] at hrs ⊢
    rw [hlook, hrs]

/-- A turn of the watchdog finds and leaves monitors alike if it finds the channel stalled in both
of them or in none. -/
theorem tick (h : Alike c m n) (now : Nat)
    (hstalled : ∀ r s, m.records[c]? = some r → n.records[c]? = some s →
      r.hasStalled m.stallThresholdUs now = s.hasStalled m.stallThresholdUs now) :
    (m.watchdogTick now).1 = (n.watchdogTick now).1 ∧
      Alike c (m.watchdogTick now).2 (n.watchdogTick now).2 := by
  have hall (i : Nat) (r s : ChannelRecord) (hr : m.records[i]? = some r)
      (hs : n.records[i]? = some s) (hrs : cleared c i r = cleared c i s) :
      r.hasStalled m.stallThresholdUs now = s.hasStalled m.stallThresholdUs now := by
    by_cases hi : i = c
    · subst hi
      exact hstalled r s hr hs
    · simp only [cleared, if_neg hi] at hrs
      rw [hrs]
  constructor
  · have hlist : m.stalled now = n.stalled now := by
      rw [stalled, stalled, h.size_eq, ← h.stallThresholdUs_eq]
      apply List.filter_congr
      intro i _
      rw [record?, record?]
      cases hr : m.records[i]? with
      | none => rw [h.absent hr]
      | some r =>
        obtain ⟨s, hs, hrs⟩ := h.record hr
        rw [hs]
        exact hall i r s hr hs hrs
    exact congrArg (List.foldl ChannelMask.insert ∅) hlist
  · have hperiods : m.decayPeriods now = n.decayPeriods now := by
      rw [decayPeriods, decayPeriods, h.windowDecayUs_eq, h.lastDecay_eq]
    refine ⟨h.stallThresholdUs_eq, h.windowDecayUs_eq, ?_, fun i => ?_⟩
    · show Instant.plus m.lastDecay _ = Instant.plus n.lastDecay _
      rw [hperiods, h.lastDecay_eq, h.windowDecayUs_eq]
    · show ((m.records.map (m.look now))[i]?).map _ = ((n.records.map (n.look now))[i]?).map _
      rw [List.getElem?_map, List.getElem?_map]
      cases hr : m.records[i]? with
      | none =>
        rw [h.absent hr]
        rfl
      | some r =>
        obtain ⟨s, hs, hrs⟩ := h.record hr
        rw [hs]
        exact congrArg some (h.cleared_look now hrs (hall i r s hr hs hrs))

end Alike

/-! ### The time of the last interrupt -/

theorem lastInterrupt_look (m : Monitor) (now : Nat) (r : ChannelRecord) :
    (m.look now r).stats.lastInterrupt = r.stats.lastInterrupt := by
  unfold look
  split <;> rfl

theorem lastInterrupt_request (r : ChannelRecord) {request : Request}
    (h : request.datesInterrupt = false) :
    (request.touch r).2.stats.lastInterrupt = r.stats.lastInterrupt := by
  cases request with
  | onInterrupt | resetStats => cases h
  | start | stop | suspend | resume | reset =>
    obtain ⟨state⟩ := r
    cases state <;> rfl
  | recordFault faults now =>
    simp only [Request.touch, ChannelRecord.recordFault, Prod.map_snd]
    split <;> rfl
  | beginRecovery policy now =>
    simp only [Request.touch, ChannelRecord.beginRecovery, Prod.map_snd]
    split_ifs <;> rfl
  | finishRecovery success => cases success <;> rfl
  | onRingFull | markDown => rfl

/-- A call that is no new date for it keeps the time of the last interrupt. -/
theorem lastInterrupt_touch (m : Monitor) (r : ChannelRecord)
    (hcall : call.datesInterrupt c = false) :
    (call.touch m c r).stats.lastInterrupt = r.stats.lastInterrupt := by
  cases call with
  | watchdogTick now => exact lastInterrupt_look m now r
  | about i request =>
    by_cases hi : i = c
    · rw [Call.touch, if_pos hi]
      exact lastInterrupt_request r (by simpa [Call.datesInterrupt, hi] using hcall)
    · rw [Call.touch, if_neg hi]

/-- After a call that dates it anew, the time of the last interrupt depends on the call alone. -/
theorem lastInterrupt_touch_eq (m n : Monitor) (r s : ChannelRecord)
    (hcall : call.datesInterrupt c = true) :
    (call.touch m c r).stats.lastInterrupt = (call.touch n c s).stats.lastInterrupt := by
  cases call with
  | watchdogTick now => cases hcall
  | about i request =>
    rw [Call.datesInterrupt, Bool.and_eq_true, beq_iff_eq] at hcall
    obtain ⟨hi, hrequest⟩ := hcall
    rw [Call.touch, Call.touch, if_pos hi, if_pos hi]
    cases request with
    | onInterrupt isError now => cases isError <;> rfl
    | resetStats => rfl
    | _ => cases hrequest

/-- Calls that do not date it anew keep the time of the last interrupt. -/
theorem lastInterrupt_after {s : ChannelRecord} (hs : (m.after calls).records[c]? = some s)
    (hcalls : ∀ call ∈ calls, call.datesInterrupt c = false) :
    ∃ r, m.records[c]? = some r ∧ s.stats.lastInterrupt = r.stats.lastInterrupt := by
  induction calls using List.reverseRecOn generalizing s with
  | nil => exact ⟨s, hs, rfl⟩
  | append_singleton before call ih =>
    rw [after_concat, record_perform] at hs
    obtain ⟨t, ht, rfl⟩ := Option.map_eq_some_iff.mp hs
    obtain ⟨r, hr, hlast⟩ := ih ht fun k hk => hcalls k (List.mem_append_left _ hk)
    exact ⟨r, hr, (lastInterrupt_touch _ t (hcalls call (by simp))).trans hlast⟩

/-- The time of the last interrupt is the same whether or not the statistics were cleared, unless no
call has dated it since. -/
theorem lastInterrupt_resetStats {r s : ChannelRecord} (hr : (m.after calls).records[c]? = some r)
    (hs : ((m.resetStats c).after calls).records[c]? = some s) :
    s.stats.lastInterrupt = r.stats.lastInterrupt ∨
      (∀ call ∈ calls, call.datesInterrupt c = false) ∧ s.stats.lastInterrupt = none := by
  induction calls using List.reverseRecOn generalizing r s with
  | nil =>
    rw [after_nil] at hr hs
    rw [record_resetStats, hr] at hs
    obtain rfl := Option.some.inj hs
    exact .inr ⟨by simp, by simp [cleared, ChannelRecord.resetStats, ChannelStats.zero]⟩
  | append_singleton before call ih =>
    rw [after_concat, record_perform] at hr hs
    obtain ⟨r, hbefore, rfl⟩ := Option.map_eq_some_iff.mp hr
    obtain ⟨s, hcleared, rfl⟩ := Option.map_eq_some_iff.mp hs
    cases hcall : call.datesInterrupt c with
    | true => exact .inl (lastInterrupt_touch_eq _ _ s r hcall)
    | false =>
      rw [lastInterrupt_touch _ r hcall, lastInterrupt_touch _ s hcall]
      rcases ih hbefore hcleared with heq | ⟨hdates, hnone⟩
      · exact .inl heq
      · refine .inr ⟨fun k hk => ?_, hnone⟩
        rcases List.mem_append.mp hk with hk | hk
        · exact hdates k hk
        · exact List.mem_singleton.mp hk ▸ hcall

/-! ### Running on with cleared statistics -/

section Stall

variable {r s : ChannelRecord} {thresholdUs now : Nat}

theorem baseline_le_lastActivity (r : ChannelRecord) : r.baseline ≤ r.lastActivity := by
  unfold ChannelRecord.lastActivity
  split
  · exact Nat.le_max_right _ _
  · exact Nat.le_refl _

theorem lastActivity_of_none (h : r.stats.lastInterrupt = none) : r.lastActivity = r.baseline := by
  rw [ChannelRecord.lastActivity, h]

theorem state_eq_of_resetStats (h : s.resetStats = r.resetStats) : s.state = r.state := by
  show s.resetStats.state = r.resetStats.state
  rw [h]

theorem baseline_eq_of_resetStats (h : s.resetStats = r.resetStats) : s.baseline = r.baseline := by
  show s.resetStats.baseline = r.resetStats.baseline
  rw [h]

theorem hasStalled_eq (h : s.resetStats = r.resetStats)
    (hlast : s.stats.lastInterrupt = r.stats.lastInterrupt) :
    s.hasStalled thresholdUs now = r.hasStalled thresholdUs now := by
  rw [ChannelRecord.hasStalled, ChannelRecord.hasStalled, ChannelRecord.lastActivity,
    ChannelRecord.lastActivity, hlast, state_eq_of_resetStats h, baseline_eq_of_resetStats h]

/-- Without a last interrupt a channel is found stalled more often. It makes a difference exactly if
the channel runs and only the interrupt is recent enough. -/
theorem hasStalled_ne_iff (h : s.resetStats = r.resetStats) (hnone : s.stats.lastInterrupt = none) :
    s.hasStalled thresholdUs now ≠ r.hasStalled thresholdUs now ↔
      r.state = .running ∧ thresholdUs ≤ Instant.since now r.baseline ∧
        Instant.since now r.lastActivity < thresholdUs := by
  have hle : Instant.since now r.lastActivity ≤ Instant.since now r.baseline :=
    Nat.sub_le_sub_left (baseline_le_lastActivity r) now
  rw [ChannelRecord.hasStalled, ChannelRecord.hasStalled, lastActivity_of_none hnone,
    state_eq_of_resetStats h, baseline_eq_of_resetStats h]
  by_cases hr : r.state = .running
  · simp only [hr, beq_self_eq_true, Bool.true_and, true_and, ne_eq, decide_eq_decide]
    omega
  · simp only [beq_eq_false_iff_ne.mpr hr, Bool.false_and, ne_eq, not_true_eq_false, hr, false_and]

end Stall

theorem stallThresholdUs_after (m : Monitor) (calls : List Call) :
    (m.after calls).stallThresholdUs = m.stallThresholdUs := by
  induction calls using List.reverseRecOn with
  | nil => rfl
  | append_singleton before call ih =>
    rw [after_concat, ← ih]
    cases call with
    | watchdogTick now => rfl
    | about i request =>
      cases hr : (m.after before).records[i]? with
      | none => rw [Call.perform, Request.perform_absent hr]
      | some r => rw [Call.perform, Request.perform_eq hr]

theorem RestsOnInterrupt.mono {earlier : List Call} (h : m.RestsOnInterrupt c earlier)
    (he : earlier <+: calls) : m.RestsOnInterrupt c calls := by
  obtain ⟨before, now, r, hb, hrest⟩ := h
  exact ⟨before, now, r, hb.trans he, hrest⟩

/-- A channel that does not rest on an interrupt is found stalled with cleared statistics exactly if
it is found stalled without. -/
theorem hasStalled_of_not_rests {now : Nat} {r s : ChannelRecord}
    (h : ¬ m.RestsOnInterrupt c (calls ++ [.watchdogTick now]))
    (halike : Alike c ((m.resetStats c).after calls) (m.after calls))
    (hs : ((m.resetStats c).after calls).records[c]? = some s)
    (hr : (m.after calls).records[c]? = some r) :
    s.hasStalled m.stallThresholdUs now = r.hasStalled m.stallThresholdUs now := by
  have hsr := halike.resetStats_eq hs hr
  rcases lastInterrupt_resetStats hr hs with heq | ⟨hcalls, hnone⟩
  · exact hasStalled_eq hsr heq
  · apply Classical.byContradiction
    intro hne
    obtain ⟨hrun, hlate, hearly⟩ := (hasStalled_ne_iff hsr hnone).mp hne
    exact h ⟨calls, now, r, List.prefix_refl _, hcalls, hr, hrun, hlate, hearly⟩

/-- As long as no channel rests on an interrupt, monitors with and without cleared statistics give
the same answers and stay alike. -/
theorem alike_after (h : ¬ m.RestsOnInterrupt c calls) :
    (m.resetStats c).history calls = m.history calls ∧
      Alike c ((m.resetStats c).after calls) (m.after calls) := by
  induction calls using List.reverseRecOn with
  | nil => exact ⟨rfl, alike_resetStats m c⟩
  | append_singleton before call ih =>
    obtain ⟨hhistory, halike⟩ := ih fun hb => h (hb.mono (List.prefix_append _ _))
    have hstep : (call.perform ((m.resetStats c).after before)).1 =
          (call.perform (m.after before)).1 ∧
        Alike c (call.perform ((m.resetStats c).after before)).2
          (call.perform (m.after before)).2 := by
      cases call with
      | about i request => exact halike.request i request
      | watchdogTick now =>
        have htick := halike.tick now fun s r hs hr => by
          have hsame := hasStalled_of_not_rests h halike hs hr
          rw [stallThresholdUs_after]
          exact hsame
        exact ⟨congrArg Answer.stalled htick.1, htick.2⟩
    rw [history_concat, history_concat, after_concat, after_concat, hhistory, hstep.1]
    exact ⟨rfl, hstep.2⟩

/-- Once a channel rests on an interrupt, the monitor with cleared statistics takes it out of
running where the other one does not. -/
theorem not_alike_of_rests (h : m.RestsOnInterrupt c calls) :
    ∃ earlier, earlier <+: calls ∧
      ¬ Alike c ((m.resetStats c).after earlier) (m.after earlier) := by
  obtain ⟨before, now, r, hb, hbefore, hr, hrest⟩ := h
  apply Classical.byContradiction
  intro hnot
  have halike (earlier : List Call) (he : earlier <+: calls) :
      Alike c ((m.resetStats c).after earlier) (m.after earlier) :=
    Classical.byContradiction fun hne => hnot ⟨earlier, he, hne⟩
  have hahead := halike before ((List.prefix_append _ _).trans hb)
  obtain ⟨s, hs, -⟩ := hahead.symm.record hr
  -- No call has dated the last interrupt, so it is still cleared.
  have hnone : s.stats.lastInterrupt = none := by
    obtain ⟨t, ht, hlast⟩ := lastInterrupt_after hs hbefore
    rw [record_resetStats] at ht
    obtain ⟨t, -, rfl⟩ := Option.map_eq_some_iff.mp ht
    rw [cleared, if_pos rfl] at hlast
    exact hlast
  have hne := (hasStalled_ne_iff (hahead.resetStats_eq hs hr) hnone).mpr hrest
  have hafter := halike _ hb
  rw [after_concat, after_concat] at hafter
  have hstate := state_eq_of_resetStats (hafter.resetStats_eq (record_tick hs) (record_tick hr))
  rw [state_look, state_look, stallThresholdUs_after, stallThresholdUs_after,
    state_eq_of_resetStats (hahead.resetStats_eq hs hr), hrest.1] at hstate
  apply hne
  have hthreshold : (m.resetStats c).stallThresholdUs = m.stallThresholdUs := rfl
  rw [hthreshold] at hstate
  cases hstalled : s.hasStalled m.stallThresholdUs now <;>
    cases hrests : r.hasStalled m.stallThresholdUs now <;> simp_all

/-- A monitor with cleared statistics gives the same answers and differs in nothing but those
statistics, whatever follows, exactly if the channel never rests on an interrupt that was
cleared. -/
theorem resetStats_unseen_iff (m : Monitor) (c : Nat) (calls : List Call) :
    (∀ earlier, earlier <+: calls →
      (m.resetStats c).history earlier = m.history earlier ∧
        ((m.resetStats c).after earlier).resetStats c = (m.after earlier).resetStats c) ↔
      ¬ m.RestsOnInterrupt c calls := by
  constructor
  · intro h hrests
    obtain ⟨earlier, he, hne⟩ := not_alike_of_rests hrests
    exact hne (alike_iff.mpr (h earlier he).2)
  · intro h earlier he
    obtain ⟨hhistory, halike⟩ := alike_after fun hrests => h (hrests.mono he)
    exact ⟨hhistory, alike_iff.mp halike⟩

/-- A channel started long ago has shown a sign of life since. -/
def livelyCalls : List Call := [.about 0 (.start 0), .about 0 (.onInterrupt false 4000000)]

/-- Clearing statistics does steer a monitor. -/
theorem resetStats_steers : ¬ ∀ (count : Nat) (config : Config) (now : Nat) (m : Monitor)
    (earlier : List Call) (c : Nat) (calls : List Call),
      Monitor.create? count config now = .ok m →
        ((m.after earlier).resetStats c).history calls = (m.after earlier).history calls := by
  intro h
  have hsame := h 1 .standard 0 bench livelyCalls 0 [.watchdogTick 5000000] rfl
  exact absurd hsame (by decide +kernel)

end PacketDma.Monitor
