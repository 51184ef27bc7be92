import PacketDma.Proofs.ClearedStats
import PacketDma.Proofs.Counting

/-!
# Stall detection

The watchdog takes a running channel for stalled when it has shown no sign of life for the
threshold: it had no interrupt and did not begin to run. A record keeps but two dates for this, of
the last interrupt and of the beginning of the run. While time does not run backwards and no
statistics are cleared, the two stand for everything that was done with the channel. So a channel is
reported exactly if all its signs of life are too old, and it is not reported again before it has
begun to run once more.

## Implementation notes

Signs of life are read off the calls, their answers and the states of the channel, never off the
dates of its record. Whether the attempt that a success closes was ever claimed makes no difference.
-/

namespace PacketDma.Monitor

/-! ### Signs of life -/

/-- When a request makes its channel enter running, given the state it finds and its answer. -/
def Request.entry? (found : Option ChannelState) (answer : Answer) : Request → Option Nat
  | .start now => if found = some .stopped then some now else none
  | .resume now => if answer = .resumed (.ok .running) then some now else none
  | .finishRecovery success _ _ now => if success then some now else none
  | _ => none

/-- When a call makes a channel enter running. -/
def Call.entry? (m : Monitor) (channel : Nat) : Call → Option Nat
  | .about i request =>
    if i = channel then request.entry? (m.state? i) (request.perform i m).1 else none
  | .watchdogTick _ => none

/-- When a channel entered running in the course of some calls. -/
def entries (channel : Nat) (m : Monitor) : List Call → List Nat
  | [] => []
  | call :: rest => (call.entry? m channel).toList ++ entries channel (call.perform m).2 rest

/-- When a call tells of an interrupt of a channel. -/
def Call.interrupt? (channel : Nat) : Call → Option Nat
  | .about i (.onInterrupt _ now) => if i = channel then some now else none
  | _ => none

/-- When the interrupts of a channel came in. -/
def interrupts (channel : Nat) (calls : List Call) : List Nat :=
  calls.filterMap (·.interrupt? channel)

/-- The last sign of life of a channel that ever ran: when it last entered running, or the latest of
its interrupts if that is later. -/
def lastSign? (m : Monitor) (channel : Nat) (calls : List Call) : Option Nat :=
  (entries channel m calls).getLast?.map fun entered => (interrupts channel calls).foldl max entered

/-- After some calls a channel runs, and at `now` its last sign of life is as old as the threshold
or older. -/
def Silent (m : Monitor) (channel : Nat) (calls : List Call) (thresholdUs now : Nat) : Prop :=
  (m.after calls).state? channel = some .running ∧
    ∃ sign, m.lastSign? channel calls = some sign ∧ sign + thresholdUs ≤ now

/-- The time that a request tells. -/
def Request.time? : Request → Option Nat
  | .start now | .resume now | .onInterrupt _ now | .recordFault _ now | .beginRecovery _ now
  | .finishRecovery _ _ _ now => some now
  | .stop | .suspend | .reset | .onRingFull | .markDown | .resetStats => none

/-- The time that a call tells. -/
def Call.time? : Call → Option Nat
  | .about _ request => request.time?
  | .watchdogTick now => some now

/-- No call tells an earlier time than a call before it. -/
def InOrder (calls : List Call) : Prop := (calls.filterMap Call.time?).Pairwise (· ≤ ·)

instance : Decidable (InOrder calls) := inferInstanceAs (Decidable (List.Pairwise _ _))

variable {m : Monitor} {c now : Nat} {calls : List Call} {call : Call} {r s : ChannelRecord}

theorem entries_append (c : Nat) (m : Monitor) (before calls : List Call) :
    entries c m (before ++ calls) = entries c m before ++ entries c (m.after before) calls := by
  induction before generalizing m with
  | nil => rfl
  | cons call rest ih =>
    calc entries c m (call :: rest ++ calls)
      _ = (call.entry? m c).toList ++ entries c (call.perform m).2 (rest ++ calls) := rfl
      _ = _ := by
        rw [ih, ← List.append_assoc]
        rfl

theorem entries_concat (c : Nat) (m : Monitor) (calls : List Call) (call : Call) :
    entries c m (calls ++ [call]) =
      entries c m calls ++ (call.entry? (m.after calls) c).toList := by
  rw [entries_append, entries, entries, List.append_nil]

theorem interrupts_concat (c : Nat) (calls : List Call) (call : Call) :
    interrupts c (calls ++ [call]) = interrupts c calls ++ (call.interrupt? c).toList := by
  rw [interrupts, List.filterMap_append, interrupts]
  cases h : call.interrupt? c with
  | none => rw [List.filterMap_cons_none h, List.filterMap_nil, Option.toList_none]
  | some now => rw [List.filterMap_cons_some h, List.filterMap_nil, Option.toList_some]

/-! ### Signs of life are dated by their calls -/

theorem Request.time?_of_entry? {found : Option ChannelState} {answer : Answer} {request : Request}
    (h : request.entry? found answer = some now) : request.time? = some now := by
  cases request with
  | start | resume | finishRecovery =>
    obtain ⟨-, heq⟩ := Option.ite_none_right_eq_some.mp h
    exact heq
  | _ => cases h

theorem Call.time?_of_entry? (h : call.entry? m c = some now) : call.time? = some now := by
  cases call with
  | about i request =>
    obtain ⟨-, hentry⟩ := Option.ite_none_right_eq_some.mp h
    exact Request.time?_of_entry? hentry
  | watchdogTick time => cases h

theorem Call.time?_of_interrupt? (h : call.interrupt? c = some now) : call.time? = some now := by
  unfold Call.interrupt? at h
  split at h
  · obtain ⟨-, heq⟩ := Option.ite_none_right_eq_some.mp h
    exact heq
  · cases h

theorem mem_times_of_mem_entries (h : now ∈ entries c m calls) :
    now ∈ calls.filterMap Call.time? := by
  induction calls generalizing m with
  | nil => cases h
  | cons call rest ih =>
    rw [List.mem_filterMap]
    rcases List.mem_append.mp h with h | h
    · exact ⟨call, by simp, Call.time?_of_entry? (Option.mem_toList.mp h)⟩
    · obtain ⟨later, hlater, htime⟩ := List.mem_filterMap.mp (ih h)
      exact ⟨later, List.mem_cons_of_mem _ hlater, htime⟩

theorem mem_times_of_mem_interrupts (h : now ∈ interrupts c calls) :
    now ∈ calls.filterMap Call.time? := by
  obtain ⟨call, hcall, hnow⟩ := List.mem_filterMap.mp h
  exact List.mem_filterMap.mpr ⟨call, hcall, Call.time?_of_interrupt? hnow⟩

theorem interrupts_pairwise (h : InOrder calls) : (interrupts c calls).Pairwise (· ≤ ·) := by
  rw [InOrder, List.pairwise_filterMap] at h
  rw [interrupts, List.pairwise_filterMap]
  apply h.imp
  intro earlier later hle t ht u hu
  exact hle t (Call.time?_of_interrupt? ht) u (Call.time?_of_interrupt? hu)

theorem InOrder.of_concat (h : InOrder (calls ++ [call])) : InOrder calls := by
  rw [InOrder, List.filterMap_append] at h
  exact (List.pairwise_append.mp h).1

/-- A turn of the watchdog comes at no earlier time than any call before it. -/
theorem InOrder.le_tick (h : InOrder (calls ++ [.watchdogTick now])) {t : Nat}
    (ht : t ∈ calls.filterMap Call.time?) : t ≤ now := by
  rw [InOrder, List.filterMap_append] at h
  exact (List.pairwise_append.mp h).2.2 t ht now (by simp [Call.time?])

/-! ### Entering -/

/-- What becomes of the state of a channel and of its baseline, as it enters running at some time or
does not. -/
inductive Entering (r s : ChannelRecord) : Option Nat → Prop where
  | enters {now : Nat} (hrun : s.state = .running) (hbase : s.baseline = now) :
      Entering r s (some now)
  | stays (h : s.state = .running → r.state = .running ∧ s.baseline = r.baseline) :
      Entering r s none

namespace Entering

theorem keeps (hstate : s.state = r.state) (hbase : s.baseline = r.baseline) :
    Entering r s none :=
  .stays fun hrun => ⟨hstate.symm.trans hrun, hbase⟩

theorem leaves (h : s.state ≠ .running) : Entering r s none :=
  .stays fun hrun => absurd hrun h

theorem start (r : ChannelRecord) (now : Nat) :
    Entering r (r.start now).2 (if some r.state = some .stopped then some now else none) := by
  cases h : r.state with
  | stopped => simpa [ChannelRecord.start, h] using enters rfl rfl
  | running | error | recovering | suspended =>
    simpa [ChannelRecord.start, h] using keeps rfl rfl

theorem resume (r : ChannelRecord) (now : Nat) :
    Entering r (r.resume now).2
      (if (r.resume now).1 = .ok .running then some now else none) := by
  cases h : r.state with
  | suspended =>
    cases hpending : r.pending.isEmpty with
    | true => simpa [ChannelRecord.resume, h, hpending] using enters rfl rfl
    | false => simpa [ChannelRecord.resume, h, hpending] using leaves (by simp)
  | stopped | running | error | recovering =>
    simpa [ChannelRecord.resume, h] using keeps rfl rfl

theorem stop (r : ChannelRecord) : Entering r r.stop.2 none := by
  cases h : r.state with
  | recovering => simpa [ChannelRecord.stop, h] using keeps rfl rfl
  | stopped | running | error | suspended => exact leaves (by simp [ChannelRecord.stop, h])

theorem suspend (r : ChannelRecord) : Entering r r.suspend.2 none := by
  cases h : r.state with
  | running => exact leaves (by simp [ChannelRecord.suspend, h])
  | stopped | error | recovering | suspended =>
    simpa [ChannelRecord.suspend, h] using keeps rfl rfl

theorem reset (r : ChannelRecord) : Entering r r.reset.2 none := by
  cases h : r.state with
  | recovering => simpa [ChannelRecord.reset, h] using keeps rfl rfl
  | stopped | running | error | suspended => exact leaves (by simp [ChannelRecord.reset, h])

theorem beginRecovery (r : ChannelRecord) (policy : RecoveryPolicy) (now : Nat) :
    Entering r (r.beginRecovery policy now).2 none := by
  unfold ChannelRecord.beginRecovery
  split_ifs
  all_goals first
    | exact keeps rfl rfl
    | exact leaves (by simp)

theorem recordFault (r : ChannelRecord) (faults : FaultSet) (now : Nat) :
    Entering r (r.recordFault faults now).2 none := by
  unfold ChannelRecord.recordFault
  split
  · exact keeps rfl rfl
  · apply leaves
    show (if r.state = .running then .error else r.state) ≠ .running
    split <;> simp [*]

theorem markDown (r : ChannelRecord) : Entering r r.markDown none := by
  by_cases h : r.state = .recovering
  · exact leaves (by simp [ChannelRecord.markDown, h])
  · exact keeps (if_neg h) rfl

end Entering

/-- A channel enters running exactly when the request and its answer say so. -/
theorem entering_request (r : ChannelRecord) (request : Request) :
    Entering r (request.touch r).2 (request.entry? (some r.state) (request.touch r).1) := by
  cases request with
  | start now => exact .start r now
  | resume now =>
    simp only [Request.entry?, Request.touch, Prod.map_fst, Answer.resumed.injEq]
    exact .resume r now
  | stop => exact .stop r
  | suspend => exact .suspend r
  | reset => exact .reset r
  | beginRecovery policy now => exact .beginRecovery r policy now
  | recordFault faults now => exact .recordFault r faults now
  | finishRecovery success residual maxRetries now =>
    cases success with
    | true => exact .enters rfl rfl
    | false =>
      have hstate : (r.onRecoveryFailed residual maxRetries).state = .error := rfl
      exact .leaves (by simp [Request.touch, ChannelRecord.finishRecovery, hstate])
  | markDown => exact .markDown r
  | onInterrupt | onRingFull | resetStats => exact .keeps rfl rfl

theorem entering_look (m : Monitor) (now : Nat) (r : ChannelRecord) :
    Entering r (m.look now r) none := by
  unfold look
  split
  · exact .leaves nofun
  · exact .keeps rfl rfl

/-- A channel enters running exactly when the call says so. -/
theorem entering_call (hr : m.records[c]? = some r) (call : Call) :
    Entering r (call.touch m c r) (call.entry? m c) := by
  cases call with
  | watchdogTick now => exact entering_look m now r
  | about i request =>
    by_cases hi : i = c
    · subst hi
      rw [Call.touch, if_pos rfl, Call.entry?, if_pos rfl, Request.perform_eq hr, state?_eq hr]
      exact entering_request r request
    · rw [Call.touch, if_neg hi, Call.entry?, if_neg hi]
      exact .keeps rfl rfl

/-- A channel that does not run, and does not enter running in some calls, does not run after
them. -/
theorem not_running_of_entries_nil (hr : m.records[c]? = some r) (hhalted : r.state ≠ .running)
    (hentries : entries c m calls = []) : (m.after calls).state? c ≠ some .running := by
  have hafter : ∃ s, (m.after calls).records[c]? = some s ∧
      (entries c m calls = [] → s.state ≠ .running) := by
    apply record_after_induction hr fun _ => hhalted
    intro before call s _ hs ih hnil
    rw [entries_concat, List.append_eq_nil_iff, Option.toList_eq_nil_iff] at hnil
    have hentering := entering_call hs call
    rw [hnil.2] at hentering
    cases hentering with
    | stays hstays => exact fun hrun => ih hnil.1 (hstays hrun).1
  obtain ⟨s, hs, hstate⟩ := hafter
  rw [state?_eq hs, ne_eq, Option.some_inj]
  exact hstate hentries

/-! ### What a record keeps of the signs of life -/

/-- The dates of a record stand for the signs of life that its channel has shown. -/
structure Dates (m : Monitor) (channel : Nat) (calls : List Call) (r : ChannelRecord) : Prop where
  /-- The baseline of a run is when the channel entered it. -/
  entered : r.state = .running → (entries channel m calls).getLast? = some r.baseline
  /-- The last interrupt is the last of which a call told. -/
  interrupted : r.stats.lastInterrupt = (interrupts channel calls).getLast?

theorem lastInterrupt_call (m : Monitor) (r : ChannelRecord) (h : call ≠ .about c .resetStats) :
    (call.touch m c r).stats.lastInterrupt = (call.interrupt? c).or r.stats.lastInterrupt := by
  cases call with
  | watchdogTick now => exact lastInterrupt_look m now r
  | about i request =>
    by_cases hi : i = c
    · subst hi
      rw [Call.touch, if_pos rfl]
      cases request with
      | resetStats => exact absurd rfl h
      | onInterrupt isError now =>
        rw [Call.interrupt?, if_pos rfl]
        cases isError <;> rfl
      | _ => exact lastInterrupt_request r rfl
    · rw [Call.touch, if_neg hi]
      cases request with
      | onInterrupt => rw [Call.interrupt?, if_neg hi, Option.none_or]
      | _ => rfl

/-- A call keeps the dates, unless it clears the statistics of the channel. -/
theorem Dates.concat (h : Dates m c calls r) (hr : (m.after calls).records[c]? = some r)
    (hcall : call ≠ .about c .resetStats) :
    Dates m c (calls ++ [call]) (call.touch (m.after calls) c r) := by
  have hlast (o : Option Nat) : o.toList.getLast? = o := by cases o <;> rfl
  constructor
  · intro hrun
    rw [entries_concat, List.getLast?_append, hlast]
    have hentering := entering_call hr call
    generalize call.entry? (m.after calls) c = entry at hentering ⊢
    cases hentering with
    | enters _ hbase => rw [hbase, Option.some_or]
    | stays hstays =>
      obtain ⟨hbefore, hbase⟩ := hstays hrun
      rw [Option.none_or, h.entered hbefore, hbase]
  · rw [lastInterrupt_call _ _ hcall, interrupts_concat, List.getLast?_append, hlast, h.interrupted]

theorem foldl_max_of_pairwise {l : List Nat} (h : l.Pairwise (· ≤ ·)) (n : Nat) :
    l.foldl max n = l.getLast?.elim n (max · n) := by
  induction l using List.reverseRecOn with
  | nil => rfl
  | append_singleton rest t ih =>
    obtain ⟨hrest, -, hle⟩ := List.pairwise_append.mp h
    rw [List.foldl_concat, List.getLast?_concat, Option.elim_some, ih hrest]
    cases hlast : rest.getLast? with
    | none => exact Nat.max_comm n t
    | some u =>
      have hut : u ≤ t := hle u (List.mem_of_getLast? hlast) t (List.mem_singleton_self t)
      rw [Option.elim_some, Nat.max_right_comm, Nat.max_eq_right hut]

/-- For a channel that runs, the last sign of life is the last activity that its record tells. -/
theorem Dates.lastSign?_eq (h : Dates m c calls r) (hordered : InOrder calls)
    (hrun : r.state = .running) : m.lastSign? c calls = some r.lastActivity := by
  rw [lastSign?, h.entered hrun, Option.map_some,
    foldl_max_of_pairwise (interrupts_pairwise hordered), ← h.interrupted,
    ChannelRecord.lastActivity]
  cases r.stats.lastInterrupt <;> rfl

theorem Dates.lastActivity_le (h : Dates m c calls r)
    (hordered : InOrder (calls ++ [.watchdogTick now])) (hrun : r.state = .running) :
    r.lastActivity ≤ now := by
  have hbase : r.baseline ≤ now :=
    hordered.le_tick (mem_times_of_mem_entries (List.mem_of_getLast? (h.entered hrun)))
  rw [ChannelRecord.lastActivity]
  cases hlast : r.stats.lastInterrupt with
  | none => exact hbase
  | some t =>
    rw [h.interrupted] at hlast
    have ht : t ≤ now :=
      hordered.le_tick (mem_times_of_mem_interrupts (List.mem_of_getLast? hlast))
    exact Nat.max_le.mpr ⟨ht, hbase⟩

/-- In a run of a monitor that was new, records keep the dates of the channels whose statistics are
not cleared. -/
theorem dates_of_create? {count start : Nat} {config : Config}
    (hm : create? count config start = .ok m) (hc : c < count)
    (hstats : .about c .resetStats ∉ calls) :
    ∃ r, (m.after calls).records[c]? = some r ∧ Dates m c calls r := by
  apply record_after_induction (record_of_create?_ok hm hc)
  · exact ⟨nofun, rfl⟩
  · intro before call r hbefore hr hdates
    apply hdates.concat hr
    rintro rfl
    exact hstats (hbefore.subset (by simp))

/-! ### Reports -/

/-- What a turn of the watchdog makes of a channel that it reports. -/
structure Reported (r s : ChannelRecord) : Prop where
  state_eq : s.state = .error
  pending_eq : s.pending = r.pending ∪ .single .stalled
  timeouts_eq : s.stats.timeouts = Counter.add r.stats.timeouts 1

/-- What a turn of the watchdog makes of a channel that it does not report. -/
structure PassedOver (r s : ChannelRecord) : Prop where
  state_eq : s.state = r.state
  pending_eq : s.pending = r.pending
  timeouts_eq : s.stats.timeouts = r.stats.timeouts

theorem reported_look (h : r.hasStalled m.stallThresholdUs now = true) :
    Reported r (m.look now r) := by
  have hdecay : (r.decay (m.decayPeriods now)).hasStalled m.stallThresholdUs now = true := h
  rw [look, if_pos hdecay]
  exact ⟨rfl, rfl, rfl⟩

theorem passedOver_look (h : r.hasStalled m.stallThresholdUs now = false) :
    PassedOver r (m.look now r) := by
  have hdecay : ¬ (r.decay (m.decayPeriods now)).hasStalled m.stallThresholdUs now = true :=
    Bool.eq_false_iff.mp h
  rw [look, if_neg hdecay]
  exact ⟨rfl, rfl, rfl⟩

theorem mem_stalled :
    c ∈ m.stalled now ↔
      ∃ r, m.records[c]? = some r ∧ r.hasStalled m.stallThresholdUs now = true := by
  rw [stalled, List.mem_filter, List.mem_range, record?, Option.any_eq_true, and_iff_right_iff_imp]
  rintro ⟨r, hr, -⟩
  exact (List.getElem?_eq_some_iff.mp hr).1

theorem mem_stalled_iff (hr : m.records[c]? = some r) :
    c ∈ m.stalled now ↔ r.hasStalled m.stallThresholdUs now = true := by
  rw [mem_stalled, hr]
  constructor
  · rintro ⟨_, ⟨⟩, hstalled⟩
    exact hstalled
  · exact fun hstalled => ⟨r, rfl, hstalled⟩

/-- A turn of the watchdog answers with the channels that have stalled, if a set has room for all
channels. -/
theorem mem_watchdogTick (hsize : m.size ≤ 32) :
    c ∈ (m.watchdogTick now).1.toList ↔ c ∈ m.stalled now := by
  have hids : ∀ id ∈ m.stalled now, id < 32 := by
    intro id hid
    obtain ⟨r, hr, -⟩ := mem_stalled.mp hid
    exact (List.getElem?_eq_some_iff.mp hr).1.trans_le hsize
  exact ChannelMask.mem_toList_foldl_insert hids

/-- A record that keeps the dates tells whether its channel has been silent for the threshold. -/
theorem Dates.silent_iff (h : Dates m c calls r) (hr : (m.after calls).records[c]? = some r)
    (hordered : InOrder (calls ++ [.watchdogTick now])) {thresholdUs : Nat} :
    m.Silent c calls thresholdUs now ↔ r.hasStalled thresholdUs now = true := by
  rw [Silent, state?_eq hr, Option.some_inj, ChannelRecord.hasStalled, Bool.and_eq_true, beq_iff_eq,
    decide_eq_true_iff, Instant.since]
  apply and_congr_right
  intro hrun
  have hle := h.lastActivity_le hordered hrun
  rw [h.lastSign?_eq hordered.of_concat hrun]
  constructor
  · rintro ⟨_, ⟨⟩, hold⟩
    omega
  · intro hold
    exact ⟨_, rfl, by omega⟩

theorem size_after (m : Monitor) (calls : List Call) : (m.after calls).size = m.size := by
  induction calls using List.reverseRecOn with
  | nil => rfl
  | append_singleton before call ih =>
    rw [after_concat, ← ih]
    cases call with
    | watchdogTick now => exact List.length_map _
    | about i request =>
      cases hr : (m.after before).records[i]? with
      | none => rw [Call.perform, Request.perform_absent hr]
      | some r =>
        rw [Call.perform, Request.perform_eq hr]
        exact List.length_set

theorem size_after_create? {count start : Nat} {config : Config}
    (hm : create? count config start = .ok m) (calls : List Call) :
    (m.after calls).size = count := by
  rw [size_after, eq_of_create?_ok hm]
  exact List.length_replicate

/-- A monitor that was new finds exactly the channels stalled that have been silent for the
threshold. -/
theorem stalled_iff_silent {count start : Nat} {config : Config}
    (hm : create? count config start = .ok m)
    (hordered : InOrder (calls ++ [.watchdogTick now]))
    (hstats : .about c .resetStats ∉ calls) :
    c ∈ (m.after calls).stalled now ↔
      m.Silent c calls (config.stallThresholdMs * 1000) now := by
  by_cases hc : c < count
  · obtain ⟨r, hr, hdates⟩ := dates_of_create? hm hc hstats
    rw [hdates.silent_iff hr hordered, mem_stalled_iff hr, stallThresholdUs_after,
      eq_of_create?_ok hm]
  · have hnone : (m.after calls).records[c]? = none := by
      rw [List.getElem?_eq_none_iff]
      exact (size_after_create? hm calls).trans_le (Nat.le_of_not_lt hc)
    simp [mem_stalled, Silent, state?, record?, hnone]

/-- A turn of the watchdog reports the channels that have stalled and passes over all others. -/
theorem tick_record (hr : m.records[c]? = some r) (now : Nat) :
    ∃ s, (m.watchdogTick now).2.records[c]? = some s ∧
      (c ∈ m.stalled now → Reported r s) ∧ (c ∉ m.stalled now → PassedOver r s) := by
  refine ⟨m.look now r, record_tick hr, ?_, ?_⟩
  · intro hmem
    exact reported_look ((mem_stalled_iff hr).mp hmem)
  · intro hnot
    rw [mem_stalled_iff hr, Bool.not_eq_true] at hnot
    exact passedOver_look hnot

/-- A channel that is found stalled does not run again before it has entered running. -/
theorem entries_since_stalled {before since : List Call} {earlier : Nat}
    (hstalled : c ∈ (m.after before).stalled earlier)
    (hrun : (m.after (before ++ .watchdogTick earlier :: since)).state? c = some .running) :
    entries c (m.after (before ++ [.watchdogTick earlier])) since ≠ [] := by
  intro hnil
  obtain ⟨r, hr, -⟩ := mem_stalled.mp hstalled
  obtain ⟨s, hs, hreported, -⟩ := tick_record hr earlier
  have hhalted : s.state ≠ .running := by
    rw [(hreported hstalled).state_eq]
    nofun
  have hsince : m.after (before ++ .watchdogTick earlier :: since) =
      ((m.after before).watchdogTick earlier).2.after since := by
    rw [after, List.foldl_append]
    rfl
  rw [hsince] at hrun
  rw [after_concat] at hnil
  exact not_running_of_entries_nil hs hhalted hnil hrun

/-- While time does not run backwards and no statistics are cleared, a turn of the watchdog finds
exactly the channels that run and whose signs of life, over the whole history, are all as old as the
threshold or older. Each of them goes to error with a fault pending and one stall counted, the
others are passed over, and between two reports of a channel it has entered running. The answer is a
set with room for 32 channels. -/
theorem watchdog_finds_silent {count start : Nat} {config : Config}
    (hm : create? count config start = .ok m)
    (hordered : InOrder (calls ++ [.watchdogTick now]))
    (hstats : ∀ channel, .about channel .resetStats ∉ calls) :
    let thresholdUs := config.stallThresholdMs * 1000
    let turn := (m.after calls).watchdogTick now
    (∀ c, c ∈ (m.after calls).stalled now ↔ m.Silent c calls thresholdUs now) ∧
    (count ≤ 32 → ∀ c, c ∈ turn.1.toList ↔ m.Silent c calls thresholdUs now) ∧
    (∀ c < count, ∃ r s, (m.after calls).records[c]? = some r ∧ turn.2.records[c]? = some s ∧
      (m.Silent c calls thresholdUs now → Reported r s) ∧
      (¬ m.Silent c calls thresholdUs now → PassedOver r s)) ∧
    ∀ c before earlier since, before ++ .watchdogTick earlier :: since = calls →
      c ∈ (m.after before).stalled earlier → c ∈ (m.after calls).stalled now →
      entries c (m.after (before ++ [.watchdogTick earlier])) since ≠ [] := by
  intro thresholdUs turn
  have hsilent (c : Nat) := stalled_iff_silent (c := c) hm hordered (hstats c)
  refine ⟨hsilent, ?_, ?_, ?_⟩
  · intro hcount c
    rw [mem_watchdogTick ((size_after_create? hm calls).trans_le hcount)]
    exact hsilent c
  · intro c hc
    obtain ⟨r, hr, hdates⟩ := dates_of_create? hm hc (hstats c)
    rw [← hsilent c]
    obtain ⟨s, hs, hturn⟩ := tick_record hr now
    exact ⟨r, s, hr, hs, hturn⟩
  · rintro c before earlier since rfl hfirst hagain
    exact entries_since_stalled hfirst ((hsilent c).mp hagain).1

/-- A channel that starts at one second and has an interrupt at four stalls at nine seconds, and
again five seconds after it has recovered. -/
theorem watchdog_finds_silent_twice :
    let before : List Call :=
      [.about 0 (.start 1000000), .about 0 (.onInterrupt false 4000000), .watchdogTick 5000000]
    let since : List Call :=
      [.about 0 (.beginRecovery .standard 9100000), .about 0 (.finishRecovery true ∅ 3 9200000)]
    let calls := before ++ .watchdogTick 9000000 :: since
    (0 ∈ ((bench.after before).watchdogTick 9000000).1.toList) ∧
      (0 ∈ ((bench.after calls).watchdogTick 14200000).1.toList) ∧
      entries 0 (bench.after (before ++ [.watchdogTick 9000000])) since ≠ [] := by
  intro before since calls
  have hm : create? 1 Config.standard 0 = .ok bench := rfl
  have hfirst : InOrder (before ++ [.watchdogTick 9000000]) := by decide
  have hagain : InOrder (calls ++ [.watchdogTick 14200000]) := by decide
  obtain ⟨-, hreported, -⟩ := watchdog_finds_silent hm hfirst (by simp [before])
  obtain ⟨hstalled, hreportedAgain, -, hbetween⟩ :=
    watchdog_finds_silent hm hagain (by simp [calls, before, since])
  have hsilent : bench.Silent 0 before 5000000 9000000 := ⟨rfl, 4000000, rfl, by decide⟩
  have hsilentAgain : bench.Silent 0 calls 5000000 14200000 := ⟨rfl, 9200000, rfl, by decide⟩
  refine ⟨(hreported (by decide) 0).mpr hsilent,
    (hreportedAgain (by decide) 0).mpr hsilentAgain, ?_⟩
  exact hbetween 0 before 9000000 since rfl (by decide) ((hstalled 0).mpr hsilentAgain)

end PacketDma.Monitor
