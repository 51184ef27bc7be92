import PacketDma.Proofs.MonitorRun

/-!
# Faults of a suspension

A channel that is resumed waits for recovery if faults are pending. These are meant to be the faults
of its suspension, but a fault that is noticed while the channel is stopped stays pending when the
channel starts. So there are two reasons for a channel to be resumed in error: a fault was noticed
since it was suspended, or it had last begun to run by a start with faults pending.

## Implementation notes

The faults pending are those of the record. What is to be read off the calls is whether there are
any, and only while the channel runs or is suspended.
-/

namespace PacketDma.Monitor

/-- After some calls a channel is in a state to which a request took it, and which it has not left
since. -/
structure Stays (m : Monitor) (channel : Nat) (calls : List Call) (source : ChannelState)
    (request : Request) (target : ChannelState) (before since : List Call) : Prop where
  /-- The request stands between the calls before it and those since. -/
  calls_eq : before ++ .about channel request :: since = calls
  /-- The state that the request found. -/
  source_eq : (m.after before).state? channel = some source
  /-- The state that the request left, as after each call since. -/
  target_eq : ∀ mid, mid <+: since →
    (m.after (before ++ .about channel request :: mid)).state? channel = some target

/-- One of the calls notices faults of a channel. -/
def NotesFault (channel : Nat) (calls : List Call) : Prop :=
  ∃ faults now, .about channel (.recordFault faults now) ∈ calls ∧ faults.isEmpty = false

/-- A channel runs since a start that found faults pending, and no success of an attempt was
reported since. -/
def StartedFaulty (m : Monitor) (channel : Nat) (calls : List Call) : Prop :=
  ∃ now before since, m.Stays channel calls .stopped (.start now) .running before since ∧
    ((m.after before).pending channel).isEmpty = false ∧
    ∀ residual maxRetries time,
      .about channel (.finishRecovery true residual maxRetries time) ∉ since

variable {m : Monitor} {c : Nat} {calls before since : List Call} {call : Call}

/-! ### Stays -/

section Stays

variable {source target : ChannelState} {request : Request}

theorem Stays.enter (hsource : (m.after calls).state? c = some source)
    (htarget : (m.after (calls ++ [.about c request])).state? c = some target) :
    m.Stays c (calls ++ [.about c request]) source request target calls [] := by
  refine ⟨rfl, hsource, fun mid hmid => ?_⟩
  obtain rfl := List.prefix_nil.mp hmid
  exact htarget

theorem Stays.concat (h : m.Stays c calls source request target before since)
    (htarget : (m.after (calls ++ [call])).state? c = some target) :
    m.Stays c (calls ++ [call]) source request target before (since ++ [call]) := by
  obtain ⟨rfl, hsource, hkept⟩ := h
  refine ⟨by simp, hsource, fun mid hmid => ?_⟩
  rcases List.prefix_concat_iff.mp hmid with rfl | hmid
  · simpa using htarget
  · exact hkept mid hmid

/-- A stay that lasts until after a call began with the call, or lasted until before it. -/
theorem Stays.of_concat (h : m.Stays c (calls ++ [call]) source request target before since) :
    (since = [] ∧ before = calls ∧ call = .about c request) ∨
      ∃ earlier, since = earlier ++ [call] ∧
        m.Stays c calls source request target before earlier := by
  obtain ⟨heq, hsource, hkept⟩ := h
  induction since using List.reverseRecOn with
  | nil =>
    obtain ⟨rfl, rfl⟩ : before = calls ∧ .about c request = call := by
      simpa using List.append_inj' heq rfl
    exact .inl ⟨rfl, rfl, rfl⟩
  | append_singleton earlier last =>
    have hlast : (before ++ .about c request :: earlier) ++ [last] = calls ++ [call] := by
      simpa using heq
    obtain ⟨rfl, rfl⟩ : before ++ .about c request :: earlier = calls ∧ last = call := by
      simpa using List.append_inj' hlast rfl
    exact .inr ⟨earlier, rfl, rfl, hsource,
      fun mid hmid => hkept mid (hmid.trans (List.prefix_append _ _))⟩

theorem Stays.state_eq (h : m.Stays c calls source request target before since) :
    (m.after calls).state? c = some target := by
  obtain ⟨rfl, -, hkept⟩ := h
  exact hkept since (List.prefix_refl _)

end Stays

/-! ### What a request does to the faults pending -/

/-- How a call changes the state of a channel and its faults pending, as far as the channel runs or
is suspended before or after. -/
inductive Shift (c : Nat) (r s : ChannelRecord) : Call → Prop where
  /-- No fault is noticed, and no success is reported. -/
  | keeps {call : Call} (hstate : s.state = r.state) (hpending : s.pending = r.pending)
      (hfault : ∀ faults now, call = .about c (.recordFault faults now) → faults.isEmpty = true)
      (hsuccess : ∀ residual maxRetries now,
        call ≠ .about c (.finishRecovery true residual maxRetries now)) : Shift c r s call
  | leaves {call : Call} (hrun : s.state ≠ .running) (hsuspended : s.state ≠ .suspended) :
      Shift c r s call
  | starts {now : Nat} (hr : r.state = .stopped) (hs : s.state = .running)
      (hpending : s.pending = r.pending) : Shift c r s (.about c (.start now))
  | suspends (hr : r.state = .running) (hs : s.state = .suspended)
      (hpending : s.pending = r.pending) : Shift c r s (.about c .suspend)
  | notes {faults : FaultSet} {now : Nat} (hfaults : faults.isEmpty = false)
      (hstate : s.state = r.state) (hrun : r.state ≠ .running)
      (hpending : s.pending.isEmpty = false) : Shift c r s (.about c (.recordFault faults now))
  | resumes {now : Nat} (hr : r.state = .suspended) (hs : s.state = .running)
      (hpending : s.pending.isEmpty = true) : Shift c r s (.about c (.resume now))
  | succeeds {residual : FaultSet} {maxRetries : UInt8} {now : Nat} (hs : s.state = .running)
      (hpending : s.pending.isEmpty = true) :
      Shift c r s (.about c (.finishRecovery true residual maxRetries now))

section Record

variable {r : ChannelRecord}

theorem shift_beginRecovery (c : Nat) (r : ChannelRecord) (policy : RecoveryPolicy) (now : Nat) :
    Shift c r (r.beginRecovery policy now).2 (.about c (.beginRecovery policy now)) := by
  unfold ChannelRecord.beginRecovery
  split
  next => exact .keeps rfl rfl (by simp) (by simp)
  split
  next => exact .keeps rfl rfl (by simp) (by simp)
  split
  next => exact .keeps rfl rfl (by simp) (by simp)
  split
  next => exact .keeps rfl rfl (by simp) (by simp)
  split
  next => exact .keeps rfl rfl (by simp) (by simp)
  next => exact .leaves (by simp) (by simp)

theorem shift_recordFault (c : Nat) (r : ChannelRecord) (faults : FaultSet) (now : Nat) :
    Shift c r (r.recordFault faults now).2 (.about c (.recordFault faults now)) := by
  unfold ChannelRecord.recordFault
  split
  next hempty =>
    apply Shift.keeps rfl rfl _ (by simp)
    rintro _ _ ⟨⟩
    exact hempty
  next hfaults =>
    have hfaults : faults.isEmpty = false := by simpa using hfaults
    by_cases hrun : r.state = .running
    · apply Shift.leaves <;> simp [hrun]
    · exact .notes hfaults (if_neg hrun) hrun (FaultSet.isEmpty_union_right hfaults)

/-- Every request shifts the record of its channel in one of these ways. -/
theorem shift_touch (c : Nat) (r : ChannelRecord) (request : Request) :
    Shift c r (request.touch r).2 (.about c request) := by
  cases request with
  | start now =>
    rw [Request.touch, ChannelRecord.start]
    split
    next => exact .keeps rfl rfl (by simp) (by simp)
    next hr => exact .starts hr rfl rfl
    next => exact .keeps rfl rfl (by simp) (by simp)
  | stop =>
    rw [Request.touch, ChannelRecord.stop]
    split
    next => exact .keeps rfl rfl (by simp) (by simp)
    next => exact .leaves (by simp) (by simp)
  | suspend =>
    rw [Request.touch, ChannelRecord.suspend]
    split
    next hr => exact .suspends hr rfl rfl
    next => exact .keeps rfl rfl (by simp) (by simp)
  | resume now =>
    rw [Request.touch, ChannelRecord.resume]
    split
    next hr =>
      by_cases hpending : r.pending.isEmpty = true
      · exact .resumes hr (if_pos hpending) hpending
      · apply Shift.leaves <;> simp [hpending]
    next => exact .keeps rfl rfl (by simp) (by simp)
  | reset =>
    rw [Request.touch, ChannelRecord.reset]
    split
    next => exact .keeps rfl rfl (by simp) (by simp)
    next => exact .leaves (by simp) (by simp)
  | recordFault faults now => exact shift_recordFault c r faults now
  | markDown =>
    by_cases hr : r.state = .recovering
    · apply Shift.leaves <;> simp [Request.touch, ChannelRecord.markDown, hr]
    · exact .keeps (if_neg hr) rfl (by simp) (by simp)
  | beginRecovery policy now => exact shift_beginRecovery c r policy now
  | finishRecovery success residual maxRetries now =>
    cases success with
    | true => exact .succeeds rfl rfl
    | false =>
      apply Shift.leaves <;>
        simp [Request.touch, ChannelRecord.finishRecovery, ChannelRecord.onRecoveryFailed]
  | onInterrupt | onRingFull | resetStats => exact .keeps rfl rfl (by simp) (by simp)

/-- Every call shifts the record of a channel in one of these ways. -/
theorem shift_call (m : Monitor) (c : Nat) (r : ChannelRecord) (call : Call) :
    Shift c r (call.touch m c r) call := by
  cases call with
  | about i request =>
    by_cases hi : i = c
    · subst hi
      rw [Call.touch, if_pos rfl]
      exact shift_touch i r request
    · rw [Call.touch, if_neg hi]
      exact .keeps rfl rfl (by simp [hi]) (by simp [hi])
  | watchdogTick now =>
    rw [Call.touch, look]
    split
    next => apply Shift.leaves <;> simp [ChannelRecord.onStall]
    next => exact .keeps rfl rfl (by simp) (by simp)

end Record

/-! ### Runs -/

theorem notesFault_concat :
    NotesFault c (since ++ [call]) ↔ NotesFault c since ∨
      ∃ faults now, call = .about c (.recordFault faults now) ∧ faults.isEmpty = false := by
  constructor
  · rintro ⟨faults, now, hmem, hfaults⟩
    rcases List.mem_append.mp hmem with hmem | hmem
    · exact .inl ⟨faults, now, hmem, hfaults⟩
    · exact .inr ⟨faults, now, (List.mem_singleton.mp hmem).symm, hfaults⟩
  · rintro (⟨faults, now, hmem, hfaults⟩ | ⟨faults, now, rfl, hfaults⟩)
    · exact ⟨faults, now, List.mem_append_left _ hmem, hfaults⟩
    · exact ⟨faults, now, by simp, hfaults⟩

theorem pending_eq {r : ChannelRecord} (hr : m.records[c]? = some r) :
    m.pending c = r.pending := by
  rw [pending, record?, hr]
  rfl

/-- A channel that went on running runs since the start it ran from before. -/
theorem startedFaulty_concat (hrun : (m.after calls).state? c = some .running)
    (hgoes : (m.after (calls ++ [call])).state? c = some .running)
    (hsuccess : ∀ residual maxRetries now,
      call ≠ .about c (.finishRecovery true residual maxRetries now)) :
    m.StartedFaulty c (calls ++ [call]) ↔ m.StartedFaulty c calls := by
  constructor
  · rintro ⟨now, before, since, hstays, hpending, hopen⟩
    rcases hstays.of_concat with ⟨-, rfl, -⟩ | ⟨earlier, rfl, hearlier⟩
    · cases hrun.symm.trans hstays.source_eq
    · exact ⟨now, before, earlier, hearlier, hpending,
        fun residual maxRetries time hmem =>
          hopen residual maxRetries time (List.mem_append_left _ hmem)⟩
  · rintro ⟨now, before, since, hstays, hpending, hopen⟩
    refine ⟨now, before, since ++ [call], hstays.concat hgoes, hpending, ?_⟩
    intro residual maxRetries time hmem
    rcases List.mem_append.mp hmem with hmem | hmem
    · exact hopen residual maxRetries time hmem
    · exact hsuccess residual maxRetries time (List.mem_singleton.mp hmem).symm

/-- Whether faults are pending is told by the calls, while a channel runs and while it is
suspended. -/
structure Traced (m : Monitor) (c : Nat) (calls : List Call) (r : ChannelRecord) : Prop where
  running : r.state = .running → (r.pending.isEmpty = false ↔ m.StartedFaulty c calls)
  suspended : r.state = .suspended →
    ∃ before since, m.Stays c calls .running .suspend .suspended before since ∧
      (r.pending.isEmpty = false ↔ m.StartedFaulty c before ∨ NotesFault c since)

theorem Traced.of_left {s : ChannelRecord} (hrun : s.state ≠ .running)
    (hsuspended : s.state ≠ .suspended) : m.Traced c calls s :=
  ⟨fun h => absurd h hrun, fun h => absurd h hsuspended⟩

theorem Traced.of_running {s : ChannelRecord} (hrun : s.state = .running)
    (h : s.pending.isEmpty = false ↔ m.StartedFaulty c calls) : m.Traced c calls s :=
  ⟨fun _ => h, fun hsuspended => absurd (hrun.symm.trans hsuspended) (by simp)⟩

/-- A suspension goes on, and a call may notice faults. -/
theorem Traced.go_on {r s : ChannelRecord} (h : m.Traced c calls r)
    (hstate : (m.after (calls ++ [call])).state? c = some .suspended)
    (hr : r.state = .suspended)
    (hpending : s.pending.isEmpty = false ↔ r.pending.isEmpty = false ∨
      ∃ faults now, call = .about c (.recordFault faults now) ∧ faults.isEmpty = false) :
    ∃ before since, m.Stays c (calls ++ [call]) .running .suspend .suspended before since ∧
      (s.pending.isEmpty = false ↔ m.StartedFaulty c before ∨ NotesFault c since) := by
  obtain ⟨before, since, hstays, hiff⟩ := h.suspended hr
  refine ⟨before, since ++ [call], hstays.concat hstate, ?_⟩
  rw [hpending, hiff, notesFault_concat, or_assoc]

/-- Each call keeps what the calls tell. -/
theorem Traced.concat {r : ChannelRecord} (h : m.Traced c calls r)
    (hr : (m.after calls).records[c]? = some r) (call : Call) :
    m.Traced c (calls ++ [call]) (call.touch (m.after calls) c r) := by
  have hbefore := state?_eq hr
  have hs : (m.after (calls ++ [call])).records[c]? = some (call.touch (m.after calls) c r) := by
    rw [after_concat, record_perform, hr, Option.map_some]
  have hafter := state?_eq hs
  have hshift := shift_call (m.after calls) c r call
  generalize call.touch (m.after calls) c r = s at hs hafter hshift ⊢
  -- A stay goes on if the state is kept, and begins where the call enters the state.
  cases hshift with
  | keeps hstate hpending hfault hsuccess =>
    constructor
    · intro hrun
      rw [hrun] at hafter
      have hrun : r.state = .running := hstate.symm.trans hrun
      rw [hrun] at hbefore
      rw [hpending, h.running hrun, startedFaulty_concat hbefore hafter hsuccess]
    · intro hsuspended
      rw [hsuspended] at hafter
      apply h.go_on hafter (hstate.symm.trans hsuspended)
      rw [hpending, iff_self_or]
      rintro ⟨faults, now, rfl, hfaults⟩
      cases (hfault faults now rfl).symm.trans hfaults
  | leaves hrun hsuspended => exact .of_left hrun hsuspended
  | starts hstopped hrun hpending =>
    rw [hstopped] at hbefore
    rw [hrun] at hafter
    apply Traced.of_running hrun
    rw [hpending, ← pending_eq hr]
    constructor
    · exact fun hfaulty => ⟨_, calls, [], .enter hbefore hafter, hfaulty, by simp⟩
    · rintro ⟨now, before, since, hstays, hfaulty, -⟩
      rcases hstays.of_concat with ⟨-, rfl, -⟩ | ⟨earlier, -, hearlier⟩
      · exact hfaulty
      · cases hbefore.symm.trans hearlier.state_eq
  | suspends hrun hsuspended hpending =>
    refine ⟨fun hrun => absurd (hsuspended.symm.trans hrun) (by simp), fun _ => ?_⟩
    rw [hrun] at hbefore
    rw [hsuspended] at hafter
    refine ⟨calls, [], .enter hbefore hafter, ?_⟩
    rw [hpending, h.running hrun]
    simp [NotesFault]
  | @notes faults now hfaults hstate hrun hpending =>
    refine ⟨fun h => absurd (hstate.symm.trans h) hrun, fun hsuspended => ?_⟩
    rw [hsuspended] at hafter
    apply h.go_on hafter (hstate.symm.trans hsuspended)
    exact iff_of_true hpending (.inr ⟨faults, now, rfl, hfaults⟩)
  | resumes hr hrun hpending =>
    refine .of_running hrun (iff_of_false (by simp [hpending]) ?_)
    rintro ⟨now, before, since, hstays, -⟩
    rcases hstays.of_concat with ⟨-, -, hcall⟩ | ⟨earlier, -, hearlier⟩
    · cases hcall
    · rw [hr] at hbefore
      cases hbefore.symm.trans hearlier.state_eq
  | succeeds hrun hpending =>
    refine .of_running hrun (iff_of_false (by simp [hpending]) ?_)
    rintro ⟨now, before, since, hstays, -, hopen⟩
    rcases hstays.of_concat with ⟨-, -, hcall⟩ | ⟨earlier, rfl, -⟩
    · cases hcall
    · exact hopen _ _ _ List.mem_concat_self

theorem traced_after (hm : m.records[c]? = some .new) (calls : List Call) :
    ∃ r, (m.after calls).records[c]? = some r ∧ m.Traced c calls r := by
  apply record_after_induction hm
  · exact .of_left (by simp [ChannelRecord.new]) (by simp [ChannelRecord.new])
  · exact fun before call r _ hr h => h.concat hr call

/-- A suspended channel has been suspended by some call and has stayed so since. If it is resumed,
the answer is its new state, and it is in error exactly if a fault was noticed since it was
suspended, or if it ran until then since a start that found faults pending. -/
theorem resume_error_iff {count : Nat} {config : Config} {now : Nat}
    (hm : Monitor.create? count config now = .ok m) (hc : c < count)
    (hsuspended : (m.after calls).state? c = some .suspended) (time : Nat) :
    ∃ before since state, m.Stays c calls .running .suspend .suspended before since ∧
      ((m.after calls).resume c time).1 = .ok state ∧
      ((m.after calls).resume c time).2.state? c = some state ∧
      (state = .running ∨ state = .error) ∧
      (state = .error ↔ m.StartedFaulty c before ∨ NotesFault c since) := by
  obtain ⟨r, hr, htraced⟩ := traced_after (record_of_create?_ok hm hc) calls
  have hstate : r.state = .suspended := Option.some.inj ((state?_eq hr).symm.trans hsuspended)
  obtain ⟨before, since, hstays, hiff⟩ := htraced.suspended hstate
  have hlt : c < (m.after calls).records.length := (List.getElem?_eq_some_iff.mp hr).1
  refine ⟨before, since, if r.pending.isEmpty then .running else .error, hstays, ?_, ?_, ?_, ?_⟩
  · rw [resume, act_eq hr, ChannelRecord.resume, hstate]
  · rw [resume, act_eq hr, ChannelRecord.resume, hstate, state?, record?,
      List.getElem?_set_self hlt]
    rfl
  · split
    · exact .inl rfl
    · exact .inr rfl
  · rw [← hiff]
    cases r.pending.isEmpty <;> simp

/-- A fault comes in before the channel starts, and none while it is suspended. -/
def staleTrip : List Call :=
  [.about 0 (.recordFault (.single .bus) 0), .about 0 (.start 10), .about 0 .suspend]

theorem resume_error_iff_trip :
    Monitor.create? 1 .standard 0 = .ok bench ∧
      (bench.after staleTrip).state? 0 = some .suspended ∧
      ∃ before since, bench.Stays 0 staleTrip .running .suspend .suspended before since ∧
        (bench.StartedFaulty 0 before ∨ NotesFault 0 since) := by
  have hsuspended : (bench.after staleTrip).state? 0 = some .suspended := by decide +kernel
  refine ⟨rfl, hsuspended, ?_⟩
  obtain ⟨before, since, state, hstays, hanswer, -, -, hiff⟩ :=
    resume_error_iff rfl Nat.one_pos hsuspended 20
  have herror : ((bench.after staleTrip).resume 0 20).1 = .ok .error := by decide +kernel
  exact ⟨before, since, hstays, hiff.mp (Except.ok.inj (hanswer.symm.trans herror))⟩

/-- The faults of a suspension alone do not tell how it ends. -/
theorem resume_error_of_stale : ¬ ∀ (count : Nat) (config : Config) (now : Nat) (m : Monitor)
    (c : Nat) (calls before since : List Call) (time : Nat),
      Monitor.create? count config now = .ok m → c < count →
        m.Stays c calls .running .suspend .suspended before since →
          (((m.after calls).resume c time).1 = .ok .error ↔ NotesFault c since) := by
  intro h
  have hrun : (bench.after (staleTrip.take 2)).state? 0 = some .running := by decide +kernel
  have hsuspended : (bench.after staleTrip).state? 0 = some .suspended := by decide +kernel
  have hstays : bench.Stays 0 staleTrip .running .suspend .suspended (staleTrip.take 2) [] :=
    .enter hrun hsuspended
  have hiff := h 1 .standard 0 bench 0 staleTrip _ [] 20 rfl Nat.one_pos hstays
  have herror : ((bench.after staleTrip).resume 0 20).1 = .ok .error := by decide +kernel
  simpa [NotesFault] using hiff.mp herror

end PacketDma.Monitor
