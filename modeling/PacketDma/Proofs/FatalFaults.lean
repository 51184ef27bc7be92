import PacketDma.Proofs.MonitorRun

/-!
# Fatal faults during recovery attempts

A fatal fault puts a channel out of use at once, also while a recovery attempt is under way. Who
makes the attempt need not know of it. A success reported after a fatal fault is the one way for a
channel to run although it is down.
-/

namespace PacketDma

namespace FaultSet

theorem isFatal_eq_false_of_isEmpty {s : FaultSet} (h : s.isEmpty = true) : s.isFatal = false := by
  obtain ⟨bits⟩ := s
  obtain rfl : bits = 0 := by simpa [isEmpty] using h
  decide

end FaultSet

namespace Monitor

/-- What a request makes of the open attempt on its channel. A claim opens an attempt, a fault that
is noticed meanwhile may be a fatal one, and the attempt is closed at its end. -/
def Request.advance (answer : Answer) (attempt : Option Bool) : Request → Option Bool
  | .beginRecovery .. =>
    match answer with
    | .claim (.claimed _) => some false
    | _ => attempt
  | .recordFault faults _ => attempt.map (· || faults.isFatal)
  | .finishRecovery .. => none
  | _ => attempt

/-- What a call makes of the open attempt on a channel. -/
def Call.advance (channel : Nat) (answer : Answer) (attempt : Option Bool) : Call → Option Bool
  | .about i request => if i = channel then request.advance answer attempt else attempt
  | .watchdogTick _ => attempt

/-- The attempt on a channel that is open after a history, if there is one, and whether a fatal
fault was noticed since it was claimed. -/
def attempt (channel : Nat) (history : List (Call × Answer)) : Option Bool :=
  history.foldl (fun attempt entry => entry.1.advance channel entry.2 attempt) none

/-- Whether a request is one the owner of a channel makes. It starts and resumes the channel only
when it is not down, and closes only an attempt it has claimed. It never puts the channel out of use
by itself. -/
def Request.isOrderly (downError : Option IoError) (attempt : Option Bool) : Request → Bool
  | .start _ | .resume _ => downError.isNone
  | .finishRecovery .. => attempt.isSome
  | .markDown => false
  | _ => true

/-- Whether a call is, as far as it is about a channel, one that the owner of that channel makes. -/
def isOrderly (m : Monitor) (channel : Nat) (before : List Call) : Call → Bool
  | .about i request =>
    i != channel ||
      request.isOrderly ((m.after before).downError? channel) (attempt channel (m.history before))
  | .watchdogTick _ => true

/-- Whether a channel is down and in state running. -/
def runsDown (m : Monitor) (channel : Nat) : Bool :=
  m.isDown channel && m.state? channel == some .running

/-- A success is reported of an attempt during which a fatal fault was noticed. -/
def OverlooksFatal (m : Monitor) (channel : Nat) (calls : List Call) : Prop :=
  ∃ before residual maxRetries now,
    before ++ [.about channel (.finishRecovery true residual maxRetries now)] <+: calls ∧
      attempt channel (m.history before) = some true

variable {m : Monitor} {calls : List Call} {c : Nat}

theorem attempt_concat (c : Nat) (m : Monitor) (calls : List Call) (call : Call) :
    attempt c (m.history (calls ++ [call])) =
      call.advance c (call.perform (m.after calls)).1 (attempt c (m.history calls)) := by
  rw [attempt, history_concat, List.foldl_concat, ← attempt]

theorem runsDown_eq {r : ChannelRecord} (hr : m.records[c]? = some r) :
    m.runsDown c = (r.down && r.state == .running) := by
  rw [runsDown, isDown_eq hr, state?_eq hr]
  rfl

/-! ### What a request does to the state -/

/-- How a request changes the state of a channel, and whether it is down. -/
inductive Turn (r s : ChannelRecord) : Request → Answer → Prop where
  /-- No attempt is claimed or closed, and no fault is noticed. -/
  | stays {request : Request} {answer : Answer} (hstate : s.state = r.state)
      (hdown : s.down = r.down) (hclaim : ∀ faults, answer ≠ .claim (.claimed faults))
      (hfault : ∀ faults now, request = .recordFault faults now → faults.isEmpty = true)
      (hfinish : ∀ success residual maxRetries now,
        request ≠ .finishRecovery success residual maxRetries now) : Turn r s request answer
  | starts {now : Nat} {answer : Answer} (hr : r.state = .stopped) (hs : s.state = .running)
      (hdown : s.down = r.down) : Turn r s (.start now) answer
  | resumes {now : Nat} {answer : Answer} (hr : r.state = .suspended)
      (hs : s.state = if r.pending.isEmpty then .running else .error) (hdown : s.down = r.down) :
      Turn r s (.resume now) answer
  | halts {request : Request} {answer : Answer} (hr : r.state ≠ .recovering)
      (hs : s.state = .stopped ∨ s.state = .suspended)
      (hrequest : request = .stop ∨ request = .suspend ∨ request = .reset) :
      Turn r s request answer
  | fails {faults : FaultSet} {now : Nat} {answer : Answer}
      (hs : s.state = if r.state = .running then .error else r.state)
      (hdown : s.down = (r.down || faults.isFatal && r.state != .stopped)) :
      Turn r s (.recordFault faults now) answer
  | marked {answer : Answer} : Turn r s .markDown answer
  | gone {policy : RecoveryPolicy} {now : Nat} (hr : r.state = .error) (hs : s.state = .error) :
      Turn r s (.beginRecovery policy now) (.claim .down)
  | opens {policy : RecoveryPolicy} {now : Nat} {faults : FaultSet} (hs : s.state = .recovering)
      (hdown : s.down = false) : Turn r s (.beginRecovery policy now) (.claim (.claimed faults))
  | closes {success : Bool} {residual : FaultSet} {maxRetries : UInt8} {now : Nat}
      {answer : Answer} (hs : s.state = if success then .running else .error)
      (hdown : success = true → s.down = r.down) :
      Turn r s (.finishRecovery success residual maxRetries now) answer

section Record

variable {r s : ChannelRecord} {a : Option Bool}

theorem turn_beginRecovery (r : ChannelRecord) (policy : RecoveryPolicy) (now : Nat) :
    Turn r (r.beginRecovery policy now).2 (.beginRecovery policy now)
      (.claim (r.beginRecovery policy now).1) := by
  unfold ChannelRecord.beginRecovery
  split
  next => exact .stays rfl rfl (by simp) (by simp) (by simp)
  next hdown =>
    split
    next => exact .stays rfl rfl (by simp) (by simp) (by simp)
    next hstate =>
      have hstate : r.state = .error := by simpa using hstate
      split
      next => exact .gone hstate hstate
      split
      next => exact .stays rfl rfl (by simp) (by simp) (by simp)
      split
      next => exact .stays rfl rfl (by simp) (by simp) (by simp)
      next => exact .opens rfl (by simpa using hdown)

theorem turn_recordFault (r : ChannelRecord) (faults : FaultSet) (now : Nat) :
    Turn r (r.recordFault faults now).2 (.recordFault faults now)
      (.noticed (r.recordFault faults now).1) := by
  unfold ChannelRecord.recordFault
  split
  next hempty =>
    apply Turn.stays rfl rfl (by simp) _ (by simp)
    rintro _ _ ⟨⟩
    exact hempty
  next => exact .fails rfl rfl

/-- Every request turns the state of its channel in one of these ways. -/
theorem turn_touch (r : ChannelRecord) (request : Request) :
    Turn r (request.touch r).2 request (request.touch r).1 := by
  cases request with
  | start now =>
    rw [Request.touch, ChannelRecord.start]
    split
    next => exact .stays rfl rfl (by simp) (by simp) (by simp)
    next hr => exact .starts hr rfl rfl
    next => exact .stays rfl rfl (by simp) (by simp) (by simp)
  | stop =>
    rw [Request.touch, ChannelRecord.stop]
    split
    next => exact .stays rfl rfl (by simp) (by simp) (by simp)
    next hr => exact .halts hr (.inl rfl) (.inl rfl)
  | suspend =>
    rw [Request.touch, ChannelRecord.suspend]
    split
    next hr => exact .halts (by simp [hr]) (.inr rfl) (.inr (.inl rfl))
    next => exact .stays rfl rfl (by simp) (by simp) (by simp)
  | resume now =>
    rw [Request.touch, ChannelRecord.resume]
    split
    next hr => exact .resumes hr rfl rfl
    next => exact .stays rfl rfl (by simp) (by simp) (by simp)
  | reset =>
    rw [Request.touch, ChannelRecord.reset]
    split
    next => exact .stays rfl rfl (by simp) (by simp) (by simp)
    next hr => exact .halts hr (.inl rfl) (.inr (.inr rfl))
  | recordFault faults now => exact turn_recordFault r faults now
  | markDown => exact .marked
  | beginRecovery policy now => exact turn_beginRecovery r policy now
  | finishRecovery success residual maxRetries now =>
    cases success with
    | true => exact .closes rfl fun _ => rfl
    | false => exact .closes rfl (by simp)
  | onInterrupt | onRingFull | resetStats =>
    exact .stays rfl rfl (by simp [Request.touch]) (by simp) (by simp)

/-! ### Open attempts -/

/-- A record agrees with the open attempt on its channel. The channel is recovering as long as an
attempt is open, and in that time it goes down by a fatal fault only. -/
def Tracks (r : ChannelRecord) : Option Bool → Prop
  | none => r.state ≠ .recovering
  | some spoiled => r.state = .recovering ∧ r.down = spoiled

/-- A record with another state and `down` alike agrees with the same attempt. -/
theorem Tracks.congr (h : Tracks r a) (hstate : s.state = r.state) (hdown : s.down = r.down) :
    Tracks s a := by
  cases a with
  | none => exact hstate.trans_ne h
  | some spoiled => exact ⟨hstate.trans h.1, hdown.trans h.2⟩

theorem Tracks.none_of_ne (h : Tracks r a) (hr : r.state ≠ .recovering) : a = none := by
  cases a with
  | none => rfl
  | some spoiled => exact absurd h.1 hr

theorem Turn.advance_of_stays {request : Request} {answer : Answer}
    (hclaim : ∀ faults, answer ≠ .claim (.claimed faults))
    (hfault : ∀ faults now, request = .recordFault faults now → faults.isEmpty = true)
    (hfinish : ∀ success residual maxRetries now,
      request ≠ .finishRecovery success residual maxRetries now) :
    request.advance answer a = a := by
  cases request with
  | beginRecovery policy now =>
    cases answer with
    | claim claim =>
      cases claim with
      | claimed faults => exact absurd rfl (hclaim faults)
      | _ => rfl
    | _ => rfl
  | recordFault faults now =>
    have hfatal := FaultSet.isFatal_eq_false_of_isEmpty (hfault faults now rfl)
    simp [Request.advance, hfatal]
  | finishRecovery success residual maxRetries now =>
    exact absurd rfl (hfinish success residual maxRetries now)
  | _ => rfl

/-- Agreement between a record and the open attempt survives every request but being put out of
use. -/
theorem Tracks.turn {request : Request} {answer : Answer} (h : Tracks r a)
    (hturn : Turn r s request answer) (hrequest : request ≠ .markDown) :
    Tracks s (request.advance answer a) := by
  cases hturn with
  | stays hstate hdown hclaim hfault hfinish =>
    rw [Turn.advance_of_stays hclaim hfault hfinish]
    exact h.congr hstate hdown
  | starts hr hs =>
    obtain rfl := h.none_of_ne (by simp [hr])
    show s.state ≠ .recovering
    simp [hs]
  | resumes hr hs =>
    obtain rfl := h.none_of_ne (by simp [hr])
    show s.state ≠ .recovering
    rw [hs]
    split <;> simp
  | halts hr hs hrequest =>
    obtain rfl := h.none_of_ne hr
    rcases hrequest with rfl | rfl | rfl <;> rcases hs with hs | hs <;>
      simp [Request.advance, Tracks, hs]
  | @fails faults _ _ hs hdown =>
    cases a with
    | none =>
      have hr : r.state ≠ .recovering := h
      show s.state ≠ .recovering
      rw [hs]
      split
      · simp
      · exact hr
    | some spoiled =>
      obtain ⟨hr, hspoiled⟩ := h
      refine ⟨by simpa [hr] using hs, ?_⟩
      rw [hdown, hr, hspoiled]
      exact congrArg (spoiled || ·) (Bool.and_true _)
  | marked => exact absurd rfl hrequest
  | gone hr hs =>
    obtain rfl := h.none_of_ne (by simp [hr])
    show s.state ≠ .recovering
    simp [hs]
  | opens hs hdown => exact ⟨hs, hdown⟩
  | closes hs =>
    show s.state ≠ .recovering
    rw [hs]
    split <;> simp

theorem Tracks.look (h : Tracks r a) (m : Monitor) (now : Nat) : Tracks (m.look now r) a := by
  have hstate := state_look m now r
  split at hstate
  next hstalled =>
    rw [ChannelRecord.hasStalled, Bool.and_eq_true, beq_iff_eq] at hstalled
    obtain rfl := h.none_of_ne (by simp [hstalled.1])
    show (m.look now r).state ≠ .recovering
    simp [hstate]
  next => exact h.congr hstate (down_look m now r)

/-- The owner makes no channel run that is down, unless it closes an attempt with a success. -/
theorem Turn.running {request : Request} {answer : Answer} (hturn : Turn r s request answer)
    (hsound : r.state = .running → r.down = false)
    (horderly : request.isOrderly r.downError? a = true)
    (hsuccess : ∀ residual maxRetries now,
      request = .finishRecovery true residual maxRetries now → r.down = false) :
    s.state = .running → s.down = false := by
  have hup (h : r.downError?.isNone = true) : r.down = false := by
    simpa [ChannelRecord.downError?] using h
  intro hrun
  cases hturn with
  | stays hstate hdown => exact hdown.trans (hsound (hstate.symm.trans hrun))
  | starts _ _ hdown | resumes _ _ hdown => exact hdown.trans (hup horderly)
  | halts _ hs => rcases hs with hs | hs <;> cases hs.symm.trans hrun
  | fails hs =>
    rw [hrun] at hs
    split at hs
    · cases hs
    next hr => exact absurd hs.symm hr
  | marked => cases horderly
  | gone _ hs | opens hs => cases hs.symm.trans hrun
  | @closes success residual maxRetries now _ hs hdown =>
    cases success with
    | true => exact (hdown rfl).trans (hsuccess residual maxRetries now rfl)
    | false => cases hs.symm.trans hrun

end Record

/-! ### Runs -/

theorem downError?_eq {r : ChannelRecord} (hr : m.records[c]? = some r) :
    m.downError? c = r.downError? := by
  rw [downError?, record?, hr]
  rfl

theorem OverlooksFatal.mono {earlier : List Call} (h : m.OverlooksFatal c earlier)
    (he : earlier <+: calls) : m.OverlooksFatal c calls := by
  obtain ⟨before, residual, maxRetries, now, hb, hattempt⟩ := h
  exact ⟨before, residual, maxRetries, now, hb.trans he, hattempt⟩

/-- What is known of a channel and of the calls so far: the record agrees with the open attempt, and
if no fatal fault was overlooked, the channel is not down while it runs. -/
structure Accounted (m : Monitor) (c : Nat) (calls : List Call) (r : ChannelRecord) : Prop where
  tracks : Tracks r (attempt c (m.history calls))
  running : ¬ m.OverlooksFatal c calls → r.state = .running → r.down = false

/-- Each call of the owner keeps account. -/
theorem Accounted.concat {r : ChannelRecord} (h : m.Accounted c calls r)
    (hr : (m.after calls).records[c]? = some r) {call : Call}
    (horderly : m.isOrderly c calls call = true) :
    m.Accounted c (calls ++ [call]) (call.touch (m.after calls) c r) := by
  have hearlier (hnot : ¬ m.OverlooksFatal c (calls ++ [call])) : ¬ m.OverlooksFatal c calls :=
    fun ho => hnot (ho.mono (List.prefix_append _ _))
  have hattempt := attempt_concat c m calls call
  cases call with
  | watchdogTick now =>
    refine ⟨hattempt ▸ h.tracks.look _ now, fun hnot hrun => ?_⟩
    have hrun : (Monitor.look (m.after calls) now r).state = .running := hrun
    rw [state_look] at hrun
    split at hrun
    · cases hrun
    · exact (down_look _ now r).trans (h.running (hearlier hnot) hrun)
  | about i request =>
    by_cases hi : i = c
    · subst hi
      have horderly : request.isOrderly r.downError? (attempt i (m.history calls)) = true := by
        simpa [isOrderly, downError?_eq hr] using horderly
      have hmark : request ≠ .markDown := by
        rintro rfl
        cases horderly
      simp only [Call.advance, Call.perform, Request.perform_eq hr, if_true] at hattempt
      simp only [Call.touch, if_true]
      refine ⟨hattempt ▸ h.tracks.turn (turn_touch r request) hmark, fun hnot => ?_⟩
      apply (turn_touch r request).running (h.running (hearlier hnot)) horderly
      -- A success that overlooks nothing closes an attempt without a fatal fault.
      rintro residual maxRetries now rfl
      have htracks := h.tracks
      cases hopen : attempt i (m.history calls) with
      | none =>
        rw [hopen] at horderly
        cases horderly
      | some spoiled =>
        rw [hopen] at htracks
        cases spoiled with
        | false => exact htracks.2
        | true =>
          exact absurd ⟨calls, residual, maxRetries, now, List.prefix_refl _, hopen⟩ hnot
    · simp only [Call.advance, if_neg hi] at hattempt
      simp only [Call.touch, if_neg hi]
      exact ⟨hattempt ▸ h.tracks, fun hnot => h.running (hearlier hnot)⟩

theorem accounted_after (hnew : m.records[c]? = some .new)
    (horderly : Heeds (m.isOrderly c · ·) calls) :
    ∃ r, (m.after calls).records[c]? = some r ∧ m.Accounted c calls r := by
  apply record_after_induction hnew
  · exact ⟨by simp [Tracks, attempt, history, ChannelRecord.new], fun _ _ => rfl⟩
  · intro before call r hb hr h
    exact h.concat hr (horderly before call hb)

/-- A success that overlooks a fatal fault leaves a channel running that is down. -/
theorem runsDown_of_overlooksFatal (hnew : m.records[c]? = some .new)
    (horderly : Heeds (m.isOrderly c · ·) calls) (h : m.OverlooksFatal c calls) :
    ∃ reached, reached <+: calls ∧ (m.after reached).runsDown c = true := by
  obtain ⟨before, residual, maxRetries, now, hb, hopen⟩ := h
  obtain ⟨r, hr, haccounted⟩ :=
    accounted_after hnew (horderly.of_prefix ((List.prefix_append _ _).trans hb))
  have htracks := haccounted.tracks
  rw [hopen] at htracks
  refine ⟨_, hb, ?_⟩
  have hs : (m.after (before ++
      [.about c (.finishRecovery true residual maxRetries now)])).records[c]? =
        some (r.onRecovered now) := by
    rw [after_concat, record_perform, hr, Option.map_some, Call.touch, if_pos rfl]
    rfl
  rw [runsDown_eq hs]
  simpa [ChannelRecord.onRecovered] using htracks.2

/-- Under the calls of its owner, and whatever interrupts and faults come in at any point, a channel
is down and runs at some time exactly if a success is reported of an attempt during which a fatal
fault was noticed. -/
theorem runsDown_iff_overlooksFatal {count : Nat} {config : Config} {now : Nat}
    (hm : Monitor.create? count config now = .ok m) (hc : c < count)
    (horderly : Heeds (m.isOrderly c · ·) calls) :
    (∃ reached, reached <+: calls ∧ (m.after reached).runsDown c = true) ↔
      m.OverlooksFatal c calls := by
  have hnew := record_of_create?_ok hm hc
  constructor
  · rintro ⟨reached, hprefix, hdown⟩
    apply Classical.byContradiction
    intro hnot
    obtain ⟨r, hr, haccounted⟩ := accounted_after hnew (horderly.of_prefix hprefix)
    rw [runsDown_eq hr, Bool.and_eq_true, beq_iff_eq] at hdown
    have hup := haccounted.running (fun h => hnot (h.mono hprefix)) hdown.2
    cases hup.symm.trans hdown.1
  · exact runsDown_of_overlooksFatal hnew horderly

/-- A fatal fault comes in during an attempt that then succeeds. -/
def overlookingTrip : List Call :=
  [.about 0 (.start 0), .about 0 (.recordFault (.single .bus) 10),
    .about 0 (.beginRecovery .standard 20), .about 0 (.onInterrupt true 25),
    .about 0 (.recordFault (.single .fatal) 30), .about 0 (.finishRecovery true ∅ 3 40)]

theorem runsDown_iff_overlooksFatal_trip :
    Monitor.create? 1 .standard 0 = .ok bench ∧ Heeds (bench.isOrderly 0 · ·) overlookingTrip ∧
      bench.OverlooksFatal 0 overlookingTrip := by
  have horderly : Heeds (bench.isOrderly 0 · ·) overlookingTrip := by decide +kernel
  refine ⟨rfl, horderly, ?_⟩
  apply (runsDown_iff_overlooksFatal rfl Nat.one_pos horderly).mp
  exact ⟨overlookingTrip, List.prefix_refl _, by decide +kernel⟩

/-- Channels that are down do not stay out of running, however orderly their owner is. -/
theorem runsDown_of_orderly : ¬ ∀ (count : Nat) (config : Config) (now : Nat) (m : Monitor)
    (c : Nat) (calls : List Call), Monitor.create? count config now = .ok m → c < count →
      Heeds (m.isOrderly c · ·) calls →
        ∀ reached, reached <+: calls → (m.after reached).runsDown c = false := by
  intro h
  have horderly : Heeds (bench.isOrderly 0 · ·) overlookingTrip := by decide +kernel
  have hup := h 1 .standard 0 bench 0 overlookingTrip rfl Nat.one_pos horderly
    overlookingTrip (List.prefix_refl _)
  have hdown : (bench.after overlookingTrip).runsDown 0 = true := by decide +kernel
  cases hdown.symm.trans hup

end Monitor

end PacketDma
