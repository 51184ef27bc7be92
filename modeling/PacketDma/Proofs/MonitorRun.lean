import Mathlib.Data.List.Infix
import PacketDma.Proofs.Fitting

/-!
# Runs of a monitor

A monitor is called about one channel at a time, or takes a turn of the watchdog. A list of calls
leads to a monitor and leaves a history, in which each call stands beside its answer.

## Implementation notes

A request about a channel changes the record of that channel alone, and the watchdog changes every
record by itself. So what a run does to a channel is read off its record, call by call.
-/

namespace PacketDma

namespace Monitor

/-- What is asked of a monitor about one channel. -/
inductive Request where
  | start (now : Nat)
  | stop
  | suspend
  | resume (now : Nat)
  | reset
  | onInterrupt (isError : Bool) (now : Nat)
  | onRingFull
  | recordFault (faults : FaultSet) (now : Nat)
  | markDown
  | beginRecovery (policy : RecoveryPolicy) (now : Nat)
  | finishRecovery (success : Bool) (residual : FaultSet) (maxRetries : UInt8) (now : Nat)
  | resetStats
  deriving DecidableEq

/-- A call of a monitor. -/
inductive Call where
  /-- Something is asked about a channel. -/
  | about (channel : Nat) (request : Request)
  /-- The watchdog takes its turn. -/
  | watchdogTick (now : Nat)
  deriving DecidableEq

/-- The answer to a call. -/
inductive Answer where
  | silent
  | done (result : Except IoError Unit)
  | resumed (result : Except IoError ChannelState)
  | noticed (wasRunning : Bool)
  | claim (claim : RecoveryClaim)
  | closed (isDown : Bool)
  | stalled (channels : ChannelMask)
  deriving DecidableEq

/-- Asks about a channel. -/
def Request.perform (channel : Nat) (m : Monitor) : Request → Answer × Monitor
  | .start now => (m.start channel now).map .done id
  | .stop => (m.stop channel).map .done id
  | .suspend => (m.suspend channel).map .done id
  | .resume now => (m.resume channel now).map .resumed id
  | .reset => (m.reset channel).map .done id
  | .onInterrupt isError now => (.silent, m.onInterrupt channel isError now)
  | .onRingFull => (.silent, m.onRingFull channel)
  | .recordFault faults now => (m.recordFault channel faults now).map .noticed id
  | .markDown => (.silent, m.markDown channel)
  | .beginRecovery policy now => (m.beginRecovery channel policy now).map .claim id
  | .finishRecovery success residual maxRetries now =>
    (m.finishRecovery channel success residual maxRetries now).map .closed id
  | .resetStats => (.silent, m.resetStats channel)

/-- Makes a call. -/
def Call.perform (m : Monitor) : Call → Answer × Monitor
  | .about channel request => request.perform channel m
  | .watchdogTick now => (m.watchdogTick now).map .stalled id

/-- The monitor after some calls. -/
def after (m : Monitor) (calls : List Call) : Monitor :=
  calls.foldl (fun m call => (call.perform m).2) m

/-- Some calls with their answers. -/
def history (m : Monitor) : List Call → List (Call × Answer)
  | [] => []
  | call :: rest => (call, (call.perform m).1) :: history (call.perform m).2 rest

/-- Each call is made as a rule allows after the calls before it. -/
def Heeds (rule : List Call → Call → Prop) (calls : List Call) : Prop :=
  ∀ before call, before ++ [call] <+: calls → rule before call

/-- The monitor of one channel, for runs on fixed inputs. -/
def bench : Monitor :=
  ⟨[.new], Config.standard.stallThresholdMs * 1000, Config.standard.windowDecayMs * 1000, 0⟩

variable {m : Monitor} {calls : List Call} {call : Call}

@[simp]
theorem after_nil (m : Monitor) : m.after [] = m := rfl

@[simp]
theorem after_concat (m : Monitor) (calls : List Call) (call : Call) :
    m.after (calls ++ [call]) = (call.perform (m.after calls)).2 := by
  rw [after, List.foldl_concat, after]

theorem history_concat (m : Monitor) (calls : List Call) (call : Call) :
    m.history (calls ++ [call]) =
      m.history calls ++ [(call, (call.perform (m.after calls)).1)] := by
  induction calls generalizing m with
  | nil => rfl
  | cons first rest ih =>
    show (first, _) :: history _ (rest ++ [call]) = (first, _) :: (history _ rest ++ _)
    rw [ih]
    rfl

section Heeds

variable {rule : List Call → Call → Prop}

theorem Heeds.of_prefix {earlier : List Call} (h : Heeds rule calls) (he : earlier <+: calls) :
    Heeds rule earlier :=
  fun before c hb => h before c (hb.trans he)

theorem heeds_iff_getElem :
    Heeds rule calls ↔ ∀ i : Fin calls.length, rule (calls.take i) calls[i] := by
  constructor
  · intro h i
    apply h
    rw [Fin.getElem_fin, List.take_concat_get']
    exact List.take_prefix _ _
  · intro h before c hb
    obtain ⟨rest, rfl⟩ := hb
    have hlt : before.length < (before ++ [c] ++ rest).length := by simp
    simpa using h ⟨before.length, hlt⟩

instance [∀ before call, Decidable (rule before call)] : Decidable (Heeds rule calls) :=
  decidable_of_iff _ heeds_iff_getElem.symm

end Heeds

/-! ### The record of a channel -/

/-- The answer to a request about a channel that does not exist. -/
def Request.absent : Request → Answer
  | .start _ | .stop | .suspend | .reset => .done (.error .invalidState)
  | .resume _ => .resumed (.error .invalidState)
  | .onInterrupt .. | .onRingFull | .markDown | .resetStats => .silent
  | .recordFault .. => .noticed false
  | .beginRecovery .. => .claim .notNeeded
  | .finishRecovery .. => .closed false

/-- The answer to a request about a channel, and the record afterwards. -/
def Request.touch (r : ChannelRecord) : Request → Answer × ChannelRecord
  | .start now => (r.start now).map .done id
  | .stop => r.stop.map .done id
  | .suspend => r.suspend.map .done id
  | .resume now => (r.resume now).map .resumed id
  | .reset => r.reset.map .done id
  | .onInterrupt isError now => (.silent, r.onInterrupt isError now)
  | .onRingFull => (.silent, r.onRingFull)
  | .recordFault faults now => (r.recordFault faults now).map .noticed id
  | .markDown => (.silent, r.markDown)
  | .beginRecovery policy now => (r.beginRecovery policy now).map .claim id
  | .finishRecovery success residual maxRetries now =>
    (r.finishRecovery success residual maxRetries now).map .closed id
  | .resetStats => (.silent, r.resetStats)

/-- What a turn of the watchdog makes of a record. -/
def look (m : Monitor) (now : Nat) (r : ChannelRecord) : ChannelRecord :=
  if (r.decay (m.decayPeriods now)).hasStalled m.stallThresholdUs now
    then (r.decay (m.decayPeriods now)).onStall now
    else r.decay (m.decayPeriods now)

/-- What a call makes of the record of a channel. -/
def Call.touch (m : Monitor) (channel : Nat) (r : ChannelRecord) : Call → ChannelRecord
  | .about i request => if i = channel then (request.touch r).2 else r
  | .watchdogTick now => m.look now r

section Record

variable {c : Nat} {r : ChannelRecord}

theorem update_eq (hr : m.records[c]? = some r) (f : ChannelRecord → ChannelRecord) :
    m.update c f = { m with records := m.records.set c (f r) } := by
  rw [update, List.modify_eq_set_getElem?, hr]
  rfl

theorem update_absent (hr : m.records[c]? = none) (f : ChannelRecord → ChannelRecord) :
    m.update c f = m := by
  rw [update, List.modify_eq_set_getElem?, hr]
  rfl

/-- A change of a record, whatever it answers, is an update. -/
theorem act_snd {α : Type} (m : Monitor) (c : Nat) (absent : α)
    (f : ChannelRecord → α × ChannelRecord) :
    (m.act c absent f).2 = m.update c fun r => (f r).2 := by
  cases hr : m.records[c]? with
  | none => rw [update_absent hr, act, record?, hr]
  | some r => rw [update_eq hr, act_eq hr]

theorem state_look (m : Monitor) (now : Nat) (r : ChannelRecord) :
    (m.look now r).state = if r.hasStalled m.stallThresholdUs now then .error else r.state := by
  have hdecay : (r.decay (m.decayPeriods now)).hasStalled m.stallThresholdUs now =
      r.hasStalled m.stallThresholdUs now := rfl
  rw [look, hdecay]
  split <;> rfl

theorem down_look (m : Monitor) (now : Nat) (r : ChannelRecord) :
    (m.look now r).down = r.down := by
  unfold look
  split <;> rfl

/-- A request changes the record of its channel alone. -/
theorem Request.perform_eq (hr : m.records[c]? = some r) (request : Request) :
    request.perform c m =
      ((request.touch r).1, { m with records := m.records.set c (request.touch r).2 }) := by
  cases request with
  | start | stop | suspend | resume | reset | recordFault | beginRecovery =>
    exact congrArg (Prod.map _ id) (act_eq hr _ _)
  | finishRecovery success residual maxRetries now =>
    exact congrArg (Prod.map Answer.closed id)
      (act_eq hr false (·.finishRecovery success residual maxRetries now))
  | onInterrupt | onRingFull | markDown | resetStats =>
    exact congrArg (Prod.mk _) (update_eq hr _)

/-- A request about a channel that does not exist changes nothing. -/
theorem Request.perform_absent (hr : m.records[c]? = none) (request : Request) :
    request.perform c m = (request.absent, m) := by
  have hact {α : Type} (absent : α) (f : ChannelRecord → α × ChannelRecord) :
      m.act c absent f = (absent, m) := by
    rw [act, record?, hr]
  cases request with
  | start | stop | suspend | resume | reset | recordFault | beginRecovery =>
    exact congrArg (Prod.map _ id) (hact _ _)
  | finishRecovery success residual maxRetries now =>
    exact congrArg (Prod.map Answer.closed id)
      (hact false (·.finishRecovery success residual maxRetries now))
  | onInterrupt | onRingFull | markDown | resetStats =>
    exact congrArg (Prod.mk _) (update_absent hr _)

/-- The record of a channel after a call. -/
theorem record_perform (m : Monitor) (call : Call) (c : Nat) :
    (call.perform m).2.records[c]? = (m.records[c]?).map (call.touch m c ·) := by
  cases call with
  | watchdogTick now => exact List.getElem?_map
  | about i request =>
    cases hr : m.records[i]? with
    | none =>
      rw [Call.perform, Request.perform_absent hr]
      by_cases hi : i = c
      · rw [← hi, hr, Option.map_none]
      · simp only [Call.touch, if_neg hi, Option.map_id']
    | some r =>
      rw [Call.perform, Request.perform_eq hr, List.getElem?_set]
      by_cases hi : i = c
      · subst hi
        have hlt := (List.getElem?_eq_some_iff.mp hr).1
        simp only [hr, Call.touch, if_pos, hlt, Option.map_some]
      · simp only [Call.touch, if_neg hi, Option.map_id']

theorem record_tick {r : ChannelRecord} {now : Nat} (hr : m.records[c]? = some r) :
    ((Call.watchdogTick now).perform m).2.records[c]? = some (m.look now r) := by
  rw [record_perform, hr]
  rfl

theorem eq_of_create?_ok {count : Nat} {config : Config} {now : Nat}
    (hm : create? count config now = .ok m) :
    m = ⟨List.replicate count .new, config.stallThresholdMs * 1000, config.windowDecayMs * 1000,
      now⟩ := by
  unfold create? at hm
  split at hm
  · exact (Except.ok.inj hm).symm
  · cases hm

theorem record_of_create?_ok {count : Nat} {config : Config} {now : Nat}
    (hm : Monitor.create? count config now = .ok m) (hc : c < count) :
    m.records[c]? = some .new := by
  rw [eq_of_create?_ok hm]
  exact List.getElem?_replicate_of_lt hc

/-- Induction over a run along the record of a channel. A call is told from the calls before it. -/
theorem record_after_induction {P : List Call → ChannelRecord → Prop} {s : ChannelRecord}
    (hm : m.records[c]? = some s) (nil : P [] s)
    (concat : ∀ before call r, before ++ [call] <+: calls →
      (m.after before).records[c]? = some r → P before r →
      P (before ++ [call]) (call.touch (m.after before) c r)) :
    ∃ r, (m.after calls).records[c]? = some r ∧ P calls r := by
  induction calls using List.reverseRecOn with
  | nil => exact ⟨s, hm, nil⟩
  | append_singleton before call ih =>
    obtain ⟨r, hr, hP⟩ := ih fun b k r hb => concat b k r (hb.trans (List.prefix_append _ _))
    refine ⟨call.touch (m.after before) c r, ?_, concat before call r (List.prefix_refl _) hr hP⟩
    rw [after_concat, record_perform, hr, Option.map_some]

end Record

end Monitor

end PacketDma
