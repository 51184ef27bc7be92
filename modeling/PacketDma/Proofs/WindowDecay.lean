import Mathlib.Tactic.SplitIfs
import PacketDma.Proofs.MonitorRun

/-!
# Decay of the windows

At each turn of the watchdog the windows of recent events are halved once for each decay interval
that has gone by, and the part of an interval that is left over is carried to the next turn. So it
makes no difference how often the watchdog takes its turn: how often the windows have been halved
depends on the last turn alone.

## Implementation notes

An interval of zero halves nothing. It needs no case of its own, since division by zero is zero.
-/

namespace PacketDma

namespace Counter

theorem halve_le (c times : Nat) : halve c times ≤ c := by
  unfold halve
  split
  · exact Nat.zero_le c
  · exact Nat.shiftRight_le c times

/-- For a word, the cap on the number of halvings makes no difference. -/
theorem halve_eq_shiftRight {c : Nat} (hc : c ≤ limit) (times : Nat) :
    halve c times = c >>> times := by
  unfold halve
  split
  next htimes =>
    have hword : limit < 2 ^ 32 := by decide
    have hlt : c < 2 ^ times := by
      calc c ≤ limit := hc
        _ < 2 ^ 32 := hword
        _ ≤ 2 ^ times := Nat.pow_le_pow_right (by decide) htimes
    rw [Nat.shiftRight_eq_div_pow, Nat.div_eq_of_lt hlt]
  next => rfl

theorem halve_halve {c : Nat} (hc : c ≤ limit) (m n : Nat) :
    halve (halve c m) n = halve c (m + n) := by
  have hle : halve c m ≤ limit := (halve_le c m).trans hc
  calc halve (halve c m) n
    _ = halve c m >>> n := halve_eq_shiftRight hle n
    _ = c >>> m >>> n := by rw [halve_eq_shiftRight hc]
    _ = c >>> (m + n) := (Nat.shiftRight_add c m n).symm
    _ = halve c (m + n) := (halve_eq_shiftRight hc _).symm

end Counter

namespace ChannelStats

/-- The windows of recent events are words. -/
def WindowsFit (s : ChannelStats) : Prop :=
  s.errorWindow ≤ Counter.limit ∧ s.ringFullWindow ≤ Counter.limit

/-- Both windows have been halved some times. -/
structure Halved (s : ChannelStats) (times : Nat) (t : ChannelStats) : Prop where
  errorWindow_eq : t.errorWindow = Counter.halve s.errorWindow times
  ringFullWindow_eq : t.ringFullWindow = Counter.halve s.ringFullWindow times

variable {s t u : ChannelStats} {m n : Nat}

theorem Halved.of_eq (herror : t.errorWindow = s.errorWindow)
    (hring : t.ringFullWindow = s.ringFullWindow) : s.Halved 0 t :=
  ⟨herror.trans (Counter.halve_zero _).symm, hring.trans (Counter.halve_zero _).symm⟩

theorem Halved.trans (h : s.Halved m t) (h' : t.Halved n u) (hfit : s.WindowsFit) :
    s.Halved (m + n) u := by
  constructor
  · rw [h'.errorWindow_eq, h.errorWindow_eq, Counter.halve_halve hfit.1]
  · rw [h'.ringFullWindow_eq, h.ringFullWindow_eq, Counter.halve_halve hfit.2]

end ChannelStats

namespace Monitor

/-! ### Turns of the watchdog -/

/-- When the watchdog takes its turns in the course of some calls. -/
def turns (calls : List Call) : List Nat :=
  calls.filterMap fun
    | .watchdogTick now => some now
    | .about .. => none

/-- When the watchdog last took its turn, or else when the windows were last halved. -/
def lastTurn (m : Monitor) (calls : List Call) : Nat := (turns calls).getLastD m.lastDecay

/-- The watchdog takes its turns in order and within time, none of them before the last halving. -/
structure Paced (m : Monitor) (calls : List Call) : Prop where
  ordered : (m.lastDecay :: turns calls).Pairwise (· ≤ ·)
  within : ∀ t ∈ m.lastDecay :: turns calls, t ≤ Instant.last

/-- Whether a request changes the windows of its channel. -/
def Request.stirs : Request → Bool
  | .onInterrupt isError _ => isError
  | .onRingFull | .resetStats => true
  | _ => false

/-- Whether a call about a channel changes its windows. -/
def Call.stirs (channel : Nat) : Call → Bool
  | .about i request => i == channel && request.stirs
  | .watchdogTick _ => false

variable {m n : Monitor} {calls : List Call} {call : Call} {c last now : Nat} {r : ChannelRecord}

theorem turns_concat_tick (calls : List Call) (now : Nat) :
    turns (calls ++ [.watchdogTick now]) = turns calls ++ [now] :=
  List.filterMap_append

theorem turns_concat_about (calls : List Call) (i : Nat) (request : Request) :
    turns (calls ++ [.about i request]) = turns calls := by
  rw [turns, List.filterMap_append]
  exact List.append_nil _

/-! ### The last halving -/

theorem decayPeriods_eq (m : Monitor) (now : Nat) :
    m.decayPeriods now = (now - m.lastDecay) / m.windowDecayUs := by
  unfold decayPeriods
  split
  next hzero => rw [hzero, Nat.div_zero]
  next => rfl

theorem decayPeriods_mul_le (m : Monitor) (now : Nat) :
    m.decayPeriods now * m.windowDecayUs ≤ now - m.lastDecay := by
  rw [decayPeriods_eq]
  exact Nat.div_mul_le_self _ _

theorem add_decayPeriods_le (hle : m.lastDecay ≤ now) :
    m.lastDecay + m.decayPeriods now * m.windowDecayUs ≤ now :=
  calc m.lastDecay + m.decayPeriods now * m.windowDecayUs
    _ ≤ m.lastDecay + (now - m.lastDecay) := Nat.add_le_add_left (m.decayPeriods_mul_le now) _
    _ = now := Nat.add_sub_cancel' hle

/-- A turn of the watchdog moves the last halving by whole intervals, and never beyond itself. -/
theorem lastDecay_tick (hle : m.lastDecay ≤ now) (hnow : now ≤ Instant.last) :
    (m.watchdogTick now).2.lastDecay = m.lastDecay + m.decayPeriods now * m.windowDecayUs :=
  Nat.min_eq_left ((add_decayPeriods_le hle).trans hnow)

theorem request_keeps (m : Monitor) (i : Nat) (request : Request) :
    ((Call.about i request).perform m).2.lastDecay = m.lastDecay ∧
      ((Call.about i request).perform m).2.windowDecayUs = m.windowDecayUs := by
  cases hr : m.records[i]? with
  | none =>
    rw [Call.perform, Request.perform_absent hr]
    exact ⟨rfl, rfl⟩
  | some r =>
    rw [Call.perform, Request.perform_eq hr]
    exact ⟨rfl, rfl⟩

theorem windowDecayUs_after (m : Monitor) (calls : List Call) :
    (m.after calls).windowDecayUs = m.windowDecayUs := by
  induction calls using List.reverseRecOn with
  | nil => rfl
  | append_singleton before call ih =>
    rw [after_concat, ← ih]
    cases call with
    | watchdogTick now => rfl
    | about i request => exact (request_keeps _ i request).2

/-- Periods are counted from where the last turn left off, and none is lost between two turns. -/
theorem decayPeriods_add (hinterval : n.windowDecayUs = m.windowDecayUs)
    (hdecay : n.lastDecay = m.lastDecay + m.decayPeriods last * m.windowDecayUs)
    (hle : m.lastDecay ≤ last) (hnow : last ≤ now) :
    m.decayPeriods last + n.decayPeriods now = m.decayPeriods now := by
  have hmul := m.decayPeriods_mul_le last
  rcases Nat.eq_zero_or_pos m.windowDecayUs with hzero | hpos
  · simp only [decayPeriods_eq, hinterval, hzero, Nat.div_zero]
  · have hsplit : now - m.lastDecay =
        (now - n.lastDecay) + m.decayPeriods last * m.windowDecayUs := by
      omega
    calc m.decayPeriods last + n.decayPeriods now
      _ = (now - n.lastDecay) / m.windowDecayUs + m.decayPeriods last := by
        rw [n.decayPeriods_eq, hinterval, Nat.add_comm]
      _ = (now - m.lastDecay) / m.windowDecayUs := by
        rw [hsplit, Nat.add_mul_div_right _ _ hpos]
      _ = m.decayPeriods now := (m.decayPeriods_eq now).symm

theorem Paced.of_prefix {earlier : List Call} (h : m.Paced calls) (he : earlier <+: calls) :
    m.Paced earlier := by
  have hturns : turns earlier <+: turns calls := he.filterMap _
  constructor
  · exact h.ordered.sublist (hturns.sublist.cons_cons _)
  · intro t ht
    exact h.within t (List.cons_subset_cons _ hturns.subset ht)

theorem Paced.of_concat (h : m.Paced (calls ++ [call])) : m.Paced calls :=
  h.of_prefix (List.prefix_append _ _)

theorem Paced.le_of_concat_tick (h : m.Paced (calls ++ [.watchdogTick now])) :
    m.lastTurn calls ≤ now ∧ now ≤ Instant.last := by
  obtain ⟨hordered, hwithin⟩ := h
  rw [turns_concat_tick] at hordered hwithin
  rw [← List.cons_append] at hordered
  obtain ⟨-, -, hle⟩ := List.pairwise_append.mp hordered
  exact ⟨hle _ List.getLastD_mem_cons now (List.mem_singleton_self now), hwithin now (by simp)⟩

theorem Paced.le_lastTurn (h : m.Paced calls) : m.lastDecay ≤ m.lastTurn calls := by
  rcases List.mem_cons.mp (List.getLastD_mem_cons : m.lastTurn calls ∈ _) with heq | hmem
  · exact heq.ge
  · exact List.rel_of_pairwise_cons h.ordered hmem

theorem lastTurn_concat_tick (m : Monitor) (calls : List Call) (now : Nat) :
    m.lastTurn (calls ++ [.watchdogTick now]) = now := by
  rw [lastTurn, turns_concat_tick, List.getLastD_concat]

theorem lastTurn_concat_about (m : Monitor) (calls : List Call) (i : Nat) (request : Request) :
    m.lastTurn (calls ++ [.about i request]) = m.lastTurn calls := by
  rw [lastTurn, turns_concat_about, lastTurn]

/-- The next turn counts the periods that have gone by since the last one. -/
theorem Paced.next (h : m.Paced (calls ++ [.watchdogTick now]))
    (hdecay : (m.after calls).lastDecay =
      m.lastDecay + m.decayPeriods (m.lastTurn calls) * m.windowDecayUs) :
    (m.after calls).lastDecay ≤ now ∧
      m.decayPeriods (m.lastTurn calls) + (m.after calls).decayPeriods now =
        m.decayPeriods now := by
  have hfirst := h.of_concat.le_lastTurn
  have hle := h.le_of_concat_tick.1
  constructor
  · rw [hdecay]
    exact (add_decayPeriods_le hfirst).trans hle
  · exact decayPeriods_add (windowDecayUs_after m calls) hdecay hfirst hle

/-- After some turns the last halving is as many intervals later as have gone by at the last
turn. -/
theorem Paced.lastDecay_after (h : m.Paced calls) :
    (m.after calls).lastDecay =
      m.lastDecay + m.decayPeriods (m.lastTurn calls) * m.windowDecayUs := by
  induction calls using List.reverseRecOn with
  | nil => simp [lastTurn, turns, decayPeriods_eq]
  | append_singleton before call ih =>
    cases call with
    | about i request =>
      rw [after_concat, (request_keeps _ i request).1, lastTurn_concat_about]
      exact ih h.of_concat
    | watchdogTick now =>
      have hbefore := ih h.of_concat
      obtain ⟨hdecay, hadd⟩ := h.next hbefore
      calc (m.after (before ++ [.watchdogTick now])).lastDecay
        _ = ((m.after before).watchdogTick now).2.lastDecay := by
          rw [after_concat]
          rfl
        _ = (m.after before).lastDecay +
            (m.after before).decayPeriods now * m.windowDecayUs := by
          rw [lastDecay_tick hdecay h.le_of_concat_tick.2, windowDecayUs_after]
        _ = m.lastDecay + m.decayPeriods now * m.windowDecayUs := by
          rw [hbefore, Nat.add_assoc, ← Nat.add_mul, hadd]
        _ = _ := by rw [lastTurn_concat_tick]

/-! ### The windows -/

theorem halved_request (r : ChannelRecord) {request : Request} (h : request.stirs = false) :
    r.stats.Halved 0 (request.touch r).2.stats := by
  cases request with
  | onInterrupt isError now =>
    obtain rfl : isError = false := h
    exact .of_eq rfl rfl
  | onRingFull | resetStats => cases h
  | start | stop | suspend | resume | reset =>
    obtain ⟨state⟩ := r
    cases state <;> exact .of_eq rfl rfl
  | recordFault faults now =>
    simp only [Request.touch, ChannelRecord.recordFault, Prod.map_snd]
    split <;> exact .of_eq rfl rfl
  | beginRecovery policy now =>
    simp only [Request.touch, ChannelRecord.beginRecovery, Prod.map_snd]
    split_ifs <;> exact .of_eq rfl rfl
  | finishRecovery success => cases success <;> exact .of_eq rfl rfl
  | markDown => exact .of_eq rfl rfl

/-- A call about a channel leaves its windows alone unless it stirs them. -/
theorem halved_about (m : Monitor) (r : ChannelRecord) {i : Nat} {request : Request}
    (h : (Call.about i request).stirs c = false) :
    r.stats.Halved 0 ((Call.about i request).touch m c r).stats := by
  by_cases hi : i = c
  · rw [Call.touch, if_pos hi]
    exact halved_request r (by simpa [Call.stirs, hi] using h)
  · rw [Call.touch, if_neg hi]
    exact .of_eq rfl rfl

theorem halved_look (m : Monitor) (now : Nat) (r : ChannelRecord) :
    r.stats.Halved (m.decayPeriods now) (m.look now r).stats := by
  unfold look
  split <;> exact ⟨rfl, rfl⟩

/-- After some turns the windows of a channel have been halved once for each interval that has gone
by at the last turn. -/
theorem Paced.halved_after (h : m.Paced calls) (hr : m.records[c]? = some r)
    (hfit : r.stats.WindowsFit) (hstill : ∀ call ∈ calls, call.stirs c = false) :
    ∃ s, (m.after calls).records[c]? = some s ∧
      r.stats.Halved (m.decayPeriods (m.lastTurn calls)) s.stats := by
  induction calls using List.reverseRecOn with
  | nil =>
    have hzero : m.decayPeriods (m.lastTurn []) = 0 := by
      simp [lastTurn, turns, decayPeriods_eq]
    exact ⟨r, hr, hzero ▸ .of_eq rfl rfl⟩
  | append_singleton before call ih =>
    obtain ⟨hbefore, hcall⟩ := List.forall_mem_append.mp hstill
    rw [List.forall_mem_singleton] at hcall
    rw [after_concat, record_perform]
    cases call with
    | about i request =>
      obtain ⟨s, hs, hhalved⟩ := ih h.of_concat hbefore
      rw [hs, lastTurn_concat_about]
      exact ⟨_, rfl, hhalved.trans (halved_about _ s hcall) hfit⟩
    | watchdogTick now =>
      obtain ⟨s, hs, hhalved⟩ := ih h.of_concat hbefore
      obtain ⟨-, hadd⟩ := h.next h.of_concat.lastDecay_after
      rw [hs, lastTurn_concat_tick, ← hadd]
      exact ⟨_, rfl, hhalved.trans (halved_look _ now s) hfit⟩

/-- A turn of the watchdog before the last halving halves nothing. -/
theorem halved_tick_of_lt (hnow : now < m.lastDecay) (hlast : m.lastDecay ≤ Instant.last) :
    (m.watchdogTick now).2.lastDecay = m.lastDecay ∧
      ∀ (c : Nat) (r : ChannelRecord), m.records[c]? = some r →
        ∃ s, (m.watchdogTick now).2.records[c]? = some s ∧ r.stats.Halved 0 s.stats := by
  have hnone : m.decayPeriods now = 0 := by
    rw [decayPeriods_eq, Nat.sub_eq_zero_of_le hnow.le, Nat.zero_div]
  constructor
  · show Instant.plus m.lastDecay (m.decayPeriods now * m.windowDecayUs) = m.lastDecay
    rw [hnone, Nat.zero_mul]
    exact Nat.min_eq_left hlast
  · intro c r hr
    exact ⟨_, record_tick hr, hnone ▸ halved_look m now r⟩

/-- At no turn does the last halving move beyond time. -/
theorem Paced.periods_within (h : m.Paced (calls ++ [.watchdogTick now])) :
    (m.after calls).lastDecay + (m.after calls).decayPeriods now * m.windowDecayUs ≤
      Instant.last := by
  have hdecay := (h.next h.of_concat.lastDecay_after).1
  rw [← windowDecayUs_after m calls]
  exact (add_decayPeriods_le hdecay).trans h.le_of_concat_tick.2

/-- The windows do not depend on how often the watchdog takes its turn. However its turns are paced,
the windows of a channel where nothing stirs them are shifted by the number of whole decay intervals
from the last halving to the last turn, and the last halving moves on by just these intervals,
within time at each turn. So any two courses with the same last turn lead to the same windows. A
turn that comes before the last halving halves nothing. -/
theorem windows_decay_by_last_turn (h : m.Paced calls) :
    let halvings := (m.lastTurn calls - m.lastDecay) / m.windowDecayUs
    (m.after calls).lastDecay = m.lastDecay + halvings * m.windowDecayUs ∧
    (∀ before now, before ++ [.watchdogTick now] <+: calls →
      (m.after before).lastDecay + (m.after before).decayPeriods now * m.windowDecayUs ≤
        Instant.last) ∧
    (∀ (c : Nat) (r : ChannelRecord), m.records[c]? = some r → r.stats.WindowsFit →
      (∀ call ∈ calls, call.stirs c = false) →
      ∃ s, (m.after calls).records[c]? = some s ∧
        s.stats.errorWindow = (if 32 ≤ halvings then 0 else r.stats.errorWindow >>> halvings) ∧
        s.stats.ringFullWindow =
          (if 32 ≤ halvings then 0 else r.stats.ringFullWindow >>> halvings)) ∧
    (∀ (others : List Call) (c : Nat) (r : ChannelRecord), m.Paced others →
      m.lastTurn others = m.lastTurn calls → m.records[c]? = some r → r.stats.WindowsFit →
      (∀ call ∈ calls ++ others, call.stirs c = false) →
      ∃ s t, (m.after calls).records[c]? = some s ∧ (m.after others).records[c]? = some t ∧
        t.stats.errorWindow = s.stats.errorWindow ∧
        t.stats.ringFullWindow = s.stats.ringFullWindow) ∧
    ∀ now < (m.after calls).lastDecay,
      ((m.after calls).watchdogTick now).2.lastDecay = (m.after calls).lastDecay ∧
      ∀ (c : Nat) (r : ChannelRecord), (m.after calls).records[c]? = some r →
        ∃ s, ((m.after calls).watchdogTick now).2.records[c]? = some s ∧
          s.stats.errorWindow = r.stats.errorWindow ∧
          s.stats.ringFullWindow = r.stats.ringFullWindow := by
  intro halvings
  have hhalvings : m.decayPeriods (m.lastTurn calls) = halvings := m.decayPeriods_eq _
  have hdecay := h.lastDecay_after
  rw [hhalvings] at hdecay
  refine ⟨hdecay, ?_, ?_, ?_, ?_⟩
  · intro before now hbefore
    exact (h.of_prefix hbefore).periods_within
  · intro c r hr hfit hstill
    obtain ⟨s, hs, herror, hring⟩ := h.halved_after hr hfit hstill
    rw [hhalvings] at herror hring
    exact ⟨s, hs, herror, hring⟩
  · intro others c r hothers hlast hr hfit hstill
    obtain ⟨hcalls, hrest⟩ := List.forall_mem_append.mp hstill
    obtain ⟨s, hs, hleft⟩ := h.halved_after hr hfit hcalls
    obtain ⟨t, ht, hright⟩ := hothers.halved_after hr hfit hrest
    rw [hlast] at hright
    exact ⟨s, t, hs, ht, hright.errorWindow_eq.trans hleft.errorWindow_eq.symm,
      hright.ringFullWindow_eq.trans hleft.ringFullWindow_eq.symm⟩
  · intro now hnow
    have hlast : (m.after calls).lastDecay ≤ Instant.last := by
      rw [h.lastDecay_after]
      exact (add_decayPeriods_le h.le_lastTurn).trans (h.within _ List.getLastD_mem_cons)
    obtain ⟨hkept, hwindows⟩ := halved_tick_of_lt hnow hlast
    refine ⟨hkept, fun c r hr => ?_⟩
    obtain ⟨s, hs, herror, hring⟩ := hwindows c r hr
    rw [Counter.halve_zero] at herror hring
    exact ⟨s, hs, herror, hring⟩

/-- Nine refusals count as one after three intervals and a half, with one turn of the watchdog or
with three. -/
theorem windows_decay_by_last_turn_trip :
    let r := { ChannelRecord.new with stats := { ChannelStats.zero with ringFullWindow := 9 } }
    let m := { bench with records := [r] }
    let seldom : List Call := [.watchdogTick 3500000]
    let often : List Call :=
      [.watchdogTick 600000, .about 0 (.start 700000), .watchdogTick 2999999, .watchdogTick 3500000]
    (∃ s, (m.after seldom).records[0]? = some s ∧ s.stats.ringFullWindow = 1) ∧
      ∃ s t, (m.after seldom).records[0]? = some s ∧ (m.after often).records[0]? = some t ∧
        t.stats.errorWindow = s.stats.errorWindow ∧
        t.stats.ringFullWindow = s.stats.ringFullWindow := by
  intro r m seldom often
  have hseldom : m.Paced seldom := ⟨by decide, by decide⟩
  have hoften : m.Paced often := ⟨by decide, by decide⟩
  have hfit : r.stats.WindowsFit := ⟨by decide, by decide⟩
  have hperiods : (m.lastTurn seldom - m.lastDecay) / m.windowDecayUs = 3 := by decide
  obtain ⟨-, -, hwindows, hsame, -⟩ := windows_decay_by_last_turn hseldom
  constructor
  · obtain ⟨s, hs, -, hring⟩ := hwindows 0 r rfl hfit (by decide)
    rw [hperiods] at hring
    exact ⟨s, hs, hring.trans (by decide)⟩
  · exact hsame often 0 r hoften rfl rfl hfit (by decide)

end Monitor

end PacketDma
