import Mathlib.Data.List.DropRight
import PacketDma.Proofs.MonitorRun

/-!
# The retry budget of a channel

A policy bounds how often a channel is recovered in a row, and how soon after one another. It may be
another policy at each attempt. The monitor keeps a count and the time of the last attempt, and both
are what the history says: the attempts claimed since the last success or reset, and the last of
those claimed since the last reset.

## Implementation notes

A success gives a fresh budget, but the next attempt has to wait all the same. So a history is cut
in two places, once for the count and once for the time. A reset that is refused cuts nothing.
-/

namespace PacketDma

namespace Monitor

/-! ### What a history tells -/

/-- What was asked about a channel, with the answers. -/
def dealings (channel : Nat) (history : List (Call × Answer)) : List (Request × Answer) :=
  history.filterMap fun
    | (.about i request, answer) => if i = channel then some (request, answer) else none
    | (.watchdogTick _, _) => none

/-- When an attempt was claimed, if one was. -/
def claimTime? : Request × Answer → Option Nat
  | (.beginRecovery _ now, .claim (.claimed _)) => some now
  | _ => none

/-- Whether a success of an attempt was reported. -/
def isSuccess : Request × Answer → Bool
  | (.finishRecovery success _ _ _, _) => success
  | _ => false

/-- Whether the channel was reset. -/
def isReset : Request × Answer → Bool
  | (.reset, .done (.ok _)) => true
  | _ => false

/-- How many attempts were claimed since the last success or reset. -/
def spent (dealings : List (Request × Answer)) : Nat :=
  ((dealings.rtakeWhile fun entry => !(isSuccess entry || isReset entry)).filterMap
    claimTime?).length

/-- When the last attempt was claimed since the last reset. -/
def lastClaim? (dealings : List (Request × Answer)) : Option Nat :=
  ((dealings.rtakeWhile (!isReset ·)).filterMap claimTime?).getLast?

/-- A channel is reset by one of the calls that follow some earlier ones. -/
def ResetSince (m : Monitor) (channel : Nat) (earlier calls : List Call) : Prop :=
  ∃ before, earlier <+: before ∧ before ++ [.about channel .reset] <+: calls ∧
    ((m.after before).reset channel).1 = .ok ()

variable {m : Monitor} {calls : List Call} {c : Nat}

theorem dealings_concat_about (m : Monitor) (calls : List Call) (c : Nat) (request : Request) :
    dealings c (m.history (calls ++ [.about c request])) =
      dealings c (m.history calls) ++ [(request, (request.perform c (m.after calls)).1)] := by
  rw [history_concat, dealings, List.filterMap_append, ← dealings]
  simp only [List.filterMap_cons, if_pos]
  rfl

theorem dealings_concat_of_ne (m : Monitor) (calls : List Call) {call : Call}
    (h : ∀ request, call ≠ .about c request) :
    dealings c (m.history (calls ++ [call])) = dealings c (m.history calls) := by
  rw [history_concat, dealings, List.filterMap_append, ← dealings]
  cases call with
  | about i request =>
    have hi : i ≠ c := by
      rintro rfl
      exact h request rfl
    simp only [List.filterMap_cons, if_neg hi, List.filterMap_nil, List.append_nil]
  | watchdogTick now => exact List.append_nil _

section Dealings

variable {dealings : List (Request × Answer)} {entry : Request × Answer}

theorem spent_concat : spent (dealings ++ [entry]) =
    if isSuccess entry || isReset entry then 0
      else spent dealings + (claimTime? entry).toList.length := by
  rw [spent, List.rtakeWhile_concat]
  cases isSuccess entry || isReset entry with
  | true => rfl
  | false =>
    rw [Bool.not_false, if_pos rfl, List.filterMap_append, List.length_append, ← spent]
    cases h : claimTime? entry <;> simp [h]

theorem lastClaim?_concat : lastClaim? (dealings ++ [entry]) =
    if isReset entry then none else (claimTime? entry).or (lastClaim? dealings) := by
  rw [lastClaim?, List.rtakeWhile_concat]
  cases isReset entry with
  | true => rfl
  | false =>
    rw [Bool.not_false, if_pos rfl, List.filterMap_append, List.getLast?_append, ← lastClaim?]
    cases h : claimTime? entry <;> simp [h]

end Dealings

/-! ### What a request does to the budget -/

/-- How a request changes the count of a record, the time of its last attempt and whether it is
down, told from the request and its answer. -/
inductive Spending (r s : ChannelRecord) : Request × Answer → Prop where
  | keeps {entry : Request × Answer} (hretries : s.retries = r.retries)
      (hlast : s.lastAttempt = r.lastAttempt) (hdown : r.down = true → s.down = true)
      (hclaim : claimTime? entry = none) (hsuccess : isSuccess entry = false)
      (hreset : isReset entry = false) : Spending r s entry
  | claims {policy : RecoveryPolicy} {now : Nat} {faults : FaultSet}
      (hbudget : r.retries < policy.maxRetries.toNat) (hretries : s.retries = r.retries + 1)
      (hlast : s.lastAttempt = some now) (hdown : r.down = false) :
      Spending r s (.beginRecovery policy now, .claim (.claimed faults))
  | succeeds {residual : FaultSet} {maxRetries : UInt8} {now : Nat} {answer : Answer}
      (hretries : s.retries = 0) (hlast : s.lastAttempt = r.lastAttempt) (hdown : s.down = r.down) :
      Spending r s (.finishRecovery true residual maxRetries now, answer)
  | resets (hretries : s.retries = 0) (hlast : s.lastAttempt = none) :
      Spending r s (.reset, .done (.ok ()))

section Record

variable {r : ChannelRecord}

theorem spending_beginRecovery (r : ChannelRecord) (policy : RecoveryPolicy) (now : Nat) :
    Spending r (r.beginRecovery policy now).2
      (.beginRecovery policy now, .claim (r.beginRecovery policy now).1) := by
  generalize hb : r.beginRecovery policy now = begun
  obtain ⟨claim, s⟩ := begun
  by_cases hclaim : ∃ faults, claim = .claimed faults
  · obtain ⟨faults, rfl⟩ := hclaim
    obtain ⟨hmay, -, rfl⟩ := ChannelRecord.begin_eq_claimed_iff.mp hb
    exact .claims hmay.retries_lt rfl rfl hmay.down_eq
  · obtain ⟨hs, hdown⟩ :=
      ChannelRecord.of_begin_unclaimed hb fun faults heq => hclaim ⟨faults, heq⟩
    refine .keeps (by rw [hs]) (by rw [hs]) hdown ?_ rfl rfl
    cases claim with
    | claimed faults => exact absurd ⟨faults, rfl⟩ hclaim
    | _ => rfl

/-- Every request spends of the budget of its channel in one of these ways. -/
theorem spending_touch (r : ChannelRecord) (request : Request) :
    Spending r (request.touch r).2 (request, (request.touch r).1) := by
  cases request with
  | beginRecovery policy now => exact spending_beginRecovery r policy now
  | reset =>
    rw [Request.touch, ChannelRecord.reset]
    split
    next => exact .keeps rfl rfl id rfl rfl rfl
    next => exact .resets rfl rfl
  | finishRecovery success residual maxRetries now =>
    cases success with
    | true => exact .succeeds rfl rfl rfl
    | false =>
      exact .keeps rfl rfl (fun hdown => Bool.or_eq_true_iff.mpr (.inl hdown)) rfl rfl rfl
  | recordFault faults now =>
    rw [Request.touch, ChannelRecord.recordFault]
    split
    next => exact .keeps rfl rfl id rfl rfl rfl
    next => exact .keeps rfl rfl (fun hdown => Bool.or_eq_true_iff.mpr (.inl hdown)) rfl rfl rfl
  | markDown => exact .keeps rfl rfl (fun _ => rfl) rfl rfl rfl
  | start | stop | suspend | resume =>
    obtain ⟨state⟩ := r
    cases state <;> exact .keeps rfl rfl id rfl rfl rfl
  | onInterrupt | onRingFull | resetStats => exact .keeps rfl rfl id rfl rfl rfl

theorem touch_of_ne {call : Call} (h : ∀ request, call ≠ .about c request) (m : Monitor)
    (r : ChannelRecord) :
    (call.touch m c r).retries = r.retries ∧ (call.touch m c r).lastAttempt = r.lastAttempt ∧
      (call.touch m c r).down = r.down := by
  cases call with
  | about i request =>
    have hi : i ≠ c := by
      rintro rfl
      exact h request rfl
    rw [Call.touch, if_neg hi]
    exact ⟨rfl, rfl, rfl⟩
  | watchdogTick now =>
    rw [Call.touch, look]
    split <;> exact ⟨rfl, rfl, rfl⟩

end Record

/-! ### Runs -/

theorem ResetSince.mono {earlier middle : List Call} (h : m.ResetSince c earlier middle)
    (hm : middle <+: calls) : m.ResetSince c earlier calls := by
  obtain ⟨before, he, hb, hreset⟩ := h
  exact ⟨before, he, hb.trans hm, hreset⟩

/-- What is known of a channel is what the history tells. The count fits in a byte, and the channel
is down if it has been so since its last reset. -/
structure Budgeted (m : Monitor) (c : Nat) (calls : List Call) (r : ChannelRecord) : Prop where
  retries_eq : r.retries = spent (dealings c (m.history calls))
  retries_lt : r.retries < UInt8.size
  lastAttempt_eq : r.lastAttempt = lastClaim? (dealings c (m.history calls))
  down_eq : ∀ earlier, earlier <+: calls → (m.after earlier).isDown c = true →
    r.down = true ∨ m.ResetSince c earlier calls

/-- A channel that is down stays so after a call, unless the call resets it. -/
theorem Budgeted.down_concat {r s : ChannelRecord} {call : Call} (h : m.Budgeted c calls r)
    (hs : (m.after (calls ++ [call])).records[c]? = some s)
    (hcall : r.down = true → s.down = true ∨ m.ResetSince c calls (calls ++ [call])) :
    ∀ earlier, earlier <+: calls ++ [call] → (m.after earlier).isDown c = true →
      s.down = true ∨ m.ResetSince c earlier (calls ++ [call]) := by
  intro earlier he hdown
  rcases List.prefix_concat_iff.mp he with rfl | he
  · exact .inl ((isDown_eq hs).symm.trans hdown)
  rcases h.down_eq earlier he hdown with hr | hreset
  · refine (hcall hr).imp_right ?_
    rintro ⟨before, hb, hreset⟩
    exact ⟨before, he.trans hb, hreset⟩
  · exact .inr (hreset.mono (List.prefix_append _ _))

/-- Each call keeps to the budget. -/
theorem Budgeted.concat {r : ChannelRecord} (h : m.Budgeted c calls r)
    (hr : (m.after calls).records[c]? = some r) (call : Call) :
    m.Budgeted c (calls ++ [call]) (call.touch (m.after calls) c r) := by
  have hs : (m.after (calls ++ [call])).records[c]? = some (call.touch (m.after calls) c r) := by
    rw [after_concat, record_perform, hr, Option.map_some]
  -- A call that is not about the channel does not show in its dealings.
  by_cases hcall : ∃ request, call = .about c request
  · obtain ⟨request, rfl⟩ := hcall
    have hanswer : (request.perform c (m.after calls)).1 = (request.touch r).1 := by
      rw [Request.perform_eq hr]
    have hdealings := dealings_concat_about m calls c request
    have hspending := spending_touch r request
    rw [hanswer] at hdealings
    rw [Call.touch, if_pos rfl] at hs ⊢
    generalize (request.touch r).2 = s at hs hspending ⊢
    generalize (request.touch r).1 = answer at hanswer hdealings hspending
    have hdown := h.down_concat hs
    refine ⟨?_, ?_, ?_, hdown ?_⟩
    · rw [hdealings, spent_concat]
      cases hspending with
      | keeps hretries _ _ hclaim hsuccess hreset =>
        simp [hretries, h.retries_eq, hclaim, hsuccess, hreset]
      | claims _ hretries => simp [hretries, h.retries_eq, claimTime?, isSuccess, isReset]
      | succeeds hretries => simp [hretries, isSuccess]
      | resets hretries => simp [hretries, isReset]
    · cases hspending with
      | keeps hretries => exact hretries ▸ h.retries_lt
      | @claims policy _ _ hbudget hretries =>
        have hmax := policy.maxRetries.toNat_lt
        rw [hretries]
        simp only [UInt8.size]
        omega
      | succeeds hretries | resets hretries => simp [hretries, UInt8.size]
    · rw [hdealings, lastClaim?_concat]
      cases hspending with
      | keeps _ hlast _ hclaim _ hreset => simp [hlast, h.lastAttempt_eq, hclaim, hreset]
      | claims _ _ hlast => simp [hlast, claimTime?, isReset]
      | succeeds _ hlast => simp [hlast, h.lastAttempt_eq, claimTime?, isReset]
      | resets _ hlast => simp [hlast, isReset]
    · intro hr
      cases hspending with
      | keeps _ _ hkept => exact .inl (hkept hr)
      | claims _ _ _ hup => cases hup.symm.trans hr
      | succeeds _ _ hkept => exact .inl (hkept.trans hr)
      | resets =>
        exact .inr ⟨calls, List.prefix_refl _, List.prefix_refl _, Answer.done.inj hanswer⟩
  · have hne (request : Request) : call ≠ .about c request := fun heq => hcall ⟨request, heq⟩
    obtain ⟨hretries, hlast, hdown⟩ := touch_of_ne hne (m.after calls) r
    have hdealings := dealings_concat_of_ne m calls hne
    refine ⟨?_, hretries ▸ h.retries_lt, ?_, h.down_concat hs fun hr => .inl (hdown.trans hr)⟩
    · rw [hretries, hdealings, h.retries_eq]
    · rw [hlast, hdealings, h.lastAttempt_eq]

theorem budgeted_after (hm : m.records[c]? = some .new) (calls : List Call) :
    ∃ r, (m.after calls).records[c]? = some r ∧ m.Budgeted c calls r := by
  apply record_after_induction hm
  · refine ⟨rfl, by decide, rfl, fun earlier he hdown => ?_⟩
    obtain rfl := List.prefix_nil.mp he
    exact .inl ((isDown_eq hm).symm.trans hdown)
  · exact fun before call r _ hr h => h.concat hr call

/-- An attempt is claimed only as its policy allows, whatever policies there were before, and not
at all on a channel that is down. Without an attempt nothing changes but whether the channel is
down. -/
theorem begin_within_budget {count : Nat} {config : Config} {now : Nat}
    (hm : Monitor.create? count config now = .ok m) (hc : c < count) (calls : List Call)
    (policy : RecoveryPolicy) (time : Nat) :
    ∃ r claim s, (m.after calls).records[c]? = some r ∧
      r.retries = spent (dealings c (m.history calls)) ∧ r.retries < UInt8.size ∧
      (m.after calls).beginRecovery c policy time = (claim, s) ∧
      ((∃ faults, claim = .claimed faults) →
        spent (dealings c (m.history (calls ++ [.about c (.beginRecovery policy time)]))) ≤
            policy.maxRetries.toNat ∧
          (∀ last, lastClaim? (dealings c (m.history calls)) = some last →
            policy.retryIntervalMs * 1000 ≤ Instant.since time last) ∧
          ∀ earlier, earlier <+: calls → (m.after earlier).isDown c = true →
            m.ResetSince c earlier calls) ∧
      ((∀ faults, claim ≠ .claimed faults) →
        ∃ down fatal, s.records[c]? = some { r with down := down, fatal := fatal }) := by
  obtain ⟨r, hr, h⟩ := budgeted_after (record_of_create?_ok hm hc) calls
  obtain ⟨claim, s, hb⟩ : ∃ claim s, r.beginRecovery policy time = (claim, s) := ⟨_, _, rfl⟩
  have hbegin : (m.after calls).beginRecovery c policy time =
      (claim, { m.after calls with records := (m.after calls).records.set c s }) := by
    rw [beginRecovery, act_eq hr, hb]
  have hlt : c < (m.after calls).records.length := (List.getElem?_eq_some_iff.mp hr).1
  refine ⟨r, _, _, hr, h.retries_eq, h.retries_lt, hbegin, ?_, fun hclaim => ?_⟩
  · rintro ⟨faults, rfl⟩
    obtain ⟨hmay, -⟩ := ChannelRecord.begin_eq_claimed_iff.mp hb
    refine ⟨?_, fun last hlast => ?_, fun earlier he hdown => ?_⟩
    · have hanswer : ((Request.beginRecovery policy time).perform c (m.after calls)).1 =
          .claim (.claimed faults) := by
        rw [Request.perform, hbegin]
        rfl
      rw [dealings_concat_about, hanswer, spent_concat, ← h.retries_eq]
      exact hmay.retries_lt
    · have hsoon := hmay.soon_eq
      rw [ChannelRecord.isTooSoon, h.lastAttempt_eq, hlast] at hsoon
      simpa using hsoon
    · exact (h.down_eq earlier he hdown).resolve_left (by simp [hmay.down_eq])
  · obtain ⟨hs, -⟩ := ChannelRecord.of_begin_unclaimed hb hclaim
    exact ⟨s.down, s.fatal, hs ▸ List.getElem?_set_self hlt⟩

/-- A first attempt fails. -/
def failedOnce : List Call :=
  [.about 0 (.start 0), .about 0 (.recordFault (.single .bus) 10),
    .about 0 (.beginRecovery .standard 20), .about 0 (.finishRecovery false (.single .bus) 3 30)]

/-- A policy that allows a second attempt, and that soon. -/
def hastyPolicy : RecoveryPolicy :=
  { RecoveryPolicy.standard with maxRetries := 2, retryIntervalMs := 50 }

theorem begin_within_budget_trip :
    Monitor.create? 1 .standard 0 = .ok bench ∧
      ((bench.after failedOnce).beginRecovery 0 hastyPolicy 50020).1 = .claimed (.single .bus) ∧
      lastClaim? (dealings 0 (bench.history failedOnce)) = some 20 ∧
      spent (dealings 0
        (bench.history (failedOnce ++ [.about 0 (.beginRecovery hastyPolicy 50020)]))) ≤ 2 ∧
      50 * 1000 ≤ Instant.since 50020 20 := by
  have hbench : Monitor.create? 1 .standard 0 = .ok bench := rfl
  have hlast : lastClaim? (dealings 0 (bench.history failedOnce)) = some 20 := by decide +kernel
  have hclaimed : ((bench.after failedOnce).beginRecovery 0 hastyPolicy 50020).1 =
      .claimed (.single .bus) := by decide +kernel
  obtain ⟨r, claim, s, -, -, -, hbegin, hwithin, -⟩ :=
    begin_within_budget hbench Nat.one_pos failedOnce hastyPolicy 50020
  rw [hbegin] at hclaimed
  obtain ⟨hspent, hspaced, -⟩ := hwithin ⟨_, hclaimed⟩
  exact ⟨hbench, by rw [hbegin, hclaimed], hlast, hspent, hspaced 20 hlast⟩

end Monitor

end PacketDma
