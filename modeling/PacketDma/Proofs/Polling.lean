import Mathlib.Algebra.Order.Floor.Div
import PacketDma.Machine.Reset

/-!
# Bounded polling

A wait goes through rounds of a look, a reading of the clock and a pause. It ends at the first look
that succeeds, or at the first one that fails with the deadline passed. Main statement:
`pollFor_bounded`. Whatever the clock shows and however it ticks, the pauses alone bring it to the
deadline, so the number of looks is bounded by the timeout over the pause.

## Implementation notes

Looks and pauses are seen from a world that keeps a record of them. The clock is not in sight there,
so its readings are told from the number of rounds.
-/

namespace PacketDma

variable {σ : Type}

/-! ### Rounds -/

/-- The clock after one round of a wait: it was read, and a pause was taken. -/
def Clock.round (us : Nat) (c : Clock) : Clock := c.read.2.advance us

/-- The world after one round of a wait: a look was taken, and a pause. -/
def pollRound (check : σ → Bool × σ) (pause : Nat → σ → σ) (us : Nat) (s : σ) : σ :=
  pause us (check s).2

/-- A wait is some rounds that fail before the deadline, and then a look that either succeeds or
fails with the deadline passed. -/
theorem pollUntil_eq (check : σ → Bool × σ) (pause : Nat → σ → σ) (interval : Nat)
    (deadline : Deadline) (clock : Clock) (s : σ) :
    ∃ n, (∀ k < n, ((Clock.round (max interval 1))^[k] clock).now < deadline.expires ∧
        (check ((pollRound check pause (max interval 1))^[k] s)).1 = false) ∧
      let c := (Clock.round (max interval 1))^[n] clock
      let looked := check ((pollRound check pause (max interval 1))^[n] s)
      pollUntil check pause interval deadline clock s =
          (looked.1, if looked.1 then c else c.read.2, looked.2) ∧
        (looked.1 = false → deadline.expires ≤ c.now) := by
  fun_induction pollUntil check pause interval deadline clock s with
  | case1 clock s t ht => exact ⟨0, by simp, by simp [ht], by simp [ht]⟩
  | case2 clock s t ht hpast => exact ⟨0, by simp, by simp [ht], fun _ => hpast⟩
  | case3 clock s t ht hpast ih =>
    -- The round that failed comes before the rounds of what is left of the wait.
    obtain ⟨n, hrounds, hresult, hlate⟩ := ih
    have hnext : pause (max interval 1) t = pollRound check pause (max interval 1) s := by
      rw [pollRound, ht]
    rw [hnext] at hrounds hresult hlate ⊢
    refine ⟨n + 1, fun k hk => ?_, hresult, hlate⟩
    cases k with
    | zero => exact ⟨Nat.lt_of_not_le hpast, congrArg Prod.fst ht⟩
    | succ k => exact hrounds k (Nat.lt_of_succ_lt_succ hk)

/-! ### The clock -/

/-- The clock at a look of a wait. It was read for the deadline, and the looks before it were
followed by a reading and a pause each. -/
def Clock.atLook (us : Nat) (c : Clock) (k : Nat) : Clock := (Clock.round us)^[k] c.read.2

theorem Clock.atLook_eq (us : Nat) (c : Clock) (k : Nat) :
    c.atLook us k = ⟨Instant.plus c.now (c.tick + k * (c.tick + us)), c.tick⟩ := by
  induction k with
  | zero => simp [atLook, read, advance]
  | succ k ih =>
    rw [atLook, Function.iterate_succ_apply', ← atLook, ih]
    simp only [round, read, advance, Instant.plus, Clock.mk.injEq, and_true, Nat.succ_mul]
    omega

/-- A look before the deadline comes after less than the timeout in pauses. -/
theorem mul_lt_of_atLook_lt {us timeout k : Nat} {c : Clock}
    (h : (c.atLook us k).now < Instant.plus c.now timeout) : k * us < timeout := by
  rw [Clock.atLook_eq] at h
  simp only [Instant.plus, Nat.mul_add] at h
  omega

/-! ### Waits with a timeout -/

/-- The wait for a device that comes up is such a wait, on the clock of the machine. -/
theorem DeviceRegisters.awaitReady_eq {β : Type} (d : DeviceRegisters) (timeout interval : Nat)
    (m : Machine β) :
    d.awaitReady timeout interval m =
      let ended := pollFor d.isReady (fun us n => n.emit (.delay us)) timeout interval m.clock m
      (ended.1, { ended.2.2 with clock := ended.2.1 }) := by
  rw [awaitReady, pollFor]
  generalize Deadline.after m.clock timeout = start
  obtain ⟨deadline, clock⟩ := start
  dsimp only
  generalize pollUntil _ _ _ _ _ _ = ended
  obtain ⟨found, clock, n⟩ := ended
  cases found <;> rfl

/-- What happens in the course of a wait. -/
inductive Happening where
  | look (found : Bool)
  | pause (us : Nat)
  deriving DecidableEq

namespace Happening

/-- Whether a look was taken. -/
def isLook : Happening → Bool
  | look _ => true
  | pause _ => false

/-- Looks at a condition that depends on how many looks were taken before. -/
def see (holds : Nat → Bool) (record : List Happening) : Bool × List Happening :=
  (holds (record.countP isLook), record ++ [.look (holds (record.countP isLook))])

/-- Takes a pause. -/
def rest (us : Nat) (record : List Happening) : List Happening := record ++ [.pause us]

/-- The record of some rounds. -/
def rounds (holds : Nat → Bool) (us n : Nat) : List Happening :=
  (List.range n).flatMap fun k => [.look (holds k), .pause us]

variable {holds : Nat → Bool} {us : Nat}

theorem rounds_succ (n : Nat) :
    rounds holds us (n + 1) = rounds holds us n ++ [.look (holds n), .pause us] := by
  rw [rounds, List.range_succ, List.flatMap_append, List.flatMap_singleton, rounds]

theorem countP_rounds (n : Nat) : (rounds holds us n).countP isLook = n := by
  induction n with
  | zero => rfl
  | succ n ih =>
    rw [rounds_succ, List.countP_append, ih]
    rfl

theorem iterate_pollRound (n : Nat) :
    (pollRound (see holds) rest us)^[n] [] = rounds holds us n := by
  induction n with
  | zero => rfl
  | succ n ih =>
    rw [Function.iterate_succ_apply', ih, rounds_succ, pollRound, see, rest, countP_rounds,
      List.append_assoc]
    rfl

theorem see_rounds (n : Nat) :
    see holds (rounds holds us n) = (holds n, rounds holds us n ++ [.look (holds n)]) := by
  rw [see, countP_rounds]

theorem notMem_rounds (us : Nat) {n : Nat} (hfails : ∀ k < n, holds k = false) :
    .look true ∉ rounds holds us n := by
  intro hmem
  obtain ⟨k, hk, hlook⟩ := List.mem_flatMap.mp hmem
  simp [hfails k (List.mem_range.mp hk)] at hlook

end Happening

open Happening

/-- The course of a wait with a timeout, up to its last look. -/
theorem pollFor_see (clock : Clock) (timeout interval : Nat) (holds : Nat → Bool) :
    ∃ last, (∀ k < last,
        (clock.atLook (max interval 1) k).now < Instant.plus clock.now timeout ∧
          holds k = false) ∧
      pollFor (see holds) rest timeout interval clock [] =
        (if holds last then .ok () else .error (.io .hardwareTimeout),
          if holds last then clock.atLook (max interval 1) last
            else (clock.atLook (max interval 1) last).read.2,
          rounds holds (max interval 1) last ++ [.look (holds last)]) ∧
      (holds last = false →
        Instant.plus clock.now timeout ≤ (clock.atLook (max interval 1) last).now) := by
  obtain ⟨last, hrounds, hresult, hlate⟩ := pollUntil_eq (see holds) rest interval
    (Deadline.after clock timeout).1 (Deadline.after clock timeout).2 []
  simp only [iterate_pollRound, see_rounds] at hrounds hresult hlate
  refine ⟨last, hrounds, ?_, hlate⟩
  rw [pollFor, hresult]
  rfl

/-- Whatever the clock shows and however it ticks, and whichever looks a condition holds at: a wait
takes at most as many looks as pauses fit into the timeout, rounded up, and one more. It takes one
pause between two looks and none after the last. All looks but the last come before the deadline
and fail. The wait succeeds exactly if one of its looks does, and gives up only if the last one
fails with the deadline passed. -/
theorem pollFor_bounded (clock : Clock) (timeout interval : Nat) (holds : Nat → Bool) :
    let us := max interval 1
    let ended := pollFor (see holds) rest timeout interval clock []
    let record := ended.2.2
    ∃ last, record = rounds holds us last ++ [.look (holds last)] ∧
      record.countP isLook = last + 1 ∧ last ≤ timeout ⌈/⌉ us ∧
      (∀ k < last, holds k = false ∧
        (clock.atLook us k).now < Instant.plus clock.now timeout) ∧
      (ended.1 = .ok () ↔ .look true ∈ record) ∧
      (ended.1 = .error (.io .hardwareTimeout) ↔ holds last = false) ∧
      (ended.1 = .error (.io .hardwareTimeout) →
        Instant.plus clock.now timeout ≤ (clock.atLook us last).now) ∧
      ended.2.1 = if holds last then clock.atLook us last else (clock.atLook us last).read.2 := by
  intro us ended record
  obtain ⟨last, before, course, late⟩ := pollFor_see clock timeout interval holds
  have result : ended.1 = if holds last then .ok () else .error (.io .hardwareTimeout) :=
    congrArg (·.1) course
  have recorded : record = rounds holds us last ++ [.look (holds last)] := congrArg (·.2.2) course
  have looks : record.countP isLook = last + 1 := by
    rw [recorded, List.countP_append, countP_rounds]
    rfl
  have bounded : last ≤ timeout ⌈/⌉ us := by
    cases last with
    | zero => exact Nat.zero_le _
    | succ k =>
      -- The look before the last one came before the deadline, so the pauses had not used it up.
      have hpauses : k * us < timeout := mul_lt_of_atLook_lt (before k (Nat.lt_succ_self k)).1
      rw [Nat.succ_le_iff, ← Nat.not_le, ceilDiv_le_iff_le_mul (by omega), Nat.mul_comm]
      exact Nat.not_le.mpr hpauses
  have found : ended.1 = .ok () ↔ .look true ∈ record := by
    have hbefore := notMem_rounds us fun k hk => (before k hk).2
    rw [result, recorded, List.mem_append]
    cases holds last <;> simp [hbefore]
  have failed : ended.1 = .error (.io .hardwareTimeout) ↔ holds last = false := by
    rw [result]
    cases holds last <;> simp
  exact ⟨last, recorded, looks, bounded, fun k hk => (before k hk).symm, found, failed,
    fun h => late (failed.mp h), congrArg (·.2.1) course⟩

/-- A wait without an interval, close to the end of time: the deadline is the last instant, and the
fifth look comes there and fails. -/
theorem pollFor_bounded_trip :
    let clock : Clock := ⟨Instant.last - 9, 1⟩
    let ended := pollFor (see (· == 7)) rest 1000 0 clock []
    ended.1 = .error (.io .hardwareTimeout) ∧
      ended.2.2 = rounds (· == 7) 1 4 ++ [.look false] ∧ 4 ≤ 1000 ⌈/⌉ 1 ∧
      3 < 4 ∧ (clock.atLook 1 3).now < Instant.plus clock.now 1000 ∧
      Instant.plus clock.now 1000 ≤ (clock.atLook 1 4).now ∧
      ended.2.1 = (clock.atLook 1 4).read.2 := by
  intro clock ended
  obtain ⟨last, recorded, looks, bounded, before, -, failed, late, clocked⟩ :=
    pollFor_bounded clock 1000 0 (· == 7)
  have timedOut : ended.1 = .error (.io .hardwareTimeout) := by decide +kernel
  have count : ended.2.2.countP isLook = 5 := by decide +kernel
  obtain rfl : last = 4 := Nat.succ.inj (looks.symm.trans count)
  exact ⟨timedOut, recorded, bounded, by decide, (before 3 (by decide)).2, late timedOut, clocked⟩

end PacketDma
