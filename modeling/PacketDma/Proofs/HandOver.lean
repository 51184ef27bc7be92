import Mathlib.Data.Finset.Card
import PacketDma.Proofs.ChannelWalk
import PacketDma.Proofs.QueueRun

/-!
# Work is handed over once

Work is posted by one party and taken by another, while workers come and go and the queue is closed
and opened again. Main statement: `hands_over_once`. Whatever was called before, the queue is open
if it was opened and not closed since, the workers inside are those that entered and did not leave,
and the work that waits is what was posted to the open queue since the last worker took work or the
queue was closed. Whoever takes work gets all of that and leaves nothing.

## Implementation notes

The queue counts its workers and does not know them. To tell who is inside, each request is called
by a worker with a number, and a worker that has to be inside for it is. All three facts about the
past say that something began and has not ended since, so they follow a run in the same way.
-/

namespace PacketDma

/-- The kinds of work. -/
inductive WorkKind where
  | reclaim
  | refill
  | recover
  deriving DecidableEq

/-- Whether work of some kind is asked for. -/
def Work.asks (work : Work) : WorkKind → Bool
  | .reclaim => work.reclaim
  | .refill => work.refill
  | .recover => work.recover

namespace PendingWork

/-- The channels that wait for work of some kind. -/
def channels (p : PendingWork) : WorkKind → ChannelMask
  | .reclaim => p.reclaim
  | .refill => p.refill
  | .recover => p.recover

theorem channels_none (kind : WorkKind) : none.channels kind = ∅ := by cases kind <;> rfl

theorem channels_add (p : PendingWork) (channel : Nat) (work : Work) (kind : WorkKind) :
    (p.add channel work).channels kind =
      if work.asks kind then (p.channels kind).insert channel else p.channels kind := by
  cases kind <;> rfl

end PendingWork

namespace WorkQueue

/-! ### What the past tells -/

/-- A request, and the worker that makes it. Anyone may open or close the queue, post or look. Who
is inside twice is two workers. -/
structure Call where
  /-- Who calls. -/
  worker : Nat
  /-- What is asked. -/
  request : Request
  deriving DecidableEq

/-- Something began at one of these calls, and nothing has ended it since. -/
def Since (begins : List Call → Call → Prop) (ends : Call → Prop) (calls : List Call) : Prop :=
  ∃ i, ∃ h : i < calls.length,
    begins (calls.take i) calls[i] ∧ ∀ later ∈ calls.drop (i + 1), ¬ ends later

/-- The queue was opened and has not been closed since. -/
def Opened : List Call → Prop :=
  Since (fun _ call => call.request = .openUp) (fun call => call.request = .close)

/-- A worker entered the open queue and has not left since. -/
def Inside (worker : Nat) : List Call → Prop :=
  Since (fun before call => call = ⟨worker, .enter⟩ ∧ Opened before) (· = ⟨worker, .leave⟩)

/-- Whether work of some kind is posted for a channel. -/
def Request.posts (kind : WorkKind) (channel : Nat) : Request → Bool
  | .post c work => work.asks kind && c == channel
  | .openUp | .close | .enter | .take | .leave | .poll _ => false

/-- Work of some kind was posted for a channel while the queue was open. Nobody has taken work and
the queue has not been closed since. -/
def Waiting (kind : WorkKind) (channel : Nat) : List Call → Prop :=
  Since (fun before call => call.request.posts kind channel = true ∧ Opened before)
    fun call => call.request = .take ∨ call.request = .close

/-- A worker enters from outside, and takes work and leaves from inside. -/
def Call.MayFollow (before : List Call) (call : Call) : Prop :=
  match call.request with
  | .enter => ¬ Inside call.worker before
  | .take | .leave => Inside call.worker before
  | .openUp | .close | .post _ _ | .poll _ => True

/-- Every call is made from where it can be made. -/
def Proper (calls : List Call) : Prop :=
  ∀ i, ∀ h : i < calls.length, calls[i].MayFollow (calls.take i)

section Past

variable {calls : List Call} {call : Call}

theorem since_concat {begins : List Call → Call → Prop} {ends : Call → Prop} :
    Since begins ends (calls ++ [call]) ↔
      begins calls call ∨ Since begins ends calls ∧ ¬ ends call := by
  constructor
  · rintro ⟨i, hi, hbegins, hends⟩
    rw [List.length_append, List.length_singleton] at hi
    -- It began before the last call, which then must not end it, or at the last call.
    rcases Nat.lt_or_ge i calls.length with hlt | hge
    · right
      rw [List.take_append_of_le_length hlt.le, List.getElem_append_left hlt] at hbegins
      rw [List.drop_append_of_le_length hlt] at hends
      exact ⟨⟨i, hlt, hbegins, fun later hl => hends later (List.mem_append_left _ hl)⟩,
        hends call (List.mem_append_right _ (List.mem_singleton_self _))⟩
    · left
      obtain rfl : i = calls.length := by omega
      simpa using hbegins
  · rintro (hbegins | ⟨⟨i, hlt, hbegins, hends⟩, hend⟩)
    · exact ⟨calls.length, by simp, by simpa using hbegins, by simp⟩
    · refine ⟨i, by simp; omega, ?_, ?_⟩
      · rwa [List.take_append_of_le_length hlt.le, List.getElem_append_left hlt]
      · rw [List.drop_append_of_le_length hlt]
        intro later hl
        rcases List.mem_append.mp hl with hl | hl
        · exact hends later hl
        · rwa [List.mem_singleton.mp hl]

theorem not_since_nil (begins : List Call → Call → Prop) (ends : Call → Prop) :
    ¬ Since begins ends [] := by
  rintro ⟨i, hi, -⟩
  exact Nat.not_lt_zero i hi

instance {begins : List Call → Call → Prop} {ends : Call → Prop}
    [∀ before call, Decidable (begins before call)] [DecidablePred ends] :
    DecidablePred (Since begins ends) :=
  fun _ => inferInstanceAs (Decidable (∃ _, ∃ _, _))

instance : DecidablePred Opened := inferInstanceAs (DecidablePred (Since _ _))

instance (worker : Nat) : DecidablePred (Inside worker) :=
  inferInstanceAs (DecidablePred (Since _ _))

instance (kind : WorkKind) (channel : Nat) : DecidablePred (Waiting kind channel) :=
  inferInstanceAs (DecidablePred (Since _ _))

instance (before : List Call) : (call : Call) → Decidable (call.MayFollow before)
  | ⟨worker, .enter⟩ => inferInstanceAs (Decidable (¬ Inside worker before))
  | ⟨worker, .take⟩ | ⟨worker, .leave⟩ => inferInstanceAs (Decidable (Inside worker before))
  | ⟨_, .openUp⟩ | ⟨_, .close⟩ | ⟨_, .post _ _⟩ | ⟨_, .poll _⟩ => isTrue trivial

instance : DecidablePred Proper := fun _ => inferInstanceAs (Decidable (∀ _, ∀ _, _))

theorem opened_concat :
    Opened (calls ++ [call]) ↔ call.request = .openUp ∨ Opened calls ∧ call.request ≠ .close :=
  since_concat

theorem inside_concat {worker : Nat} :
    Inside worker (calls ++ [call]) ↔ call = ⟨worker, .enter⟩ ∧ Opened calls ∨
      Inside worker calls ∧ call ≠ ⟨worker, .leave⟩ :=
  since_concat

theorem waiting_concat {kind : WorkKind} {channel : Nat} :
    Waiting kind channel (calls ++ [call]) ↔
      call.request.posts kind channel = true ∧ Opened calls ∨
        Waiting kind channel calls ∧ ¬ (call.request = .take ∨ call.request = .close) :=
  since_concat

theorem proper_concat : Proper (calls ++ [call]) ↔ Proper calls ∧ call.MayFollow calls := by
  constructor
  · intro h
    constructor
    · intro i hlt
      have hi := h i (by simp; omega)
      rwa [List.getElem_append_left hlt, List.take_append_of_le_length hlt.le] at hi
    · simpa using h calls.length (by simp)
  · rintro ⟨h, hmay⟩ i hi
    rw [List.length_append, List.length_singleton] at hi
    rcases Nat.lt_or_ge i calls.length with hlt | hge
    · rw [List.getElem_append_left hlt, List.take_append_of_le_length hlt.le]
      exact h i hlt
    · obtain rfl : i = calls.length := by omega
      simpa using hmay

end Past

/-! ### What a request changes -/

section Perform

variable (q : WorkQueue) (request : Request)

theorem isOpen_perform : (request.perform q).2.isOpen = true ↔
    request = .openUp ∨ q.isOpen = true ∧ request ≠ .close := by
  cases request with
  | openUp | close | take | leave => simp [Request.perform, openUp, close, take, leave]
  | post | enter | poll =>
    simp only [Request.perform, post, enter, poll_eq]
    split <;> simp

/-- No request leaves work at a closed queue. -/
theorem pending_eq_none_perform (h : q.isOpen = false → q.pending = .none)
    (hclosed : (request.perform q).2.isOpen = false) : (request.perform q).2.pending = .none := by
  cases request with
  | openUp => exact absurd hclosed.symm Bool.false_ne_true
  | close | take => rfl
  | leave => exact h hclosed
  | post | enter | poll =>
    simp only [Request.perform, post, enter, poll_eq] at hclosed ⊢
    split <;> simp_all

/-- The channels that wait after a request are those that it posts to the open queue and those that
waited before, unless it takes or drops them. -/
theorem mem_pending_perform (kind : WorkKind) (c : Nat) :
    c ∈ ((request.perform q).2.pending.channels kind).toList ↔
      (∃ channel, (request.posts kind channel = true ∧ q.isOpen = true) ∧ channel % 32 = c) ∨
        c ∈ (q.pending.channels kind).toList ∧ ¬ (request = .take ∨ request = .close) := by
  cases request with
  | openUp | leave => simp [Request.perform, Request.posts, openUp, leave]
  | close | take =>
    simp [Request.perform, Request.posts, close, take, PendingWork.channels_none,
      ChannelMask.mem_toList_empty]
  | enter | poll =>
    simp only [Request.perform, Request.posts, enter, poll_eq]
    split <;> simp
  | post channel work =>
    simp only [Request.perform, Request.posts, post]
    split
    next hopen =>
      rw [PendingWork.channels_add]
      split
      next hasks =>
        rw [ChannelMask.mem_toList_insert, or_comm, eq_comm]
        simp [hasks, hopen]
      next hasks => simp [hasks]
    next hclosed => simp [hclosed]

end Perform

/-! ### Runs -/

/-- The queue after some calls. -/
def called (calls : List Call) : WorkQueue := new.after (calls.map Call.request)

section Runs

variable {calls : List Call} {call : Call}

@[simp]
theorem called_concat : called (calls ++ [call]) = (call.request.perform (called calls)).2 := by
  rw [called, List.map_append, List.map_singleton, after_concat, called]

theorem isOpen_called : (called calls).isOpen = true ↔ Opened calls := by
  induction calls using List.reverseRecOn with
  | nil => exact iff_of_false Bool.false_ne_true (not_since_nil _ _)
  | append_singleton calls call ih => rw [called_concat, isOpen_perform, ih, opened_concat]

theorem pending_called_of_closed :
    (called calls).isOpen = false → (called calls).pending = .none := by
  induction calls using List.reverseRecOn with
  | nil => exact fun _ => rfl
  | append_singleton calls call ih =>
    rw [called_concat]
    exact pending_eq_none_perform _ _ ih

theorem mem_pending_called (kind : WorkKind) (c : Nat) :
    c ∈ ((called calls).pending.channels kind).toList ↔
      ∃ channel, Waiting kind channel calls ∧ channel % 32 = c := by
  induction calls using List.reverseRecOn with
  | nil =>
    have hnone : (called []).pending.channels kind = ∅ := PendingWork.channels_none kind
    simp [hnone, ChannelMask.mem_toList_empty, Waiting, not_since_nil]
  | append_singleton calls call ih =>
    simp only [called_concat, mem_pending_perform, ih, isOpen_called, waiting_concat,
      or_and_right, exists_or]
    refine or_congr_right ?_
    constructor
    · rintro ⟨⟨channel, hwaiting, hc⟩, hkeeps⟩
      exact ⟨channel, ⟨hwaiting, hkeeps⟩, hc⟩
    · rintro ⟨channel, ⟨hwaiting, hkeeps⟩, hc⟩
      exact ⟨⟨channel, hwaiting, hc⟩, hkeeps⟩

/-- The queue counts the workers inside. -/
theorem active_called (h : Proper calls) :
    ∃ inside : Finset Nat, (∀ worker, worker ∈ inside ↔ Inside worker calls) ∧
      (called calls).active = inside.card := by
  induction calls using List.reverseRecOn with
  | nil => exact ⟨∅, fun _ => iff_of_false (by simp) (not_since_nil _ _), rfl⟩
  | append_singleton calls call ih =>
    obtain ⟨hproper, hmay⟩ := proper_concat.mp h
    obtain ⟨inside, hinside, hactive⟩ := ih hproper
    obtain ⟨worker, request⟩ := call
    rw [called_concat]
    -- Only a worker that enters the open queue or leaves changes who is inside.
    cases request with
    | enter =>
      by_cases hopen : (called calls).isOpen = true
      · have hout : worker ∉ inside := fun hmem => hmay ((hinside worker).mp hmem)
        refine ⟨insert worker inside, fun w => ?_, ?_⟩
        · simp [inside_concat, hinside, ← isOpen_called, hopen, eq_comm]
        · rw [Finset.card_insert_of_notMem hout, ← hactive]
          simp [Request.perform, enter, hopen]
      · refine ⟨inside, fun w => ?_, ?_⟩
        · simp [inside_concat, hinside, ← isOpen_called, hopen]
        · simp [Request.perform, enter, hopen, hactive]
    | leave =>
      have hin : worker ∈ inside := (hinside worker).mpr hmay
      refine ⟨inside.erase worker, fun w => ?_, ?_⟩
      · simp [inside_concat, hinside, and_comm, eq_comm]
      · rw [Finset.card_erase_of_mem hin, ← hactive]
        rfl
    | openUp | close | take =>
      exact ⟨inside, fun w => by simp [inside_concat, hinside], hactive⟩
    | post | poll =>
      refine ⟨inside, fun w => by simp [inside_concat, hinside], ?_⟩
      simp only [Request.perform, post, poll_eq]
      split <;> exact hactive

end Runs

/-- After every sequence of calls, each made from where it can be made: a closed queue has no work;
the queue is open if it was opened and not closed since, and exactly then a worker enters; the
queue counts the workers inside; and whoever takes work gets, of each kind, the channels for which
it was posted to the open queue since work was last taken or the queue last closed, and leaves
nothing. A channel number counts modulo the width of a set. -/
theorem hands_over_once (calls : List Call) (proper : Proper calls) :
    let q := called calls
    (q.isOpen = false → q.pending = .none) ∧
      (q.isOpen = true ↔ Opened calls) ∧
      (q.enter.1 = true ↔ q.isOpen = true) ∧
      (∃ inside : Finset Nat, (∀ worker, worker ∈ inside ↔ Inside worker calls) ∧
        q.active = inside.card) ∧
      (∀ kind c, c ∈ (q.take.1.channels kind).toList ↔
        ∃ channel, Waiting kind channel calls ∧ channel % 32 = c) ∧
      q.take.2.pending = .none := by
  intro q
  have enters : q.enter.1 = true ↔ q.isOpen = true := by
    rw [enter]
    split
    next hopen => exact iff_of_true rfl hopen
    next hclosed => exact iff_of_false Bool.false_ne_true hclosed
  exact ⟨pending_called_of_closed, isOpen_called, enters, active_called proper,
    mem_pending_called, rfl⟩

/-- Of two workers one takes work. The queue is closed and keeps a third worker and more work out,
the first worker leaves, and the queue is opened again. The second worker, still inside, finds only
what was posted then. -/
theorem hands_over_once_trip :
    let calls : List Call := [⟨0, .openUp⟩, ⟨0, .post 3 .completion⟩, ⟨1, .enter⟩, ⟨2, .enter⟩,
      ⟨1, .take⟩, ⟨0, .post 5 .recoverOnly⟩, ⟨0, .close⟩, ⟨3, .enter⟩, ⟨0, .post 7 .completion⟩,
      ⟨1, .leave⟩, ⟨0, .openUp⟩, ⟨0, .post 4 .refillOnly⟩]
    Proper calls ∧ (called calls).enter.1 = true ∧
      (∃ inside : Finset Nat, (∀ worker, worker ∈ inside ↔ Inside worker calls) ∧
        (called calls).active = inside.card) ∧
      Inside 2 calls ∧ ¬ Inside 1 calls ∧ ¬ Inside 3 calls ∧ (called calls).active = 1 ∧
      Waiting .refill 4 calls ∧ 4 ∈ ((called calls).take.1.channels .refill).toList ∧
      (called calls).take.1 = ⟨∅, .single 4, ∅⟩ ∧ (called calls).take.2.pending = .none := by
  intro calls
  have proper : Proper calls := by decide
  have waiting : Waiting .refill 4 calls := by decide
  obtain ⟨-, opened, enters, inside, taken, nothing⟩ := hands_over_once calls proper
  exact ⟨proper, enters.mpr (opened.mpr (by decide)), inside, by decide, by decide, by decide,
    by decide, waiting, (taken .refill 4).mpr ⟨4, waiting, rfl⟩, by decide, nothing⟩

end WorkQueue

end PacketDma
