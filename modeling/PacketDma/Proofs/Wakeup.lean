import PacketDma.Proofs.QueueRun

/-!
# Wake-ups

A task that looks for work in vain is registered, in place of the one registered before. The queue
owes it a wake-up: work that is let in wakes it, and so does closing the queue. Main statement:
`wakes_last_waiter`. A task is registered only while the queue is open and without work; from a look
in vain to the next such event nobody is woken, and that event wakes exactly one task, the last that
looked in vain.

## Implementation notes

Wakers are told apart by the task that they wake, as the slot tells them apart.
-/

namespace PacketDma

namespace WorkQueue

/-- Whether a request is due to wake the task that waits: it brings work into the open queue, or
closes the queue. -/
def Request.alerts (q : WorkQueue) : Request → Bool
  | .post _ _ => q.isOpen
  | .close => true
  | .openUp | .enter | .take | .leave | .poll _ => false

/-- No request is due to wake anyone when it is made. -/
def Unalerted (q : WorkQueue) : List Request → Prop
  | [] => True
  | request :: rest => request.alerts q = false ∧ Unalerted (request.perform q).2 rest

instance decidableUnalerted : (q : WorkQueue) → (requests : List Request) →
    Decidable (Unalerted q requests)
  | _, [] => isTrue trivial
  | q, request :: rest =>
    have := decidableUnalerted (request.perform q).2 rest
    inferInstanceAs (Decidable (_ ∧ _))

/-- The task that looked for work in vain, if that is what happened. -/
def Turn.waiter? : Turn → Option Nat
  | ⟨.poll task, .polled false, _⟩ => some task
  | _ => none

/-- A task waits at an open queue without work. -/
structure Waits (q : WorkQueue) (task : Nat) : Prop where
  isOpen : q.isOpen = true
  idle : q.hasPending = false
  registered : q.waker.task = some task

/-- A task is registered only if it has to wait. -/
def Attentive (q : WorkQueue) : Prop :=
  q.waker.isRegistered = true → q.isOpen = true ∧ q.hasPending = false

variable {q : WorkQueue} {task : Nat} {request : Request}

theorem poll_eq_true_iff :
    (q.poll task).1 = true ↔ q.hasPending = true ∨ q.isOpen = false := by
  cases hp : q.hasPending <;> cases ho : q.isOpen <;> simp [poll_eq, hp, ho]

/-- A task that looks in vain waits. -/
theorem waits_poll (h : (q.poll task).1 = false) : Waits (q.poll task).2 task := by
  have hv : ¬(q.hasPending = true ∨ q.isOpen = false) := by
    rw [← poll_eq_true_iff, h]
    exact Bool.false_ne_true
  obtain ⟨hp, ho⟩ := not_or.mp hv
  simp only [Bool.not_eq_true, Bool.not_eq_false] at hp ho
  have hq : (q.poll task).2 = { q with waker := q.waker.register task } := by
    simp [poll_eq, hp, ho]
  rw [hq]
  exact ⟨ho, hp, WakerSlot.task_register _ _⟩

theorem attentive_new : Attentive new := fun h => absurd h Bool.false_ne_true

/-- No request leaves a task registered that need not wait. -/
theorem attentive_perform (q : WorkQueue) (request : Request) (h : Attentive q) :
    Attentive (request.perform q).2 := by
  cases request with
  | openUp => exact fun hr => ⟨rfl, (h hr).2⟩
  | close => exact fun hr => absurd hr Bool.false_ne_true
  | post channel work =>
    show Attentive (q.post channel work).2
    rw [post]
    split
    · exact fun hr => absurd hr Bool.false_ne_true
    · exact h
  | enter =>
    show Attentive q.enter.2
    rw [enter]
    split
    · exact h
    · exact h
  | take => exact fun hr => ⟨(h hr).1, rfl⟩
  | leave => exact h
  | poll task =>
    show Attentive (q.poll task).2
    cases hv : (q.poll task).1 with
    | false => exact fun _ => ⟨(waits_poll hv).isOpen, (waits_poll hv).idle⟩
    | true =>
      have hq : (q.poll task).2 = q := by
        rw [poll_eq, if_pos]
        simpa using poll_eq_true_iff.mp hv
      rwa [hq]

/-- While a task waits, a request that is not due to wake it leaves a task waiting: the one that
looked in vain if one did, and else the same. Nobody is woken. -/
theorem Waits.perform (h : Waits q task) (hr : request.alerts q = false) :
    (request.perform q).1.woken = none ∧
      Waits (request.perform q).2 ((request.perform q).1.waiter?.getD task) := by
  obtain ⟨ho, hp, ht⟩ := h
  cases request with
  | openUp => exact ⟨rfl, rfl, hp, ht⟩
  | close => exact absurd hr.symm Bool.false_ne_true
  | post channel work => exact absurd (ho.symm.trans hr) Bool.true_eq_false.mp
  | enter =>
    have hq : q.enter.2 = { q with active := q.active + 1 } := by rw [enter, if_pos ho]
    refine ⟨rfl, ?_⟩
    show Waits q.enter.2 task
    rw [hq]
    exact ⟨ho, hp, ht⟩
  | take => exact ⟨rfl, ho, rfl, ht⟩
  | leave => exact ⟨rfl, ho, hp, ht⟩
  | poll other =>
    have hv : (q.poll other).1 = false := by
      rw [← Bool.not_eq_true, poll_eq_true_iff, hp, ho]
      simp
    have hw : (Request.perform q (.poll other)).1.waiter? = some other := by
      show Turn.waiter? ⟨.poll other, .polled (q.poll other).1, none⟩ = some other
      rw [hv]
      rfl
    refine ⟨rfl, ?_⟩
    rw [hw]
    exact waits_poll hv

/-- Through requests that are not due to wake anyone nobody is woken, and the last task that looked
in vain waits at the end. -/
theorem Waits.after (h : Waits q task) {requests : List Request} (hr : Unalerted q requests) :
    (q.history requests).filterMap Turn.woken = [] ∧
      Waits (q.after requests)
        (((q.history requests).filterMap Turn.waiter?).getLastD task) := by
  induction requests generalizing q task with
  | nil => exact ⟨rfl, h⟩
  | cons request rest ih =>
    obtain ⟨hw, hn⟩ := h.perform hr.1
    obtain ⟨hws, hns⟩ := ih hn hr.2
    have hl : ((q.history (request :: rest)).filterMap Turn.waiter?).getLastD task =
        (((request.perform q).2.history rest).filterMap Turn.waiter?).getLastD
          ((request.perform q).1.waiter?.getD task) := by
      rw [history, List.filterMap_cons]
      cases (request.perform q).1.waiter? with
      | none => rfl
      | some waiter => exact List.getLastD_cons
    rw [hl, history, List.filterMap_cons, hw]
    exact ⟨hws, hns⟩

/-- A request that is due to wake a task wakes the one that waits, and then none is registered. -/
theorem Waits.alerted (h : Waits q task) (hr : request.alerts q = true) :
    (request.perform q).1.woken = some task ∧
      (request.perform q).2.waker.isRegistered = false := by
  cases request with
  | close => exact ⟨h.registered, rfl⟩
  | post channel work =>
    have hq : q.post channel work =
        (q.waker.task, { q with pending := q.pending.add channel work, waker := .empty }) := by
      rw [post, if_pos h.isOpen]
      rfl
    show (q.post channel work).1 = some task ∧ (q.post channel work).2.waker.isRegistered = false
    rw [hq]
    exact ⟨h.registered, rfl⟩
  | openUp | enter | take | leave | poll => exact absurd hr Bool.false_ne_true

/-- After every list of requests: a task is registered only if the queue is open and without work;
a look for work succeeds exactly if there is work or the queue is closed; and after a look in vain
the next work that is let in, or the next closing, wakes exactly one task, the last one that looked
in vain, while nobody is woken before. -/
theorem wakes_last_waiter (requests : List Request) :
    let q := new.after requests
    (q.waker.isRegistered = true → q.isOpen = true ∧ q.hasPending = false) ∧
      (∀ task, (q.poll task).1 = true ↔ q.hasPending = true ∨ q.isOpen = false) ∧
      ∀ task between request, (q.poll task).1 = false →
        Unalerted (q.poll task).2 between →
        request.alerts ((q.poll task).2.after between) = true →
          ((q.poll task).2.history (between ++ [request])).filterMap Turn.woken =
              [(((q.poll task).2.history between).filterMap Turn.waiter?).getLastD task] ∧
            ((q.poll task).2.after (between ++ [request])).waker.isRegistered = false := by
  intro q
  have attentive : Attentive q := after_keeps attentive_new attentive_perform requests
  refine ⟨attentive, fun task => poll_eq_true_iff, ?_⟩
  intro task between request hv hb ha
  obtain ⟨unwoken, waits⟩ := (waits_poll hv).after hb
  obtain ⟨woken, gone⟩ := waits.alerted ha
  rw [history_concat, List.filterMap_append, unwoken, after_concat]
  refine ⟨?_, gone⟩
  rw [List.nil_append, List.filterMap_cons, woken, List.filterMap_nil]

/-- A worker takes work, task 5 looks in vain, then task 7 does so twice, and work wakes task 7. -/
theorem wakes_last_waiter_trip :
    let q := new.after [.openUp, .post 0 .completion, .enter, .take, .poll 5]
    let between := [.leave, .poll 7, .openUp, .poll 7]
    q.waker.isRegistered = true ∧ (q.isOpen = true ∧ q.hasPending = false) ∧
      (q.poll 5).1 = false ∧ Unalerted (q.poll 5).2 between ∧
      (Request.post 3 .refillOnly).alerts ((q.poll 5).2.after between) = true ∧
      ((q.poll 5).2.history (between ++ [.post 3 .refillOnly])).filterMap Turn.woken = [7] ∧
      ((q.poll 5).2.after (between ++ [.post 3 .refillOnly])).waker.isRegistered = false := by
  intro q between
  obtain ⟨attentive, -, wakes⟩ :=
    wakes_last_waiter [.openUp, .post 0 .completion, .enter, .take, .poll 5]
  have registered : q.waker.isRegistered = true := by decide
  have vain : (q.poll 5).1 = false := by decide
  have unalerted : Unalerted (q.poll 5).2 between := by decide
  have alerted : (Request.post 3 .refillOnly).alerts ((q.poll 5).2.after between) = true := by
    decide
  exact ⟨registered, attentive registered, vain, unalerted, alerted,
    wakes 5 between (.post 3 .refillOnly) vain unalerted alerted⟩

end WorkQueue

end PacketDma
