import PacketDma.Proofs.Counting
import PacketDma.Proofs.Posting

/-!
# Totals and tallies

The engine counts what happens on all channels together, and the monitor counts for each channel
what happens on it. With each thing that the engine does to its channels, both grow alike. The
counters of transfers grow by what is accepted and by what comes back.

## Implementation notes

In the middle of an interrupt the engine has counted errors that its channels have yet to count. So
the handler is compared as a whole, and what it does for one channel is told apart.
-/

namespace PacketDma

variable {σ β : Type}

/-- A buffer was posted. -/
def Passage.isAccepted : Passage β → Bool
  | .accepted .. => true
  | .delivered .. | .discarded _ => false

namespace Engine

/-- Between two engines the counters of transfers grow by what was accepted and by what came back,
and every other total grows as its tally does. -/
structure Counts (e : Engine β) (seen : Story β) (back : List (Completion β)) (e' : Engine β) :
    Prop where
  enqueued : Counter.Grows e.stats.enqueued (seen.countP (·.2.isAccepted)) e'.stats.enqueued
  completed : Counter.Grows e.stats.completed back.length e'.stats.completed
  completionErrors : Counter.Grows e.stats.completionErrors (back.countP (·.isError))
    e'.stats.completionErrors
  agree : ∀ x : Counted, ∃ n, Counter.Grows (x.total e.stats) n (x.total e'.stats) ∧
    Counter.Grows (e.monitor.tally x.own) n (e'.monitor.tally x.own)

variable {e e' e'' : Engine β} {seen seen' : Story β} {back back' : List (Completion β)} {id : Nat}

namespace Counts

/-- Nothing that is counted happens. -/
theorem still (hstats : e'.stats = e.stats) (hmonitor : e'.monitor = e.monitor) :
    Counts e [] [] e' := by
  constructor
  · exact hstats ▸ .refl _
  · exact hstats ▸ .refl _
  · exact hstats ▸ .refl _
  · intro x
    rw [hstats, hmonitor]
    exact ⟨0, .refl _, .refl _⟩

theorem refl (e : Engine β) : Counts e [] [] e := still rfl rfl

theorem trans (h : Counts e seen back e') (h' : Counts e' seen' back' e'') :
    Counts e (seen ++ seen') (back ++ back') e'' := by
  constructor
  · rw [List.countP_append]
    exact h.enqueued.trans h'.enqueued
  · rw [List.length_append]
    exact h.completed.trans h'.completed
  · rw [List.countP_append]
    exact h.completionErrors.trans h'.completionErrors
  · intro x
    obtain ⟨n, htotal, htally⟩ := h.agree x
    obtain ⟨k, htotal', htally'⟩ := h'.agree x
    exact ⟨n + k, htotal.trans htotal', htally.trans htally'⟩

/-- Transfers are counted first. -/
theorem andThen (h : Counts e seen back e') (h' : Counts e' [] [] e'') :
    Counts e seen back e'' := by
  have hall := h.trans h'
  rwa [List.append_nil, List.append_nil] at hall

theorem aside (h : Counts e seen back e') (hstats : e''.stats = e'.stats)
    (hmonitor : e''.monitor = e'.monitor) : Counts e seen back e'' :=
  h.andThen (still hstats hmonitor)

/-- What every turn of a loop keeps, the loop keeps. -/
theorem foldl {α : Type} (engine : α → Engine β) {turn : α → Nat → α}
    (h : ∀ a id, Counts (engine a) [] [] (engine (turn a id))) (ids : List Nat) (a : α) :
    Counts (engine a) [] [] (engine (ids.foldl turn a)) := by
  induction ids generalizing a with
  | nil => exact .refl _
  | cons id rest ih => exact (h a id).trans (ih (turn a id))

end Counts

/-! ### Posting and taking back -/

/-- An attempt and its success are counted on both sides. -/
theorem Attempted.counts {outcome : RecoveryOutcome} (h : Attempted e id outcome e') :
    Counts e [] [] e' := by
  cases h with
  | skipped _ hmonitor hstats => exact .still hstats hmonitor
  | unclaimed _ hr hs hmonitor hstats =>
    refine ⟨hstats ▸ .refl _, hstats ▸ .refl _, hstats ▸ .refl _, fun x =>
      ⟨0, hstats ▸ .refl _, ?_⟩⟩
    rw [hmonitor]
    refine Monitor.grows_tally_set hr ?_
    rw [hs]
    exact .refl _
  | @claimed r s success _ hr _ _ hrecord hmonitor hstats _ =>
    refine ⟨.of_eq (congrArg (·.enqueued) hstats), .of_eq (congrArg (·.completed) hstats),
      .of_eq (congrArg (·.completionErrors) hstats), fun x => ?_⟩
    rw [hstats, hmonitor]
    cases x with
    | attempt =>
      refine ⟨1, Counter.grows_add _ 1, Monitor.grows_tally_set hr ?_⟩
      rw [hrecord]
      exact Counter.grows_add _ 1
    | success =>
      refine ⟨if success then 1 else 0, ?_, Monitor.grows_tally_set hr ?_⟩
      · cases success with
        | true => exact Counter.grows_add _ 1
        | false => exact .refl _
      · rw [hrecord]
        cases success with
        | true => exact Counter.grows_add _ 1
        | false => exact .refl _
    | _ =>
      refine ⟨0, .refl _, Monitor.grows_tally_set hr ?_⟩
      rw [hrecord]
      exact .refl _

/-- The monitor counts error interrupts, and nothing else is counted. -/
structure Noted (errors : Nat) (e e' : Engine β) : Prop where
  stats_eq : e'.stats = e.stats
  length_eq : e'.monitor.records.length = e.monitor.records.length
  errors_grow : Counter.Grows (e.monitor.tally (·.errorInterrupts)) errors
    (e'.monitor.tally (·.errorInterrupts))
  others_grow : ∀ x : Counted, x ≠ .error →
    Counter.Grows (e.monitor.tally x.own) 0 (e'.monitor.tally x.own)

namespace Noted

variable {n k : Nat}

theorem refl (e : Engine β) : Noted 0 e e := ⟨rfl, rfl, .refl _, fun _ _ => .refl _⟩

theorem trans (h : Noted n e e') (h' : Noted k e' e'') : Noted (n + k) e e'' where
  stats_eq := h'.stats_eq.trans h.stats_eq
  length_eq := h'.length_eq.trans h.length_eq
  errors_grow := h.errors_grow.trans h'.errors_grow
  others_grow x hx := (h.others_grow x hx).trans (h'.others_grow x hx)

theorem aside (h : Noted n e e') (hstats : e''.stats = e'.stats)
    (hmonitor : e''.monitor = e'.monitor) : Noted n e e'' :=
  ⟨hstats.trans h.stats_eq, hmonitor ▸ h.length_eq, hmonitor ▸ h.errors_grow,
    hmonitor ▸ h.others_grow⟩

/-- The record of a channel is updated. -/
theorem update {f : ChannelRecord → ChannelRecord} (hid : n = 0 ∨ id < e.monitor.records.length)
    (herrors : ∀ r, Counter.Grows r.stats.errorInterrupts n (f r).stats.errorInterrupts)
    (hothers : ∀ (x : Counted) r, x ≠ .error → x.own (f r).stats = x.own r.stats) :
    Noted n e { e with monitor := e.monitor.update id f } where
  stats_eq := rfl
  length_eq := List.length_modify _ _ _
  errors_grow := Monitor.grows_tally_update hid herrors
  others_grow x hx := Monitor.grows_tally_update (.inl rfl) fun r => .of_eq (hothers x r hx)

/-- The engine has counted as many errors before. -/
theorem counts (h : Noted n e' e'') (hmonitor : e'.monitor = e.monitor)
    (hstats : ∃ interrupts completions, e'.stats = { e.stats with
      interrupts := interrupts
      completionEvents := completions
      errorEvents := Counter.add e.stats.errorEvents n }) : Counts e [] [] e'' := by
  obtain ⟨_, _, hstats⟩ := hstats
  have hall := h.stats_eq.trans hstats
  refine ⟨.of_eq (congrArg (·.enqueued) hall), .of_eq (congrArg (·.completed) hall),
    .of_eq (congrArg (·.completionErrors) hall), fun x => ?_⟩
  rw [hall, ← hmonitor]
  rcases eq_or_ne x .error with rfl | hx
  · exact ⟨n, Counter.grows_add _ n, h.errors_grow⟩
  · refine ⟨0, ?_, h.others_grow x hx⟩
    cases x with
    | error => exact absurd rfl hx
    | _ => exact .refl _

end Noted

theorem noted_handleError (e : Engine β) (id now : Nat) : Noted 0 e (e.handleError id now) := by
  unfold handleError
  split
  · exact .refl e
  next c _ =>
    have hrecorded : Noted 0 e
        { e with monitor := (e.monitor.recordFault id (c.errorStatus e.machine).1 now).2 } := by
      rw [Monitor.recordFault, Monitor.act_snd]
      refine Noted.update (.inl rfl) (fun r => .of_eq ?_) fun x r _ => ?_
      · exact ChannelRecord.own_recordFault .error r _ now
      · exact ChannelRecord.own_recordFault x r _ now
    dsimp only
    split
    · exact hrecorded.aside (stats_haltChannel _ id) (monitor_haltChannel _ id)
    · exact hrecorded.aside rfl rfl

theorem noted_handleChannel (status : InterruptStatus) (now : Nat) {id : Nat}
    (hid : status.error.contains id = true → id < e.monitor.records.length) :
    Noted (if status.error.contains id then 1 else 0) e (handleChannel status now e id) := by
  have hseen : Noted (if status.error.contains id then 1 else 0) e
      { e with monitor := e.monitor.onInterrupt id (status.error.contains id) now } := by
    refine Noted.update ?_ (fun r => ?_) fun x r hx => ?_
    · cases h : status.error.contains id with
      | true => exact .inr (hid h)
      | false => exact .inl rfl
    · cases status.error.contains id with
      | true => exact Counter.grows_add _ 1
      | false => exact .refl _
    · cases x with
      | error => exact absurd rfl hx
      | _ => cases status.error.contains id <;> rfl
  have hposted {e₁ : Engine β} : Noted 0 e₁
      (if status.complete.contains id then e₁.post id .completion else e₁) := by
    split
    · exact (Noted.refl e₁).aside rfl rfl
    · exact .refl e₁
  have hdone := hseen.trans hposted
  rw [Nat.add_zero] at hdone
  unfold handleChannel
  cases h : status.error.contains id with
  | true =>
    rw [h] at hdone
    exact hdone.trans (noted_handleError _ id now)
  | false =>
    rw [h] at hdone
    exact hdone

theorem noted_foldl_handleChannel (status : InterruptStatus) (now : Nat) {ids : List Nat}
    (hids : ∀ id ∈ ids, status.error.contains id = true → id < e.monitor.records.length) :
    Noted (ids.countP status.error.contains) e (ids.foldl (handleChannel status now) e) := by
  induction ids generalizing e with
  | nil => exact .refl e
  | cons id rest ih =>
    obtain ⟨hid, hrest⟩ := List.forall_mem_cons.mp hids
    have hfirst := noted_handleChannel status now hid
    rw [List.countP_cons, Nat.add_comm]
    exact hfirst.trans (ih (hfirst.length_eq.symm ▸ hrest))

end Engine

end PacketDma
