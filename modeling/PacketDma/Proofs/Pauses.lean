import PacketDma.Proofs.RefillRequests

/-!
# Pauses

A channel pauses from a worker's pass that finds it not running up to the operation that sets it
running again. Main statement: `refill_after_pause`. A channel that comes back is posted for receive
buffers exactly if it was recovered, or if one of its completion interrupts was handled since a
worker last took work. The request that the worker took is gone, and nothing that the owner does
brings it back: `refill_lost_on_resume` is the shortest such pause.
-/

namespace PacketDma.Engine

variable {σ β : Type}

/-- The second engine is the first one after moments in which the channel did not run and the queue
stayed open. The flag tells whether a completion interrupt of the channel has been handled since a
worker last took work. -/
inductive Pause (σ : Type) (i : Nat) (e : Engine β) : Bool → Engine β → Prop where
  | begun (hrest : ¬ e.Runs i) : Pause σ i e false e
  | operate {asked : Bool} {e₁ e₂ : Engine β} {op : Operation σ β} {seen : Story β}
      (h : Pause σ i e asked e₁) (hop : op.perform e₁ = some (seen, e₂))
      (hopen : e₂.work.isOpen = true) (hrest : ¬ e₂.Runs i) :
      Pause σ i e (op.asked i e₁ asked) e₂
  | disturb {asked : Bool} {e₁ : Engine β} {d : Disturbance β} (h : Pause σ i e asked e₁)
      (hd : ∀ queue, d ≠ .work queue) : Pause σ i e asked (d.apply e₁)

/-- What is known of a channel in a pause. -/
structure Paused (i : Nat) (asked : Bool) (e : Engine β) : Prop where
  steady : e.Steady
  isOpen : e.work.isOpen = true
  entry : ∃ p, e.entryAt i = some p
  rests : ¬ e.Runs i
  awaits : e.AwaitsRefill i ↔ asked = true

variable {e e' : Engine β} {op : Operation σ β} {seen : Story β} {i : Nat} {asked : Bool}

/-- Going down closes the queue. -/
theorem ne_deinit_of_isOpen (hup : e.initialized = true) (hop : op.perform e = some (seen, e'))
    (hopen : e'.work.isOpen = true) : op ≠ .deinit := by
  rintro rfl
  obtain ⟨e₁, hdeinit, h⟩ := Option.map_eq_some_iff.mp hop
  obtain ⟨-, rfl⟩ := Prod.mk.inj h
  obtain ⟨-, ⟨hdown, -⟩ | ⟨-, hdown⟩⟩ := run_deinit (fun _ => True) (fun _ => trivial) hdeinit
  · cases hup.symm.trans hdown
  · rw [hdown.work_eq] at hopen
    cases hopen

/-- Going down leaves no channel running. -/
theorem ne_deinit_of_runs (hup : e.initialized = true) (hop : op.perform e = some (seen, e'))
    (hruns : e'.Runs i) : op ≠ .deinit := by
  rintro rfl
  obtain ⟨e₁, hdeinit, h⟩ := Option.map_eq_some_iff.mp hop
  obtain ⟨-, rfl⟩ := Prod.mk.inj h
  obtain ⟨-, ⟨hdown, -⟩ | ⟨-, hdown⟩⟩ := run_deinit (fun _ => True) (fun _ => trivial) hdeinit
  · cases hup.symm.trans hdown
  · rw [Runs, Monitor.state?, Monitor.record?, hdown.records_eq] at hruns
    cases hruns

namespace Paused

/-- An operation in a pause, or the one that ends it. -/
theorem operate (h : Paused i asked e) (hop : op.perform e = some (seen, e'))
    (hdeinit : op ≠ .deinit) :
    e'.work.isOpen = true ∧
      (e'.AwaitsRefill i ↔ op.Recovers ∧ e'.Runs i ∨ op.asked i e asked = true) := by
  obtain ⟨p, hp⟩ := h.entry
  exact awaits_of_perform h.steady h.isOpen hp h.rests hop hdeinit h.awaits

/-- The world does not post work. -/
theorem disturb (h : Paused i asked e) {d : Disturbance β} (hd : ∀ queue, d ≠ .work queue) :
    Paused i asked (d.apply e) := by
  have hsame : (d.apply e).work = e.work ∧ (d.apply e).monitor = e.monitor := by
    cases d with
    | descriptors id f =>
      simp only [Disturbance.apply]
      split <;> exact ⟨rfl, rfl⟩
    | work queue => exact absurd rfl (hd queue)
    | _ => exact ⟨rfl, rfl⟩
  obtain ⟨hwork, hmonitor⟩ := hsame
  have hpass : (Moment.disturb d : Moment Unit β).pass e = some ([], d.apply e) := rfl
  have hsteady := h.steady.pass hpass
  refine ⟨hsteady, hwork ▸ h.isOpen, ?_, ?_, ?_⟩
  · obtain ⟨p, hp⟩ := h.entry
    have hr := (entryAt_eq_some.mp hp).2
    rw [← hmonitor] at hr
    have hlt := (List.getElem?_eq_some_iff.mp hr).1
    rw [hsteady.coherent.records_length] at hlt
    exact ⟨_, entryAt_of_record (List.getElem?_eq_getElem hlt) hr⟩
  · rw [runs_congr hmonitor]
    exact h.rests
  · rw [awaitsRefill_congr hwork]
    exact h.awaits

end Paused

theorem Pause.rests (h : Pause σ i e asked e') : ¬ e.Runs i := by
  induction h with
  | begun hrest => exact hrest
  | operate _ _ _ _ ih => exact ih
  | disturb _ _ ih => exact ih

/-- What is known at the beginning of a pause is known in all of it. -/
theorem Pause.paused (h : Pause σ i e asked e') (he : Paused i false e) : Paused i asked e' := by
  induction h with
  | begun => exact he
  | @operate _ e₁ e₂ op seen _ hop hopen hrest ih =>
    obtain ⟨p, hp⟩ := ih.entry
    have hdeinit := ne_deinit_of_isOpen (ih.steady.up hp) hop hopen
    obtain ⟨-, hawaits⟩ := ih.operate hop hdeinit
    obtain ⟨q, hq, -⟩ := turns_of_perform ih.steady hop hdeinit hp
    have hpass : (Moment.operate op).pass e₁ = some (seen, e₂) := hop
    refine ⟨ih.steady.pass hpass, hopen, ⟨q, hq⟩, hrest, hawaits.trans ?_⟩
    exact ⟨fun h => h.elim (fun h => absurd h.2 hrest) id, .inr⟩
  | disturb _ hd ih => exact ih.disturb hd

/-- A worker finds a channel not running. If its pass recovers the channel, the channel is posted
for receive buffers right then. Otherwise there is a pause, and with the operation that sets the
channel running again it is posted exactly if that operation recovered it, or if one of its
completion interrupts was handled since a worker last took work. -/
theorem refill_after_pause {config : Config} {m : Machine β} {moments : List (Moment σ β)}
    {told : Story β} (h : live moments (new config m) = some (told, e))
    (hopen : e.work.isOpen = true) (hi : i < e.channels.length) (hrest : ¬ e.Runs i)
    {noise : Noise} {sink : Sink σ β} {s : σ} {e₁ : Engine β}
    (htaken : (Operation.runDeferred noise sink s).perform e = some (seen, e₁)) :
    (e₁.Runs i → e₁.AwaitsRefill i) ∧
      ∀ asked e₂ (op : Operation σ β) shown e₃, Pause σ i e₁ asked e₂ →
        op.perform e₂ = some (shown, e₃) → e₃.Runs i →
          (e₃.AwaitsRefill i ↔ op.Recovers ∨ asked = true) := by
  have hsteady := steady_of_live h
  obtain ⟨r, hr, -⟩ := hsteady.coherent.record (List.getElem?_eq_getElem hi)
  have hp := entryAt_of_record (List.getElem?_eq_getElem hi) hr
  have hbefore : e.AwaitsRefill i ↔ decide (e.AwaitsRefill i) = true := decide_eq_true_iff.symm
  obtain ⟨hopen₁, hawaits₁⟩ :=
    awaits_of_perform hsteady hopen hp hrest htaken nofun hbefore
  refine ⟨fun hruns => hawaits₁.mpr (.inl ⟨trivial, hruns⟩), ?_⟩
  intro asked e₂ op shown e₃ hpause hop hruns
  have hrest₁ := hpause.rests
  obtain ⟨q, hq, -⟩ := turns_of_perform hsteady htaken nofun hp
  have hpass : (Moment.operate (.runDeferred noise sink s)).pass e = some (seen, e₁) := htaken
  have hpaused : Paused i false e₁ := by
    refine ⟨hsteady.pass hpass, hopen₁, ⟨q, hq⟩, hrest₁, ?_⟩
    exact hawaits₁.trans ⟨fun h => h.elim (fun h => absurd h.2 hrest₁) id, .inr⟩
  have h₂ := hpause.paused hpaused
  obtain ⟨p₂, hp₂⟩ := h₂.entry
  have hdeinit := ne_deinit_of_runs (h₂.steady.up hp₂) hop hruns
  obtain ⟨-, hawaits⟩ := h₂.operate hop hdeinit
  rw [hawaits]
  cases op with
  | onInterrupt =>
    -- Interrupts set no channel running.
    obtain ⟨q₂, hq₂, hturns⟩ := turns_of_perform h₂.steady hop hdeinit hp₂
    have hrest₂ := h₂.rests
    rw [runs_iff_of_record (entryAt_eq_some.mp hp₂).2] at hrest₂
    rw [runs_iff_of_record (entryAt_eq_some.mp hq₂).2] at hruns
    rcases hturns.moves with hsame | ⟨hrun, -⟩
    · exact absurd (hsame.symm.trans hruns) hrest₂
    · exact absurd hrun hrest₂
  | _ => simp only [Operation.Recovers, Operation.asked, hruns, and_true, true_or, false_or]

/-- A channel reports finished transfers and is suspended before a worker comes. -/
def pauseTrip : List (Moment Unit Nat) :=
  [.operate (.init 0 1), .operate .start, .disturb (.registers (·.raiseInterrupts 1)),
    .operate .onInterrupt, .operate (.suspendChannel 0)]

/-- A worker whose sink has no receive buffers. -/
def bareWorker : Operation Unit Nat := .runDeferred .none (.bare fun s _ _ _ => s) ()

/-- The engine after that worker. -/
def afterWorker (e : Engine Nat) : Engine Nat :=
  (runDeferred .none (Sink.bare fun s _ _ _ => s).recorded ((), []) e).2.2

/-- An interrupt that is handled in the pause asks for receive buffers again. -/
theorem refill_after_pause_trip : ∃ told e e₁ seen e₃,
    live pauseTrip (new .bench .bench) = some (told, e) ∧ e.AwaitsRefill 0 ∧ ¬ e.Runs 0 ∧
      bareWorker.perform e = some (seen, e₁) ∧ ¬ e₁.AwaitsRefill 0 ∧
      Pause Unit 0 e₁ true e₃ ∧ (e₃.resumeChannel 0).2.Runs 0 ∧
      (e₃.resumeChannel 0).2.AwaitsRefill 0 := by
  let raised (e : Engine Nat) : Engine Nat :=
    (Disturbance.registers (·.raiseInterrupts 1)).apply (afterWorker e)
  have hfacts : (live pauseTrip (new .bench .bench)).map (fun r =>
      (r.2.work.isOpen, r.2.channels.length, decide (r.2.AwaitsRefill 0),
        decide (r.2.Runs 0))) = some (true, 1, true, false) := by decide +kernel
  have hafter : (live pauseTrip (new .bench .bench)).map (fun r =>
      (decide ((afterWorker r.2).AwaitsRefill 0), decide ((afterWorker r.2).Runs 0))) =
        some (false, false) := by decide +kernel
  have hlater : (live pauseTrip (new .bench .bench)).map (fun r =>
      ((raised r.2).onInterrupt.1.complete.contains 0, (raised r.2).onInterrupt.2.work.isOpen,
        decide ((raised r.2).onInterrupt.2.Runs 0),
        decide (((raised r.2).onInterrupt.2.resumeChannel 0).2.Runs 0))) =
        some (true, true, false, true) := by decide +kernel
  obtain ⟨⟨told, e⟩, h, hfacts⟩ := Option.map_eq_some_iff.mp hfacts
  rw [h] at hafter hlater
  simp only [Option.map_some, Option.some.injEq, Prod.mk.injEq, decide_eq_true_eq,
    decide_eq_false_iff_not] at hfacts hafter hlater
  obtain ⟨hopen, hlength, hawaits, hrest⟩ := hfacts
  obtain ⟨hgone, hrest₁⟩ := hafter
  obtain ⟨hcomplete, hopen₃, hrest₃, hruns⟩ := hlater
  have htaken : bareWorker.perform e = some (_, afterWorker e) := rfl
  have hpause : Pause Unit 0 (afterWorker e)
      ((Operation.onInterrupt : Operation Unit Nat).asked 0 (raised e) false)
      (raised e).onInterrupt.2 :=
    .operate (.disturb (.begun hrest₁) nofun) rfl hopen₃ hrest₃
  have hasked : (Operation.onInterrupt : Operation Unit Nat).asked 0 (raised e) false = true :=
    hcomplete
  rw [hasked] at hpause
  have hresumed : (Operation.resumeChannel 0 : Operation Unit Nat).perform
      (raised e).onInterrupt.2 = some ([], ((raised e).onInterrupt.2.resumeChannel 0).2) := rfl
  obtain ⟨-, hcomes⟩ := refill_after_pause h hopen (hlength ▸ Nat.one_pos) hrest htaken
  exact ⟨told, e, afterWorker e, _, _, h, hawaits, hrest, htaken, hgone, hpause, hruns,
    (hcomes true _ _ _ _ hpause hresumed hruns).mpr (.inr rfl)⟩

/-- A worker takes the request of a suspended channel. When the channel is resumed nobody asks for
receive buffers. -/
theorem refill_lost_on_resume : ∃ told e seen e₁ shown e₂,
    live pauseTrip (new .bench .bench) = some (told, e) ∧ e.work.isOpen = true ∧
      e.AwaitsRefill 0 ∧ ¬ e.Runs 0 ∧
      bareWorker.perform e = some (seen, e₁) ∧ e₁.work.isOpen = true ∧ ¬ e₁.Runs 0 ∧
      (Operation.resumeChannel 0 : Operation Unit Nat).perform e₁ = some (shown, e₂) ∧
      e₂.work.isOpen = true ∧ e₂.Runs 0 ∧ ¬ e₂.AwaitsRefill 0 := by
  have hfacts : (live pauseTrip (new .bench .bench)).map (fun r =>
      (r.2.work.isOpen, decide (r.2.AwaitsRefill 0), decide (r.2.Runs 0))) =
        some (true, true, false) := by decide +kernel
  have hafter : (live pauseTrip (new .bench .bench)).map (fun r =>
      ((afterWorker r.2).work.isOpen, decide ((afterWorker r.2).Runs 0),
        ((afterWorker r.2).resumeChannel 0).2.work.isOpen,
        decide (((afterWorker r.2).resumeChannel 0).2.Runs 0),
        decide (((afterWorker r.2).resumeChannel 0).2.AwaitsRefill 0))) =
        some (true, false, true, true, false) := by decide +kernel
  obtain ⟨⟨told, e⟩, h, hfacts⟩ := Option.map_eq_some_iff.mp hfacts
  rw [h] at hafter
  simp only [Option.map_some, Option.some.injEq, Prod.mk.injEq, decide_eq_true_eq,
    decide_eq_false_iff_not] at hfacts hafter
  obtain ⟨hopen, hawaits, hrest⟩ := hfacts
  obtain ⟨hopen₁, hrest₁, hopen₂, hruns, hgone⟩ := hafter
  exact ⟨told, e, _, afterWorker e, [], _, h, hopen, hawaits, hrest, rfl, hopen₁, hrest₁, rfl,
    hopen₂, hruns, hgone⟩

end PacketDma.Engine
