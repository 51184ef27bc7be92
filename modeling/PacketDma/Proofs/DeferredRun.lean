import PacketDma.Engine.Deferred
import PacketDma.Proofs.ServiceRun

/-!
# Deferred work as runs

While a worker drains rings, the device goes on writing to descriptors. A worker among such writes
still makes a run of the plant, and it shows what the sink was given and what the sink's buffers
became.

## Implementation notes

A recorded sink keeps the passages that its calls tell of. A worker does the same with any sink that
keeps more than another one and gives the same answers.
-/

namespace PacketDma

variable {σ τ β : Type}

/-- Keeps the passages of buffers besides the state of a sink. -/
def Sink.recorded (sink : Sink σ β) : Sink (σ × Story β) β where
  complete s id direction t :=
    (sink.complete s.1 id direction t, s.2 ++ [(id, .delivered direction t.buffer)])
  rxBuffer s id :=
    match sink.rxBuffer s.1 id with
    | (none, t) => (none, t, s.2)
    | (some (buffer, length), t) =>
      (some (buffer, length), t, s.2 ++ [(id, .accepted .fromDevice buffer)])
  giveBack s id buffer := (sink.giveBack s.1 id buffer, s.2.dropLast)

/-- A sink that keeps more does as another one does, seen from outside. -/
structure Sink.Refines (fine : Sink τ β) (f : τ → σ) (coarse : Sink σ β) : Prop where
  complete : ∀ s id direction t,
    f (fine.complete s id direction t) = coarse.complete (f s) id direction t
  rxBuffer : ∀ s id, ((fine.rxBuffer s id).1, f (fine.rxBuffer s id).2) = coarse.rxBuffer (f s) id
  giveBack : ∀ s id buffer, f (fine.giveBack s id buffer) = coarse.giveBack (f s) id buffer

/-- Recording has no influence, since a worker acts on nothing but the answers of its sink. -/
theorem Sink.refines_recorded (sink : Sink σ β) : sink.recorded.Refines Prod.fst sink where
  complete _ _ _ _ := rfl
  giveBack _ _ _ := rfl
  rxBuffer s id := by
    simp only [recorded]
    cases sink.rxBuffer s.1 id with
    | mk offer t => cases offer <;> rfl

namespace Engine

/-! ### Keeping more has no influence -/

/-- A drained channel, with the sink as it is seen from outside. -/
def Drained.view (f : τ → σ) (d : Drained τ β) : Drained σ β := { d with sink := f d.sink }

/-- A refilled channel, with the sink as it is seen from outside. -/
def Refilled.view (f : τ → σ) (d : Refilled τ β) : Refilled σ β := { d with sink := f d.sink }

/-- The answer of some work, with the sink as it is seen from outside. -/
def view {α : Type} (f : τ → σ) (r : α × τ × Engine β) : α × σ × Engine β := (r.1, f r.2.1, r.2.2)

section Refines

variable {fine : Sink τ β} {f : τ → σ} {coarse : Sink σ β} (h : fine.Refines f coarse)
include h

theorem drainRing_view (noise : Noise) (id : Nat) (direction : Direction) (d : Drained τ β) :
    drainRing noise coarse id direction (d.view f) =
      (drainRing noise fine id direction d).view f := by
  fun_induction drainRing noise fine id direction d with
  | case1 d c m hr =>
    rw [drainRing]
    split
    next c' m' hr' =>
      obtain ⟨rfl, rfl⟩ := Prod.mk.inj (Prod.mk.inj (hr.symm.trans hr')).2
      rfl
    next hr' => exact absurd (hr.symm.trans hr') (by simp)
  | case2 d t c m hr ih =>
    rw [drainRing]
    split
    next hr' => exact absurd (hr.symm.trans hr') (by simp)
    next t' c' m' hr' =>
      obtain ⟨ht, hcm⟩ := Prod.mk.inj (hr.symm.trans hr')
      obtain rfl := Option.some.inj ht
      obtain ⟨rfl, rfl⟩ := Prod.mk.inj hcm
      have hsink : (d.view f).sink = f d.sink := rfl
      rw [hsink, ← h.complete]
      exact ih

theorem drainChannel_view (noise : Noise) (id : Nat) (s : τ) (e : Engine β) :
    drainChannel noise coarse id (f s) e = view f (drainChannel noise fine id s e) := by
  unfold drainChannel
  split
  next => rfl
  next c _ =>
    have hstart : (⟨0, 0, f s, c, e.machine⟩ : Drained σ β) =
      Drained.view f ⟨0, 0, s, c, e.machine⟩ := rfl
    simp only [drainRings, Direction.all, List.foldl_cons, List.foldl_nil, hstart,
      drainRing_view h]
    rfl

theorem refillRing_view (id rounds : Nat) (d : Refilled τ β) :
    refillRing coarse id rounds (d.view f) = (refillRing fine id rounds d).view f := by
  induction rounds generalizing d with
  | zero => rfl
  | succ rounds ih =>
    have hstart : (d.view f).channel = d.channel := rfl
    have hmachine : (d.view f).machine = d.machine := rfl
    have hsink : (d.view f).sink = f d.sink := rfl
    unfold refillRing
    rw [hstart, hmachine, hsink, ← h.rxBuffer]
    by_cases hfull : d.channel.rx.freeSlots = 0
    · rw [if_pos hfull, if_pos hfull]
    rw [if_neg hfull, if_neg hfull]
    cases hoffer : fine.rxBuffer d.sink id with
    | mk offer s =>
      cases offer with
      | none => rfl
      | some packet =>
        obtain ⟨buffer, length⟩ := packet
        dsimp only
        cases hpost : d.channel.enqueue .fromDevice buffer length d.machine with
        | mk result rest =>
          obtain ⟨c, m⟩ := rest
          cases result with
          | error r =>
            dsimp only
            rw [← h.giveBack]
            rfl
          | ok => exact ih ⟨d.posted + 1, s, c, m⟩

theorem refillChannel_view (id : Nat) (s : τ) (e : Engine β) :
    refillChannel coarse id (f s) e = view f (refillChannel fine id s e) := by
  unfold refillChannel
  split
  next => rfl
  next c _ =>
    split
    next =>
      have hstart : (⟨0, f s, c, e.machine⟩ : Refilled σ β) =
        Refilled.view f ⟨0, s, c, e.machine⟩ := rfl
      rw [hstart, refillRing_view h]
      rfl
    next => rfl

end Refines

theorem sumOver_view {f : τ → σ} {coarse : Nat → σ → Engine β → Nat × σ × Engine β}
    {fine : Nat → τ → Engine β → Nat × τ × Engine β}
    (h : ∀ id s e, coarse id (f s) e = view f (fine id s e)) (ids : List Nat) (s : τ)
    (e : Engine β) : sumOver coarse ids (f s) e = view f (sumOver fine ids s e) := by
  induction ids generalizing s e with
  | nil => rfl
  | cons id rest ih =>
    simp only [sumOver, h id s e]
    have := ih (fine id s e).2.1 (fine id s e).2.2
    simp only [view] at this ⊢
    rw [this]

/-- A worker does the same whatever its sink keeps besides. -/
theorem runDeferred_view {fine : Sink τ β} {f : τ → σ} {coarse : Sink σ β}
    (h : fine.Refines f coarse) (noise : Noise) (s : τ) (e : Engine β) :
    runDeferred noise coarse (f s) e = view f (runDeferred noise fine s e) := by
  unfold runDeferred serve
  split
  next => rfl
  next queue _ =>
    simp only [sumOver_view (drainChannel_view h noise), sumOver_view (refillChannel_view h),
      view]

/-! ### The stages of a pass -/

/-- The work that a worker takes, and the engine then. A worker that is not let in takes none. -/
def granted (e : Engine β) : PendingWork × Engine β :=
  match e.work.enter with
  | (false, _) => (.none, e)
  | (true, queue) => (queue.take.1, { e with work := queue.take.2 })

/-- What a worker has come to when all finished transfers have been handed over. -/
def drainStage (noise : Noise) (sink : Sink σ β) (s : σ) (e : Engine β) : Nat × σ × Engine β :=
  sumOver (drainChannel noise sink) e.granted.1.reclaim.toList s e.granted.2

/-- What a worker has come to when receive buffers have been posted. -/
def refillStage (noise : Noise) (sink : Sink σ β) (s : σ) (e : Engine β) : Nat × σ × Engine β :=
  sumOver (refillChannel sink) e.granted.1.refill.toList (drainStage noise sink s e).2.1
    (drainStage noise sink s e).2.2

theorem channels_granted (e : Engine β) : e.granted.2.channels = e.channels := by
  unfold granted
  split <;> rfl

theorem monitor_granted (e : Engine β) : e.granted.2.monitor = e.monitor := by
  unfold granted
  split <;> rfl

/-- A worker goes through both stages and then recovers channels, which does not involve the
sink. -/
theorem runDeferred_eq_stages (noise : Noise) (sink : Sink σ β) (s : σ) (e : Engine β) :
    ∃ tally queue,
      runDeferred noise sink s e =
        (⟨(drainStage noise sink s e).1, (refillStage noise sink s e).1, tally⟩,
          (refillStage noise sink s e).2.1,
          { (autoRecoverAll e.granted.1.recover.toList .none
              (refillStage noise sink s e).2.2).2 with work := queue }) := by
  unfold runDeferred refillStage drainStage granted
  generalize e.work.enter = entry
  obtain ⟨entered, queue⟩ := entry
  cases entered with
  | false =>
    simp only [PendingWork.none, ChannelMask.toList_empty, sumOver]
    exact ⟨_, e.work, rfl⟩
  | true => exact ⟨_, _, rfl⟩

theorem stages_view {fine : Sink τ β} {f : τ → σ} {coarse : Sink σ β} (h : fine.Refines f coarse)
    (noise : Noise) (s : τ) (e : Engine β) :
    drainStage noise coarse (f s) e = view f (drainStage noise fine s e) ∧
      refillStage noise coarse (f s) e = view f (refillStage noise fine s e) := by
  have hdrain : drainStage noise coarse (f s) e = view f (drainStage noise fine s e) :=
    sumOver_view (drainChannel_view h noise) _ _ _
  refine ⟨hdrain, ?_⟩
  rw [refillStage, hdrain]
  exact sumOver_view (refillChannel_view h) _ _ _

/-! ### Recorded work is a run -/

/-- A channel makes a run, and the record of passages grows by those of the run. -/
def RunsRecorded (config : Config) (id : Nat) (c : Channel β) (m : Machine β) (kept : Story β)
    (c' : Channel β) (m' : Machine β) (kept' : Story β) : Prop :=
  ∃ log, Channel.Run config c m log c' m' ∧ kept' = kept ++ log.map (id, ·) ∧
    ∀ p ∈ log, p.isSeen = true

namespace RunsRecorded

variable {config : Config} {id : Nat} {c c' c'' : Channel β} {m m' m'' : Machine β}
  {kept kept' kept'' : Story β}

theorem refl (config : Config) (id : Nat) (c : Channel β) (m : Machine β) (kept : Story β) :
    RunsRecorded config id c m kept c m kept :=
  ⟨[], .refl, by rw [List.map_nil, List.append_nil], by simp⟩

theorem trans (h : RunsRecorded config id c m kept c' m' kept')
    (h' : RunsRecorded config id c' m' kept' c'' m'' kept'') :
    RunsRecorded config id c m kept c'' m'' kept'' := by
  obtain ⟨log, hrun, rfl, hseen⟩ := h
  obtain ⟨log', hrun', rfl, hseen'⟩ := h'
  refine ⟨log ++ log', hrun.trans hrun', ?_, ?_⟩
  · rw [List.map_append, List.append_assoc]
  · intro p hp
    rcases List.mem_append.mp hp with hp | hp
    · exact hseen p hp
    · exact hseen' p hp

/-- A run without passages leaves the record as it is. -/
theorem of_run (kept : Story β) (h : Channel.Run config c m [] c' m') :
    RunsRecorded config id c m kept c' m' kept :=
  ⟨[], h, by rw [List.map_nil, List.append_nil], by simp⟩

theorem of_passage {p : Passage β} (kept : Story β) (h : Channel.Run config c m [p] c' m')
    (hp : p.isSeen = true) : RunsRecorded config id c m kept c' m' (kept ++ [(id, p)]) :=
  ⟨[p], h, rfl, by simpa using hp⟩

end RunsRecorded

theorem runs_drainRing (config : Config) (noise : Noise) (sink : Sink σ β) (id : Nat)
    (direction : Direction) (d : Drained (σ × Story β) β) :
    RunsRecorded config id d.channel d.machine d.sink.2
      (drainRing noise sink.recorded id direction d).channel
      (drainRing noise sink.recorded id direction d).machine
      (drainRing noise sink.recorded id direction d).sink.2 := by
  fun_induction drainRing noise sink.recorded id direction d with
  | case1 d c m h =>
    have hwrite : Channel.Run config d.channel d.machine [] _ d.machine :=
      .single (.overwrite (noise id direction (d.channel.inFlight direction)))
    exact .of_run _ (hwrite.trans (Channel.run_reclaim_none h))
  | case2 d t c m h ih =>
    have hwrite : Channel.Run config d.channel d.machine [] _ d.machine :=
      .single (.overwrite (noise id direction (d.channel.inFlight direction)))
    have htake := hwrite.trans (Channel.run_reclaim_some h)
    exact (RunsRecorded.of_passage d.sink.2 htake rfl).trans ih

theorem runs_refillRing (config : Config) (sink : Sink σ β) (id rounds : Nat)
    (d : Refilled (σ × Story β) β) :
    RunsRecorded config id d.channel d.machine d.sink.2
      (refillRing sink.recorded id rounds d).channel
      (refillRing sink.recorded id rounds d).machine
      (refillRing sink.recorded id rounds d).sink.2 := by
  induction rounds generalizing d with
  | zero => exact .refl _ _ _ _ _
  | succ rounds ih =>
    unfold refillRing
    by_cases hfull : d.channel.rx.freeSlots = 0
    · rw [if_pos hfull]
      exact .refl _ _ _ _ _
    rw [if_neg hfull]
    simp only [Sink.recorded]
    cases hoffer : sink.rxBuffer d.sink.1 id with
    | mk offer s =>
      cases offer with
      | none => exact .refl _ _ _ _ _
      | some packet =>
        obtain ⟨buffer, length⟩ := packet
        dsimp only
        cases hpost : d.channel.enqueue .fromDevice buffer length d.machine with
        | mk result rest =>
          obtain ⟨c, m⟩ := rest
          cases result with
          | error r =>
            -- The buffer went back, so that its passage is taken from the record again.
            dsimp only
            rw [List.dropLast_concat]
            exact .of_run _ (Channel.run_enqueue_error hpost).1
          | ok =>
            have hpassage : RunsRecorded config id d.channel d.machine d.sink.2 c m
                (d.sink.2 ++ [(id, .accepted .fromDevice buffer)]) :=
              .of_passage _ (Channel.run_enqueue_ok hpost) rfl
            exact hpassage.trans
              (ih ⟨d.posted + 1, (s, d.sink.2 ++ [(id, .accepted .fromDevice buffer)]), c, m⟩)

section Works

variable {uses : Nat → Prop}

/-- Work among which the record of passages grows by those that the work shows. -/
def WorksRecorded (uses : Nat → Prop) (e : Engine β) (kept : Story β) (e' : Engine β)
    (kept' : Story β) : Prop :=
  ∃ shown, Works uses e shown e' ∧ kept' = kept ++ shown ∧ shown.seen = shown

namespace WorksRecorded

variable {e e' e'' : Engine β} {kept kept' kept'' : Story β}

theorem refl (uses : Nat → Prop) (e : Engine β) (kept : Story β) :
    WorksRecorded uses e kept e kept :=
  ⟨[], .refl _ _, (List.append_nil kept).symm, rfl⟩

theorem trans (h : WorksRecorded uses e kept e' kept')
    (h' : WorksRecorded uses e' kept' e'' kept'') : WorksRecorded uses e kept e'' kept'' := by
  obtain ⟨shown, hworks, rfl, hseen⟩ := h
  obtain ⟨shown', hworks', rfl, hseen'⟩ := h'
  refine ⟨shown ++ shown', hworks.trans hworks', List.append_assoc _ _ _, ?_⟩
  rw [Story.seen_append, hseen, hseen']

/-- A recorded run of a channel is recorded work of the engine. -/
theorem of_channel {id : Nat} {c c' : Channel β} {m' : Machine β}
    (hc : e.channels[id]? = some c)
    (h : RunsRecorded e.config id c e.machine kept c' m' kept') (f : EngineStats → EngineStats) :
    WorksRecorded uses e kept ((e.put id c' m').count f) kept' := by
  obtain ⟨log, hrun, rfl, hseen⟩ := h
  refine ⟨log.map (id, ·), ((Works.refl uses e).act hc hrun).count f, rfl, ?_⟩
  refine List.filter_eq_self.mpr fun entry hentry => ?_
  obtain ⟨p, hp, rfl⟩ := List.mem_map.mp hentry
  exact hseen p hp

end WorksRecorded

theorem works_drainChannel (noise : Noise) (sink : Sink σ β) (id : Nat)
    (s : σ × Story β) (e : Engine β) :
    WorksRecorded uses e s.2 (drainChannel noise sink.recorded id s e).2.2
      (drainChannel noise sink.recorded id s e).2.1.2 := by
  unfold drainChannel
  split
  · exact .refl _ _ _
  next c hc =>
    have htx := runs_drainRing e.config noise sink id .toDevice ⟨0, 0, s, c, e.machine⟩
    have hrx := htx.trans (runs_drainRing e.config noise sink id .fromDevice _)
    exact .of_channel hc hrx _

theorem works_refillChannel (sink : Sink σ β) (id : Nat) (s : σ × Story β) (e : Engine β) :
    WorksRecorded uses e s.2 (refillChannel sink.recorded id s e).2.2
      (refillChannel sink.recorded id s e).2.1.2 := by
  unfold refillChannel
  split
  · exact .refl _ _ _
  next c hc =>
    split
    · exact .of_channel hc (runs_refillRing e.config sink id c.rx.capacity ⟨0, s, c, e.machine⟩) _
    · exact .refl _ _ _

theorem works_sumOver {work : Nat → σ × Story β → Engine β → Nat × (σ × Story β) × Engine β}
    (hwork : ∀ id s e, WorksRecorded uses e s.2 (work id s e).2.2 (work id s e).2.1.2)
    (ids : List Nat) (s : σ × Story β) (e : Engine β) :
    WorksRecorded uses e s.2 (sumOver work ids s e).2.2 (sumOver work ids s e).2.1.2 := by
  induction ids generalizing s e with
  | nil => exact .refl _ _ _
  | cons id rest ih => exact (hwork id s e).trans (ih _ _)

theorem works_refillStage (noise : Noise) (sink : Sink σ β) (s : σ × Story β) (e : Engine β) :
    WorksRecorded uses e s.2 (refillStage noise sink.recorded s e).2.2
      (refillStage noise sink.recorded s e).2.1.2 := by
  have hgranted : WorksRecorded uses e s.2 e.granted.2 s.2 := by
    refine ⟨[], ?_, (List.append_nil _).symm, rfl⟩
    unfold granted
    split
    · exact .refl _ _
    · exact (Works.refl _ e).queue _
  have hdrain := hgranted.trans
    (works_sumOver (works_drainChannel noise sink) e.granted.1.reclaim.toList s e.granted.2)
  exact hdrain.trans (works_sumOver (works_refillChannel sink) e.granted.1.refill.toList _ _)

/-- What a worker discards: what it does when it recovers channels, after transfers were handed over
and receive buffers posted. -/
def deferredDiscards (noise : Noise) (sink : Sink σ β) (s : σ) (e : Engine β) :
    List (Nat × Discard) :=
  (refillStage noise sink s e).2.2.autoDiscardsAll e.granted.1.recover.toList

/-- What a worker gives to its sink and posts from it is what the run of the plant shows, whatever
the device writes meanwhile. -/
theorem works_runDeferred (noise : Noise) (sink : Sink σ β) (s : σ × Story β) (e : Engine β) :
    ∃ shown, Works uses e (shown ++ .ofDiscards (deferredDiscards noise sink s.1 e))
        (runDeferred noise sink.recorded s e).2.2 ∧
      (runDeferred noise sink.recorded s e).2.1.2 = s.2 ++ shown ∧ shown.seen = shown := by
  obtain ⟨tally, queue, hstages⟩ := runDeferred_eq_stages noise sink.recorded s e
  obtain ⟨shown, hworks, hkept, hseen⟩ := works_refillStage noise sink s e
  have hdiscards :
      deferredDiscards noise sink s.1 e = deferredDiscards noise sink.recorded s e := by
    unfold deferredDiscards
    rw [(stages_view sink.refines_recorded noise s e).2]
    rfl
  rw [hstages, hdiscards]
  exact ⟨shown, (hworks.trans (works_autoRecoverAll _ _)).queue queue, hkept, hseen⟩

end Works

end Engine

end PacketDma
