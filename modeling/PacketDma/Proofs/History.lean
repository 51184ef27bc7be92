import PacketDma.Device
import PacketDma.Proofs.DeferredRun
import PacketDma.Proofs.LifecycleRun

/-!
# Histories of an engine

A history is what happens to an engine, one moment after the other: the owner calls operations, and
between two calls the world changes. The device writes to descriptors also while a worker drains
rings. A history shows which buffers were accepted and delivered.

## Implementation notes

A world that changes registers is no run of the plant, since it writes without the engine. Every
other moment is one. Its caller sees nothing of what it discards, so that is told apart: it follows
from the operation called and the engine that it is called on.
-/

namespace PacketDma

/-- The operations of an engine. A worker brings its sink along, and draws no other line between
writes of the device than that between two looks at a ring. -/
inductive Operation (σ β : Type) where
  | init (base count : Nat)
  | deinit
  | start
  | stop
  | startChannel (id : Nat)
  | stopChannel (id : Nat)
  | suspendChannel (id : Nat)
  | resumeChannel (id : Nat)
  | reinitChannel (id : Nat)
  | enqueue (id : Nat) (direction : Direction) (buffer : β) (length : Nat)
  | pollReclaim (id : Nat) (direction : Direction)
  | onInterrupt
  | runDeferred (noise : Noise) (sink : Sink σ β) (s : σ)
  | watchdogTick
  | recoverChannel (id : Nat)
  | setRecoveryPolicy (id : Nat) (policy : RecoveryPolicy)
  | clearStats
  | resetChannelStats (id : Nat)

/-- What may change between two operations without the engine. -/
inductive Disturbance (β : Type) where
  /-- The device writes to descriptors of a channel. -/
  | descriptors (id : Nat) (f : Direction → Nat → Descriptor → Descriptor)
  /-- The device writes to descriptors of rings that were given up. -/
  | retired (arrays : List DescriptorArray)
  /-- The device changes its registers. -/
  | registers (f : RegisterFile → RegisterFile)
  /-- Time goes by. -/
  | clock (clock : Clock)
  /-- Other mappings will succeed or fail. -/
  | mapper (mapper : Mapper β)
  /-- Work is posted, or tasks wait for it. -/
  | work (work : WorkQueue)

/-- What happens to an engine at one moment. -/
inductive Moment (σ β : Type) where
  /-- The owner calls an operation. -/
  | operate (op : Operation σ β)
  /-- The world changes. -/
  | disturb (d : Disturbance β)

variable {σ β : Type}

/-- The buffers that an operation shows its caller, and the engine afterwards. There is no answer if
the operation would wait forever. -/
def Operation.perform : Operation σ β → Engine β → Option (Story β × Engine β)
  | .init base count, e => some ([], (e.init base count).2)
  | .deinit, e => e.deinit?.map ([], ·)
  | .start, e => some ([], e.start.2)
  | .stop, e => some ([], e.stop.2)
  | .startChannel id, e => some ([], (e.startChannel id).2)
  | .stopChannel id, e => some ([], (e.stopChannel id).2)
  | .suspendChannel id, e => some ([], (e.suspendChannel id).2)
  | .resumeChannel id, e => some ([], (e.resumeChannel id).2)
  | .reinitChannel id, e => some ([], (e.reinitChannel id).2)
  | .enqueue id direction buffer length, e =>
    match e.enqueue id direction buffer length with
    | (.ok (), e) => some ([(id, .accepted direction buffer)], e)
    | (.error _, e) => some ([], e)
  | .pollReclaim id direction, e =>
    match e.pollReclaim id direction with
    | (.ok (some t), e) => some ([(id, .delivered direction t.buffer)], e)
    | (_, e) => some ([], e)
  | .onInterrupt, e => some ([], e.onInterrupt.2)
  | .runDeferred noise sink s, e =>
    let (_, kept, e) := e.runDeferred noise sink.recorded (s, [])
    some (kept.2, e)
  | .watchdogTick, e => some ([], e.watchdogTick.2)
  | .recoverChannel id, e => some ([], (e.recoverChannel id).2)
  | .setRecoveryPolicy id policy, e => some ([], (e.setRecoveryPolicy id policy).2)
  | .clearStats, e => some ([], e.clearStats)
  | .resetChannelStats id, e => some ([], (e.resetChannelStats id).2)

/-- Whether a buffer was accepted shows in the story only. -/
theorem Operation.eq_of_enqueue {id : Nat} {direction : Direction} {buffer : β} {length : Nat}
    {e e' : Engine β} {seen : Story β}
    (h : (Operation.enqueue id direction buffer length : Operation σ β).perform e =
      some (seen, e')) : e' = (e.enqueue id direction buffer length).2 := by
  simp only [perform] at h
  split at h
  next he =>
    rw [he]
    exact (Prod.mk.inj (Option.some.inj h)).2.symm
  next he =>
    rw [he]
    exact (Prod.mk.inj (Option.some.inj h)).2.symm

/-- Whether a buffer came back shows in the story only. -/
theorem Operation.eq_of_pollReclaim {id : Nat} {direction : Direction} {e e' : Engine β}
    {seen : Story β}
    (h : (Operation.pollReclaim id direction : Operation σ β).perform e = some (seen, e')) :
    e' = (e.pollReclaim id direction).2 := by
  simp only [perform] at h
  split at h
  next he =>
    rw [he]
    exact (Prod.mk.inj (Option.some.inj h)).2.symm
  next he =>
    rw [he]
    exact (Prod.mk.inj (Option.some.inj h)).2.symm

/-- The engine after the world has changed. -/
def Disturbance.apply : Disturbance β → Engine β → Engine β
  | .descriptors id f, e =>
    match e.channels[id]? with
    | none => e
    | some c => e.put id (c.overwrite f) e.machine
  | .retired a, e => { e with machine := { e.machine with retired := a } }
  | .registers f, e =>
    { e with machine := { e.machine with registers := f e.machine.registers } }
  | .clock c, e => { e with machine := { e.machine with clock := c } }
  | .mapper m, e => { e with machine := { e.machine with mapper := m } }
  | .work q, e => { e with work := q }

/-- What a moment shows, and the engine after it. -/
def Moment.pass : Moment σ β → Engine β → Option (Story β × Engine β)
  | .operate op, e => op.perform e
  | .disturb d, e => some ([], d.apply e)

/-- Lets moments pass, one after the other. The answer is what they show together, and the engine
after the last one. -/
def Engine.live : List (Moment σ β) → Engine β → Option (Story β × Engine β)
  | [], e => some ([], e)
  | moment :: rest, e =>
    match moment.pass e with
    | none => none
    | some (now, e) => (Engine.live rest e).map fun (later, e) => (now ++ later, e)

/-- A configuration with small rings, for histories on fixed inputs. -/
def Config.bench : Config := { Config.standard with txRingSize := 4, rxRingSize := 4 }

/-- The machine of a device that comes up at once, for histories on fixed inputs. -/
def Machine.bench : Machine Nat where
  registers := .zero .standard 0 (some 0)
  clock := ⟨0, 1⟩
  mapper := .new ⟨0x10000⟩ ⟨0x100000⟩
  retired := []
  trace := #[]

/-! ### What a moment may do -/

/-- The register base of an engine that is up. -/
def Engine.UpAt (e : Engine β) (base : Nat) : Prop := e.initialized = true ∧ base = e.base

/-- The register bases at which a moment may write to registers of the device. -/
def Moment.Uses (moment : Moment σ β) (e : Engine β) (base : Nat) : Prop :=
  e.UpAt base ∨ ∃ count, moment = .operate (.init base count)

/-- What an operation discards, and for which reasons. -/
def Operation.discards : Operation σ β → Engine β → List (Nat × Discard)
  | .deinit, e => e.teardownDiscards
  | .reinitChannel id, e => e.reinitDiscards id
  | .recoverChannel id, e => e.recoverDiscards id
  | .runDeferred noise sink s, e => Engine.deferredDiscards noise sink s e
  | .watchdogTick, e => e.watchdogDiscards
  | _, _ => []

/-- What a moment discards. The world never discards anything. -/
def Moment.discards : Moment σ β → Engine β → List (Nat × Discard)
  | .operate op, e => op.discards e
  | .disturb _, _ => []

namespace Engine

/-- An engine that is not up has no channels. -/
def IdleEmpty (e : Engine β) : Prop := e.initialized = false → e.channels = []

/-- What an operation comes to: it works on an engine as it is, it changes the policies, it fails to
bring the engine up, or it brings it up or down. -/
inductive Outcome (op : Operation σ β) (e : Engine β) (story : Story β) : Engine β → Prop where
  | works {e' : Engine β} (h : Works e.UpAt e story e') : Outcome op e story e'
  | settles (hstory : story = []) (policies : PolicyTable) :
      Outcome op e story { e with policies := policies }
  | fails {base count : Nat} {m : Machine β} (hstory : story = []) (hop : op = .init base count)
      (hrun : Plant.Run e.config (· = base) e.plant [] ⟨e.channels, m⟩) :
      Outcome op e story { e with machine := m }
  | up {e' : Engine β} {base count : Nat} (hstory : story = []) (hop : op = .init base count)
      (hdown : e.initialized = false) (hup : CameUp e base count e')
      (hrun : Plant.Run e.config (· = base) e.plant [] e'.plant) : Outcome op e story e'
  | down {e' : Engine β} (hop : op = .deinit) (hdown : WentDown e e')
      (hrun : Plant.Run e.config e.UpAt e.plant story e'.plant) : Outcome op e story e'

/-- An operation that discards nothing has its outcome with the story of what it shows. -/
theorem Outcome.of_works {op : Operation σ β} {e e' : Engine β} {seen : Story β}
    (hnone : op.discards e = []) (h : Works e.UpAt e seen e') :
    Outcome op e (seen ++ .ofDiscards (op.discards e)) e' := by
  rw [hnone, Story.ofDiscards, List.map_nil, List.append_nil]
  exact .works h

/-- Every operation has one of these outcomes, with the story of what it shows and then of what it
discards. -/
theorem outcome_of_perform {op : Operation σ β} {e e' : Engine β} {seen : Story β}
    (hidle : e.IdleEmpty) (h : op.perform e = some (seen, e')) :
    Outcome op e (seen ++ .ofDiscards (op.discards e)) e' := by
  cases op with
  | init base count =>
    obtain ⟨rfl, rfl⟩ := Prod.mk.inj (Option.some.inj h)
    obtain ⟨hrun, ⟨m, honly⟩ | ⟨hdown, hup⟩⟩ := run_init (· = base) count rfl hidle
    · rw [honly] at hrun ⊢
      exact .fails rfl rfl hrun
    · exact .up rfl rfl hdown hup hrun
  | deinit =>
    obtain ⟨e₁, hdeinit, h⟩ := Option.map_eq_some_iff.mp h
    obtain ⟨rfl, rfl⟩ := Prod.mk.inj h
    obtain ⟨hrun, ⟨hdown, rfl⟩ | ⟨_, hdown⟩⟩ :=
      run_deinit e.UpAt (fun hup => ⟨hup, rfl⟩) hdeinit
    · exact .works ⟨rfl, hrun⟩
    · exact .down rfl hdown hrun
  | start =>
    obtain ⟨rfl, rfl⟩ := Prod.mk.inj (Option.some.inj h)
    exact .of_works rfl (works_start e)
  | stop =>
    obtain ⟨rfl, rfl⟩ := Prod.mk.inj (Option.some.inj h)
    exact .of_works rfl (works_stop e)
  | startChannel id =>
    obtain ⟨rfl, rfl⟩ := Prod.mk.inj (Option.some.inj h)
    exact .of_works rfl (works_startChannel e id)
  | stopChannel id =>
    obtain ⟨rfl, rfl⟩ := Prod.mk.inj (Option.some.inj h)
    exact .of_works rfl (works_stopChannel e id)
  | suspendChannel id =>
    obtain ⟨rfl, rfl⟩ := Prod.mk.inj (Option.some.inj h)
    exact .of_works rfl (works_suspendChannel e id)
  | resumeChannel id =>
    obtain ⟨rfl, rfl⟩ := Prod.mk.inj (Option.some.inj h)
    exact .of_works rfl (works_resumeChannel e id)
  | reinitChannel id =>
    obtain ⟨rfl, rfl⟩ := Prod.mk.inj (Option.some.inj h)
    exact .works (works_reinitChannel e id)
  | enqueue id direction buffer length =>
    simp only [Operation.perform] at h
    split at h
    next hposted =>
      obtain ⟨rfl, rfl⟩ := Prod.mk.inj (Option.some.inj h)
      exact .of_works rfl (works_enqueue_ok hposted)
    next hposted =>
      obtain ⟨rfl, rfl⟩ := Prod.mk.inj (Option.some.inj h)
      exact .of_works rfl (works_enqueue_error hposted)
  | pollReclaim id direction =>
    simp only [Operation.perform] at h
    split at h
    next htaken =>
      obtain ⟨rfl, rfl⟩ := Prod.mk.inj (Option.some.inj h)
      exact .of_works rfl (works_pollReclaim_some htaken)
    next hnone htaken =>
      obtain ⟨rfl, rfl⟩ := Prod.mk.inj (Option.some.inj h)
      exact .of_works rfl (works_pollReclaim_none htaken hnone)
  | onInterrupt =>
    obtain ⟨rfl, rfl⟩ := Prod.mk.inj (Option.some.inj h)
    exact .of_works rfl (works_onInterrupt e fun hup => ⟨hup, rfl⟩)
  | runDeferred noise sink s =>
    obtain ⟨shown, hworks, hshown, -⟩ := works_runDeferred noise sink (s, []) e
    have hresult : ((runDeferred noise sink.recorded (s, []) e).2.1.2,
      (runDeferred noise sink.recorded (s, []) e).2.2) = (seen, e') := Option.some.inj h
    rw [hshown] at hresult
    obtain ⟨rfl, rfl⟩ := Prod.mk.inj hresult
    exact .works hworks
  | watchdogTick =>
    obtain ⟨rfl, rfl⟩ := Prod.mk.inj (Option.some.inj h)
    exact .works (works_watchdogTick e)
  | recoverChannel id =>
    obtain ⟨rfl, rfl⟩ := Prod.mk.inj (Option.some.inj h)
    exact .works (works_recoverChannel e id)
  | setRecoveryPolicy id policy =>
    obtain ⟨rfl, rfl⟩ := Prod.mk.inj (Option.some.inj h)
    unfold setRecoveryPolicy
    split
    · exact .of_works rfl (.refl _ _)
    · exact .settles rfl _
  | clearStats =>
    obtain ⟨rfl, rfl⟩ := Prod.mk.inj (Option.some.inj h)
    exact .of_works rfl ((Works.refl _ _).count fun _ => .zero)
  | resetChannelStats id =>
    obtain ⟨rfl, rfl⟩ := Prod.mk.inj (Option.some.inj h)
    exact .of_works rfl (works_resetChannelStats e id)

/-- What an operation shows are passages that the owner sees. -/
theorem seen_of_perform {op : Operation σ β} {e e' : Engine β} {seen : Story β}
    (h : op.perform e = some (seen, e')) : seen.seen = seen := by
  cases op with
  | deinit =>
    obtain ⟨_, _, h⟩ := Option.map_eq_some_iff.mp h
    obtain ⟨rfl, -⟩ := Prod.mk.inj h
    rfl
  | enqueue id direction buffer length =>
    simp only [Operation.perform] at h
    split at h <;> obtain ⟨rfl, -⟩ := Prod.mk.inj (Option.some.inj h) <;> rfl
  | pollReclaim id direction =>
    simp only [Operation.perform] at h
    split at h <;> obtain ⟨rfl, -⟩ := Prod.mk.inj (Option.some.inj h) <;> rfl
  | runDeferred noise sink s =>
    obtain ⟨shown, (_ : Works e.UpAt _ _ _), hshown, hseen⟩ :=
      works_runDeferred noise sink (s, []) e
    have hresult : ((runDeferred noise sink.recorded (s, []) e).2.1.2,
      (runDeferred noise sink.recorded (s, []) e).2.2) = (seen, e') := Option.some.inj h
    rw [hshown] at hresult
    obtain ⟨rfl, -⟩ := Prod.mk.inj hresult
    exact hseen
  | _ =>
    obtain ⟨rfl, -⟩ := Prod.mk.inj (Option.some.inj h)
    rfl

/-! ### What every moment keeps -/

/-- A run that uses no register base makes no channels from nothing. -/
theorem channels_of_idle_run {config : Config} {uses : Nat → Prop} {p p' : Plant β}
    {story : Story β} (hnone : ∀ base, ¬ uses base) (h : Plant.Run config uses p story p')
    (hp : p.channels = []) : p'.channels = [] := by
  induction h with
  | refl => exact hp
  | step _ hs ih =>
    cases hs with
    | channel hc => simp [ih] at hc
    | quiet => exact ih
    | build hbase => exact absurd hbase (hnone _)
    | release => rfl

namespace Outcome

variable {op : Operation σ β} {e e' : Engine β} {story : Story β}

theorem config_eq (h : Outcome op e story e') : e'.config = e.config := by
  cases h with
  | works h => exact h.config_eq
  | settles => rfl
  | fails => rfl
  | up _ _ _ h => exact h.config_eq
  | down _ h => exact h.config_eq

theorem idleEmpty (h : Outcome op e story e') (hidle : e.IdleEmpty) : e'.IdleEmpty := by
  intro hdown
  cases h with
  | works h =>
    have hdown : e.initialized = false := h.initialized_eq ▸ hdown
    refine channels_of_idle_run ?_ h.run (hidle hdown)
    intro base hup
    simp [hup.1] at hdown
  | settles => exact hidle hdown
  | fails => exact hidle hdown
  | up _ _ _ h => simp [h.initialized_eq] at hdown
  | down _ h => exact h.channels_eq

/-- Whatever an operation comes to is a run of the plant. -/
theorem run (h : Outcome op e story e') :
    Plant.Run e.config ((Moment.operate op).Uses e) e.plant story e'.plant := by
  cases h with
  | works h => exact h.run.mono fun base hup => .inl hup
  | settles hstory => exact hstory ▸ .refl
  | @fails _ count _ hstory hop hrun =>
    rw [hstory]
    refine hrun.mono fun base hbase => .inr ⟨count, ?_⟩
    rw [hop, hbase]
  | @up _ _ count hstory hop _ _ hrun =>
    rw [hstory]
    refine hrun.mono fun base hbase => .inr ⟨count, ?_⟩
    rw [hop, hbase]
  | down hop _ hrun => exact hrun.mono fun base hup => .inl hup

end Outcome

end Engine

/-- Whether a moment changes registers without the engine. -/
def Moment.IsRegisterChange : Moment σ β → Prop
  | .disturb (.registers _) => True
  | _ => False

/-- The world leaves the standing of an engine alone. -/
theorem Disturbance.standing_apply (d : Disturbance β) (e : Engine β) :
    (d.apply e).standing = e.standing := by
  cases d with
  | descriptors id f =>
    simp only [apply]
    split <;> rfl
  | _ => rfl

namespace Moment

variable {moment : Moment σ β} {e e' : Engine β} {seen : Story β}

theorem config_of_pass (hidle : e.IdleEmpty) (h : moment.pass e = some (seen, e')) :
    e'.config = e.config := by
  cases moment with
  | operate op => exact (Engine.outcome_of_perform hidle h).config_eq
  | disturb d =>
    obtain ⟨rfl, rfl⟩ := Prod.mk.inj (Option.some.inj h)
    exact congrArg (·.1) (d.standing_apply e)

theorem idleEmpty_of_pass (hidle : e.IdleEmpty) (h : moment.pass e = some (seen, e')) :
    e'.IdleEmpty := by
  cases moment with
  | operate op => exact (Engine.outcome_of_perform hidle h).idleEmpty hidle
  | disturb d =>
    obtain ⟨rfl, rfl⟩ := Prod.mk.inj (Option.some.inj h)
    cases d with
    | descriptors id f =>
      intro hdown
      simp only [Disturbance.apply] at hdown ⊢
      split at hdown
      · exact hidle hdown
      next hc => simp [hidle hdown] at hc
    | _ => exact hidle

/-- A world that leaves the registers alone makes a run of the plant. -/
theorem run_of_disturb {d : Disturbance β}
    (hd : ¬ (Moment.disturb d : Moment σ β).IsRegisterChange) (uses : Nat → Prop) :
    Plant.Run e.config uses e.plant [] (d.apply e).plant := by
  cases d with
  | descriptors id f =>
    simp only [Disturbance.apply]
    split
    · exact .refl
    next c hc => exact Plant.run_channel uses hc (.single (.overwrite f))
  | registers f => exact absurd trivial hd
  | retired a => exact Plant.run_still ((Machine.Quiet.refl _).aside _ _ a)
  | clock c => exact Plant.run_still ((Machine.Quiet.refl _).clock c)
  | mapper m => exact Plant.run_still ((Machine.Quiet.refl _).aside _ m _)
  | work q => exact .refl

/-- Every moment in which the world leaves the registers alone is a run of the plant. -/
theorem run_of_pass (hidle : e.IdleEmpty) (h : moment.pass e = some (seen, e'))
    (hworld : ¬ moment.IsRegisterChange) :
    Plant.Run e.config (moment.Uses e) e.plant (seen ++ .ofDiscards (moment.discards e))
      e'.plant := by
  cases moment with
  | operate op => exact (Engine.outcome_of_perform hidle h).run
  | disturb d =>
    obtain ⟨rfl, rfl⟩ := Prod.mk.inj (Option.some.inj h)
    exact run_of_disturb hworld _

/-- What a moment shows are passages that the owner sees. -/
theorem seen_of_pass (h : moment.pass e = some (seen, e')) : seen.seen = seen := by
  cases moment with
  | operate op => exact Engine.seen_of_perform h
  | disturb d =>
    obtain ⟨rfl, -⟩ := Prod.mk.inj (Option.some.inj h)
    rfl

end Moment

namespace Engine

/-- What every moment keeps, a history keeps. -/
theorem live_keeps (holds : Engine β → Prop) {moments : List (Moment σ β)} {e e' : Engine β}
    {seen : Story β}
    (hpass : ∀ moment ∈ moments, ∀ e seen e', moment.pass e = some (seen, e') → holds e → holds e')
    (h : live moments e = some (seen, e')) (he : holds e) : holds e' := by
  induction moments generalizing e seen with
  | nil =>
    obtain ⟨-, rfl⟩ := Prod.mk.inj (Option.some.inj h)
    exact he
  | cons moment rest ih =>
    simp only [live] at h
    split at h
    · simp at h
    next now e₁ hfirst =>
      obtain ⟨⟨later, e₂⟩, hrest, h⟩ := Option.map_eq_some_iff.mp h
      obtain ⟨-, rfl⟩ := Prod.mk.inj h
      exact ih (fun moment hmem => hpass moment (by simp [hmem])) hrest
        (hpass moment (by simp) e now e₁ hfirst he)

/-- A history with one more moment at its end. -/
theorem live_concat {moments : List (Moment σ β)} {moment : Moment σ β} {e e₁ e₂ : Engine β}
    {seen now : Story β} (h : live moments e = some (seen, e₁))
    (hpass : moment.pass e₁ = some (now, e₂)) :
    live (moments ++ [moment]) e = some (seen ++ now, e₂) := by
  induction moments generalizing e seen with
  | nil =>
    obtain ⟨rfl, rfl⟩ := Prod.mk.inj (Option.some.inj h)
    simp [live, hpass]
  | cons first rest ih =>
    simp only [List.cons_append, live] at h ⊢
    split at h
    · simp at h
    next shown e₀ hfirst =>
      obtain ⟨⟨later, e'⟩, hrest, h⟩ := Option.map_eq_some_iff.mp h
      obtain ⟨rfl, rfl⟩ := Prod.mk.inj h
      simp only [ih hrest, Option.map_some, List.append_assoc]

theorem idleEmpty_new (config : Config) (m : Machine β) : (new config m).IdleEmpty := fun _ => rfl

/-- What runs of the plant under one configuration keep, and registers have no part in, a history
keeps. -/
theorem live_keeps_configured {config : Config} {holds : Plant β → Prop}
    (hrun : ∀ uses p story p', Plant.Run config uses p story p' → holds p → holds p')
    (hworld : ∀ channels m registers, holds ⟨channels, m⟩ →
      holds ⟨channels, { m with registers := registers }⟩)
    {moments : List (Moment σ β)} {e e' : Engine β} {seen : Story β} (hidle : e.IdleEmpty)
    (hconfig : e.config = config) (h : live moments e = some (seen, e')) (he : holds e.plant) :
    e'.IdleEmpty ∧ e'.config = config ∧ holds e'.plant := by
  refine live_keeps (fun e => e.IdleEmpty ∧ e.config = config ∧ holds e.plant)
    (fun moment _ e seen e' hpass ⟨hidle, hconfig, he⟩ => ?_) h ⟨hidle, hconfig, he⟩
  refine ⟨moment.idleEmpty_of_pass hidle hpass, (moment.config_of_pass hidle hpass).trans hconfig,
    ?_⟩
  by_cases hregisters : moment.IsRegisterChange
  · cases moment with
    | operate op => exact hregisters.elim
    | disturb d =>
      cases d with
      | registers f =>
        obtain ⟨-, rfl⟩ := Prod.mk.inj (Option.some.inj hpass)
        exact hworld _ _ _ he
      | _ => exact hregisters.elim
  · have hstory := moment.run_of_pass hidle hpass hregisters
    exact hrun _ _ _ _ (hconfig ▸ hstory) he

/-- What runs of the plant keep and registers have no part in, a history keeps. -/
theorem live_keeps_plant {holds : Plant β → Prop}
    (hrun : ∀ config uses p story p', Plant.Run config uses p story p' → holds p → holds p')
    (hworld : ∀ channels m registers, holds ⟨channels, m⟩ →
      holds ⟨channels, { m with registers := registers }⟩)
    {moments : List (Moment σ β)} {e e' : Engine β} {seen : Story β} (hidle : e.IdleEmpty)
    (h : live moments e = some (seen, e')) (he : holds e.plant) :
    e'.IdleEmpty ∧ holds e'.plant := by
  obtain ⟨hidle', -, he'⟩ := live_keeps_configured (hrun e.config) hworld hidle rfl h he
  exact ⟨hidle', he'⟩

end Engine

end PacketDma
