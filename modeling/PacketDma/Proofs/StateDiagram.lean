import PacketDma.Proofs.Service

/-!
# The state diagram

Each operation moves the channels along a few edges of a diagram. Its owner starts, stops, suspends,
resumes and renews a channel. Interrupts and the watchdog take running channels to error, and
recovery takes channels in error to running. Nobody but the owner moves a channel that is stopped or
suspended, and its rings rest until then, as they do while the channel is down.

## Implementation notes

Within an operation a channel may be recovering, and the watchdog may find a fault and recover from
it in one turn. The diagram is that of complete operations.
-/

namespace PacketDma

variable {σ β : Type}

namespace ChannelState

/-- A stopped channel is started. -/
def Starts (s t : ChannelState) : Prop := t = s ∨ s = .stopped ∧ t = .running

/-- A running channel is suspended. -/
def Suspends (s t : ChannelState) : Prop := t = s ∨ s = .running ∧ t = .suspended

/-- A suspended channel is resumed. -/
def Resumes (s t : ChannelState) : Prop :=
  t = s ∨ s = .suspended ∧ (t = .running ∨ t = .error)

end ChannelState

namespace ChannelRecord

theorem starts_start (r : ChannelRecord) (now : Nat) :
    r.state.Starts (r.start now).2.state ∧ (r.start now).2.down = r.down := by
  unfold start
  split
  next => exact ⟨.inl rfl, rfl⟩
  next hr => exact ⟨.inr ⟨hr, rfl⟩, rfl⟩
  next => exact ⟨.inl rfl, rfl⟩

theorem suspends_suspend (r : ChannelRecord) :
    r.state.Suspends r.suspend.2.state ∧ r.suspend.2.down = r.down := by
  unfold suspend
  split
  next hr => exact ⟨.inr ⟨hr, rfl⟩, rfl⟩
  next => exact ⟨.inl rfl, rfl⟩

theorem resumes_resume (r : ChannelRecord) (now : Nat) :
    r.state.Resumes (r.resume now).2.state ∧ (r.resume now).2.down = r.down := by
  unfold resume
  split
  next hr => exact ⟨.inr ⟨hr, by cases r.pending.isEmpty <;> simp⟩, rfl⟩
  next => exact ⟨.inl rfl, rfl⟩

end ChannelRecord

namespace Engine

variable {e e' : Engine β} {id : Nat} {p q : Entry β}

/-! ### The owner's operations -/

/-- What becomes of a channel that its owner acts on. Its state moves along some edges, and it stays
down if it was. -/
structure Led (moves : ChannelState → ChannelState → Prop) (p q : Entry β) : Prop where
  state : moves p.2.state q.2.state
  down : p.2.down = true → q.2.down = true

theorem Led.refl {moves : ChannelState → ChannelState → Prop} (hmoves : ∀ s, moves s s)
    (p : Entry β) : Led moves p p := ⟨hmoves _, id⟩

section Led

variable {moves : ChannelState → ChannelState → Prop}

/-- The monitor is asked about a channel of which nothing new was known. -/
theorem Touches.asked {α : Type} (h : Touches id (fun p q => q.2 = p.2) e e') (absent : α)
    {f : ChannelRecord → α × ChannelRecord}
    (hf : ∀ r, moves r.state (f r).2.state ∧ (f r).2.down = r.down) :
    Touches id (Led moves) e { e' with monitor := (e'.monitor.act id absent f).2 } := by
  rw [Monitor.act_snd]
  refine Touches.mono (h.comp (touches_update e' id _)) ?_
  rintro p _ ⟨q, hq, rfl⟩
  obtain ⟨hstate, hdown⟩ := hf q.2
  rw [hq] at hstate hdown
  exact ⟨hq ▸ hstate, fun hp => hq ▸ hdown.trans hp⟩

/-- The rings of a channel are no part of its state. -/
theorem Touches.led_channel {e'' : Engine β} (h : Touches id (Led moves) e e') {c c' : Channel β}
    (hc : e'.channels[id]? = some c) (hchannels : e''.channels = e'.channels.set id c')
    (hrecords : e''.monitor.records = e'.monitor.records) : Touches id (Led moves) e e'' := by
  refine Touches.mono (h.comp (touches_channel hc hchannels hrecords)) ?_
  rintro p _ ⟨q, hpq, -, rfl⟩
  exact ⟨hpq.state, hpq.down⟩

theorem Touches.led_halt (h : Touches id (Led moves) e e') :
    Touches id (Led moves) e (e'.haltChannel id).2 := by
  refine Touches.mono (h.comp (touches_haltChannel e' id)) ?_
  rintro p u ⟨q, hpq, -, hr⟩
  exact ⟨hr ▸ hpq.state, fun hdown => hr ▸ hpq.down hdown⟩

end Led

theorem touches_startChannel (e : Engine β) (id : Nat) :
    Touches id (Led ChannelState.Starts) e (e.startChannel id).2 := by
  have hskip : Touches id (Led ChannelState.Starts) e e := .refl (.refl fun _ => .inl rfl) e
  unfold startChannel
  split
  · exact hskip
  next c hu =>
    have hc := channels_of_usable?_ok hu
    split
    · exact hskip
    · split
      · exact hskip.led_channel hc rfl rfl
      next d m _ =>
        have hput : Touches id (fun p q => q.2 = p.2) e (e.put id d m).now.2 := by
          refine Touches.mono (touches_channel hc rfl rfl) ?_
          rintro p _ ⟨-, rfl⟩
          rfl
        have hasked := hput.asked (.error .invalidState : Except IoError Unit)
          fun r => r.starts_start (e.put id d m).now.1
        dsimp only
        unfold Monitor.start
        split
        next he => rwa [he] at hasked
        next he =>
          rw [he] at hasked
          exact hasked.log _ _
    · exact hskip

theorem touches_suspendChannel (e : Engine β) (id : Nat) :
    Touches id (Led ChannelState.Suspends) e (e.suspendChannel id).2 := by
  have hsame : Touches id (fun p q => q.2 = p.2) e e :=
    ⟨fun _ _ => rfl, fun p hp => ⟨p, hp, rfl⟩⟩
  unfold suspendChannel
  split
  · exact .refl (.refl fun _ => .inl rfl) e
  · have hasked := hsame.asked (.error .invalidState : Except IoError Unit)
      ChannelRecord.suspends_suspend
    unfold Monitor.suspend
    split
    next he => rwa [he] at hasked
    next he =>
      rw [he] at hasked
      exact hasked.led_halt

theorem touches_resumeChannel (e : Engine β) (id : Nat) :
    Touches id (Led ChannelState.Resumes) e (e.resumeChannel id).2 := by
  have hsame : Touches id (fun p q => q.2 = p.2) e e :=
    ⟨fun _ _ => rfl, fun p hp => ⟨p, hp, rfl⟩⟩
  unfold resumeChannel
  split
  · exact .refl (.refl fun _ => .inl rfl) e
  next c hu =>
    have hc := channels_of_usable?_ok hu
    have hasked := hsame.now.asked (.error .invalidState : Except IoError ChannelState)
      fun r => r.resumes_resume e.now.1
    dsimp only
    unfold Monitor.resume
    split
    next he => rwa [he] at hasked
    next he =>
      rw [he] at hasked
      exact hasked.led_channel hc rfl rfl
    next he =>
      rw [he] at hasked
      exact (hasked.post _ _).log _ _

/-- A channel that exists can be reached while the engine is up. -/
theorem channel?_of_entry (hup : e.initialized = true) (hp : e.entryAt id = some p) :
    e.channel? id = .ok p.1 := by
  rw [channel?, (entryAt_eq_some.mp hp).1, hup]
  rfl

/-- A channel that exists is stopped without fail. -/
theorem stopChannel_eq (h : e.Coherent) (hup : e.initialized = true) (hp : e.entryAt id = some p) :
    ∃ e', e.stopChannel id = (.ok (), e') ∧
      Touches id (Led fun _ t => t = .stopped) e e' := by
  obtain ⟨hc, hr⟩ := entryAt_eq_some.mp hp
  have hstop : p.2.stop = (.ok (), { p.2 with state := .stopped }) := by
    unfold ChannelRecord.stop
    split
    next hstate => exact absurd hstate (h.fits id _ _ hc hr).settled
    next => rfl
  rw [stopChannel, channel?_of_entry hup hp, Monitor.stop, Monitor.act_eq hr, hstop]
  refine ⟨_, rfl, Touches.led_halt (Touches.mono (touches_record hr rfl rfl) ?_)⟩
  rintro q _ ⟨hq, rfl⟩
  exact ⟨rfl, fun hdown => hq ▸ hdown⟩

theorem touches_stopChannel (h : e.Coherent) (hup : e.initialized = true) (id : Nat) :
    Touches id (Led fun _ t => t = .stopped) e (e.stopChannel id).2 := by
  cases hp : e.entryAt id with
  | some p =>
    obtain ⟨e', hstop, htouch⟩ := stopChannel_eq h hup hp
    rwa [hstop]
  | none =>
    unfold stopChannel
    split
    · exact ⟨fun _ _ => rfl, fun p hp' => by cases hp.symm.trans hp'⟩
    next c hu =>
      have hc := channels_of_channel?_ok hu
      obtain ⟨r, hr, -⟩ := h.record hc
      cases hp.symm.trans (entryAt_of_record hc hr)

/-- The channels that an engine has it has after a touch. -/
theorem Touches.exists_entry {X : Entry β → Entry β → Prop} (h : Touches id X e e') {i : Nat}
    (hp : ∃ p, e.entryAt i = some p) : ∃ p, e'.entryAt i = some p := by
  obtain ⟨p, hp⟩ := hp
  obtain ⟨q, hq, -⟩ := h.entry hp
  exact ⟨q, hq⟩

/-- All channels that exist are stopped in turn. -/
theorem round_stop {ids : List Nat} (h : e.Coherent) (hup : e.initialized = true)
    (hids : ∀ id ∈ ids, ∃ p, e.entryAt id = some p) :
    Round (Led fun _ t => t = .stopped) ids e (eachChannel stopChannel ids e).2 := by
  induction ids generalizing e with
  | nil => exact .nil e
  | cons id rest ih =>
    obtain ⟨p, hp⟩ := hids id List.mem_cons_self
    obtain ⟨e₁, hstop, htouch⟩ := stopChannel_eq h hup hp
    have hcoherent := coherent_stopChannel h id
    have hworks : Works e.UpAt e [] _ := works_stopChannel e id
    have hinitialized := hworks.initialized_eq
    rw [hstop] at hcoherent hinitialized
    rw [eachChannel, hstop]
    refine .cons htouch (ih hcoherent (hinitialized.trans hup) fun i hi => ?_)
    exact htouch.exists_entry (hids i (List.mem_cons_of_mem id hi))

/-- Channels are acted on in turn until an action fails. -/
theorem round_eachChannel {X : Entry β → Entry β → Prop}
    {act : Engine β → Nat → Except Error Unit × Engine β}
    (hact : ∀ e id, Touches id X e (act e id).2) (ids : List Nat) (e : Engine β) :
    ∃ done, done <+: ids ∧ Round X done e (eachChannel act ids e).2 := by
  induction ids generalizing e with
  | nil => exact ⟨[], List.prefix_refl _, .nil e⟩
  | cons id rest ih =>
    have hfirst := hact e id
    unfold eachChannel
    split
    next he =>
      rw [he] at hfirst
      exact ⟨[id], by simp, .cons hfirst (.nil _)⟩
    next e₁ he =>
      rw [he] at hfirst
      obtain ⟨done, hdone, hround⟩ := ih e₁
      exact ⟨id :: done, List.prefix_cons_inj id |>.mpr hdone, .cons hfirst hround⟩

theorem brings_start (e : Engine β) : Brings (Led ChannelState.Starts) e e.start.2 := by
  unfold start
  split
  · exact .still (.refl fun _ => .inl rfl) rfl rfl
  · obtain ⟨done, hdone, hround⟩ := round_eachChannel touches_startChannel e.ids e
    exact hround.brings (List.nodup_range.sublist hdone.sublist) (.refl fun _ => .inl rfl)

/-- A stopped channel that is not down is started without fail. -/
theorem touches_startStopped (hup : e.initialized = true) {c : Channel β} {r : ChannelRecord}
    (hc : e.channels[id]? = some c) (hr : e.monitor.records[id]? = some r)
    (hbuilt : c.initialized = true) (hstate : r.state = .stopped) (hdown : r.down = false) :
    Touches id (fun _ q => q.2.state = .running) e (e.startChannel id).2 := by
  have hfree : e.monitor.downError? id = none := by
    rw [Monitor.downError?, Monitor.record?, hr]
    simp [ChannelRecord.downError?, hdown]
  have husable : e.usable? id = .ok c := by
    rw [usable?, channel?_of_entry hup (entryAt_of_record hc hr)]
    dsimp only
    rw [hfree]
  have hok := Channel.start_eq_ok hbuilt e.machine
  rw [startChannel, husable, Monitor.state?_eq hr, hstate]
  dsimp only
  generalize c.start e.machine = started at hok ⊢
  obtain ⟨_, d, m⟩ := started
  obtain rfl : _ = Except.ok () := hok
  have hrecord : (e.put id d m).now.2.monitor.records[id]? = some r := hr
  dsimp only
  rw [Monitor.start, Monitor.act_eq hrecord, ChannelRecord.start, hstate]
  refine Touches.log ?_ _ _
  refine Touches.mono (touches_entry hc hr (by rfl) (by rfl)) ?_
  rintro p _ ⟨-, rfl⟩
  rfl

/-- A channel that is set up anew runs afterwards, unless it was stopped. -/
theorem touches_reinitChannel (h : e.Coherent) (hup : e.initialized = true) (id : Nat) :
    Touches id (fun p q => q.2.state = if p.2.state = .stopped then .stopped else .running) e
      (e.reinitChannel id).2 := by
  unfold reinitChannel
  split
  next hu =>
    refine ⟨fun _ _ => rfl, fun p hp => ?_⟩
    cases (channel?_of_entry hup hp).symm.trans hu
  next c hu =>
    have hc := channels_of_channel?_ok hu
    obtain ⟨r, hr, hfits⟩ := h.record hc
    have hreset : r.reset = (.ok (), { r with
        state := .stopped
        pending := ∅
        retries := 0
        lastAttempt := none
        down := false
        fatal := false }) := by
      unfold ChannelRecord.reset
      split
      next hstate => exact absurd hstate hfits.settled
      next => rfl
    dsimp only
    rw [Monitor.state?_eq hr, Monitor.reset, Monitor.act_eq hr, hreset]
    dsimp only
    have hbuilt := (c.run_stop e.config e.machine).samePlace.initialized_eq.trans
      (h.uniform id c hc).built
    generalize (c.stop e.machine).2.1 = d at hbuilt ⊢
    generalize he₁ : log _ LogLevel.info _ = e₁
    have hset : Touches id (fun p q => p.2 = r ∧ q.2.state = .stopped) e e₁ := by
      subst he₁
      refine Touches.mono (touches_entry hc hr (by rfl) (by rfl)) ?_
      rintro p _ ⟨rfl, rfl⟩
      exact ⟨rfl, rfl⟩
    split
    next hstate =>
      have hstate : r.state = .stopped := by simpa using hstate
      refine hset.mono ?_
      rintro p q ⟨rfl, hq⟩
      rw [hq, if_pos hstate]
    next hstate =>
      have hstate : r.state ≠ .stopped := by simpa using hstate
      have hstarted : Touches id (fun _ q => q.2.state = .running) e₁ (e₁.startChannel id).2 := by
        subst he₁
        exact touches_startStopped hup (getElem?_set_of_some hc _)
          (getElem?_set_of_some hr _) hbuilt rfl rfl
      refine Touches.mono (hset.comp hstarted) ?_
      rintro p u ⟨q, ⟨rfl, -⟩, hu⟩
      rw [hu, if_neg hstate]

/-! ### Posting and taking back -/

theorem touches_enqueue (e : Engine β) (id : Nat) (direction : Direction) (buffer : β)
    (length : Nat) : Touches id (Led (· = ·)) e (e.enqueue id direction buffer length).2 := by
  have hskip : Touches id (Led (· = ·)) e e := .refl (.refl fun _ => rfl) e
  unfold enqueue
  split
  · exact hskip
  next c hu =>
    have hc := channels_of_usable?_ok hu
    split
    · exact hskip.led_channel hc (by rfl) rfl
    next d m _ =>
      have hput : Touches id (Led (· = ·)) e (e.put id d m) := hskip.led_channel hc rfl rfl
      dsimp only
      split
      · dsimp only
        refine Touches.count ?_ _
        refine Touches.mono (hput.comp (touches_update _ id (·.onRingFull))) ?_
        rintro p _ ⟨q, hpq, rfl⟩
        exact ⟨hpq.state, hpq.down⟩
      · exact hput

theorem touches_pollReclaim (e : Engine β) (id : Nat) (direction : Direction) :
    Touches id (Led (· = ·)) e (e.pollReclaim id direction).2 := by
  have hskip : Touches id (Led (· = ·)) e e := .refl (.refl fun _ => rfl) e
  unfold pollReclaim
  split
  · exact hskip
  next c hu =>
    have hc := channels_of_usable?_ok hu
    split <;> exact hskip.led_channel hc (by rfl) rfl

theorem touches_resetChannelStats (e : Engine β) (id : Nat) :
    Touches id (Led (· = ·)) e (e.resetChannelStats id).2 := by
  unfold resetChannelStats
  split
  · exact .refl (.refl fun _ => rfl) e
  · refine Touches.mono (touches_update e id _) ?_
    rintro p _ rfl
    exact ⟨rfl, fun hdown => hdown⟩

end Engine

/-! ### The diagram -/

namespace Operation

/-- The edges along which an operation moves the state of a channel. -/
def Moves (op : Operation σ β) (i : Nat) (s t : ChannelState) : Prop :=
  match op with
  | .start => t = s ∨ s = .stopped ∧ t = .running
  | .startChannel id => t = s ∨ id = i ∧ s = .stopped ∧ t = .running
  | .stop => t = .stopped
  | .stopChannel id => if id = i then t = .stopped else t = s
  | .suspendChannel id => t = s ∨ id = i ∧ s = .running ∧ t = .suspended
  | .resumeChannel id => t = s ∨ id = i ∧ s = .suspended ∧ (t = .running ∨ t = .error)
  | .reinitChannel id =>
    if id = i then t = if s = .stopped then .stopped else .running else t = s
  | .onInterrupt => t = s ∨ s = .running ∧ t = .error
  | .runDeferred .. => t = s ∨ s = .error ∧ t = .running
  | .recoverChannel id => t = s ∨ id = i ∧ s = .error ∧ t = .running
  | .watchdogTick => t = s ∨ s = .running ∧ t = .error ∨ s = .error ∧ t = .running
  | _ => t = s

/-- Whether an operation is not one that the owner moves channels with, but attends to channels that
need it. -/
def IsService : Operation σ β → Prop
  | .onInterrupt | .runDeferred .. | .watchdogTick | .recoverChannel _ => True
  | _ => False

/-- What an operation makes of a channel and of what is known of it. -/
structure Turns (op : Operation σ β) (i : Nat) (p q : Engine.Entry β) : Prop where
  /-- The state moves along an edge. -/
  moves : op.Moves i p.2.state q.2.state
  /-- A channel that is down stays down, unless it is set up anew. -/
  down : op ≠ .reinitChannel i → p.2.down = true → q.2.down = true
  /-- Service leaves a stopped or suspended channel where it is. -/
  stays : op.IsService → p.2.state = .stopped ∨ p.2.state = .suspended → q.2.state = p.2.state
  /-- Service starts no rings of a channel at rest, and makes no attempt on it. -/
  rests : op.IsService → p.2.IsResting →
    q.2.IsResting ∧ p.1.Unstarted q.1 ∧ p.2.Unattempted q.2
  /-- Service makes at most one attempt on a channel. -/
  attempted : op.IsService →
    q.2.stats.recoveryAttempts = p.2.stats.recoveryAttempts ∨
      q.2.stats.recoveryAttempts = Counter.add p.2.stats.recoveryAttempts 1

end Operation

namespace Engine

variable {op : Operation σ β} {e e' : Engine β} {seen : Story β} {i : Nat} {p q : Entry β}

theorem Tended.turns {moves : ChannelState → ChannelState → Prop} {attempts : Bool}
    (h : Tended moves attempts p q) (hmoves : ∀ s t, moves s t → op.Moves i s t)
    (hstays : ∀ s t, moves s t → s = .stopped ∨ s = .suspended → t = s) : op.Turns i p q :=
  ⟨hmoves _ _ h.state, fun _ => h.down, fun _ => hstays _ _ h.state, fun _ => h.rests,
    fun _ => h.attempted.imp_right (·.2)⟩

theorem Led.turns {moves : ChannelState → ChannelState → Prop} (h : Led moves p q)
    (hmoves : ∀ s t, moves s t → op.Moves i s t) (hop : ¬ op.IsService) : op.Turns i p q :=
  ⟨hmoves _ _ h.state, fun _ => h.down, fun h => absurd h hop, fun h => absurd h hop,
    fun h => absurd h hop⟩

/-- An operation that touches one channel turns that channel, and leaves the others as they are. -/
theorem turns_of_touches {X : Entry β → Entry β → Prop} {id : Nat} (h : Touches id X e e')
    (hp : e.entryAt i = some p) (hown : ∀ q, id = i → X p q → op.Turns i p q)
    (hother : id ≠ i → op.Moves i p.2.state p.2.state) :
    ∃ q, e'.entryAt i = some q ∧ op.Turns i p q := by
  obtain ⟨q, hq, hpq⟩ := h.entry hp
  refine ⟨q, hq, ?_⟩
  split at hpq
  next hi => exact hown q hi hpq
  next hi =>
    subst hpq
    exact ⟨hother hi, fun _ hdown => hdown, fun _ _ => rfl,
      fun _ hrest => ⟨hrest, .refl, .refl _⟩, fun _ => .inl rfl⟩

/-- An operation of the owner leads one channel along some edges. -/
theorem turns_of_led {moves : ChannelState → ChannelState → Prop} {id : Nat}
    (h : Touches id (Led moves) e e') (hp : e.entryAt i = some p) (hop : ¬ op.IsService)
    (hmoves : ∀ s t, id = i → moves s t → op.Moves i s t)
    (hother : ∀ s, id ≠ i → op.Moves i s s) :
    ∃ q, e'.entryAt i = some q ∧ op.Turns i p q :=
  turns_of_touches h hp (fun _ hi hpq => hpq.turns (fun s t => hmoves s t hi) hop) (hother _)

/-- Every operation but going down turns each channel along an edge. -/
theorem turns_of_perform (h : e.Steady) (hop : op.perform e = some (seen, e'))
    (hdeinit : op ≠ .deinit) (hp : e.entryAt i = some p) :
    ∃ q, e'.entryAt i = some q ∧ op.Turns i p q := by
  have hup : e.initialized = true := by
    cases hinitialized : e.initialized with
    | true => rfl
    | false =>
      have hc := (entryAt_eq_some.mp hp).1
      simp [h.idleEmpty hinitialized] at hc
  have hstill : Touches i (Led (· = ·)) e e := .refl (.refl fun _ => rfl) e
  cases op with
  | deinit => exact absurd rfl hdeinit
  | init base count =>
    obtain ⟨rfl, rfl⟩ := Prod.mk.inj (Option.some.inj hop)
    rw [init, hup]
    exact turns_of_led hstill hp id (fun _ _ _ => Eq.symm) fun _ _ => rfl
  | start =>
    obtain ⟨rfl, rfl⟩ := Prod.mk.inj (Option.some.inj hop)
    obtain ⟨q, hq, hpq⟩ := brings_start e i p hp
    exact ⟨q, hq, hpq.turns (fun _ _ => id) id⟩
  | stop =>
    obtain ⟨rfl, rfl⟩ := Prod.mk.inj (Option.some.inj hop)
    have hi : i ∈ e.ids := by
      rw [ids, List.mem_range]
      exact (List.getElem?_eq_some_iff.mp (entryAt_eq_some.mp hp).1).1
    have hall : ∀ id ∈ e.ids, ∃ p, e.entryAt id = some p := by
      intro id hid
      have hc := List.getElem?_eq_getElem (List.mem_range.mp hid)
      obtain ⟨r, hr, -⟩ := h.coherent.record hc
      exact ⟨_, entryAt_of_record hc hr⟩
    obtain ⟨q, hq, hpq⟩ := (round_stop h.coherent hup hall).entry List.nodup_range hp
    rw [if_pos hi] at hpq
    rw [stop, hup]
    exact ⟨q, hq, hpq.turns (fun _ _ => id) id⟩
  | startChannel id =>
    obtain ⟨rfl, rfl⟩ := Prod.mk.inj (Option.some.inj hop)
    exact turns_of_led (touches_startChannel e id) hp (fun h => h)
      (fun _ _ hi => Or.imp_right fun hs => ⟨hi, hs⟩) fun _ _ => .inl rfl
  | stopChannel id =>
    obtain ⟨rfl, rfl⟩ := Prod.mk.inj (Option.some.inj hop)
    exact turns_of_led (touches_stopChannel h.coherent hup id) hp (fun h => h)
      (fun _ _ hi ht => by simp only [Operation.Moves, if_pos hi, ht])
      fun _ hi => by simp only [Operation.Moves, if_neg hi]
  | suspendChannel id =>
    obtain ⟨rfl, rfl⟩ := Prod.mk.inj (Option.some.inj hop)
    exact turns_of_led (touches_suspendChannel e id) hp (fun h => h)
      (fun _ _ hi => Or.imp_right fun hs => ⟨hi, hs⟩) fun _ _ => .inl rfl
  | resumeChannel id =>
    obtain ⟨rfl, rfl⟩ := Prod.mk.inj (Option.some.inj hop)
    exact turns_of_led (touches_resumeChannel e id) hp (fun h => h)
      (fun _ _ hi => Or.imp_right fun hs => ⟨hi, hs⟩) fun _ _ => .inl rfl
  | reinitChannel id =>
    obtain ⟨rfl, rfl⟩ := Prod.mk.inj (Option.some.inj hop)
    refine turns_of_touches (touches_reinitChannel h.coherent hup id) hp (fun q hi hpq => ?_)
      fun hi => by simp only [Operation.Moves, if_neg hi]
    subst hi
    refine ⟨?_, fun hne => absurd rfl hne, False.elim, False.elim, False.elim⟩
    simpa only [Operation.Moves, if_pos] using hpq
  | enqueue id direction buffer length =>
    rw [Operation.eq_of_enqueue hop]
    exact turns_of_led (touches_enqueue e id direction buffer length) hp (fun h => h)
      (fun _ _ _ => Eq.symm) fun _ _ => rfl
  | pollReclaim id direction =>
    rw [Operation.eq_of_pollReclaim hop]
    exact turns_of_led (touches_pollReclaim e id direction) hp (fun h => h)
      (fun _ _ _ => Eq.symm) fun _ _ => rfl
  | onInterrupt =>
    obtain ⟨rfl, rfl⟩ := Prod.mk.inj (Option.some.inj hop)
    obtain ⟨q, hq, hpq⟩ := brings_onInterrupt e i p hp
    exact ⟨q, hq, hpq.turns (fun _ _ h => h) fun _ _ => ChannelState.Faults.stays⟩
  | runDeferred noise sink s =>
    obtain ⟨rfl, rfl⟩ := Prod.mk.inj (Option.some.inj hop)
    obtain ⟨q, hq, hpq⟩ := brings_runDeferred noise sink.recorded (s, []) e i p hp
    exact ⟨q, hq, hpq.turns (fun _ _ h => h) fun _ _ => ChannelState.Recovers.stays⟩
  | watchdogTick =>
    obtain ⟨rfl, rfl⟩ := Prod.mk.inj (Option.some.inj hop)
    obtain ⟨q, hq, hpq⟩ := brings_watchdogTick e i p hp
    refine ⟨q, hq, hpq.turns ?_ ?_⟩
    · rintro s t ⟨u, rfl | ⟨rfl, rfl⟩, rfl | ⟨hu, rfl⟩⟩
      · exact .inl rfl
      · exact .inr (.inr ⟨hu, rfl⟩)
      · exact .inr (.inl ⟨rfl, rfl⟩)
      · exact .inl rfl
    · rintro s t ⟨u, hsu, hut⟩ hs
      obtain rfl := hsu.stays hs
      exact hut.stays hs
  | recoverChannel id =>
    obtain ⟨rfl, rfl⟩ := Prod.mk.inj (Option.some.inj hop)
    exact turns_of_touches (touches_recoverChannel e id) hp
      (fun q hi hpq => hpq.turns (fun _ _ => Or.imp_right fun hs => ⟨hi, hs⟩)
        fun _ _ => ChannelState.Recovers.stays) fun _ => .inl rfl
  | setRecoveryPolicy id policy =>
    obtain ⟨rfl, rfl⟩ := Prod.mk.inj (Option.some.inj hop)
    have hset : Touches i (Led (· = ·)) e (e.setRecoveryPolicy id policy).2 := by
      unfold setRecoveryPolicy
      split
      · exact hstill
      · exact hstill.aside rfl rfl
    exact turns_of_led hset hp (fun h => h) (fun _ _ _ => Eq.symm) fun _ _ => rfl
  | clearStats =>
    obtain ⟨rfl, rfl⟩ := Prod.mk.inj (Option.some.inj hop)
    exact turns_of_led (hstill.aside rfl rfl) hp (fun h => h) (fun _ _ _ => Eq.symm)
      fun _ _ => rfl
  | resetChannelStats id =>
    obtain ⟨rfl, rfl⟩ := Prod.mk.inj (Option.some.inj hop)
    exact turns_of_led (touches_resetChannelStats e id) hp (fun h => h) (fun _ _ _ => Eq.symm)
      fun _ _ => rfl

/-- After any history of an engine, every operation but going down turns each channel along an edge
of the diagram, and a channel that is at rest afterwards has its rings halted. -/
theorem moves_along_diagram {config : Config} {m : Machine β} {moments : List (Moment σ β)}
    {told : Story β} (h : live moments (new config m) = some (told, e))
    (hop : op.perform e = some (seen, e')) (hdeinit : op ≠ .deinit) {c : Channel β}
    (hc : e.channels[i]? = some c) :
    ∃ r d s, e.monitor.records[i]? = some r ∧ e'.channels[i]? = some d ∧
      e'.monitor.records[i]? = some s ∧ op.Turns i (c, r) (d, s) ∧
      (s.IsResting → d.running = false ∧ ∀ direction, (d.ring direction).enabled = false) := by
  have hsteady := steady_of_live h
  obtain ⟨r, hr, -⟩ := hsteady.coherent.record hc
  obtain ⟨⟨d, s⟩, hq, hturns⟩ :=
    turns_of_perform hsteady hop hdeinit (entryAt_of_record hc hr)
  obtain ⟨hd, hs⟩ := entryAt_eq_some.mp hq
  have hcoherent := coherent_of_perform hsteady.idleEmpty hsteady.coherent hop
  exact ⟨r, d, s, hr, hd, hs, hturns, hcoherent.halted hq⟩

/-- The watchdog leaves a suspended channel where it is. -/
theorem moves_along_diagram_trip : ∃ told e seen e' s,
    live faultTrip (new .bench .bench) = some (told, e) ∧
      (Operation.watchdogTick : Operation Unit Nat).perform e = some (seen, e') ∧
      e'.monitor.records[1]? = some s ∧ s.state = .suspended := by
  have htables : (live faultTrip (new .bench .bench)).map (fun r =>
      (r.2.monitor.records.map (·.state), r.2.channels.map (·.running))) =
        some ([.error, .suspended], [true, false]) := by decide +kernel
  obtain ⟨⟨told, e⟩, h, htables⟩ := Option.map_eq_some_iff.mp htables
  obtain ⟨hstates, hrunning⟩ := Prod.mk.inj htables
  have hc : (e.channels.map (·.running))[1]? = some false := congrArg (·[1]?) hrunning
  have hr : (e.monitor.records.map (·.state))[1]? = some .suspended := congrArg (·[1]?) hstates
  rw [List.getElem?_map] at hc hr
  obtain ⟨c, hc, -⟩ := Option.map_eq_some_iff.mp hc
  obtain ⟨r, hr, hstate⟩ := Option.map_eq_some_iff.mp hr
  have hop : (Operation.watchdogTick : Operation Unit Nat).perform e =
      some ([], e.watchdogTick.2) := rfl
  obtain ⟨r', d, s, hr', hd, hs, hturns, -⟩ :=
    moves_along_diagram h hop (by simp) hc
  obtain rfl := Option.some.inj (hr.symm.trans hr')
  exact ⟨told, e, [], _, s, h, hop, hs, (hturns.stays trivial (.inr hstate)).trans hstate⟩

end Engine

end PacketDma
