import PacketDma.Engine.Control
import PacketDma.Engine.Transfer
import PacketDma.Proofs.Plant

/-!
# Operations as runs

Each operation of an engine that is up is a run of its plant, and its story is told: the buffers
that the caller posts or gets back, and what is discarded. The configuration, the register base and
the policies stay as they are.

## Implementation notes

Operations are followed in the order in which they act: `Works` is carried from one intermediate
engine to the next. Bookkeeping that leaves the plant alone is passed over.
-/

namespace PacketDma.Engine

variable {β : Type}

/-- What stays as it is while the engine is up and the owner leaves its settings alone. -/
def standing (e : Engine β) : Config × Nat × Bool × PolicyTable :=
  (e.config, e.base, e.initialized, e.policies)

/-- The second engine is the first one after work that this story tells of. Registers of the device
are written only at allowed bases. -/
structure Works (uses : Nat → Prop) (e : Engine β) (story : Story β) (e' : Engine β) :
    Prop where
  standing_eq : e'.standing = e.standing
  run : Plant.Run e.config uses e.plant story e'.plant

namespace Works

variable {uses : Nat → Prop} {e e' e'' : Engine β} {story later : Story β}

theorem config_eq (h : Works uses e story e') : e'.config = e.config :=
  congrArg (·.1) h.standing_eq

theorem base_eq (h : Works uses e story e') : e'.base = e.base :=
  congrArg (·.2.1) h.standing_eq

theorem initialized_eq (h : Works uses e story e') : e'.initialized = e.initialized :=
  congrArg (·.2.2.1) h.standing_eq

theorem policies_eq (h : Works uses e story e') : e'.policies = e.policies :=
  congrArg (·.2.2.2) h.standing_eq

theorem refl (uses : Nat → Prop) (e : Engine β) : Works uses e [] e := ⟨rfl, .refl⟩

theorem trans (h : Works uses e story e') (h' : Works uses e' later e'') :
    Works uses e (story ++ later) e'' :=
  ⟨h'.standing_eq.trans h.standing_eq, h.run.trans (h.config_eq ▸ h'.run)⟩

theorem andThen (h : Works uses e story e') (h' : Works uses e' [] e'') :
    Works uses e story e'' := by
  simpa only [List.append_nil] using h.trans h'

/-- Bookkeeping: the channels stay, and no register is written. -/
theorem aside (h : Works uses e story e') (hs : e''.standing = e'.standing)
    (hc : e''.channels = e'.channels)
    (hq : e'.machine.Quiet (fun _ => False) e''.machine) : Works uses e story e'' := by
  have hrun : Plant.Run e'.config uses e'.plant [] e''.plant := by
    rw [plant, plant, hc]
    exact Plant.run_still hq
  exact h.andThen ⟨hs, hrun⟩

theorem monitor (h : Works uses e story e') (monitor : Monitor) :
    Works uses e story { e' with monitor := monitor } := h.aside rfl rfl (.refl _)

theorem queue (h : Works uses e story e') (work : WorkQueue) :
    Works uses e story { e' with work := work } := h.aside rfl rfl (.refl _)

theorem count (h : Works uses e story e') (f : EngineStats → EngineStats) :
    Works uses e story (e'.count f) := h.aside rfl rfl (.refl _)

theorem log (h : Works uses e story e') (level : LogLevel) (text : String) :
    Works uses e story (e'.log level text) :=
  h.aside rfl rfl ((Machine.Quiet.refl _).log level text)

theorem now (h : Works uses e story e') : Works uses e story e'.now.2 :=
  h.aside rfl rfl (Machine.Quiet.refl _).now

theorem post (h : Works uses e story e') (id : Nat) (work : Work) :
    Works uses e story (e'.post id work) :=
  h.aside rfl rfl ((Machine.Quiet.refl _).wake _)

/-- A channel of the engine acts. -/
theorem act (h : Works uses e story e') {id : Nat} {c c' : Channel β} {m' : Machine β}
    {now : List (Passage β)} (hc : e'.channels[id]? = some c)
    (hrun : Channel.Run e'.config c e'.machine now c' m') :
    Works uses e (story ++ now.map (id, ·)) (e'.put id c' m') := by
  have hput : Plant.Run e'.config uses e'.plant (now.map (id, ·)) (e'.put id c' m').plant :=
    Plant.run_channel uses hc hrun
  exact h.trans ⟨rfl, hput⟩

/-- A channel of the engine acts without passages. -/
theorem put (h : Works uses e story e') {id : Nat} {c c' : Channel β} {m' : Machine β}
    (hc : e'.channels[id]? = some c) (hrun : Channel.Run e'.config c e'.machine [] c' m') :
    Works uses e story (e'.put id c' m') := by
  simpa only [List.map_nil, List.append_nil] using h.act hc hrun

/-- A channel of the engine looks at its registers. -/
theorem look (h : Works uses e story e') {id : Nat} {c : Channel β} {m' : Machine β}
    (hc : e'.channels[id]? = some c) (hrun : Channel.Run e'.config c e'.machine [] c m') :
    Works uses e story { e' with machine := m' } := by
  have hput := h.put hc hrun
  obtain ⟨_, hget⟩ := List.getElem?_eq_some_iff.mp hc
  rwa [Engine.put, ← hget, List.set_getElem_self] at hput

end Works

section Access

variable {e : Engine β} {id : Nat} {c : Channel β}

theorem channels_of_channel?_ok (h : e.channel? id = .ok c) : e.channels[id]? = some c := by
  unfold channel? at h
  split at h
  · simp at h
  · split at h
    next hc => rw [hc, Except.ok.inj h]
    next => simp at h

theorem channel?_of_usable?_ok (h : e.usable? id = .ok c) :
    e.channel? id = .ok c ∧ e.monitor.downError? id = none := by
  unfold usable? at h
  split at h
  · simp at h
  next hc =>
    split at h
    · simp at h
    next hdown => exact ⟨Except.ok.inj h ▸ hc, hdown⟩

theorem channels_of_usable?_ok (h : e.usable? id = .ok c) : e.channels[id]? = some c :=
  channels_of_channel?_ok (channel?_of_usable?_ok h).1

end Access

/-! ### Starting and stopping -/

variable {uses : Nat → Prop}

theorem works_haltChannel (e : Engine β) (id : Nat) :
    Works uses e [] (e.haltChannel id).2 := by
  unfold haltChannel
  split
  · exact .refl _ _
  next c hc => exact (Works.refl _ _).put hc (c.run_stop e.config e.machine)

theorem works_startChannel (e : Engine β) (id : Nat) :
    Works uses e [] (e.startChannel id).2 := by
  unfold startChannel
  split
  · exact .refl _ _
  next c hu =>
    have hc := channels_of_usable?_ok hu
    split
    · exact .refl _ _
    · have hrun := c.run_start e.config e.machine
      split
      next x d m hstart =>
        rw [hstart] at hrun
        exact (Works.refl _ _).put hc hrun
      next d m hstart =>
        rw [hstart] at hrun
        have hnow : Works uses e [] (e.put id d m).now.2 :=
          ((Works.refl _ _).put hc hrun).now
        dsimp only
        split
        · exact hnow.monitor _
        · exact (hnow.monitor _).log _ _
    · exact .refl _ _

theorem works_stopChannel (e : Engine β) (id : Nat) :
    Works uses e [] (e.stopChannel id).2 := by
  unfold stopChannel
  split
  · exact .refl _ _
  · split
    · exact (Works.refl _ e).monitor _
    · exact ((Works.refl _ e).monitor _).andThen (works_haltChannel _ id)

theorem works_suspendChannel (e : Engine β) (id : Nat) :
    Works uses e [] (e.suspendChannel id).2 := by
  unfold suspendChannel
  split
  · exact .refl _ _
  · split
    · exact (Works.refl _ e).monitor _
    · exact ((Works.refl _ e).monitor _).andThen (works_haltChannel _ id)

/-- What every action on a channel does, actions on several channels do. -/
theorem works_eachChannel {act : Engine β → Nat → Except Error Unit × Engine β}
    (hact : ∀ e id, Works uses e [] (act e id).2) (ids : List Nat) (e : Engine β) :
    Works uses e [] (eachChannel act ids e).2 := by
  induction ids generalizing e with
  | nil => exact .refl _ _
  | cons id rest ih =>
    have h := hact e id
    unfold eachChannel
    split
    next x e' he => rwa [he] at h
    next e' he =>
      rw [he] at h
      exact h.andThen (ih e')

theorem works_start (e : Engine β) : Works uses e [] e.start.2 := by
  unfold start
  split
  · exact .refl _ _
  · exact works_eachChannel works_startChannel _ _

theorem works_stop (e : Engine β) : Works uses e [] e.stop.2 := by
  unfold stop
  split
  · exact .refl _ _
  · exact works_eachChannel works_stopChannel _ _

theorem works_resumeChannel (e : Engine β) (id : Nat) :
    Works uses e [] (e.resumeChannel id).2 := by
  unfold resumeChannel
  split
  · exact .refl _ _
  next c hu =>
    have hc := channels_of_usable?_ok hu
    have hnow : Works uses e [] e.now.2 := (Works.refl _ e).now
    dsimp only
    split
    · exact hnow.monitor _
    next monitor _ =>
      exact (hnow.monitor monitor).put hc (c.run_start e.config e.now.2.machine)
    · exact ((hnow.monitor _).post _ _).log _ _

/-- What setting a channel up anew discards: everything in flight, unless there is no such channel
or an attempt is under way. -/
def reinitDiscards (e : Engine β) (id : Nat) : List (Nat × Discard) :=
  match e.channel? id, (e.monitor.reset id).1 with
  | .ok _, .ok () => [(id, .reinit)]
  | _, _ => []

theorem works_reinitChannel (e : Engine β) (id : Nat) :
    Works uses e (.ofDiscards (e.reinitDiscards id)) (e.reinitChannel id).2 := by
  unfold reinitChannel reinitDiscards
  cases hu : e.channel? id with
  | error x => exact .refl _ _
  | ok c =>
    have hc := channels_of_channel?_ok hu
    dsimp only
    cases e.monitor.reset id with
    | mk result monitor =>
      cases result with
      | error x => exact (Works.refl _ e).monitor _
      | ok =>
        have hhalted := c.running_stop e.machine
        have hstop := c.run_stop e.config e.machine
        have hpulse := hstop.andThen (.pulse e.config.channelResetUs)
        have hclear := hpulse.trans (Channel.run_clearErrors e.config _ .all _)
        have hrenew := hclear.step (.reset .reinit hhalted)
        have hprogram := hrenew.trans (Channel.run_program e.config _ _)
        have hput := ((Works.refl uses e).monitor monitor).act hc hprogram
        dsimp only
        split
        · exact hput.log _ _
        · exact (hput.log _ _).andThen (works_startChannel _ id)

/-! ### Posting and taking back -/

theorem of_enqueue_ok {e e' : Engine β} {id : Nat} {direction : Direction} {buffer : β}
    {length : Nat} (h : e.enqueue id direction buffer length = (.ok (), e')) :
    ∃ c c' m' f, e.channels[id]? = some c ∧
      c.enqueue direction buffer length e.machine = (.ok (), c', m') ∧
      e' = (e.put id c' m').count f := by
  unfold enqueue at h
  split at h
  · simp at h
  next c hu =>
    split at h
    next d m hd =>
      obtain rfl := (Prod.mk.inj h).2
      exact ⟨c, d, m, _, channels_of_usable?_ok hu, hd, rfl⟩
    next =>
      dsimp only at h
      split at h <;> simp at h

theorem works_enqueue_ok {e e' : Engine β} {id : Nat} {direction : Direction} {buffer : β}
    {length : Nat} (h : e.enqueue id direction buffer length = (.ok (), e')) :
    Works uses e [(id, .accepted direction buffer)] e' := by
  obtain ⟨c, c', m', f, hc, hposted, rfl⟩ := of_enqueue_ok h
  exact ((Works.refl _ e).act hc (Channel.run_enqueue_ok hposted)).count f

theorem works_enqueue_error {e e' : Engine β} {id : Nat} {direction : Direction} {buffer : β}
    {length : Nat} {r : Rejection β}
    (h : e.enqueue id direction buffer length = (.error r, e')) : Works uses e [] e' := by
  unfold enqueue at h
  split at h
  · obtain rfl := (Prod.mk.inj h).2
    exact .refl _ _
  next c hu =>
    have hc := channels_of_usable?_ok hu
    split at h
    next => simp at h
    next d m hd =>
      have hput := (Works.refl uses e).put hc (Channel.run_enqueue_error hd).1
      dsimp only at h
      split at h
      · obtain rfl := (Prod.mk.inj h).2
        exact (hput.monitor _).count _
      · obtain rfl := (Prod.mk.inj h).2
        exact hput

theorem works_pollReclaim_some {e e' : Engine β} {id : Nat} {direction : Direction}
    {t : Completion β} (h : e.pollReclaim id direction = (.ok (some t), e')) :
    Works uses e [(id, .delivered direction t.buffer)] e' := by
  unfold pollReclaim at h
  split at h
  · simp at h
  next c hu =>
    have hc := channels_of_usable?_ok hu
    split at h
    · simp at h
    next u d m hd =>
      obtain ⟨ht, he⟩ := Prod.mk.inj h
      obtain rfl := Option.some.inj (Except.ok.inj ht)
      obtain rfl := he
      exact ((Works.refl _ e).act hc (Channel.run_reclaim_some hd)).count _

theorem works_pollReclaim_none {e e' : Engine β} {id : Nat} {direction : Direction}
    {result : Except Error (Option (Completion β))}
    (h : e.pollReclaim id direction = (result, e')) (hnone : ∀ t, result ≠ .ok (some t)) :
    Works uses e [] e' := by
  unfold pollReclaim at h
  split at h
  · obtain rfl := (Prod.mk.inj h).2
    exact .refl _ _
  next c hu =>
    have hc := channels_of_usable?_ok hu
    split at h
    next d m hd =>
      obtain rfl := (Prod.mk.inj h).2
      exact (Works.refl _ e).put hc (Channel.run_reclaim_none hd)
    next t d m hd => exact absurd (Prod.mk.inj h).1.symm (hnone t)

theorem works_resetChannelStats (e : Engine β) (id : Nat) :
    Works uses e [] (e.resetChannelStats id).2 := by
  unfold resetChannelStats
  split
  · exact .refl _ _
  · exact (Works.refl _ e).monitor _

end PacketDma.Engine
