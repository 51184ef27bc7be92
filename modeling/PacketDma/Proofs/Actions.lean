import Mathlib.Logic.Relation
import PacketDma.Proofs.History

/-!
# Actions

Between going up and going down, all that the engine does to its channels are a few actions. An
action changes one channel and writes to the registers of that channel only, and no register is
written outside of an action, the acknowledgement of interrupts apart.

## Implementation notes

A run of steps forgets which words go to the registers. An action remembers them, since it is what a
channel does as a whole: emptied or replaced rings are programmed in the same action.
-/

namespace PacketDma

variable {β : Type}

/-! ### Effects besides the registers -/

namespace Channel

open Machine

theorem registers_discardSlots (channel : Nat) (direction : Direction) (slots : List (Slot β))
    (m : Machine β) : (discardSlots channel direction slots m).registers = m.registers := by
  induction slots generalizing m with
  | nil => rfl
  | cons s rest ih => exact ih _

theorem registers_releaseRing (channel : Nat) (direction : Direction) (r : Ring β)
    (m : Machine β) : (releaseRing channel direction r m).2.2.registers = m.registers := by
  unfold releaseRing
  dsimp only
  split
  · exact registers_discardSlots channel direction r.slots m
  · exact registers_discardSlots channel direction r.slots m

theorem registers_buildRing (config : Config) (capacity : Nat) (m : Machine β) :
    (buildRing config capacity m).2.registers = m.registers := by
  unfold buildRing
  dsimp only
  split
  next he => exact registers_of_reserve he
  next r n he =>
    have hmap := n.registers_mapArray (r.capacity * Descriptor.bytes)
    have hreserve := registers_of_reserve he
    split <;> simp_all only

theorem registers_buildRings (channel : Nat) (config : Config) (m : Machine β) :
    (buildRings channel config m).2.registers = m.registers := by
  have htx := registers_buildRing config config.txRingSize m
  unfold buildRings
  split
  next he => rwa [he] at htx
  next tx m₁ he =>
    rw [he] at htx
    have hrx := (registers_buildRing config config.rxRingSize m₁).trans htx
    split
    next he' =>
      rw [he'] at hrx
      exact (registers_releaseRing channel .toDevice tx _).trans hrx
    next he' => rwa [he'] at hrx

theorem registers_resetRings (c : Channel β) (m : Machine β) :
    (c.resetRings m).2.2.registers = m.registers :=
  (registers_discardSlots c.id .fromDevice c.rx.slots _).trans
    (registers_discardSlots c.id .toDevice c.tx.slots m)

theorem registers_reloadRings (c : Channel β) (config : Config) (m : Machine β) :
    (c.reloadRings config m).2.2.registers = m.registers := by
  have hbuild := registers_buildRings c.id config m
  unfold reloadRings
  split
  next he => rwa [he] at hbuild
  next he =>
    rw [he] at hbuild
    exact ((registers_releaseRing _ _ _ _).trans (registers_releaseRing _ _ _ _)).trans hbuild

/-! ### One channel -/

/-- What a channel does at a time. -/
inductive Act (config : Config) : Channel β × Machine β → Channel β × Machine β → Prop where
  /-- Something that no register shows. -/
  | aside {c : Channel β} {m m' : Machine β} (h : m'.registers = m.registers) :
      Act config (c, m) (c, m')
  /-- It looks for faults. -/
  | look (c : Channel β) (m : Machine β) : Act config (c, m) (c, (c.errorStatus m).2)
  /-- It clears faults. -/
  | clear (c : Channel β) (m : Machine β) (faults : FaultSet) :
      Act config (c, m) (c, c.clearErrors faults m)
  /-- It goes through its local reset. -/
  | pulse (c : Channel β) (m : Machine β) (us : Nat) : Act config (c, m) (c, c.pulseReset us m)
  /-- It tells the device about its rings once more. -/
  | program (c : Channel β) (m : Machine β) : Act config (c, m) (c, c.program m)
  /-- It runs its rings. -/
  | start (c : Channel β) (m : Machine β) : Act config (c, m) (c.start m).2
  /-- It halts its rings. -/
  | stop (c : Channel β) (m : Machine β) : Act config (c, m) (c.stop m).2
  /-- It posts a buffer. -/
  | enqueue (c : Channel β) (m : Machine β) (direction : Direction) (buffer : β) (length : Nat) :
      Act config (c, m) (c.enqueue direction buffer length m).2
  /-- It takes a buffer back. -/
  | reclaim (c : Channel β) (m : Machine β) (direction : Direction) :
      Act config (c, m) (c.reclaim direction m).2
  /-- It empties its rings, and tells the device. -/
  | empty (c : Channel β) (m : Machine β) :
      Act config (c, m) ((c.resetRings m).2.1, (c.resetRings m).2.1.program (c.resetRings m).2.2)
  /-- It replaces its rings, and tells the device. -/
  | reload {c c' : Channel β} {m m' : Machine β} {k : Nat}
      (h : c.reloadRings config m = (.ok k, c', m')) : Act config (c, m) (c', c'.program m')
  /-- The device writes to its descriptors. -/
  | overwrite (c : Channel β) (m : Machine β) (f : Direction → Nat → Descriptor → Descriptor) :
      Act config (c, m) (c.overwrite f, m)

/-- What a channel does one after the other. -/
def Acts (config : Config) : Channel β × Machine β → Channel β × Machine β → Prop :=
  Relation.ReflTransGen (Act config)

namespace Acts

variable {config : Config} {s t u : Channel β × Machine β}

theorem refl (config : Config) (s : Channel β × Machine β) : Acts config s s :=
  Relation.ReflTransGen.refl

theorem single (h : Act config s t) : Acts config s t := Relation.ReflTransGen.single h

theorem andThen (h : Acts config s t) (ht : Act config t u) : Acts config s u :=
  Relation.ReflTransGen.tail h ht

theorem trans (h : Acts config s t) (h' : Acts config t u) : Acts config s u :=
  Relation.ReflTransGen.trans h h'

end Acts

variable {config : Config} {c c' : Channel β} {m m' : Machine β}

/-- Renewing the rings is an action, also if no new ones can be made. -/
theorem acts_renewRings (config : Config) (c : Channel β) (action : RecoveryAction)
    (faults : FaultSet) (m : Machine β) :
    Acts config (c, m) (c.renewRings action faults config m).2 := by
  cases action with
  | none => exact .refl _ _
  | restart => exact .refl _ _
  | reinit => exact .single (.empty c m)
  | reset =>
    simp only [renewRings]
    split
    · exact .single (.empty c m)
    · exact .single (.program c m)
  | reload =>
    have hregisters := c.registers_reloadRings config m
    simp only [renewRings]
    split
    next e c' m' hfailed =>
      rw [hfailed] at hregisters
      have hsame : c' = c := by
        unfold reloadRings at hfailed
        split at hfailed
        · exact (Prod.mk.inj (Prod.mk.inj hfailed).2).1.symm
        · simp at hfailed
      rw [hsame]
      exact .single (.aside hregisters)
    next hloaded => exact .single (.reload hloaded)

/-- A recovery attempt comes to the rings by actions. -/
theorem acts_readied (config : Config) (c : Channel β) (action : RecoveryAction)
    (faults : FaultSet) (m : Machine β) :
    Acts config (c, m) (c.readied action faults config m) := by
  unfold readied
  generalize hlog : m.log .debug _ = m₀
  have hlogged : Acts config (c, m) (c, m₀) := hlog ▸ .single (.aside rfl)
  have hstop := hlogged.andThen (.stop c m₀)
  dsimp only
  split
  · exact (hstop.andThen (.pulse _ _ config.channelResetUs)).andThen (.clear _ _ .all)
  · exact hstop.andThen (.clear _ _ .all)

/-- A recovery attempt consists of actions, wherever it ends. -/
theorem acts_recover (config : Config) (c : Channel β) (action : RecoveryAction)
    (faults : FaultSet) (m : Machine β) :
    Acts config (c, m) (c.recover action faults config m).2 := by
  unfold recover
  split
  · exact .refl _ _
  dsimp only
  have hready := acts_readied config c action faults m
  generalize c.readied action faults config m = readied at hready ⊢
  obtain ⟨c₁, m₁⟩ := readied
  dsimp only
  have hrenew := hready.trans (acts_renewRings config c₁ action faults m₁)
  split
  next he => rwa [he] at hrenew
  next c₂ m₂ he =>
    rw [he] at hrenew
    have hstart := hrenew.andThen (.start c₂ m₂)
    split
    next he' => rwa [he'] at hstart
    next c₃ m₃ he' =>
      rw [he'] at hstart
      exact hstart.andThen (.look c₃ m₃)

end Channel

/-! ### All channels -/

/-- What an engine does with one of its channels at a time. -/
inductive Plant.Act (config : Config) : Plant β → Plant β → Prop where
  | channel {p : Plant β} {id : Nat} {c : Channel β} {t : Channel β × Machine β}
      (hc : p.channels[id]? = some c) (h : Channel.Act config (c, p.machine) t) :
      Act config p ⟨p.channels.set id t.1, t.2⟩
  | aside {p : Plant β} {m : Machine β} (h : m.registers = p.machine.registers) :
      Act config p ⟨p.channels, m⟩

/-- What an engine does with its channels one after the other. -/
def Plant.Acts (config : Config) : Plant β → Plant β → Prop :=
  Relation.ReflTransGen (Plant.Act config)

theorem Plant.acts_channel {config : Config} {channels : List (Channel β)} {id : Nat}
    {c : Channel β} {m : Machine β} {t : Channel β × Machine β} (hc : channels[id]? = some c)
    (h : Channel.Acts config (c, m) t) :
    Plant.Acts config ⟨channels, m⟩ ⟨channels.set id t.1, t.2⟩ := by
  obtain ⟨hlt, hget⟩ := List.getElem?_eq_some_iff.mp hc
  induction h with
  | refl =>
    rw [← hget, List.set_getElem_self]
    exact .refl
  | @tail s u _ hact ih =>
    have hlast : Plant.Act config ⟨channels.set id s.1, s.2⟩
        ⟨(channels.set id s.1).set id u.1, u.2⟩ := .channel (List.getElem?_set_self hlt) hact
    rw [List.set_set] at hlast
    exact ih.tail hlast

namespace Engine

/-- What only going up and going down change. -/
def footing (e : Engine β) : Config × Nat × Bool × Bool :=
  (e.config, e.base, e.initialized, e.enabled)

/-- The second engine is the first one after actions of its channels. -/
structure Acts (e e' : Engine β) : Prop where
  footing_eq : e'.footing = e.footing
  acts : Plant.Acts e.config e.plant e'.plant

namespace Acts

variable {e e' e'' : Engine β}

theorem config_eq (h : Acts e e') : e'.config = e.config := congrArg (·.1) h.footing_eq

theorem base_eq (h : Acts e e') : e'.base = e.base := congrArg (·.2.1) h.footing_eq

theorem initialized_eq (h : Acts e e') : e'.initialized = e.initialized :=
  congrArg (·.2.2.1) h.footing_eq

theorem enabled_eq (h : Acts e e') : e'.enabled = e.enabled := congrArg (·.2.2.2) h.footing_eq

theorem refl (e : Engine β) : Acts e e := ⟨rfl, .refl⟩

theorem trans (h : Acts e e') (h' : Acts e' e'') : Acts e e'' :=
  ⟨h'.footing_eq.trans h.footing_eq, h.acts.trans (h.config_eq ▸ h'.acts)⟩

/-- Bookkeeping: the channels stay, and no register shows it. -/
theorem aside (h : Acts e e') (hf : e''.footing = e'.footing) (hc : e''.channels = e'.channels)
    (hr : e''.machine.registers = e'.machine.registers) : Acts e e'' := by
  have hplant : Plant.Acts e'.config e'.plant e''.plant := by
    rw [plant, plant, hc]
    exact .single (.aside hr)
  exact h.trans ⟨hf, hplant⟩

theorem machine (h : Acts e e') {m : Machine β} (hr : m.registers = e'.machine.registers) :
    Acts e { e' with machine := m } := h.aside rfl rfl hr

theorem monitor (h : Acts e e') (monitor : Monitor) : Acts e { e' with monitor := monitor } :=
  h.aside rfl rfl rfl

theorem queue (h : Acts e e') (work : WorkQueue) : Acts e { e' with work := work } :=
  h.aside rfl rfl rfl

theorem count (h : Acts e e') (f : EngineStats → EngineStats) : Acts e (e'.count f) :=
  h.aside rfl rfl rfl

theorem log (h : Acts e e') (level : LogLevel) (text : String) : Acts e (e'.log level text) :=
  h.aside rfl rfl rfl

theorem now (h : Acts e e') : Acts e e'.now.2 := h.aside rfl rfl rfl

theorem post (h : Acts e e') (id : Nat) (work : Work) : Acts e (e'.post id work) :=
  h.aside rfl rfl (Machine.registers_wake _ _)

/-- A channel of the engine acts. -/
theorem put (h : Acts e e') {id : Nat} {c c' : Channel β} {m' : Machine β}
    (hc : e'.channels[id]? = some c) (ht : Channel.Acts e'.config (c, e'.machine) (c', m')) :
    Acts e (e'.put id c' m') :=
  h.trans ⟨rfl, Plant.acts_channel hc ht⟩

/-- A channel of the engine looks for faults. -/
theorem look (h : Acts e e') {id : Nat} {c : Channel β} (hc : e'.channels[id]? = some c) :
    Acts e { e' with machine := (c.errorStatus e'.machine).2 } := by
  have hput := h.put hc (.single (.look c e'.machine))
  have hset : e'.channels.set id c = e'.channels := by
    obtain ⟨_, rfl⟩ := List.getElem?_eq_some_iff.mp hc
    exact List.set_getElem_self _
  rwa [Engine.put, hset] at hput

end Acts

end Engine

end PacketDma
