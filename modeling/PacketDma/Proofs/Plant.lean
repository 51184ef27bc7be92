import PacketDma.Engine.Lifecycle
import PacketDma.Proofs.ChannelRun

/-!
# Runs of all channels

The plant is what an engine works on: its channels and the machine. A run of the plant lets its
channels take steps in any order, touches registers of the device as a whole, makes channels, and
gives all of them up at once. Its story tells which buffers moved on which channel.

## Implementation notes

An operation of the engine shows its caller the buffers that were accepted and delivered, not those
that were discarded. So what is discarded is a list of its own, and the story of an operation is
what was seen and then what was discarded.
-/

namespace PacketDma

/-- Passages of buffers, each with the number of its channel, the first one first. -/
abbrev Story (β : Type) := List (Nat × Passage β)

/-- The channels of an engine and the machine they act on. -/
structure Plant (β : Type) where
  /-- The channels, by number. -/
  channels : List (Channel β)
  /-- The machine. -/
  machine : Machine β

/-- How many channels an engine may have: as many as its device, and no more than any engine. -/
def Config.channelLimit (config : Config) : Nat := min config.capabilities.maxChannels maxChannels

theorem Config.channelLimit_le (config : Config) : config.channelLimit ≤ maxChannels :=
  Nat.min_le_right ..

/-- What takes the place of an entry is found there. -/
theorem getElem?_set_of_some {α : Type} {l : List α} {i : Nat} {a : α} (h : l[i]? = some a)
    (b : α) : (l.set i b)[i]? = some b :=
  List.getElem?_set_self (List.getElem?_eq_some_iff.mp h).1

variable {β : Type}

/-- What the channels of an engine and its machine are. -/
def Engine.plant (e : Engine β) : Plant β := ⟨e.channels, e.machine⟩

/-- Whether a passage is one that the owner sees. -/
def Passage.isSeen : Passage β → Bool
  | .accepted .. | .delivered .. => true
  | .discarded _ => false

namespace Story

/-- The passages of a story that the owner sees. -/
def seen (story : Story β) : Story β := story.filter (·.2.isSeen)

theorem seen_append (story later : Story β) : seen (story ++ later) = story.seen ++ later.seen :=
  List.filter_append _ _

/-- The story of what is discarded, by channel and in order. -/
def ofDiscards (discards : List (Nat × Discard)) : Story β :=
  discards.map fun (id, cause) => (id, .discarded cause)

/-- What is discarded is not seen. -/
@[simp] theorem seen_ofDiscards (discards : List (Nat × Discard)) :
    seen (ofDiscards discards : Story β) = [] := by
  apply List.filter_eq_nil_iff.mpr
  intro entry hentry
  obtain ⟨_, _, rfl⟩ := List.mem_map.mp hentry
  exact Bool.false_ne_true

theorem ofDiscards_append (discards later : List (Nat × Discard)) :
    (ofDiscards (discards ++ later) : Story β) = ofDiscards discards ++ ofDiscards later :=
  List.map_append

/-- What one channel discards. -/
theorem ofDiscards_map (id : Nat) (causes : List Discard) :
    (ofDiscards (causes.map (id, ·)) : Story β) = (causes.map .discarded).map (id, ·) := by
  rw [ofDiscards, List.map_map, List.map_map]
  rfl

end Story

namespace Plant

variable {config : Config} {uses : Nat → Prop} {p p' p'' : Plant β}

/-- One step of a plant, and the passages of buffers in it. Registers of the device as a whole are
written only at register bases that `uses` allows. -/
inductive Step (config : Config) (uses : Nat → Prop) : Plant β → Story β → Plant β → Prop where
  | channel {p : Plant β} {id : Nat} {c c' : Channel β} {m' : Machine β}
      {now : List (Passage β)} (hc : p.channels[id]? = some c)
      (h : Channel.Step config c p.machine now c' m') :
      Step config uses p (now.map (id, ·)) ⟨p.channels.set id c', m'⟩
  | quiet {p : Plant β} {m' : Machine β}
      (h : p.machine.Quiet (fun offset => ∃ base, uses base ∧
        (DeviceRegisters.mk config.capabilities.registers base).Own offset) m') :
      Step config uses p [] ⟨p.channels, m'⟩
  | build {p : Plant β} {base : Nat} {c : Channel β} {m' : Machine β} (hbase : uses base)
      (hroom : p.channels.length < config.channelLimit)
      (h : Channel.build p.channels.length
        (base + config.capabilities.registers.channelOffset p.channels.length) config p.machine =
          (.ok c, m')) :
      Step config uses p [] ⟨p.channels ++ [c], m'⟩
  | release {p : Plant β} {now : Story β} (hhalted : ∀ c ∈ p.channels, c.running = false)
      (hnow : now = p.channels.map (fun c => (c.id, .discarded .teardown)) ∨
        now = [] ∧ ∀ c ∈ p.channels, ∀ d, (c.ring d).slots = []) :
      Step config uses p now ⟨[], (Engine.deinitChannels p.channels p.machine).2⟩

/-- Some steps of a plant in a row, and the passages of buffers in them. -/
inductive Run (config : Config) (uses : Nat → Prop) (p : Plant β) : Story β → Plant β → Prop where
  | refl : Run config uses p [] p
  | step {story now : Story β} {p' p'' : Plant β} (h : Run config uses p story p')
      (hs : Step config uses p' now p'') : Run config uses p (story ++ now) p''

namespace Run

variable {story story' : Story β}

theorem single (h : Step config uses p story p') : Run config uses p story p' := Run.refl.step h

theorem trans (h : Run config uses p story p') (h' : Run config uses p' story' p'') :
    Run config uses p (story ++ story') p'' := by
  induction h' with
  | refl => simpa only [List.append_nil] using h
  | step _ hs ih => simpa only [List.append_assoc] using ih.step hs

/-- What every step keeps, a run keeps. -/
theorem keeps {holds : Plant β → Prop}
    (hstep : ∀ p now p', Step config uses p now p' → holds p → holds p')
    (h : Run config uses p story p') (hp : holds p) : holds p' := by
  induction h with
  | refl => exact hp
  | step _ hs ih => exact hstep _ _ _ hs ih

end Run

theorem Step.mono {wider : Nat → Prop} {now : Story β} (hw : ∀ base, uses base → wider base)
    (h : Step config uses p now p') : Step config wider p now p' := by
  cases h with
  | channel hc h => exact .channel hc h
  | quiet h =>
    refine .quiet (h.mono ?_)
    intro offset ho
    obtain ⟨base, hbase, hown⟩ := ho
    exact ⟨base, hw base hbase, hown⟩
  | build hbase hroom h => exact .build (hw _ hbase) hroom h
  | release hhalted hnow => exact .release hhalted hnow

theorem Run.mono {wider : Nat → Prop} {story : Story β} (hw : ∀ base, uses base → wider base)
    (h : Run config uses p story p') : Run config wider p story p' := by
  induction h with
  | refl => exact .refl
  | step _ hs ih => exact ih.step (hs.mono hw)

/-- A run of one channel is a run of the plant. -/
theorem run_channel (uses : Nat → Prop) {channels : List (Channel β)} {m m' : Machine β} {id : Nat}
    {c c' : Channel β} {log : List (Passage β)} (hc : channels[id]? = some c)
    (h : Channel.Run config c m log c' m') :
    Run config uses ⟨channels, m⟩ (log.map (id, ·)) ⟨channels.set id c', m'⟩ := by
  obtain ⟨hlt, hget⟩ := List.getElem?_eq_some_iff.mp hc
  induction h with
  | refl =>
    rw [List.map_nil, ← hget, List.set_getElem_self]
    exact .refl
  | @step _ now c₁ c₂ m₁ m₂ _ hs ih =>
    have hlast : Step config uses ⟨channels.set id c₁, m₁⟩ (now.map (id, ·))
        ⟨(channels.set id c₁).set id c₂, m₂⟩ := .channel (List.getElem?_set_self hlt) hs
    rw [List.set_set] at hlast
    rw [List.map_append]
    exact ih.step hlast

/-- Effects that write to no register are a run. -/
theorem run_still {channels : List (Channel β)} {m m' : Machine β}
    (h : m.Quiet (fun _ => False) m') :
    Run config uses ⟨channels, m⟩ [] ⟨channels, m'⟩ :=
  .single (.quiet (h.mono fun _ hf => hf.elim))

/-- Effects that write to registers of the device only are a run. -/
theorem run_device {channels : List (Channel β)} {m m' : Machine β} {base : Nat}
    (hbase : uses base)
    (h : m.Quiet (DeviceRegisters.mk config.capabilities.registers base).Own m') :
    Run config uses ⟨channels, m⟩ [] ⟨channels, m'⟩ :=
  .single (.quiet (h.mono fun _ ho => ⟨base, hbase, ho⟩))

end Plant

end PacketDma
