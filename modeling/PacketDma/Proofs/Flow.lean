import PacketDma.Proofs.Plant

/-!
# The flow of buffers through a channel

Each step of a channel moves at most one buffer in or out, at the ends of one queue, or empties both
queues. The mappings it makes and gives up are those of the buffers that it moves.

## Implementation notes

The flow of a step is all that the accounts of buffers and of mappings need of it.
-/

namespace PacketDma

variable {β : Type}

/-- Whether an event makes or gives up the mapping of a buffer. -/
def Event.isMapping : Event β → Bool
  | .mapped .. | .unmapped .. => true
  | _ => false

theorem Event.isMapping_of_isNote {e : Event β} (h : e.isNote = true) : e.isMapping = false := by
  cases e <;> first | rfl | simp [isNote] at h

namespace Machine

variable {writable : Nat → Prop} {m n p : Machine β}

/-- The second machine is the first one after effects that map and unmap no buffer. -/
def Still (m n : Machine β) : Prop :=
  ∃ notes : List (Event β), n.effects = m.effects ++ notes ∧ ∀ e ∈ notes, e.isMapping = false

theorem Still.refl (m : Machine β) : Still m m := ⟨[], (List.append_nil _).symm, by simp⟩

theorem Still.add (h : Still m n) {e : Event β} (hp : p.effects = n.effects ++ [e])
    (he : e.isMapping = false) : Still m p := by
  obtain ⟨notes, heffects, hnotes⟩ := h
  refine ⟨notes ++ [e], ?_, ?_⟩
  · rw [hp, heffects, List.append_assoc]
  · intro x hx
    rcases List.mem_append.mp hx with hx | hx
    · exact hnotes x hx
    · exact List.mem_singleton.mp hx ▸ he

theorem Still.setBits (h : Still m n) (offset : Nat) (bits : UInt32) :
    Still m (n.setBits offset bits) :=
  (h.add (n.effects_read offset) rfl).add (effects_write _ _ _) rfl

theorem Still.clearBits (h : Still m n) (offset : Nat) (bits : UInt32) :
    Still m (n.clearBits offset bits) :=
  (h.add (n.effects_read offset) rfl).add (effects_write _ _ _) rfl

theorem Quiet.still (h : Quiet writable m n) : Still m n := by
  induction h with
  | refl => exact .refl m
  | read _ offset ih => exact ih.add (effects_read _ offset) rfl
  | write _ _ word ih => exact ih.add (effects_write _ _ word) rfl
  | note _ he ih => exact ih.add (effects_emit _ _) (Event.isMapping_of_isNote he)
  | aside _ _ _ _ ih => exact ih

end Machine

/-- What giving up the mappings of some buffers leaves in the effects. -/
def discards (channel : Nat) (direction : Direction) (slots : List (Slot β)) : List (Event β) :=
  slots.map fun s => .unmapped channel direction s.addr s.length .discarded

namespace Channel

open Machine

variable {config : Config} {c c' : Channel β} {m m' : Machine β}

theorem effects_discardSlots (channel : Nat) (direction : Direction) (slots : List (Slot β))
    (m : Machine β) : (discardSlots channel direction slots m).effects =
      m.effects ++ discards channel direction slots := by
  induction slots generalizing m with
  | nil => simp [discardSlots, discards]
  | cons s rest ih =>
    have hrest := ih (m.unmapBuffer channel direction s.addr s.length .discarded)
    rw [effects_unmapBuffer, List.append_assoc] at hrest
    exact hrest

theorem effects_resetRing (channel : Nat) (direction : Direction) (r : Ring β) (m : Machine β) :
    (resetRing channel direction r m).2.2.effects =
      m.effects ++ discards channel direction r.slots :=
  effects_discardSlots channel direction r.slots m

theorem effects_releaseRing (channel : Nat) (direction : Direction) (r : Ring β)
    (m : Machine β) : (releaseRing channel direction r m).2.2.effects =
      m.effects ++ discards channel direction r.slots := by
  rw [← effects_resetRing]
  unfold releaseRing
  dsimp only
  split <;> rfl

theorem effects_resetRings (c : Channel β) (m : Machine β) : (c.resetRings m).2.2.effects =
    m.effects ++ (discards c.id .toDevice c.tx.slots ++ discards c.id .fromDevice c.rx.slots) := by
  unfold resetRings
  dsimp only
  rw [effects_resetRing, effects_resetRing, List.append_assoc]

/-- Giving up a halted channel is giving up its rings. -/
theorem deinit_eq_log (c : Channel β) (m : Machine β) (hbuilt : c.initialized = true)
    (hhalted : c.running = false) : ∃ text, (c.deinit m).2.2 =
      (releaseRing c.id .fromDevice c.rx
        (releaseRing c.id .toDevice c.tx m).2.2).2.2.log .debug text := by
  have hstop : c.stop m = (false, c, m) := by
    rw [stop, hhalted]
    rfl
  unfold deinit
  rw [if_neg (by simp [hbuilt]), hstop]
  exact ⟨_, rfl⟩

/-- The buffers in flight in a direction, oldest first. -/
def queue (c : Channel β) (direction : Direction) : List (Slot β) := (c.ring direction).queue

/-- Both rings of a channel carry their queues. -/
def Sound (c : Channel β) : Prop := ∀ d, (c.ring d).Carries (c.queue d)

/-- What a step moves: nothing, one buffer in at the end of a queue, one buffer out at its front, or
both queues out of existence. -/
inductive Flow (c : Channel β) (m : Machine β) :
    List (Passage β) → Channel β → Machine β → Prop where
  | still {c' : Channel β} {m' : Machine β} (hqueue : ∀ d, c'.queue d = c.queue d)
      (heffects : m.Still m') : Flow c m [] c' m'
  | accept {c' : Channel β} {m' : Machine β} (d : Direction) (s : Slot β) (i : Nat)
      (hqueue : c'.queue d = c.queue d ++ [s]) (hother : ∀ d' ≠ d, c'.queue d' = c.queue d')
      (heffects : m'.effects = m.effects ++ [.mapped c.id d i s.buffer s.addr s.length]) :
      Flow c m [.accepted d s.buffer] c' m'
  | deliver {c' : Channel β} {m' : Machine β} (d : Direction) (s : Slot β) (i : Nat)
      (control : UInt32)
      (hqueue : c.queue d = s :: c'.queue d) (hother : ∀ d' ≠ d, c'.queue d' = c.queue d')
      (heffects : m'.effects =
        m.effects ++ [.unmapped c.id d s.addr s.length (.returned i control)]) :
      Flow c m [.delivered d s.buffer] c' m'
  | discard {c' : Channel β} {m' : Machine β} (cause : Discard) (n : Machine β)
      (hqueue : ∀ d, c'.queue d = []) (hstill : m.Still n)
      (heffects : m'.effects = n.effects ++
        (discards c.id .toDevice c.tx.slots ++ discards c.id .fromDevice c.rx.slots)) :
      Flow c m [.discarded cause] c' m'

theorem sound_of_queue {q : Direction → List (Slot β)} (h : ∀ d, (c.ring d).Carries (q d)) :
    c.Sound ∧ ∀ d, c.queue d = q d := by
  have hqueue : ∀ d, c.queue d = q d := fun d => (h d).queue_eq
  exact ⟨fun d => by rw [hqueue]; exact h d, hqueue⟩

/-- Replacing one ring leaves the other queue as it is. -/
theorem sound_setRing {d : Direction} {r : Ring β} {q : List (Slot β)} (h : c.Sound)
    (hr : r.Carries q) : (c.setRing d r).Sound ∧ (c.setRing d r).queue d = q ∧
      ∀ d' ≠ d, (c.setRing d r).queue d' = c.queue d' := by
  have hsame : (c.setRing d r).queue d = q := by
    rw [queue, ring_setRing]
    exact hr.queue_eq
  have hother : ∀ d' ≠ d, (c.setRing d r).queue d' = c.queue d' := fun d' hd => by
    rw [queue, ring_setRing_ne c hd, queue]
  refine ⟨?_, hsame, hother⟩
  intro d'
  by_cases hd : d' = d
  · subst hd
    rw [hsame, ring_setRing]
    exact hr
  · rw [hother d' hd, ring_setRing_ne c hd]
    exact h d'

theorem still_pulseReset (c : Channel β) (us : Nat) (m : Machine β) :
    m.Still (c.pulseReset us m) := by
  have hassert : Still m (c.registers.assertReset m) := (Still.refl m).setBits _ _
  have hdelay : Still m ((c.registers.assertReset m).delay us) := hassert.add (effects_emit _ _) rfl
  exact hdelay.clearBits _ _

theorem still_buildRings (config : Config) (channel : Nat) (m : Machine β) :
    m.Still (buildRings channel config m).2 := by
  have hquiet : m.Quiet (fun _ => True) (buildRings channel config m).2 :=
    quiet_buildRings config (.refl m) channel
  exact hquiet.still

/-- New rings carry nothing, and what the old ones carried is unmapped. -/
theorem flow_reloadRings {k : Nat} (cause : Discard)
    (h : c.reloadRings config m = (.ok k, c', m')) :
    Flow c m [.discarded cause] c' m' ∧ c'.Sound := by
  obtain ⟨tx, rx, n, hb, rfl, rfl⟩ := of_reloadRings_ok h
  have hstill := still_buildRings config c.id m
  rw [hb] at hstill
  obtain ⟨htx, hrx⟩ := isNewRing_of_buildRings (by rw [hb])
  obtain ⟨hsound, hqueue⟩ := sound_of_queue (q := fun _ => []) (c := { c with
      tx := tx.setEnabled c.tx.enabled
      rx := rx.setEnabled c.rx.enabled }) fun d => by
    cases d with
    | toDevice => exact Ring.carries_setEnabled htx.carries _
    | fromDevice => exact Ring.carries_setEnabled hrx.carries _
  refine ⟨.discard cause n hqueue hstill ?_, hsound⟩
  rw [effects_releaseRing, effects_releaseRing, List.append_assoc]

/-- Every step of a channel with sound rings is a flow, and keeps the rings sound. -/
theorem Step.flow {now : List (Passage β)} (h : Step config c m now c' m') (hc : c.Sound) :
    Flow c m now c' m' ∧ c'.Sound := by
  have halt : ∀ running, (c.setRunning running).Sound ∧
      ∀ d, (c.setRunning running).queue d = c.queue d := fun running =>
    sound_of_queue fun d => by
      rw [ring_setRunning]
      exact Ring.carries_setEnabled (hc d) running
  cases h with
  | quiet h => exact ⟨.still (fun _ => rfl) h.still, hc⟩
  | start => exact ⟨.still (halt true).2 ((Still.refl m).setBits _ _), (halt true).1⟩
  | stop => exact ⟨.still (halt false).2 ((Still.refl m).clearBits _ _), (halt false).1⟩
  | pulse us => exact ⟨.still (fun _ => rfl) (c.still_pulseReset us m), hc⟩
  | @post _ _ d buffer length addr hroom hmap =>
    obtain ⟨_, hfull⟩ := Ring.enabled_of_refusal?_none hroom
    obtain ⟨hsound, hqueue, hother⟩ := sound_setRing (d := d) hc
      ((hc d).post hfull buffer addr length)
    exact ⟨.accept d ⟨buffer, addr, length⟩ (c.ring d).head hqueue hother
      (effects_mapBuffer hmap), hsound⟩
  | @take _ d t r h =>
    obtain ⟨rest, hqueue, hrest, hbuffer⟩ := Ring.carries_of_reclaim_some (hc d) h
    obtain ⟨hsound, hafter, hother⟩ := sound_setRing (d := d) hc hrest
    rw [hbuffer]
    exact ⟨.deliver d t.slot t.index t.control (by rw [hafter, hqueue]) hother
      (effects_unmapBuffer _ _ _ _ _ _), hsound⟩
  | @look _ d r h =>
    obtain rfl := Ring.eq_of_reclaim_none (hc d) h
    obtain ⟨hsound, hqueue, hother⟩ := sound_setRing (d := d) hc (hc d)
    refine ⟨.still ?_ (.refl m), hsound⟩
    intro d'
    by_cases hd : d' = d
    · rw [hd, hqueue]
    · exact hother d' hd
  | overwrite f =>
    obtain ⟨hsound, hqueue⟩ := sound_of_queue (c := c.overwrite f) fun d => by
      rw [ring_overwrite]
      exact Ring.carries_overwrite (hc d) (f d)
    exact ⟨.still hqueue (.refl m), hsound⟩
  | reset cause =>
    obtain ⟨hsound, hqueue⟩ := sound_of_queue (q := fun _ => []) (c := (c.resetRings m).2.1)
      fun d => by
        cases d with
        | toDevice => exact Ring.carries_rewind (hc .toDevice)
        | fromDevice => exact Ring.carries_rewind (hc .fromDevice)
    exact ⟨.discard cause m hqueue (.refl m) (effects_resetRings c m), hsound⟩
  | reload cause _ h => exact flow_reloadRings cause h

end Channel

namespace Plant

variable {config : Config} {uses : Nat → Prop} {p p' : Plant β} {story : Story β}

/-- The buffers in flight on the ring of a channel and direction, oldest first. -/
def queue (p : Plant β) (id : Nat) (d : Direction) : List (Slot β) :=
  match p.channels[id]? with
  | some c => c.queue d
  | none => []

theorem queue_of_some {id : Nat} {c : Channel β} (h : p.channels[id]? = some c)
    (d : Direction) : p.queue id d = c.queue d := by
  rw [queue, h]

theorem queue_of_none {id : Nat} (h : p.channels[id]? = none) (d : Direction) :
    p.queue id d = [] := by
  rw [queue, h]

/-- Channels stand at their numbers and have rings, which carry their queues. -/
structure Sound (p : Plant β) : Prop where
  id_eq : ∀ (i : Nat) (c : Channel β), p.channels[i]? = some c → c.id = i
  built : ∀ (i : Nat) (c : Channel β), p.channels[i]? = some c → c.initialized = true
  rings : ∀ (i : Nat) (c : Channel β), p.channels[i]? = some c → c.Sound

theorem Sound.empty (m : Machine β) : (⟨[], m⟩ : Plant β).Sound :=
  ⟨by simp, by simp, by simp⟩

theorem Sound.machine (h : p.Sound) (m : Machine β) : (⟨p.channels, m⟩ : Plant β).Sound :=
  ⟨h.id_eq, h.built, h.rings⟩

/-- A channel was replaced by another one at its number, and the others are as they were. -/
theorem getElem?_replace {channels : List (Channel β)} {c d : Channel β} {id i : Nat}
    (h : (channels.set id c)[i]? = some d) : i = id ∧ d = c ∨ i ≠ id ∧ channels[i]? = some d := by
  rw [List.getElem?_set] at h
  split at h
  next hi =>
    split at h
    · exact .inl ⟨hi.symm, (Option.some.inj h).symm⟩
    · simp at h
  next hi => exact .inr ⟨Ne.symm hi, h⟩

/-- A channel of the plant is replaced by one of the same number. -/
theorem Sound.set (h : p.Sound) {id : Nat} {c c' : Channel β} (m : Machine β)
    (hc : p.channels[id]? = some c) (hplace : Channel.SamePlace c c') (hc' : c'.Sound) :
    (⟨p.channels.set id c', m⟩ : Plant β).Sound := by
  constructor
  · intro i d hd
    rcases getElem?_replace hd with ⟨rfl, rfl⟩ | ⟨_, hd⟩
    · rw [hplace.id_eq]
      exact h.id_eq _ _ hc
    · exact h.id_eq i d hd
  · intro i d hd
    rcases getElem?_replace hd with ⟨rfl, rfl⟩ | ⟨_, hd⟩
    · rw [hplace.initialized_eq]
      exact h.built _ _ hc
    · exact h.built i d hd
  · intro i d hd
    rcases getElem?_replace hd with ⟨_, rfl⟩ | ⟨_, hd⟩
    · exact hc'
    · exact h.rings i d hd

/-- A new channel stands at the next number. -/
theorem getElem?_build {channels : List (Channel β)} {c d : Channel β} {i : Nat}
    (h : (channels ++ [c])[i]? = some d) :
    i = channels.length ∧ d = c ∨ channels[i]? = some d := by
  rw [List.getElem?_append] at h
  split at h
  · exact .inr h
  next hi =>
    have hzero : i - channels.length = 0 := by
      rcases Nat.eq_zero_or_pos (i - channels.length) with h0 | h0
      · exact h0
      · rw [List.getElem?_singleton, if_neg (by omega)] at h
        simp at h
    rw [hzero] at h
    exact .inl ⟨by omega, (Option.some.inj h).symm⟩

theorem Step.sound (h : Step config uses p story p') (hp : p.Sound) : p'.Sound := by
  cases h with
  | channel hc h => exact hp.set _ hc h.samePlace (h.flow (hp.rings _ _ hc)).2
  | quiet => exact hp.machine _
  | build _ _ h =>
    obtain ⟨hid, _, _, hbuilt, _, hnew⟩ := Channel.of_build h
    obtain ⟨hsound, _⟩ := Channel.sound_of_queue (q := fun _ => []) fun d => (hnew d).carries
    constructor
    · intro i d hd
      rcases getElem?_build hd with ⟨rfl, rfl⟩ | hd
      · exact hid
      · exact hp.id_eq i d hd
    · intro i d hd
      rcases getElem?_build hd with ⟨_, rfl⟩ | hd
      · exact hbuilt
      · exact hp.built i d hd
    · intro i d hd
      rcases getElem?_build hd with ⟨_, rfl⟩ | hd
      · exact hsound
      · exact hp.rings i d hd
  | release => exact .empty _

theorem Run.sound (h : Run config uses p story p') (hp : p.Sound) : p'.Sound :=
  h.keeps (fun _ _ _ hs hp => hs.sound hp) hp

end Plant

end PacketDma
