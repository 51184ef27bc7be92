import Mathlib.Data.List.Induction
import PacketDma.Proofs.Flow

/-!
# The places of buffers

The effects tell which buffer was posted last at each place of each ring. A slot remembers that
buffer and no other, so that a buffer that comes back is the one posted last at the very place where
the host looked.
-/

namespace PacketDma

variable {β : Type}

/-- A place of a ring of a channel. -/
structure Place where
  /-- The channel. -/
  channel : Nat
  /-- Which of its rings. -/
  direction : Direction
  /-- The index in the ring. -/
  index : Nat
  deriving DecidableEq

/-- The address and the length of the buffer that an event posts at a place. -/
def Event.posted? (place : Place) : Event β → Option (BusAddress × Nat)
  | .mapped id d i _ addr length => if ⟨id, d, i⟩ = place then some (addr, length) else none
  | _ => none

/-- The address and the length of the buffer posted last at a place. -/
def lastPosted (place : Place) (effects : List (Event β)) : Option (BusAddress × Nat) :=
  effects.reverse.findSome? (Event.posted? place)

/-- Whether an event posts a buffer or gives one back. -/
def Event.isHandOver : Event β → Bool
  | .mapped .. | .unmapped _ _ _ _ (.returned ..) => true
  | _ => false

/-- What is asked of an event after some others: a buffer that comes back is the one posted last at
the place where the host looked. -/
def Event.Rightful (before : List (Event β)) : Event β → Prop
  | .unmapped id d addr length (.returned i _) => lastPosted ⟨id, d, i⟩ before = some (addr, length)
  | _ => True

/-- Every event was rightful when it came. -/
def AllRightful (effects : List (Event β)) : Prop :=
  ∀ before e, before ++ [e] <+: effects → e.Rightful before

section Effects

variable {effects notes : List (Event β)} {e : Event β}

theorem Event.posted?_of_not_isHandOver (h : e.isHandOver = false) (place : Place) :
    e.posted? place = none := by
  cases e <;> first | rfl | simp [isHandOver] at h

theorem Event.rightful_of_not_isHandOver (h : e.isHandOver = false)
    (before : List (Event β)) : e.Rightful before := by
  cases e with
  | unmapped id d addr length cause =>
    cases cause with
    | returned => simp [isHandOver] at h
    | discarded => trivial
  | _ => trivial

theorem Event.isHandOver_of_mem_discards {channel : Nat} {direction : Direction}
    {slots : List (Slot β)} (h : e ∈ discards channel direction slots) : e.isHandOver = false := by
  obtain ⟨s, -, rfl⟩ := List.mem_map.mp h
  rfl

theorem lastPosted_append (place : Place) (effects notes : List (Event β)) :
    lastPosted place (effects ++ notes) =
      (lastPosted place notes).or (lastPosted place effects) := by
  simp [lastPosted, List.findSome?_append]

theorem lastPosted_concat (place : Place) (effects : List (Event β)) (e : Event β) :
    lastPosted place (effects ++ [e]) = (e.posted? place).or (lastPosted place effects) := by
  simp only [lastPosted, List.reverse_append, List.reverse_singleton, List.singleton_append,
    List.findSome?_cons]
  cases e.posted? place <;> rfl

theorem lastPosted_eq_none (h : ∀ e ∈ notes, e.isHandOver = false) (place : Place) :
    lastPosted place notes = none :=
  List.findSome?_eq_none_iff.mpr fun e he =>
    Event.posted?_of_not_isHandOver (h e (List.mem_reverse.mp he)) place

theorem allRightful_concat (h : AllRightful effects) (he : e.Rightful effects) :
    AllRightful (effects ++ [e]) := by
  intro before x hx
  rw [List.prefix_concat_iff] at hx
  rcases hx with hx | hx
  · obtain ⟨rfl, hxe⟩ := List.append_inj' hx rfl
    obtain rfl := List.singleton_inj.mp hxe
    exact he
  · exact h before x hx

theorem allRightful_append (h : AllRightful effects) (hnotes : ∀ e ∈ notes, e.isHandOver = false) :
    AllRightful (effects ++ notes) := by
  induction notes using List.reverseRecOn with
  | nil => rwa [List.append_nil]
  | append_singleton notes e ih =>
    rw [← List.append_assoc]
    exact allRightful_concat (ih fun x hx => hnotes x (List.mem_append_left _ hx))
      (Event.rightful_of_not_isHandOver (hnotes e (by simp)) _)

end Effects

namespace Machine

variable {m n p : Machine β}

/-- The second machine is the first one after effects in which no buffer is posted or comes back. -/
def Unmoved (m n : Machine β) : Prop :=
  ∃ notes : List (Event β), n.effects = m.effects ++ notes ∧ ∀ e ∈ notes, e.isHandOver = false

theorem Unmoved.trans (h : m.Unmoved n) (h' : n.Unmoved p) : m.Unmoved p := by
  obtain ⟨notes, hn, hnotes⟩ := h
  obtain ⟨notes', hp, hnotes'⟩ := h'
  refine ⟨notes ++ notes', by rw [hp, hn, List.append_assoc], fun e he => ?_⟩
  exact (List.mem_append.mp he).elim (hnotes e) (hnotes' e)

theorem Still.unmoved (h : m.Still n) : m.Unmoved n := by
  obtain ⟨notes, hn, hnotes⟩ := h
  refine ⟨notes, hn, fun e he => ?_⟩
  have hmapping := hnotes e he
  cases e <;> first | rfl | simp [Event.isMapping] at hmapping

end Machine

namespace Channel

open Machine

variable {config : Config} {c c' : Channel β} {m m' : Machine β}

/-- What the host remembers of a place of a ring. -/
def slot? (c : Channel β) (d : Direction) (i : Nat) : Option (Slot β) := ((c.ring d).cell i).slot

theorem slot?_setRing (c : Channel β) (d d' : Direction) (r : Ring β) (i : Nat) :
    (c.setRing d r).slot? d' i = if d' = d then (r.cell i).slot else c.slot? d' i := by
  by_cases hd : d' = d
  · rw [if_pos hd, hd, slot?, ring_setRing]
  · rw [if_neg hd, slot?, ring_setRing_ne c hd, slot?]

/-- A ring whose queue is empty remembers nothing in any place. -/
theorem Sound.slot?_eq_none (h : c.Sound) {d : Direction} (hqueue : c.queue d = []) (i : Nat) :
    c.slot? d i = none := by
  have hslots : (c.ring d).slots = [] :=
    List.length_eq_zero_iff.mp ((h d).length_slots_eq.trans (congrArg List.length hqueue))
  rw [slot?, Ring.cell]
  cases hcell : (c.ring d).cells[i]? with
  | none => rfl
  | some cell =>
    exact List.filterMap_eq_nil_iff.mp hslots cell
      (Array.mem_toList_iff.mpr (Array.mem_of_getElem? hcell))

/-- What a step does to the places of the rings: slots fall away at most, or a place takes a new
buffer, or a buffer comes back from its place. -/
inductive Places (c : Channel β) (m : Machine β) (c' : Channel β) (m' : Machine β) : Prop where
  | kept (hslots : ∀ d i s, c'.slot? d i = some s → c.slot? d i = some s)
      (heffects : m.Unmoved m')
  | posted (d : Direction) (i : Nat) (s : Slot β)
      (hslots : ∀ d' j t, c'.slot? d' j = some t →
        d' = d ∧ j = i ∧ t = s ∨ ¬ (d' = d ∧ j = i) ∧ c.slot? d' j = some t)
      (heffects : m'.effects = m.effects ++ [.mapped c.id d i s.buffer s.addr s.length])
  | returned (d : Direction) (i : Nat) (s : Slot β) (control : UInt32)
      (hslot : c.slot? d i = some s)
      (hslots : ∀ d' j t, c'.slot? d' j = some t → c.slot? d' j = some t)
      (heffects : m'.effects =
        m.effects ++ [.unmapped c.id d s.addr s.length (.returned i control)])

/-- A ring whose place is cleared remembers nothing that it did not remember before. -/
theorem slot?_of_setCell_empty {d d' : Direction} {r : Ring β} {i j : Nat} {t : Slot β}
    (h : (c.setRing d r).slot? d' j = some t)
    (hr : ∀ k, r.cell k = ((c.ring d).setCell i .empty).cell k) : c.slot? d' j = some t := by
  rw [slot?_setRing] at h
  split at h
  next hd =>
    rw [hr, Ring.cell_setCell] at h
    split at h
    · cases h
    · rwa [hd]
  · exact h

theorem Step.places {now : List (Passage β)} (h : Step config c m now c' m') (hc : c.Sound) :
    Places c m c' m' := by
  obtain ⟨hflow, hsound⟩ := h.flow hc
  cases h with
  | quiet h => exact .kept (fun _ _ _ hs => hs) h.still.unmoved
  | start =>
    refine .kept (fun d i s hs => ?_) ((Still.refl m).setBits _ _).unmoved
    rwa [slot?, ring_setRunning] at hs
  | stop =>
    refine .kept (fun d i s hs => ?_) ((Still.refl m).clearBits _ _).unmoved
    rwa [slot?, ring_setRunning] at hs
  | pulse us => exact .kept (fun _ _ _ hs => hs) (c.still_pulseReset us m).unmoved
  | @post _ _ d buffer length addr _ hmap =>
    refine .posted d (c.ring d).head ⟨buffer, addr, length⟩ (fun d' j t ht => ?_)
      (effects_mapBuffer hmap)
    rw [slot?_setRing] at ht
    split at ht
    next hd =>
      have hcell : ((c.ring d).post buffer addr length).cell j =
          if (c.ring d).head = j ∧ (c.ring d).head < (c.ring d).capacity then
            ⟨.armed (c.ring d).layout addr length, some ⟨buffer, addr, length⟩⟩
          else (c.ring d).cell j := Ring.cell_setCell _ _ _ _
      rw [hcell] at ht
      split at ht
      next hj => exact .inl ⟨hd, hj.1.symm, (Option.some.inj ht).symm⟩
      next hj =>
        refine .inr ⟨fun heq => hj ⟨heq.2.symm, (hc d).head_lt⟩, ?_⟩
        rwa [hd]
    next hd => exact .inr ⟨fun heq => hd heq.1, ht⟩
  | @take _ d t r hr =>
    obtain ⟨hindex, hslot, -, -, rfl⟩ := Ring.found_of_reclaim_some hr
    refine .returned d t.index t.slot t.control ?_ (fun d' j s hs => ?_)
      (effects_unmapBuffer _ _ _ _ _ _)
    · rw [hindex]
      exact hslot
    · exact slot?_of_setCell_empty hs fun _ => rfl
  | @look _ d r hr =>
    obtain rfl := Ring.eq_of_reclaim_none (hc d) hr
    refine .kept (fun d' i s hs => ?_) (Still.refl m).unmoved
    rw [slot?_setRing] at hs
    split at hs
    next hd => rwa [hd]
    · exact hs
  | overwrite f =>
    refine .kept (fun d i s hs => ?_) (Still.refl m).unmoved
    rw [slot?, ring_overwrite, Ring.slot_overwrite] at hs
    exact hs
  | reset | reload =>
    -- Rings that carry nothing are left, whatever was discarded.
    cases hflow with
    | discard _ n hqueue hstill heffects =>
      refine .kept (fun d i s hs => ?_) (hstill.unmoved.trans ⟨_, heffects, fun e he => ?_⟩)
      · rw [hsound.slot?_eq_none (hqueue d)] at hs
        cases hs
      · rcases List.mem_append.mp he with he | he <;> exact Event.isHandOver_of_mem_discards he

end Channel

namespace Plant

open Machine

variable {config : Config} {uses : Nat → Prop} {p p' : Plant β} {story : Story β}

/-- Every buffer that came back was the one posted last where the host looked, and the slots
remember the buffers posted last in their places. -/
structure Traced (p : Plant β) : Prop where
  rightful : AllRightful p.machine.effects
  slots : ∀ (id : Nat) (c : Channel β), p.channels[id]? = some c → ∀ d i s, c.slot? d i = some s →
    lastPosted ⟨id, d, i⟩ p.machine.effects = some (s.addr, s.length)

/-- Where no buffer is posted and none comes back, slots may fall away at most. -/
theorem Traced.unmoved (h : p.Traced) {m : Machine β} (hm : p.machine.Unmoved m)
    {channels : List (Channel β)}
    (hslots : ∀ (id : Nat) (c : Channel β), channels[id]? = some c → ∀ d i s,
      c.slot? d i = some s →
        ∃ c₀, p.channels[id]? = some c₀ ∧ c₀.slot? d i = some s) :
    (⟨channels, m⟩ : Plant β).Traced := by
  obtain ⟨notes, heffects, hnotes⟩ := hm
  constructor
  · exact heffects ▸ allRightful_append h.rightful hnotes
  · intro id c hc d i s hs
    obtain ⟨c₀, hc₀, hs₀⟩ := hslots id c hc d i s hs
    show lastPosted _ m.effects = _
    rw [heffects, lastPosted_append, lastPosted_eq_none hnotes, Option.none_or]
    exact h.slots id c₀ hc₀ d i s hs₀

/-- One channel takes a step, and the places of the others are as they were. -/
theorem Traced.places (h : p.Traced) (hp : p.Sound) {id : Nat} {c c' : Channel β} {m : Machine β}
    (hc : p.channels[id]? = some c) (hstep : c.Places p.machine c' m) :
    (⟨p.channels.set id c', m⟩ : Plant β).Traced := by
  have hid := hp.id_eq id c hc
  cases hstep with
  | kept hslots heffects =>
    refine h.unmoved heffects fun j x hx d i s hs => ?_
    rcases getElem?_replace hx with ⟨rfl, rfl⟩ | ⟨_, hx⟩
    · exact ⟨c, hc, hslots d i s hs⟩
    · exact ⟨x, hx, hs⟩
  | posted d₀ i₀ s₀ hslots heffects =>
    constructor
    · exact heffects ▸ allRightful_concat h.rightful trivial
    · intro j x hx d i s hs
      show lastPosted _ m.effects = _
      -- The new buffer is the last one in its place, and no other place has a new one.
      have hlast : lastPosted ⟨j, d, i⟩ m.effects =
          (if (⟨id, d₀, i₀⟩ : Place) = ⟨j, d, i⟩ then some (s₀.addr, s₀.length) else none).or
            (lastPosted ⟨j, d, i⟩ p.machine.effects) := by
        rw [heffects, lastPosted_concat, hid]
        rfl
      rw [hlast]
      rcases getElem?_replace hx with ⟨rfl, rfl⟩ | ⟨hne, hx⟩
      · rcases hslots d i s hs with ⟨rfl, rfl, rfl⟩ | ⟨hne, hs⟩
        · rw [if_pos rfl, Option.some_or]
        · rw [if_neg (by simp only [Place.mk.injEq]; tauto), Option.none_or]
          exact h.slots j c hc d i s hs
      · rw [if_neg (by simp only [Place.mk.injEq]; tauto), Option.none_or]
        exact h.slots j x hx d i s hs
  | returned d₀ i₀ s₀ control hslot hslots heffects =>
    have hlast := h.slots id c hc d₀ i₀ s₀ hslot
    constructor
    · show AllRightful m.effects
      rw [heffects, hid]
      exact allRightful_concat h.rightful hlast
    · intro j x hx d i s hs
      show lastPosted _ m.effects = _
      rw [heffects, lastPosted_concat]
      rcases getElem?_replace hx with ⟨rfl, rfl⟩ | ⟨_, hx⟩
      · exact h.slots j c hc d i s (hslots d i s hs)
      · exact h.slots j x hx d i s hs

/-- Giving up halted channels hands nothing over. -/
theorem unmoved_deinitChannels {channels : List (Channel β)}
    (hbuilt : ∀ c ∈ channels, c.initialized = true) (hhalted : ∀ c ∈ channels, c.running = false)
    (m : Machine β) : m.Unmoved (Engine.deinitChannels channels m).2 := by
  induction channels generalizing m with
  | nil => exact (Still.refl m).unmoved
  | cons c rest ih =>
    obtain ⟨hc, hrest⟩ := List.forall_mem_cons.mp hbuilt
    obtain ⟨hcHalted, hrestHalted⟩ := List.forall_mem_cons.mp hhalted
    obtain ⟨text, hdeinit⟩ := c.deinit_eq_log m hc hcHalted
    have hrelease (d : Direction) (r : Ring β) (n : Machine β) :
        n.Unmoved (Channel.releaseRing c.id d r n).2.2 :=
      ⟨_, Channel.effects_releaseRing c.id d r n, fun _ => Event.isHandOver_of_mem_discards⟩
    have hlog (n : Machine β) : n.Unmoved (n.log .debug text) :=
      ((Still.refl n).add (effects_emit n _) rfl).unmoved
    have hfirst : m.Unmoved (c.deinit m).2.2 :=
      hdeinit ▸ ((hrelease _ _ _).trans (hrelease _ _ _)).trans (hlog _)
    exact hfirst.trans (ih hrest hrestHalted _)

theorem Step.traced (h : Step config uses p story p') (hp : p.Sound) (ht : p.Traced) :
    p'.Traced := by
  cases h with
  | channel hc hs => exact ht.places hp hc (hs.places (hp.rings _ _ hc))
  | quiet hq => exact ht.unmoved hq.still.unmoved fun _ c hc _ _ _ hs => ⟨c, hc, hs⟩
  | @build _ c m _ _ hbuild =>
    obtain ⟨_, _, _, _, _, hnew⟩ := Channel.of_build hbuild
    obtain ⟨hsound, hqueue⟩ := Channel.sound_of_queue (q := fun _ => []) fun d => (hnew d).carries
    refine ht.unmoved (Channel.quiet_of_build hbuild).still.unmoved fun id x hx d i s hs => ?_
    rcases getElem?_build hx with ⟨_, rfl⟩ | hx
    · rw [hsound.slot?_eq_none (hqueue d)] at hs
      cases hs
    · exact ⟨x, hx, hs⟩
  | release hhalted _ =>
    refine ht.unmoved (unmoved_deinitChannels (fun c hc => ?_) hhalted _) (by simp)
    obtain ⟨i, hi⟩ := List.getElem?_of_mem hc
    exact hp.built i c hi

/-- A run of a plant keeps buffers in their places. -/
theorem Run.traced (h : Run config uses p story p') (hp : p.Sound) (ht : p.Traced) :
    p'.Traced := by
  induction h with
  | refl => exact ht
  | step hrun hs ih => exact hs.traced (hrun.sound hp) ih

end Plant

end PacketDma
