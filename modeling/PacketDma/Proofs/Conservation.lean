import Mathlib.Data.Multiset.AddSub
import Mathlib.Algebra.Order.Group.Multiset
import Mathlib.Algebra.GroupWithZero.Nat
import PacketDma.Proofs.Flow
import PacketDma.Proofs.History

/-!
# Conservation of mappings

Every mapping of a buffer is given up once or is that of a buffer in flight. So the mappings that
are left are at any time those in the slots of the rings, and none is left once the engine is down.

## Implementation notes

What is left is followed effect by effect, so that a mapping is seen to be given up only while it is
left. The two sums over all effects are compared in the end.
-/

namespace PacketDma

variable {σ β : Type}

/-- The mapping of a buffer. -/
structure Mapping where
  /-- Where the device finds the buffer. -/
  addr : BusAddress
  /-- The length it was mapped for. -/
  length : Nat
  /-- The direction of the transfer. -/
  direction : Direction
  deriving DecidableEq

/-- The mapping that an event makes. -/
def Event.made? : Event β → Option Mapping
  | .mapped _ direction _ _ addr length => some ⟨addr, length, direction⟩
  | _ => none

/-- The mapping that an event gives up. -/
def Event.ended? : Event β → Option Mapping
  | .unmapped _ direction addr length _ => some ⟨addr, length, direction⟩
  | _ => none

/-- All mappings made in some effects. -/
def mappingsMade (effects : List (Event β)) : Multiset Mapping := effects.filterMap Event.made?

/-- All mappings given up in some effects. -/
def mappingsEnded (effects : List (Event β)) : Multiset Mapping := effects.filterMap Event.ended?

/-- The mapping of a slot in a ring of some direction. -/
def Slot.mapping (direction : Direction) (s : Slot β) : Mapping := ⟨s.addr, s.length, direction⟩

/-- The mappings of some slots of a direction. -/
def mappingsOf (direction : Direction) (slots : List (Slot β)) : Multiset Mapping :=
  slots.map (Slot.mapping direction)

/-- The mappings in the slots of a channel. -/
def Channel.occupied (c : Channel β) : Multiset Mapping :=
  mappingsOf .toDevice c.tx.slots + mappingsOf .fromDevice c.rx.slots

/-- The mappings in the slots of some channels. -/
def occupied (channels : List (Channel β)) : Multiset Mapping :=
  (channels.map Channel.occupied).sum

theorem occupied_cons (c : Channel β) (channels : List (Channel β)) :
    occupied (c :: channels) = c.occupied + occupied channels := by
  simp [occupied]

/-! ### What is left after some effects -/

/-- The mappings left after some effects. A mapping ends only if it is left. -/
inductive Outstanding : List (Event β) → Multiset Mapping → Prop where
  | nil : Outstanding [] 0
  | made {effects : List (Event β)} {left : Multiset Mapping} (h : Outstanding effects left)
      (channel : Nat) (d : Direction) (i : Nat) (b : β) (addr : BusAddress) (length : Nat) :
      Outstanding (effects ++ [.mapped channel d i b addr length]) (⟨addr, length, d⟩ ::ₘ left)
  | ended {effects : List (Event β)} {left : Multiset Mapping} {addr : BusAddress} {length : Nat}
      {d : Direction} (h : Outstanding effects (⟨addr, length, d⟩ ::ₘ left)) (channel : Nat)
      (cause : UnmapCause) : Outstanding (effects ++ [.unmapped channel d addr length cause]) left
  | other {effects : List (Event β)} {left : Multiset Mapping} (h : Outstanding effects left)
      {e : Event β} (he : e.isMapping = false) : Outstanding (effects ++ [e]) left

namespace Outstanding

variable {effects : List (Event β)} {left rest : Multiset Mapping}

theorem made_append (effects : List (Event β)) (e : Event β) :
    mappingsMade (effects ++ [e]) = mappingsMade effects + mappingsMade [e] := by
  simp [mappingsMade, List.filterMap_append]

theorem ended_append (effects : List (Event β)) (e : Event β) :
    mappingsEnded (effects ++ [e]) = mappingsEnded effects + mappingsEnded [e] := by
  simp [mappingsEnded, List.filterMap_append]

/-- What was made has ended or is left. -/
theorem balance (h : Outstanding effects left) :
    mappingsMade effects = mappingsEnded effects + left := by
  induction h with
  | nil => rfl
  | @made effects left _ channel d i b addr length ih =>
    have hmade : mappingsMade [Event.mapped channel d i b addr length] = {⟨addr, length, d⟩} := rfl
    have hended : mappingsEnded [Event.mapped channel d i b addr length] = 0 := rfl
    calc
      mappingsMade (effects ++ [.mapped channel d i b addr length]) =
          mappingsMade effects + {⟨addr, length, d⟩} := by rw [made_append, hmade]
      _ = mappingsEnded effects + (left + {⟨addr, length, d⟩}) := by rw [ih, add_assoc]
      _ = mappingsEnded effects + (⟨addr, length, d⟩ ::ₘ left) := by
        rw [add_comm left, Multiset.singleton_add]
      _ = mappingsEnded (effects ++ [.mapped channel d i b addr length]) +
          (⟨addr, length, d⟩ ::ₘ left) := by rw [ended_append, hended, add_zero]
  | @ended effects left addr length d _ channel cause ih =>
    have hmade : mappingsMade [(Event.unmapped channel d addr length cause : Event β)] = 0 := rfl
    have hended : mappingsEnded [(Event.unmapped channel d addr length cause : Event β)] =
      {⟨addr, length, d⟩} := rfl
    calc
      mappingsMade (effects ++ [.unmapped channel d addr length cause]) =
          mappingsMade effects := by rw [made_append, hmade, add_zero]
      _ = mappingsEnded effects + ({⟨addr, length, d⟩} + left) := by
        rw [ih, Multiset.singleton_add]
      _ = mappingsEnded (effects ++ [.unmapped channel d addr length cause]) + left := by
        rw [ended_append, hended, add_assoc]
  | @other effects left _ e he ih =>
    have hmade : mappingsMade [e] = 0 := by cases e <;> first | rfl | simp [Event.isMapping] at he
    have hended : mappingsEnded [e] = 0 := by
      cases e <;> first | rfl | simp [Event.isMapping] at he
    rw [made_append, ended_append, hmade, hended, ih, add_zero, add_zero]

/-- At no time have more mappings ended than were made before. -/
theorem ended_le_made (h : Outstanding effects left) :
    ∀ before, before <+: effects → mappingsEnded before ≤ mappingsMade before := by
  have hall : ∀ {effects : List (Event β)} {left : Multiset Mapping}, Outstanding effects left →
      mappingsEnded effects ≤ mappingsMade effects := fun h => by
    rw [h.balance]
    exact Multiset.le_add_right _ _
  induction h with
  | nil =>
    intro before hbefore
    rw [List.prefix_nil.mp hbefore]
    exact hall .nil
  | made h channel d i b addr length ih =>
    intro before hbefore
    rcases List.prefix_concat_iff.mp hbefore with rfl | hbefore
    · exact hall (h.made channel d i b addr length)
    · exact ih before hbefore
  | ended h channel cause ih =>
    intro before hbefore
    rcases List.prefix_concat_iff.mp hbefore with rfl | hbefore
    · exact hall (h.ended channel cause)
    · exact ih before hbefore
  | other h he ih =>
    intro before hbefore
    rcases List.prefix_concat_iff.mp hbefore with rfl | hbefore
    · exact hall (h.other he)
    · exact ih before hbefore

theorem others {notes : List (Event β)} (h : Outstanding effects left)
    (hnotes : ∀ e ∈ notes, e.isMapping = false) : Outstanding (effects ++ notes) left := by
  induction notes generalizing effects with
  | nil => rwa [List.append_nil]
  | cons e notes ih =>
    have hfirst := h.other (hnotes e (by simp))
    have hall := ih hfirst fun x hx => hnotes x (by simp [hx])
    rwa [List.append_assoc] at hall

theorem still {m n : Machine β} (h : Outstanding m.effects left) (hs : m.Still n) :
    Outstanding n.effects left := by
  obtain ⟨notes, heffects, hnotes⟩ := hs
  rw [heffects]
  exact h.others hnotes

/-- Discarding slots ends their mappings. -/
theorem discards {channel : Nat} {d : Direction} {slots : List (Slot β)}
    (h : Outstanding effects (mappingsOf d slots + rest)) :
    Outstanding (effects ++ PacketDma.discards channel d slots) rest := by
  induction slots generalizing effects with
  | nil => simpa [mappingsOf, PacketDma.discards] using h
  | cons s slots ih =>
    have hcons : mappingsOf d (s :: slots) + rest =
        ⟨s.addr, s.length, d⟩ ::ₘ (mappingsOf d slots + rest) := by
      simp [mappingsOf, Slot.mapping, ← Multiset.cons_coe]
    rw [hcons] at h
    have hrest := ih (h.ended channel .discarded)
    rwa [List.append_assoc] at hrest

/-- Discarding both rings of a channel ends its mappings. -/
theorem discards_channel {c : Channel β} (h : Outstanding effects (c.occupied + rest)) :
    Outstanding (effects ++ (PacketDma.discards c.id .toDevice c.tx.slots ++
      PacketDma.discards c.id .fromDevice c.rx.slots)) rest := by
  rw [Channel.occupied, add_assoc] at h
  rw [← List.append_assoc]
  exact h.discards.discards

end Outstanding

/-! ### What is left is what the slots hold -/

namespace Channel

/-- The slots of a channel hold the mappings of its queues. -/
theorem occupied_eq_queue (c : Channel β) : c.occupied =
    mappingsOf .toDevice (c.queue .toDevice) + mappingsOf .fromDevice (c.queue .fromDevice) := by
  have hperm : ∀ d, mappingsOf d (c.ring d).slots = mappingsOf d (c.queue d) := fun d =>
    (Multiset.coe_eq_coe.mpr ((c.ring d).queue_perm_slots.map _)).symm
  exact congrArg₂ (· + ·) (hperm .toDevice) (hperm .fromDevice)

theorem occupied_congr {c c' : Channel β} (h : ∀ d, c'.queue d = c.queue d) :
    c'.occupied = c.occupied := by
  rw [occupied_eq_queue, occupied_eq_queue, h, h]

theorem occupied_of_empty {c : Channel β} (h : ∀ d, c.queue d = []) : c.occupied = 0 := by
  rw [occupied_eq_queue, h, h]
  rfl

/-- One more buffer in one queue is one more mapping. -/
theorem occupied_of_more {c c' : Channel β} {d : Direction} {s : Slot β}
    (hd : mappingsOf d (c'.queue d) = s.mapping d ::ₘ mappingsOf d (c.queue d))
    (hother : ∀ d' ≠ d, c'.queue d' = c.queue d') :
    c'.occupied = s.mapping d ::ₘ c.occupied := by
  rw [occupied_eq_queue, occupied_eq_queue]
  cases d with
  | toDevice => rw [hd, hother .fromDevice (by decide), Multiset.cons_add]
  | fromDevice => rw [hd, hother .toDevice (by decide), Multiset.add_cons]

end Channel

namespace Plant

variable {config : Config} {uses : Nat → Prop} {p p' : Plant β} {story : Story β}

/-- What is left is what the slots of the plant hold. -/
def Conserves (p : Plant β) : Prop := Outstanding p.machine.effects (occupied p.channels)

/-- The slots of one channel are some of those of all channels. -/
theorem exists_occupied_eq {channels : List (Channel β)} {id : Nat} {c : Channel β}
    (hc : channels[id]? = some c) : ∃ rest, occupied channels = c.occupied + rest ∧
      ∀ c', occupied (channels.set id c') = c'.occupied + rest := by
  induction channels generalizing id with
  | nil => simp at hc
  | cons d channels ih =>
    cases id with
    | zero =>
      obtain rfl : d = c := by simpa using hc
      exact ⟨occupied channels, by simp [occupied], fun c' => by simp [occupied]⟩
    | succ id =>
      obtain ⟨rest, hall, hset⟩ := ih (by simpa using hc)
      refine ⟨d.occupied + rest, ?_, ?_⟩
      · calc
          occupied (d :: channels) = d.occupied + occupied channels := occupied_cons d channels
          _ = d.occupied + (c.occupied + rest) := by rw [hall]
          _ = c.occupied + (d.occupied + rest) := add_left_comm _ _ _
      · intro c'
        calc
          occupied ((d :: channels).set (id + 1) c') =
              d.occupied + occupied (channels.set id c') := occupied_cons d _
          _ = d.occupied + (c'.occupied + rest) := by rw [hset]
          _ = c'.occupied + (d.occupied + rest) := add_left_comm _ _ _

/-- The flow of one channel makes and ends the mappings that its slots gain and lose. -/
theorem Conserves.flow {id : Nat} {c c' : Channel β} {m' : Machine β} {now : List (Passage β)}
    (h : p.Conserves) (hc : p.channels[id]? = some c)
    (hflow : Channel.Flow c p.machine now c' m') : Conserves ⟨p.channels.set id c', m'⟩ := by
  obtain ⟨rest, hall, hset⟩ := exists_occupied_eq hc
  have hleft : Outstanding p.machine.effects (c.occupied + rest) := hall ▸ h
  show Outstanding m'.effects (occupied (p.channels.set id c'))
  rw [hset]
  cases hflow with
  | still hqueue hstill =>
    rw [Channel.occupied_congr hqueue]
    exact hleft.still hstill
  | accept d s i hqueue hother heffects =>
    have hd : mappingsOf d (c'.queue d) = s.mapping d ::ₘ mappingsOf d (c.queue d) := by
      rw [hqueue, mappingsOf, mappingsOf, Multiset.cons_coe]
      exact Multiset.coe_eq_coe.mpr (List.perm_append_singleton s (c.queue d) |>.map _)
    rw [heffects, Channel.occupied_of_more hd hother, Multiset.cons_add]
    exact hleft.made c.id d i s.buffer s.addr s.length
  | deliver d s i control hqueue hother heffects =>
    have hd : mappingsOf d (c.queue d) = s.mapping d ::ₘ mappingsOf d (c'.queue d) := by
      rw [hqueue]
      rfl
    have hmore := Channel.occupied_of_more hd fun d' hne => (hother d' hne).symm
    rw [hmore, Multiset.cons_add] at hleft
    rw [heffects]
    exact hleft.ended c.id (.returned i control)
  | discard cause n hqueue hstill heffects =>
    rw [heffects, Channel.occupied_of_empty hqueue, zero_add]
    exact (hleft.still hstill).discards_channel

/-- Giving up halted channels ends all their mappings. -/
theorem outstanding_deinitChannels {channels : List (Channel β)} {m : Machine β}
    (hbuilt : ∀ c ∈ channels, c.initialized = true)
    (hhalted : ∀ c ∈ channels, c.running = false)
    (h : Outstanding m.effects (occupied channels)) :
    Outstanding (Engine.deinitChannels channels m).2.effects 0 := by
  induction channels generalizing m with
  | nil => exact h
  | cons c channels ih =>
    obtain ⟨text, hdeinit⟩ := c.deinit_eq_log m (hbuilt c (by simp)) (hhalted c (by simp))
    rw [occupied_cons] at h
    have hfirst : Outstanding (c.deinit m).2.2.effects (occupied channels) := by
      rw [hdeinit, Machine.log, Machine.effects_emit, Channel.effects_releaseRing,
        Channel.effects_releaseRing, List.append_assoc m.effects]
      exact h.discards_channel.other rfl
    exact ih (fun d hd => hbuilt d (by simp [hd])) (fun d hd => hhalted d (by simp [hd])) hfirst

theorem Step.conserves (h : Step config uses p story p') (hp : p.Sound) (hl : p.Conserves) :
    p'.Conserves := by
  cases h with
  | channel hc h => exact hl.flow hc (h.flow (hp.rings _ _ hc)).1
  | quiet h => exact Outstanding.still hl h.still
  | @build base c m' _ _ h =>
    obtain ⟨_, _, _, _, _, hnew⟩ := Channel.of_build h
    have hempty : c.occupied = 0 := Channel.occupied_of_empty fun d => (hnew d).carries.queue_eq
    have hmore : occupied (p.channels ++ [c]) = occupied p.channels := by
      simp [occupied, hempty]
    show Outstanding m'.effects (occupied (p.channels ++ [c]))
    rw [hmore]
    exact Outstanding.still hl (Channel.quiet_of_build h).still
  | release hhalted _ =>
    refine outstanding_deinitChannels ?_ hhalted hl
    intro c hc
    obtain ⟨i, hi⟩ := List.getElem?_of_mem hc
    exact hp.built i c hi

/-- A run of the plant conserves mappings. -/
theorem Run.conserves (h : Run config uses p story p') (hp : p.Sound) (hl : p.Conserves) :
    p'.Conserves := by
  induction h with
  | refl => exact hl
  | step hrun hs ih => exact hs.conserves (hrun.sound hp) ih

/-- The number of mappings in the slots is the number of transfers in flight. -/
theorem card_occupied {channels : List (Channel β)} (h : ∀ c ∈ channels, c.Sound) :
    (occupied channels).card =
      (channels.map fun c => c.inFlight .toDevice + c.inFlight .fromDevice).sum := by
  induction channels with
  | nil => rfl
  | cons c channels ih =>
    have hsound := h c (by simp)
    have hcount : ∀ d, c.inFlight d = (c.queue d).length := fun d => (hsound d).inFlight_eq
    have hcard : c.occupied.card = c.inFlight .toDevice + c.inFlight .fromDevice := by
      rw [Channel.occupied_eq_queue, hcount, hcount]
      simp [mappingsOf]
    rw [occupied_cons, Multiset.card_add, hcard, ih fun d hd => h d (by simp [hd])]
    rfl

end Plant

/-! ### Histories -/

namespace Engine

/-- The mappings made and not yet given up. -/
def mappingsLeft (e : Engine β) : Multiset Mapping :=
  mappingsMade e.machine.effects - mappingsEnded e.machine.effects

theorem mappingsLeft_of_outstanding {e : Engine β} {left : Multiset Mapping}
    (h : Outstanding e.machine.effects left) : e.mappingsLeft = left := by
  rw [mappingsLeft, h.balance, add_tsub_cancel_left]

/-- In every history of a new engine, the mappings made and not yet given up are those in the slots
of the rings, as many as there are transfers in flight. No mapping is given up twice or before it is
made, and none is left once the engine went down. -/
theorem mappings_conserved {config : Config} {m : Machine β} {moments : List (Moment σ β)}
    {seen : Story β} {e : Engine β} (hm : m.effects = [])
    (h : live moments (new config m) = some (seen, e)) :
    (∀ before, before <+: e.machine.effects → mappingsEnded before ≤ mappingsMade before) ∧
      e.mappingsLeft = occupied e.channels ∧
      e.mappingsLeft.card =
        (e.channels.map fun c => c.inFlight .toDevice + c.inFlight .fromDevice).sum ∧
      ∀ e', e.deinit? = some e' → e'.mappingsLeft = 0 := by
  have hrun : ∀ config uses (p : Plant β) story p', Plant.Run config uses p story p' →
      p.Sound ∧ p.Conserves → p'.Sound ∧ p'.Conserves := fun config uses p story p' hrun hp =>
    ⟨hrun.sound hp.1, hrun.conserves hp.1 hp.2⟩
  have hnew : (new config m).plant.Conserves := by
    show Outstanding m.effects 0
    rw [hm]
    exact .nil
  obtain ⟨hidle, hsound, hleft⟩ := live_keeps_plant hrun
    (fun channels m registers hp => ⟨hp.1.machine _, hp.2⟩) (idleEmpty_new config m) h
    ⟨.empty m, hnew⟩
  have hslots : e.mappingsLeft = occupied e.channels := mappingsLeft_of_outstanding hleft
  refine ⟨hleft.ended_le_made, hslots, ?_, ?_⟩
  · rw [hslots]
    apply Plant.card_occupied
    intro c hc
    obtain ⟨i, hi⟩ := List.getElem?_of_mem hc
    exact hsound.rings i c hi
  · intro e' hdeinit
    obtain ⟨hteardown, hcase⟩ := run_deinit e.UpAt (fun hup => ⟨hup, rfl⟩) hdeinit
    have hchannels : e'.channels = [] := by
      rcases hcase with ⟨hdown, rfl⟩ | ⟨_, hdown⟩
      · exact hidle hdown
      · exact hdown.channels_eq
    rw [mappingsLeft_of_outstanding (hrun _ _ _ _ _ hteardown ⟨hsound, hleft⟩).2]
    show occupied e'.channels = 0
    rw [hchannels]
    rfl

/-- Of three buffers one cannot be mapped. One of the others is taken back, and the last one is in
flight. -/
def mappedTrip : List (Moment Unit Nat) :=
  [.operate (.init 0 1), .operate (.startChannel 0),
    .operate (.enqueue 0 .toDevice 7 64),
    .disturb (.mapper { Mapper.new ⟨0x20000⟩ ⟨0x200000⟩ with bufferPlan := .window 0 1 }),
    .operate (.enqueue 0 .fromDevice 8 64), .operate (.enqueue 0 .fromDevice 9 32),
    .disturb (.descriptors 0 fun _ _ d => { d with control := 0 }),
    .operate (.pollReclaim 0 .toDevice)]

theorem mappings_conserved_trip : ∃ seen e,
    live mappedTrip (new .bench .bench) = some (seen, e) ∧
      e.mappingsLeft = occupied e.channels ∧
      occupied e.channels = {⟨⟨0x20000⟩, 32, .fromDevice⟩} := by
  have hends : (live mappedTrip (new .bench .bench)).isSome = true := by decide +kernel
  have hslots : (live mappedTrip (new .bench .bench)).map (fun r => occupied r.2.channels) =
      some {⟨⟨0x20000⟩, 32, .fromDevice⟩} := by decide +kernel
  obtain ⟨⟨seen, e⟩, h⟩ := Option.isSome_iff_exists.mp hends
  rw [h] at hslots
  obtain ⟨_, hleft, _, _⟩ := mappings_conserved rfl h
  exact ⟨seen, e, h, hleft, Option.some.inj hslots⟩

end Engine

end PacketDma
