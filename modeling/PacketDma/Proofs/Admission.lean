import PacketDma.Proofs.BatchedDrain
import PacketDma.Proofs.Isolation
import PacketDma.Proofs.LengthField
import PacketDma.Proofs.Service

/-!
# Admission of buffers

A buffer that is posted meets obstacles in a fixed order, and the first one in its way decides the
error with which it comes back. Main statement: `enqueue_admission`. A buffer without an obstacle is
mapped, put into the place at the head, and announced by one doorbell. A buffer that comes back has
changed nothing, except that a full ring is counted.

## Implementation notes

The obstacles are looked for in the engine as it was, all in one list. The engine, the channel, the
ring and the mapper each look for some of them, and one lemma for each says for which.
-/

namespace PacketDma

variable {σ β : Type}

/-! ### One place filled -/

/-- The second ring is the first one after a buffer was put into the place at the head. -/
structure Ring.Filled (r : Ring β) (s : Slot β) (r' : Ring β) : Prop where
  free : (r.cell r.head).slot = none
  cell_head : r'.cell r.head = ⟨.armed r.layout s.addr s.length, some s⟩
  cell_ne : ∀ i ≠ r.head, r'.cell i = r.cell i
  capacity_eq : r'.capacity = r.capacity
  head_eq : r'.head = (r.head + 1) % r.capacity
  rest_eq : { r' with cells := r.cells, head := r.head } = r

theorem Ring.Carries.filled {r : Ring β} {q : List (Slot β)} (h : r.Carries q) (s : Slot β) :
    r.Filled s (r.post s.buffer s.addr s.length) := by
  have hcell (i : Nat) : (r.post s.buffer s.addr s.length).cell i =
      if r.head = i ∧ r.head < r.capacity then ⟨.armed r.layout s.addr s.length, some s⟩
      else r.cell i := cell_setCell r r.head i _
  constructor
  · rw [h.head_eq, h.slot_place _ h.length_lt]
    exact List.getElem?_eq_none (Nat.le_refl _)
  · rw [hcell, if_pos ⟨rfl, h.head_lt⟩]
  · intro i hi
    rw [hcell, if_neg fun hhead => hi hhead.1.symm]
  · exact r.capacity_setCell r.head _
  · rfl
  · rfl

namespace Engine

/-! ### Obstacles -/

/-- What may be in the way of a buffer that is posted. -/
inductive Obstacle where
  /-- The engine is not up. -/
  | notUp
  /-- There is no such channel. -/
  | noChannel
  /-- The channel is down. -/
  | down
  /-- The ring does not run. -/
  | disabled
  /-- The ring has no free place. -/
  | full
  /-- The length cannot be posted. -/
  | badLength
  /-- The buffer cannot be mapped. -/
  | unmappable
  deriving DecidableEq

namespace Obstacle

/-- The obstacles in the order in which they are met. -/
def all : List Obstacle := [notUp, noChannel, down, disabled, full, badLength, unmappable]

/-- Whether an obstacle is in the way of a buffer. -/
def blocks (e : Engine β) (id : Nat) (d : Direction) (buffer : β) (length : Nat) :
    Obstacle → Bool
  | notUp => !e.initialized
  | noChannel => decide (e.channels.length ≤ id)
  | down => e.monitor.isDown id
  | disabled => e.channels[id]?.any fun c => !(c.ring d).enabled
  | full => e.channels[id]?.any fun c => (c.ring d).isFull
  | badLength => !decide (1 ≤ length ∧ length ≤ e.config.capabilities.layout.lenMask.toNat)
  | unmappable => (e.machine.mapper.mapBuffer buffer).1.isNone

/-- The error with which a buffer comes back from an obstacle. -/
def error (e : Engine β) (id : Nat) : Obstacle → Error
  | notUp => .config .notInitialized
  | noChannel => .config .invalidChannel
  | down => .io (if (e.monitor.records[id]?).any (·.fatal) then .fatal else .channelDown)
  | disabled => .io .invalidState
  | full => .dma .resourceExhausted
  | badLength => .dma .invalidLength
  | unmappable => .dma .mappingFailed

/-- The first obstacle in the way of a buffer, if there is one. -/
def first? (e : Engine β) (id : Nat) (d : Direction) (buffer : β) (length : Nat) :
    Option Obstacle := all.find? (·.blocks e id d buffer length)

end Obstacle

section Obstacles

variable {e : Engine β} {id : Nat} {d : Direction} {buffer : β} {length : Nat} {c : Channel β}

/-- The way to the ring of a channel is free. -/
structure Reached (e : Engine β) (id : Nat) (c : Channel β) : Prop where
  up : e.initialized = true
  channel : e.channels[id]? = some c
  usable : e.monitor.isDown id = false

/-- An engine hands out a channel if the first obstacles are not in the way. -/
theorem reached_of_usable?_ok (h : e.usable? id = .ok c) : e.Reached id c := by
  obtain ⟨hchannel, hdown⟩ := channel?_of_usable?_ok h
  refine ⟨?_, channels_of_channel?_ok hchannel, ?_⟩
  · cases hup : e.initialized with
    | true => rfl
    | false => simp [channel?, hup] at hchannel
  · rw [Monitor.downError?] at hdown
    rw [Monitor.isDown]
    cases hr : e.monitor.record? id with
    | none => rfl
    | some r =>
      rw [hr, Option.bind_some, ChannelRecord.downError?] at hdown
      cases hd : r.down with
      | true => simp [hd] at hdown
      | false => simp [hd]

/-- Otherwise the answer is the error of the first of them. -/
theorem first?_of_usable?_error (d : Direction) (buffer : β) (length : Nat) {x : Error}
    (h : e.usable? id = .error x) :
    ∃ o, Obstacle.first? e id d buffer length = some o ∧ x = o.error e id ∧ o ≠ .full ∧
      o ≠ .unmappable := by
  unfold usable? channel? at h
  cases hup : e.initialized with
  | false =>
    simp only [hup, Bool.not_false, if_true, Except.error.injEq] at h
    refine ⟨.notUp, ?_, h.symm, by simp, by simp⟩
    simp [Obstacle.first?, Obstacle.all, Obstacle.blocks, hup]
  | true =>
    simp only [hup, Bool.not_true, Bool.false_eq_true, if_false] at h
    cases hc : e.channels[id]? with
    | none =>
      simp only [hc, Except.error.injEq] at h
      have hlength : e.channels.length ≤ id := List.getElem?_eq_none_iff.mp hc
      refine ⟨.noChannel, ?_, h.symm, by simp, by simp⟩
      simp [Obstacle.first?, Obstacle.all, Obstacle.blocks, hup, hlength]
    | some c =>
      have hlength : id < e.channels.length := (List.getElem?_eq_some_iff.mp hc).1
      simp only [hc] at h
      split at h
      next y hdown =>
        obtain ⟨r, hr, hy⟩ := Option.bind_eq_some_iff.mp hdown
        have hr : e.monitor.records[id]? = some r := hr
        rw [ChannelRecord.downError?] at hy
        split at hy
        next hrecord =>
          refine ⟨.down, ?_, ?_, by simp, by simp⟩
          · simp [Obstacle.first?, Obstacle.all, Obstacle.blocks, hup, hlength, Monitor.isDown,
              Monitor.record?, hr, hrecord]
          · rw [Obstacle.error, hr, Option.any_some, Option.some.inj hy]
            exact (Except.error.inj h).symm
        · cases hy
      · cases h

/-- On the way to a ring, what the ring and the mapper look for is left. -/
theorem Reached.first?_eq (h : e.Reached id c) : Obstacle.first? e id d buffer length =
    if (c.ring d).enabled = false then some .disabled
    else if (c.ring d).isFull = true then some .full
    else if ¬ (1 ≤ length ∧ length ≤ e.config.capabilities.layout.lenMask.toNat) then
      some .badLength
    else if (e.machine.mapper.mapBuffer buffer).1 = none then some .unmappable
    else none := by
  have hlength : id < e.channels.length := (List.getElem?_eq_some_iff.mp h.channel).1
  have hup : Obstacle.blocks e id d buffer length .notUp = false := by
    rw [Obstacle.blocks, h.up, Bool.not_true]
  have hchannel : Obstacle.blocks e id d buffer length .noChannel = false :=
    decide_eq_false (Nat.not_le_of_lt hlength)
  have hdown : Obstacle.blocks e id d buffer length .down = false := h.usable
  have henabled : Obstacle.blocks e id d buffer length .disabled = !(c.ring d).enabled := by
    rw [Obstacle.blocks, h.channel, Option.any_some]
  have hfull : Obstacle.blocks e id d buffer length .full = (c.ring d).isFull := by
    rw [Obstacle.blocks, h.channel, Option.any_some]
  have hlengths : Obstacle.blocks e id d buffer length .badLength =
    !decide (1 ≤ length ∧ length ≤ e.config.capabilities.layout.lenMask.toNat) := rfl
  have hmap : Obstacle.blocks e id d buffer length .unmappable =
    (e.machine.mapper.mapBuffer buffer).1.isNone := rfl
  simp only [Obstacle.first?, Obstacle.all, List.find?_cons, List.find?_nil, hup, hchannel, hdown,
    henabled, hfull, hlengths, hmap]
  cases (c.ring d).enabled with
  | false => rfl
  | true =>
    cases (c.ring d).isFull with
    | true => rfl
    | false =>
      by_cases hlen : 1 ≤ length ∧ length ≤ e.config.capabilities.layout.lenMask.toNat
      · cases (e.machine.mapper.mapBuffer buffer).1 <;> simp [hlen]
      · simp [hlen]

/-- A ring refuses a buffer for the first of the obstacles that it looks for. -/
theorem Reached.first?_of_refusal? (h : e.Reached id c)
    (hlayout : (c.ring d).layout = e.config.capabilities.layout) {x : Error}
    (hx : (c.ring d).refusal? length = some x) :
    ∃ o, Obstacle.first? e id d buffer length = some o ∧ x = o.error e id ∧ o ≠ .unmappable ∧
      (o = .full ↔ x = .dma .resourceExhausted) := by
  rw [h.first?_eq]
  unfold Ring.refusal? at hx
  split at hx
  next hdisabled =>
    obtain rfl := Option.some.inj hx
    rw [Bool.not_eq_true'] at hdisabled
    exact ⟨.disabled, if_pos hdisabled, rfl, by simp, by simp⟩
  next henabled =>
    rw [Bool.not_eq_true', Bool.not_eq_false] at henabled
    rw [if_neg (by simp [henabled])]
    split at hx
    next hfull =>
      obtain rfl := Option.some.inj hx
      exact ⟨.full, if_pos hfull, rfl, by simp, by simp⟩
    next hroom =>
      rw [if_neg hroom]
      split at hx
      next hlength =>
        obtain rfl := Option.some.inj hx
        rw [hlayout, DescriptorLayout.maxLength] at hlength
        exact ⟨.badLength, if_pos (by omega), rfl, by simp, by simp⟩
      · cases hx

/-- Past the ring only the mapper is left. -/
theorem Reached.first?_of_room (h : e.Reached id c) (buffer : β)
    (hlayout : (c.ring d).layout = e.config.capabilities.layout)
    (hroom : (c.ring d).refusal? length = none) :
    Obstacle.first? e id d buffer length =
      if (e.machine.mapper.mapBuffer buffer).1 = none then some .unmappable else none := by
  obtain ⟨henabled, hfull⟩ := Ring.enabled_of_refusal?_none hroom
  have hlength : 1 ≤ length ∧ length ≤ e.config.capabilities.layout.lenMask.toNat := by
    simp only [Ring.refusal?, henabled, hfull, Bool.not_true, Bool.false_eq_true, if_false, hlayout,
      DescriptorLayout.maxLength] at hroom
    split at hroom
    · cases hroom
    · omega
  rw [h.first?_eq, if_neg (by simp [henabled]), if_neg (by simp [hfull]),
    if_neg (not_not.mpr hlength)]

/-! ### What a posted buffer comes to -/

/-- What the engine is after a buffer was accepted: it was mapped and put into the place at the
head, the head doorbell told the device, and the transfer is counted. -/
structure Accepted (e : Engine β) (id : Nat) (d : Direction) (buffer : β) (length : Nat)
    (c : Channel β) (addr : BusAddress) (e' : Engine β) : Prop where
  channel : e.channels[id]? = some c
  filled : ∃ r, (c.ring d).Filled ⟨buffer, addr, length⟩ r ∧
    e' = { e with
      channels := e.channels.set id (c.setRing d r)
      machine := e'.machine
      stats := { e.stats with enqueued := Counter.add e.stats.enqueued 1 } }
  effects_eq : e'.machine.effects = e.machine.effects ++
    [.mapped id d (c.ring d).head buffer addr length,
      .write ((e.device.channel id).offset (.head d))
        (UInt32.ofNat (((c.ring d).head + 1) % (c.ring d).capacity))]
  mapped_eq : e'.machine.mapper.mapped = (addr, buffer) :: e.machine.mapper.mapped

/-- What the engine is after a buffer came back from an obstacle: no register was accessed, nothing
was mapped, and only a full ring was counted. -/
structure Refused (e : Engine β) (id : Nat) (d : Direction) (buffer : β) (o : Obstacle)
    (e' : Engine β) : Prop where
  engine_eq : e' = { e with
    machine := e'.machine
    monitor := if o = .full then
        { e.monitor with
          records := e.monitor.records.modify id fun r =>
            { r with
              stats :=
                { r.stats with
                  ringFullWindow := Counter.add r.stats.ringFullWindow 1
                  ringFullEvents := Counter.add r.stats.ringFullEvents 1 } } }
      else e.monitor
    stats := if o = .full then { e.stats with ringFull := Counter.add e.stats.ringFull 1 }
      else e.stats }
  registers_eq : e'.machine.registers = e.machine.registers
  effects_eq : e'.machine.effects =
    e.machine.effects ++ if o = .unmappable then [.mapFailed id d buffer] else []
  mapped_eq : e'.machine.mapper.mapped = e.machine.mapper.mapped

theorem Refused.same {o : Obstacle} (hfull : o ≠ .full) (hmap : o ≠ .unmappable) :
    e.Refused id d buffer o e := by
  refine ⟨?_, rfl, ?_, rfl⟩
  · rw [if_neg hfull, if_neg hfull]
  · rw [if_neg hmap, List.append_nil]

end Obstacles

end Engine

namespace Machine

variable {m n : Machine β} {channel : Nat} {d : Direction} {index : Nat} {buffer : β} {length : Nat}

/-- A buffer that cannot be mapped leaves a note only. -/
theorem of_mapBuffer_none (h : m.mapBuffer channel d index buffer length = (none, n)) :
    (m.mapper.mapBuffer buffer).1 = none ∧ n.registers = m.registers ∧
      n.effects = m.effects ++ [.mapFailed channel d buffer] ∧
      n.mapper.mapped = m.mapper.mapped := by
  unfold mapBuffer at h
  split at h
  next mapper hmap =>
    obtain rfl := (Prod.mk.inj h).2
    refine ⟨congrArg (·.1) hmap, rfl, effects_emit _ _, ?_⟩
    unfold Mapper.mapBuffer at hmap
    dsimp only at hmap
    split at hmap
    · rw [← (Prod.mk.inj hmap).2]
      rfl
    · cases (Prod.mk.inj hmap).1
  · cases (Prod.mk.inj h).1

/-- A buffer that was mapped is the latest one that is mapped. -/
theorem of_mapBuffer_some {addr : BusAddress}
    (h : m.mapBuffer channel d index buffer length = (some addr, n)) :
    (m.mapper.mapBuffer buffer).1 = some addr ∧
      n.mapper.mapped = (addr, buffer) :: m.mapper.mapped := by
  unfold mapBuffer at h
  split at h
  · cases (Prod.mk.inj h).1
  next addr' mapper hmap =>
    obtain ⟨haddr, rfl⟩ := Prod.mk.inj h
    obtain rfl := Option.some.inj haddr
    refine ⟨congrArg (·.1) hmap, ?_⟩
    unfold Mapper.mapBuffer at hmap
    dsimp only at hmap
    split at hmap
    · cases (Prod.mk.inj hmap).1
    · obtain ⟨haddr, rfl⟩ := Prod.mk.inj hmap
      rw [← Option.some.inj haddr]
      rfl

end Machine

/-- What posting a buffer on a channel that has rings comes to. -/
inductive Channel.Posts (c : Channel β) (d : Direction) (buffer : β) (length : Nat)
    (m : Machine β) : Except (Rejection β) Unit × Channel β × Machine β → Prop where
  | refused {x : Error} (hx : (c.ring d).refusal? length = some x) :
      Posts c d buffer length m (.error ⟨x, buffer⟩, c, m)
  | unmapped {n : Machine β} (hroom : (c.ring d).refusal? length = none)
      (hmap : m.mapBuffer c.id d (c.ring d).head buffer length = (none, n)) :
      Posts c d buffer length m (.error ⟨.dma .mappingFailed, buffer⟩, c, n)
  | posted {addr : BusAddress} {n : Machine β} (hroom : (c.ring d).refusal? length = none)
      (hmap : m.mapBuffer c.id d (c.ring d).head buffer length = (some addr, n)) :
      Posts c d buffer length m (.ok (), c.setRing d ((c.ring d).post buffer addr length),
        c.registers.ringDoorbell d ((c.ring d).next (c.ring d).head) n)

theorem Channel.posts_enqueue {c : Channel β} (hbuilt : c.initialized = true) (d : Direction)
    (buffer : β) (length : Nat) (m : Machine β) :
    c.Posts d buffer length m (c.enqueue d buffer length m) := by
  unfold enqueue
  rw [if_neg (by simp [hbuilt])]
  dsimp only
  split
  next hx => exact .refused hx
  next hroom =>
    split
    next hmap => exact .unmapped hroom hmap
    next hmap => exact .posted hroom hmap

namespace Engine

section Posting

variable {e : Engine β} {id : Nat} {d : Direction} {buffer : β} {length : Nat} {c : Channel β}

/-- A channel as it stands in an engine that is up. -/
structure Stands (e : Engine β) (id : Nat) (c : Channel β) : Prop where
  built : c.initialized = true
  id_eq : c.id = id
  registers_eq : c.registers = e.device.channel id
  layout_eq : ∀ d, (c.ring d).layout = e.config.capabilities.layout
  carries : c.Sound

theorem config_of_live {config : Config} {m : Machine β} {moments : List (Moment σ β)}
    {seen : Story β} (h : live moments (new config m) = some (seen, e)) : e.config = config := by
  have hkept := live_keeps (fun e => e.IdleEmpty ∧ e.config = config)
    (fun moment _ _ _ _ hpass ⟨hidle, heq⟩ =>
      ⟨moment.idleEmpty_of_pass hidle hpass, (moment.config_of_pass hidle hpass).trans heq⟩)
    h ⟨idleEmpty_new config m, rfl⟩
  exact hkept.2

theorem stands_of_live {config : Config} {m : Machine β} {moments : List (Moment σ β)}
    {seen : Story β} (h : live moments (new config m) = some (seen, e))
    (hc : e.channels[id]? = some c) : e.Stands id c := by
  have hshaped := shaped_of_live h
  obtain ⟨hid, -, hplaced⟩ := home_of_live (Nat.le_refl _) h id c hc
  refine ⟨hshaped.sound.built id c hc, hid, hid ▸ hplaced.registers_eq, fun d => ?_,
    hshaped.sound.rings id c hc⟩
  rw [config_of_live h]
  exact (hshaped.rings c (List.mem_of_getElem? hc) d).layout_eq

/-- A buffer that is posted on a channel within reach. -/
theorem admission_of_reached (d : Direction) (buffer : β) (length : Nat) (h : e.Reached id c)
    (hc : e.Stands id c) (hu : e.usable? id = .ok c) :
    (Obstacle.first? e id d buffer length = none →
      (e.enqueue id d buffer length).1 = .ok () ∧
        ∃ addr, e.Accepted id d buffer length c addr (e.enqueue id d buffer length).2) ∧
    ∀ o, Obstacle.first? e id d buffer length = some o →
      (e.enqueue id d buffer length).1 = .error ⟨o.error e id, buffer⟩ ∧
        e.Refused id d buffer o (e.enqueue id d buffer length).2 := by
  have hposts := Channel.posts_enqueue hc.built d buffer length e.machine
  obtain ⟨_, hget⟩ := List.getElem?_eq_some_iff.mp h.channel
  have hsame (m : Machine β) : e.put id c m = { e with machine := m } := by
    rw [put, ← hget, List.set_getElem_self]
  unfold enqueue
  rw [hu]
  dsimp only
  generalize c.enqueue d buffer length e.machine = outcome at hposts ⊢
  cases hposts with
  | @refused x hx =>
    obtain ⟨o, ho, rfl, hmap, hfull⟩ := h.first?_of_refusal? (hc.layout_eq d) hx
    refine ⟨fun hfree => ?_, fun o' ho' => ?_⟩
    · cases ho.symm.trans hfree
    · obtain rfl := Option.some.inj (ho.symm.trans ho')
      dsimp only
      rw [hsame, Rejection.isFull]
      by_cases hcounted : o = .full
      · rw [if_pos (beq_iff_eq.mpr (hfull.mp hcounted))]
        refine ⟨rfl, ?_, rfl, ?_, rfl⟩
        · rw [if_pos hcounted, if_pos hcounted]
          rfl
        · rw [if_neg hmap, List.append_nil]
          rfl
      · rw [if_neg fun hx => hcounted (hfull.mpr (beq_iff_eq.mp hx))]
        exact ⟨rfl, .same hcounted hmap⟩
  | @unmapped n hroom hmap =>
    have hfirst := h.first?_of_room buffer (hc.layout_eq d) hroom
    obtain ⟨hnone, hregisters, heffects, hmapped⟩ := Machine.of_mapBuffer_none hmap
    rw [if_pos hnone] at hfirst
    rw [hfirst]
    refine ⟨fun hfree => ?_, fun o ho => ?_⟩
    · cases hfree
    · obtain rfl := Option.some.inj ho
      dsimp only
      rw [hsame, Rejection.isFull, if_neg (by simp)]
      exact ⟨rfl, rfl, hregisters, hc.id_eq ▸ heffects, hmapped⟩
  | @posted addr n hroom hmap =>
    have hfirst := h.first?_of_room buffer (hc.layout_eq d) hroom
    obtain ⟨hsome, hmapped⟩ := Machine.of_mapBuffer_some hmap
    rw [if_neg (by simp [hsome])] at hfirst
    rw [hfirst]
    have hbell : (c.registers.ringDoorbell d ((c.ring d).next (c.ring d).head) n).effects = _ :=
      Machine.effects_write n (c.registers.offset (.head d))
        (UInt32.ofNat ((c.ring d).next (c.ring d).head))
    rw [Machine.effects_mapBuffer hmap, hc.id_eq, List.append_assoc] at hbell
    refine ⟨fun _ => ⟨rfl, addr, h.channel, ?_, ?_, hmapped⟩, fun o ho => ?_⟩
    · exact ⟨_, (hc.carries d).filled ⟨buffer, addr, length⟩, rfl⟩
    · rw [← hc.registers_eq]
      exact hbell
    · cases ho

end Posting

/-- A buffer is posted exactly if no obstacle is in its way, and otherwise comes back with the error
of the first one. An accepted buffer is mapped once, fills the place at the head, and is announced
by one write of the new head. A refused one has changed nothing that the device, the rings, the
mapper or the monitor show, but that a full ring is counted. -/
theorem enqueue_admission {config : Config} {m : Machine β} {moments : List (Moment σ β)}
    {seen : Story β} {e : Engine β} (h : live moments (new config m) = some (seen, e)) (id : Nat)
    (d : Direction) (buffer : β) (length : Nat) :
    (Obstacle.first? e id d buffer length = none →
      (e.enqueue id d buffer length).1 = .ok () ∧
        ∃ c addr, e.Accepted id d buffer length c addr (e.enqueue id d buffer length).2) ∧
    ∀ o, Obstacle.first? e id d buffer length = some o →
      (e.enqueue id d buffer length).1 = .error ⟨o.error e id, buffer⟩ ∧
        e.Refused id d buffer o (e.enqueue id d buffer length).2 := by
  cases hu : e.usable? id with
  | error x =>
    obtain ⟨o, ho, rfl, hfull, hmap⟩ :=
      first?_of_usable?_error d buffer length hu
    refine ⟨fun hfree => ?_, fun o' ho' => ?_⟩
    · cases ho.symm.trans hfree
    · obtain rfl := Option.some.inj (ho.symm.trans ho')
      rw [enqueue, hu]
      exact ⟨rfl, .same hfull hmap⟩
  | ok c =>
    have hreached := reached_of_usable?_ok hu
    have hstands := stands_of_live h hreached.channel
    obtain ⟨hfree, hblocked⟩ := admission_of_reached d buffer length hreached hstands hu
    exact ⟨fun hfirst => ⟨(hfree hfirst).1, c, (hfree hfirst).2⟩, hblocked⟩

/-- A buffer for a channel that was just started, and one of no length. -/
theorem enqueue_admission_trip : ∃ seen e c addr,
    live readyTrip (new .bench .bench) = some (seen, e) ∧
      (e.enqueue 0 .toDevice 7 64).1 = .ok () ∧
      e.Accepted 0 .toDevice 7 64 c addr (e.enqueue 0 .toDevice 7 64).2 ∧
      (e.enqueue 0 .toDevice 7 0).1 = .error ⟨.dma .invalidLength, 7⟩ ∧
      e.Refused 0 .toDevice 7 .badLength (e.enqueue 0 .toDevice 7 0).2 := by
  have hfacts : (live readyTrip (new .bench .bench)).map (fun r =>
      (Obstacle.first? r.2 0 .toDevice 7 64, Obstacle.first? r.2 0 .toDevice 7 0)) =
        some (none, some .badLength) := by decide +kernel
  obtain ⟨⟨seen, e⟩, hlive, hfacts⟩ := Option.map_eq_some_iff.mp hfacts
  obtain ⟨hfree, hblocked⟩ := Prod.mk.inj hfacts
  obtain ⟨hok, c, addr, haccepted⟩ := (enqueue_admission hlive 0 .toDevice 7 64).1 hfree
  obtain ⟨herror, hrefused⟩ := (enqueue_admission hlive 0 .toDevice 7 0).2 .badLength hblocked
  exact ⟨seen, e, c, addr, hlive, hok, haccepted, herror, hrefused⟩

end Engine

end PacketDma
