import PacketDma.Proofs.BatchedDrain
import PacketDma.Proofs.HonestDevice

/-!
# Receive buffers

A worker asks its sink for receive buffers while a ring has room. Whatever the sink offers and the
device writes, every buffer that the worker gets is posted or goes back, and the worker asks no more
often than there was room. It takes back no more transfers than were in flight.

## Implementation notes

A sink that observes its calls shows what a worker asks for and what it gives back. Channels are
served one after the other and each of them once, so all calls for a channel come from its own turn
in each stage. The engine at the beginning of a turn is the one that the worker has come to after
the turns before, and posting goes on from its machine. What a turn does to a ring is said for sound
rings only, since a worker keeps no other ones.
-/

namespace PacketDma

variable {σ τ α β : Type}

/-- A call of a sink for a channel. A call for a buffer has an answer. -/
inductive SinkCall (β : Type) where
  /-- A finished transfer was handed over. -/
  | complete (direction : Direction) (t : Completion β)
  /-- A receive buffer of some length was asked for. -/
  | rxBuffer (offer : Option (β × Nat))
  /-- A receive buffer went back. -/
  | giveBack (buffer : β)
  deriving DecidableEq

/-- Whether a receive buffer was asked for. -/
def SinkCall.isAsk : SinkCall β → Bool
  | .rxBuffer _ => true
  | _ => false

/-- A sink and the calls of it, by channel. -/
abbrev Observed (σ β : Type) := σ × List (Nat × SinkCall β)

/-- Keeps all calls besides the state of a sink. -/
def Sink.observed (sink : Sink σ β) : Sink (Observed σ β) β where
  complete s id direction t :=
    (sink.complete s.1 id direction t, s.2 ++ [(id, .complete direction t)])
  rxBuffer s id :=
    ((sink.rxBuffer s.1 id).1, (sink.rxBuffer s.1 id).2,
      s.2 ++ [(id, .rxBuffer (sink.rxBuffer s.1 id).1)])
  giveBack s id buffer := (sink.giveBack s.1 id buffer, s.2 ++ [(id, .giveBack buffer)])

/-- Observing has no influence. -/
theorem Sink.refines_observed (sink : Sink σ β) : sink.observed.Refines Prod.fst sink :=
  ⟨fun _ _ _ _ => rfl, fun _ _ => rfl, fun _ _ _ => rfl⟩

/-- The entries of a list that are about a channel. -/
def ofChannel (id : Nat) (entries : List (Nat × α)) : List α :=
  entries.filterMap fun entry => if entry.1 = id then some entry.2 else none

@[simp]
theorem ofChannel_append (id : Nat) (l l' : List (Nat × α)) :
    ofChannel id (l ++ l') = ofChannel id l ++ ofChannel id l' := List.filterMap_append

@[simp]
theorem ofChannel_own (id : Nat) (l : List α) : ofChannel id (l.map (id, ·)) = l := by
  induction l with
  | nil => rfl
  | cons a l ih => simp_all [ofChannel]

theorem ofChannel_other {id i : Nat} (h : i ≠ id) (l : List α) :
    ofChannel i (l.map (id, ·)) = [] := by
  simp [ofChannel, h.symm]

namespace Ring.Carries

variable {r : Ring β} {q : List (Slot β)}

theorem freeSlots_lt (h : r.Carries q) : r.freeSlots < r.capacity := by
  have htail := h.tail_lt
  rw [h.freeSlots_eq]
  omega

/-- A ring with free places is not full. -/
theorem isFull_eq_false (h : r.Carries q) (hroom : r.freeSlots ≠ 0) : r.isFull = false := by
  rw [h.freeSlots_eq] at hroom
  cases hfull : r.isFull with
  | false => rfl
  | true =>
    have hlength := h.isFull_iff.mp hfull
    omega

/-- A posted buffer takes one free place. -/
theorem freeSlots_post (h : r.Carries q) (hroom : r.freeSlots ≠ 0) (buffer : β)
    (addr : BusAddress) (length : Nat) :
    (r.post buffer addr length).freeSlots + 1 = r.freeSlots := by
  have hpost := h.post (h.isFull_eq_false hroom) buffer addr length
  have hcapacity : (r.post buffer addr length).capacity = r.capacity := capacity_setCell r _ _
  rw [h.freeSlots_eq] at hroom ⊢
  rw [hpost.freeSlots_eq, hcapacity, List.length_append, List.length_singleton]
  omega

end Ring.Carries

namespace Channel

variable {c c' c'' : Channel β} {m m' m'' : Machine β} {direction : Direction}

/-! ### Taking back -/

/-- Transfers came back from the fronts of the rings. -/
structure Drains (c : Channel β) (back : List (Direction × Completion β)) (c' : Channel β) :
    Prop where
  sound : c'.Sound
  count_add : ∀ d, back.countP (·.1 = d) + (c'.queue d).length = (c.queue d).length

theorem Drains.refl (h : c.Sound) : c.Drains [] c := ⟨h, fun _ => Nat.zero_add _⟩

theorem Drains.trans {back back' : List (Direction × Completion β)} (h : c.Drains back c')
    (h' : c'.Drains back' c'') : c.Drains (back ++ back') c'' := by
  refine ⟨h'.sound, fun d => ?_⟩
  have hfirst := h.count_add d
  have hrest := h'.count_add d
  rw [List.countP_append]
  omega

/-- No more transfers come back than are in flight. -/
theorem Drains.count_le {back : List (Direction × Completion β)} (h : c.Drains back c')
    (hc : c.Sound) (d : Direction) : back.countP (·.1 = d) ≤ c.inFlight d := by
  have hflight : c.inFlight d = (c.queue d).length := (hc d).inFlight_eq
  have hcount := h.count_add d
  omega

theorem drains_overwrite (h : c.Sound) (f : Direction → Nat → Descriptor → Descriptor) :
    c.Drains [] (c.overwrite f) := by
  obtain ⟨hsound, hqueue⟩ := sound_of_queue (c := c.overwrite f) fun d => by
    rw [ring_overwrite]
    exact Ring.carries_overwrite (h d) (f d)
  refine ⟨hsound, fun d => ?_⟩
  rw [hqueue]
  exact Nat.zero_add _

theorem drains_reclaim_some {t : Completion β} (h : c.Sound)
    (hr : c.reclaim direction m = (some t, c', m')) : c.Drains [(direction, t)] c' := by
  obtain ⟨rfl, ht⟩ := Engine.eq_of_reclaim hr
  obtain ⟨u, hu, -⟩ := Option.map_eq_some_iff.mp ht.symm
  obtain ⟨rest, hqueue, hrest, -⟩ :=
    Ring.carries_of_reclaim_some (h direction) (Prod.ext hu rfl)
  obtain ⟨hsound, hsame, hother⟩ := sound_setRing h hrest
  refine ⟨hsound, fun d => ?_⟩
  by_cases hd : d = direction
  · subst hd
    rw [hsame, hqueue, List.countP_singleton, if_pos (decide_eq_true rfl), List.length_cons]
    exact Nat.add_comm _ _
  · have hne : ¬ direction = d := fun heq => hd heq.symm
    rw [hother d hd, List.countP_singleton, if_neg (by simpa using hne)]
    exact Nat.zero_add _

theorem setRing_ring (c : Channel β) (direction : Direction) :
    c.setRing direction (c.ring direction) = c := by
  cases direction <;> rfl

theorem drains_reclaim_none (h : c.Sound) (hr : c.reclaim direction m = (none, c', m')) :
    c.Drains [] c' := by
  obtain ⟨rfl, hnone⟩ := Engine.eq_of_reclaim hr
  have hring : (c.ring direction).reclaim = (none, (c.ring direction).reclaim.2) :=
    Prod.ext (Option.map_eq_none_iff.mp hnone.symm) rfl
  have hsame : c.setRing direction (c.ring direction).reclaim.2 = c :=
    (congrArg (c.setRing direction) (Ring.eq_of_reclaim_none (h direction) hring)).trans
      (setRing_ring c direction)
  rw [hsame]
  exact .refl h

/-! ### Filling -/

/-- Receive buffers are posted on a channel, one after the other. -/
inductive Fed : Channel β → Machine β → List (Slot β) → Channel β → Machine β → Prop where
  | nil (c : Channel β) (m : Machine β) : Fed c m [] c m
  | cons {c c₁ c' : Channel β} {m m₁ m' : Machine β} {s : Slot β} {rest : List (Slot β)}
      (h : c.enqueue .fromDevice s.buffer s.length m = (.ok (), c₁, m₁))
      (hrest : Fed c₁ m₁ rest c' m') : Fed c m (s :: rest) c' m'

/-- How asking for receive buffers ends: the ring is full, the sink has no buffer, or a buffer
cannot be posted, though not for want of room, and goes back. -/
inductive Ends (c : Channel β) (m : Machine β) : List (SinkCall β) → Machine β → Prop where
  | full (hfull : c.rx.freeSlots = 0) : Ends c m [] m
  | dry (hroom : c.rx.freeSlots ≠ 0) : Ends c m [.rxBuffer none] m
  | rejected {buffer : β} {length : Nat} {m' : Machine β} {r : Rejection β}
      (hroom : c.rx.freeSlots ≠ 0)
      (h : c.enqueue .fromDevice buffer length m = (.error r, c, m'))
      (herror : r.error ≠ .dma .resourceExhausted) :
      Ends c m [.rxBuffer (some (buffer, length)), .giveBack buffer] m'

/-- A receive ring was filled: buffers were asked for and posted one after the other, until asking
came to an end. -/
structure Fills (c : Channel β) (m : Machine β) (calls : List (SinkCall β))
    (posted : List (Slot β)) (c' : Channel β) (m' : Machine β) : Prop where
  /-- The posted buffers follow those that were in flight. -/
  carries : c'.rx.Carries (c.queue .fromDevice ++ posted)
  /-- There were no calls but those that got the posted buffers and those at the end. -/
  calls_eq : ∃ last m₁, c.Fed m posted c' m₁ ∧ c'.Ends m₁ last m' ∧
    calls = posted.map (fun s => .rxBuffer (some (s.buffer, s.length))) ++ last
  /-- Every time that a buffer was asked for, there was room for it from the first. -/
  asks_le : calls.countP (·.isAsk) ≤ c.rx.freeSlots

/-- Want of room is a reason to refuse a buffer only where there is none. -/
theorem error_ne_of_room {buffer : β} {length : Nat} {r : Rejection β}
    (hroom : (c.ring direction).isFull = false)
    (h : c.enqueue direction buffer length m = (.error r, c', m')) :
    r.error ≠ .dma .resourceExhausted := by
  unfold enqueue at h
  split at h
  · obtain rfl := Except.error.inj (Prod.mk.inj h).1
    simp
  dsimp only at h
  split at h
  next refusal hrefusal =>
    obtain rfl := Except.error.inj (Prod.mk.inj h).1
    unfold Ring.refusal? at hrefusal
    rw [hroom] at hrefusal
    rintro rfl
    split at hrefusal
    · simp at hrefusal
    · simp at hrefusal
  next =>
    split at h
    · obtain rfl := Except.error.inj (Prod.mk.inj h).1
      simp
    · simp at h

/-- The end of asking takes one more free place at most. -/
theorem Ends.asks_le {calls : List (SinkCall β)} (h : c.Ends m calls m') :
    calls.countP (·.isAsk) ≤ c.rx.freeSlots := by
  cases h with
  | full => exact Nat.zero_le _
  | dry hroom => exact Nat.one_le_iff_ne_zero.mpr hroom
  | rejected hroom => exact Nat.one_le_iff_ne_zero.mpr hroom

/-- Asking ends at once. -/
theorem Ends.fills {calls : List (SinkCall β)} (h : c.Ends m calls m') (hc : c.Sound) :
    c.Fills m calls [] c m' := by
  refine ⟨?_, ⟨calls, m, .nil c m, h, rfl⟩, h.asks_le⟩
  rw [List.append_nil]
  exact hc .fromDevice

/-- A buffer is posted, and asking goes on. -/
theorem Fills.post {buffer : β} {addr : BusAddress} {length : Nat} {calls : List (SinkCall β)}
    {posted : List (Slot β)} (hc : c.Sound) (hroom : c.rx.freeSlots ≠ 0)
    (hpost : c.enqueue .fromDevice buffer length m =
      (.ok (), c.setRing .fromDevice (c.rx.post buffer addr length), m''))
    (hrest :
      (c.setRing .fromDevice (c.rx.post buffer addr length)).Fills m'' calls posted c' m') :
    c.Fills m (.rxBuffer (some (buffer, length)) :: calls) (⟨buffer, addr, length⟩ :: posted)
      c' m' := by
  have hring : c.rx.Carries (c.queue .fromDevice) := hc .fromDevice
  have hcarries := hring.post (hring.isFull_eq_false hroom) buffer addr length
  constructor
  · have hall := hrest.carries
    rwa [(sound_setRing hc hcarries).2.1, List.append_assoc, List.singleton_append] at hall
  · obtain ⟨last, m₁, hfed, hends, rfl⟩ := hrest.calls_eq
    exact ⟨last, m₁, .cons hpost hfed, hends, rfl⟩
  · have hasks : calls.countP (·.isAsk) ≤ (c.rx.post buffer addr length).freeSlots := hrest.asks_le
    have hfree := hring.freeSlots_post hroom buffer addr length
    rw [List.countP_cons_of_pos rfl]
    omega

end Channel

/-! ### Turns of a worker -/

namespace Engine

/-- Transfers of a channel were handed over, and the sink observed them. -/
structure Drained.Delivers (id : Nat) (d : Drained (Observed σ β) β)
    (back : List (Direction × Completion β)) (d' : Drained (Observed σ β) β) : Prop where
  log_eq : d'.sink.2 = d.sink.2 ++ (back.map fun t => .complete t.1 t.2).map (id, ·)
  drains : d.channel.Sound → d.channel.Drains back d'.channel

theorem Drained.Delivers.trans {id : Nat} {d d' d'' : Drained (Observed σ β) β}
    {back back' : List (Direction × Completion β)} (h : d.Delivers id back d')
    (h' : d'.Delivers id back' d'') : d.Delivers id (back ++ back') d'' where
  log_eq := by rw [h'.log_eq, h.log_eq, List.map_append, List.map_append, List.append_assoc]
  drains hsound := (h.drains hsound).trans (h'.drains (h.drains hsound).sound)

theorem delivers_drainRing (noise : Noise) (sink : Sink σ β) (id : Nat) (direction : Direction)
    (d : Drained (Observed σ β) β) :
    ∃ back, d.Delivers id back (drainRing noise sink.observed id direction d) := by
  have hwrites (hsound : d.channel.Sound) :=
    Channel.drains_overwrite hsound (noise id direction (d.channel.inFlight direction))
  fun_induction drainRing noise sink.observed id direction d with
  | case1 d c m h =>
    refine ⟨[], (List.append_nil _).symm, fun hsound => ?_⟩
    exact (hwrites hsound).trans (Channel.drains_reclaim_none (hwrites hsound).sound h)
  | case2 d t c m h ih =>
    obtain ⟨back, hrest⟩ := ih fun hsound => Channel.drains_overwrite hsound _
    have hfirst : d.Delivers id [(direction, t)]
        { total := d.total + 1
          failed := d.failed + (if t.isError then 1 else 0)
          sink := sink.observed.complete d.sink id direction t
          channel := c
          machine := m } :=
      ⟨rfl, fun hsound =>
        (hwrites hsound).trans (Channel.drains_reclaim_some (hwrites hsound).sound h)⟩
    exact ⟨_, hfirst.trans hrest⟩

/-- Receive buffers were asked for in so many rounds. The sink observed it, and those posted were
counted. -/
structure Refilled.Asks (id rounds : Nat) (d : Refilled (Observed σ β) β)
    (calls : List (SinkCall β)) (posted : List (Slot β)) (d' : Refilled (Observed σ β) β) :
    Prop where
  log_eq : d'.sink.2 = d.sink.2 ++ calls.map (id, ·)
  posted_eq : d'.posted = d.posted + posted.length
  fills : d.channel.Sound → d.channel.rx.freeSlots < rounds →
    d.channel.Fills d.machine calls posted d'.channel d'.machine

/-- A buffer is posted in the first round. -/
theorem Refilled.Asks.post {id rounds : Nat} {d d₁ d' : Refilled (Observed σ β) β} {buffer : β}
    {addr : BusAddress} {length : Nat} {calls : List (SinkCall β)} {posted : List (Slot β)}
    (h : d₁.Asks id rounds calls posted d') (hroom : d.channel.rx.freeSlots ≠ 0)
    (hlog : d₁.sink.2 = d.sink.2 ++ [(id, .rxBuffer (some (buffer, length)))])
    (hposted : d₁.posted = d.posted + 1)
    (hpost : d.channel.enqueue .fromDevice buffer length d.machine =
      (.ok (), d₁.channel, d₁.machine))
    (hchannel : d₁.channel =
      d.channel.setRing .fromDevice (d.channel.rx.post buffer addr length)) :
    d.Asks id (rounds + 1) (.rxBuffer (some (buffer, length)) :: calls)
      (⟨buffer, addr, length⟩ :: posted) d' := by
  constructor
  · rw [h.log_eq, hlog, List.append_assoc]
    rfl
  · rw [h.posted_eq, hposted, List.length_cons, Nat.add_right_comm, Nat.add_assoc]
  · intro hsound hrounds
    have hring : d.channel.rx.Carries (d.channel.queue .fromDevice) := hsound .fromDevice
    have hcarries := hring.post (hring.isFull_eq_false hroom) buffer addr length
    have hfree := hring.freeSlots_post hroom buffer addr length
    have hrest := h.fills
    rw [hchannel] at hrest hpost
    refine .post hsound hroom hpost
      (hrest ?_ (Nat.lt_of_succ_lt_succ (hfree.trans_lt hrounds)))
    exact (Channel.sound_setRing hsound hcarries).1

/-- Filling ends for one of the reasons to stop asking, and not because rounds run out. -/
theorem asks_refillRing (sink : Sink σ β) (id rounds : Nat) (d : Refilled (Observed σ β) β) :
    ∃ calls posted, d.Asks id rounds calls posted (refillRing sink.observed id rounds d) := by
  -- Every round but the last takes a free place, and there are fewer of them than rounds.
  induction rounds generalizing d with
  | zero =>
    exact ⟨[], [], (List.append_nil _).symm, rfl, fun _ hlt => absurd hlt (Nat.not_lt_zero _)⟩
  | succ rounds ih =>
    unfold refillRing
    by_cases hfull : d.channel.rx.freeSlots = 0
    · rw [if_pos hfull]
      exact ⟨[], [], (List.append_nil _).symm, rfl, fun hsound _ =>
        (Channel.Ends.full hfull).fills hsound⟩
    rw [if_neg hfull]
    simp only [Sink.observed]
    cases hoffer : sink.rxBuffer d.sink.1 id with
    | mk offer s =>
      cases offer with
      | none =>
        exact ⟨[.rxBuffer none], [], rfl, rfl, fun hsound _ =>
          (Channel.Ends.dry hfull).fills hsound⟩
      | some packet =>
        obtain ⟨buffer, length⟩ := packet
        dsimp only
        cases hpost : d.channel.enqueue .fromDevice buffer length d.machine with
        | mk result rest =>
          obtain ⟨c, m⟩ := rest
          cases result with
          | error r =>
            have hrefused : Channel.Run .standard d.channel d.machine [] c m ∧ _ :=
              Channel.run_enqueue_error hpost
            obtain ⟨-, rfl, rfl⟩ := hrefused
            refine ⟨[.rxBuffer (some (r.buffer, length)), .giveBack r.buffer], [],
              List.append_assoc _ _ _, rfl, fun hsound _ => ?_⟩
            have herror := Channel.error_ne_of_room
              ((hsound .fromDevice).isFull_eq_false hfull) hpost
            exact (Channel.Ends.rejected hfull hpost herror).fills hsound
          | ok =>
            obtain ⟨addr, n, -, -, rfl, -⟩ := Channel.of_enqueue_ok hpost
            obtain ⟨calls, posted, hrest⟩ := ih _
            exact ⟨_, _, hrest.post hfull rfl rfl hpost rfl⟩

/-! ### Channels in turn -/

section InTurn

variable {serves : Nat → Engine β → List (SinkCall β) → List α → Nat × Engine β → Prop}
  {work : Nat → Observed σ β → Engine β → Nat × Observed σ β × Engine β} {ids : List Nat}
  {e : Engine β} {s : Observed σ β} {log : List (Nat × SinkCall β)} {made : List (Nat × α)}

/-- Work for a channel is a turn of that channel. The sink observed its calls, and no other channel
changes. -/
structure Turn (serves : Nat → Engine β → List (SinkCall β) → List α → Nat × Engine β → Prop)
    (id : Nat) (s : Observed σ β) (e : Engine β) (answer : Nat × Observed σ β × Engine β)
    (calls : List (SinkCall β)) (items : List α) : Prop where
  own : serves id e calls items (answer.1, answer.2.2)
  other : ∀ i ≠ id, answer.2.2.channels[i]? = e.channels[i]?
  log_eq : answer.2.1.2 = s.2 ++ calls.map (id, ·)

/-- Channels are served in turn, each with calls and items of its own. -/
inductive InTurn (serves : Nat → Engine β → List (SinkCall β) → List α → Nat × Engine β → Prop)
    (work : Nat → Observed σ β → Engine β → Nat × Observed σ β × Engine β) :
    List Nat → Observed σ β → Engine β → List (Nat × SinkCall β) → List (Nat × α) → Prop where
  | nil (s : Observed σ β) (e : Engine β) : InTurn serves work [] s e [] []
  | cons {id : Nat} {rest : List Nat} {s : Observed σ β} {e : Engine β}
      {calls : List (SinkCall β)} {items : List α} {log : List (Nat × SinkCall β)}
      {made : List (Nat × α)} (hturn : Turn serves id s e (work id s e) calls items)
      (hrest : InTurn serves work rest (work id s e).2.1 (work id s e).2.2 log made) :
      InTurn serves work (id :: rest) s e (calls.map (id, ·) ++ log) (items.map (id, ·) ++ made)

/-- What a loop over channels has come to when the turn of one of them begins. -/
def reachedTurn (work : Nat → σ → Engine β → Nat × σ × Engine β) (ids : List Nat) (s : σ)
    (e : Engine β) (i : Nat) : σ × Engine β :=
  (sumOver work (ids.takeWhile (· != i)) s e).2

namespace InTurn

theorem log_eq (h : InTurn serves work ids s e log made) :
    (sumOver work ids s e).2.1.2 = s.2 ++ log := by
  induction h with
  | nil => exact (List.append_nil _).symm
  | cons hturn _ ih => exact ih.trans (by rw [hturn.log_eq, List.append_assoc])

/-- The answers of all turns add up. -/
theorem count_eq (h : InTurn serves work ids s e log made)
    (hcount : ∀ id e calls items answer, serves id e calls items answer →
      answer.1 = items.length) : (sumOver work ids s e).1 = made.length := by
  induction h with
  | nil => rfl
  | cons hturn _ ih =>
    have hsum := congrArg₂ (· + ·) (hcount _ _ _ _ _ hturn.own) ih
    rwa [List.length_append, List.length_map]

/-- Channels whose turn does not come are left alone. -/
theorem of_notMem (h : InTurn serves work ids s e log made) {i : Nat} (hi : i ∉ ids) :
    (sumOver work ids s e).2.2.channels[i]? = e.channels[i]? ∧ ofChannel i log = [] ∧
      ofChannel i made = [] := by
  induction h with
  | nil => exact ⟨rfl, rfl, rfl⟩
  | cons hturn _ ih =>
    obtain ⟨hid, hrest⟩ := List.ne_and_not_mem_of_not_mem_cons hi
    obtain ⟨hchannel, hlog, hmade⟩ := ih hrest
    refine ⟨hchannel.trans (hturn.other i hid), ?_, ?_⟩
    · rw [ofChannel_append, ofChannel_other hid, hlog, List.nil_append]
    · rw [ofChannel_append, ofChannel_other hid, hmade, List.nil_append]

/-- All that happens to a channel happens in its turn, which comes once. -/
theorem of_mem (h : InTurn serves work ids s e log made) (hids : ids.Nodup) {i : Nat}
    (hi : i ∈ ids) {s₁ : Observed σ β} {e₁ : Engine β}
    (hreached : reachedTurn work ids s e i = (s₁, e₁)) :
    serves i e₁ (ofChannel i log) (ofChannel i made) ((work i s₁ e₁).1, (work i s₁ e₁).2.2) ∧
      e₁.channels[i]? = e.channels[i]? ∧
      (sumOver work ids s e).2.2.channels[i]? = (work i s₁ e₁).2.2.channels[i]? := by
  -- A channel whose turn is the first one has no later turn, as no channel comes twice.
  induction h with
  | nil => exact absurd hi List.not_mem_nil
  | @cons id _ s e _ _ _ _ hturn hlater ih =>
    obtain ⟨hid, hrest⟩ := List.nodup_cons.mp hids
    rw [ofChannel_append, ofChannel_append]
    by_cases heq : i = id
    · subst heq
      rw [reachedTurn, List.takeWhile_cons_of_neg (by simp)] at hreached
      obtain ⟨rfl, rfl⟩ := Prod.mk.inj hreached
      obtain ⟨hchannel, hlog, hmade⟩ := hlater.of_notMem hid
      rw [ofChannel_own, ofChannel_own, hlog, hmade, List.append_nil, List.append_nil]
      exact ⟨hturn.own, rfl, hchannel⟩
    · rw [reachedTurn, List.takeWhile_cons_of_pos (by simpa using Ne.symm heq)] at hreached
      obtain ⟨hserved, hbefore, hafter⟩ :=
        ih hrest ((List.mem_cons.mp hi).resolve_left heq) hreached
      rw [ofChannel_other heq, ofChannel_other heq, List.nil_append, List.nil_append]
      exact ⟨hserved, hbefore.trans (hturn.other i heq), hafter⟩

end InTurn

/-- A loop serves channels in turn if every round of it is a turn. What is known of the channels
stays the same meanwhile. -/
theorem inTurn_sumOver {m : Monitor} (hmonitor : ∀ id s e, (work id s e).2.2.monitor = e.monitor)
    (hwork : ∀ id s e, e.monitor = m → ∃ calls items, Turn serves id s e (work id s e) calls items)
    (ids : List Nat) (s : Observed σ β) (hm : e.monitor = m) :
    ∃ log made, InTurn serves work ids s e log made := by
  induction ids generalizing s e with
  | nil => exact ⟨[], [], .nil s e⟩
  | cons id rest ih =>
    obtain ⟨calls, items, hturn⟩ := hwork id s e hm
    obtain ⟨log, made, hlater⟩ := ih (work id s e).2.1 ((hmonitor id s e).trans hm)
    exact ⟨_, _, .cons hturn hlater⟩

/-- The loop reaches the turn of a channel with the same engine, whatever its sink keeps besides. -/
theorem reachedTurn_view {f : τ → σ} {coarse : Nat → σ → Engine β → Nat × σ × Engine β}
    {fine : Nat → τ → Engine β → Nat × τ × Engine β}
    (h : ∀ id s e, coarse id (f s) e = view f (fine id s e)) (ids : List Nat) (s : τ)
    (e : Engine β) (i : Nat) :
    reachedTurn coarse ids (f s) e i =
      (f (reachedTurn fine ids s e i).1, (reachedTurn fine ids s e i).2) := by
  rw [reachedTurn, sumOver_view h]
  rfl

end InTurn

/-- What comes of draining a channel, if there is one. -/
inductive DrainTurn : Option (Channel β) → List (SinkCall β) → List (Direction × Completion β) →
    Option (Channel β) → Prop where
  | absent : DrainTurn none [] [] none
  | drained {c c' : Channel β} {back : List (Direction × Completion β)}
      (h : c.Sound → c.Drains back c') :
      DrainTurn (some c) (back.map fun t => .complete t.1 t.2) back (some c')

/-- What comes of filling the receive ring of a channel, if there is one and it runs. -/
inductive RefillTurn (runs : Prop) (m m' : Machine β) : Option (Channel β) → List (SinkCall β) →
    List (Slot β) → Option (Channel β) → Prop where
  | skipped {c? : Option (Channel β)} (h : runs → c? = none) : RefillTurn runs m m' c? [] [] c?
  | filled {c c' : Channel β} {calls : List (SinkCall β)} {posted : List (Slot β)} (hruns : runs)
      (h : c.Sound → c.Fills m calls posted c' m') :
      RefillTurn runs m m' (some c) calls posted (some c')

/-- A turn in which a channel is drained. -/
def Drain (id : Nat) (e : Engine β) (calls : List (SinkCall β))
    (back : List (Direction × Completion β)) (answer : Nat × Engine β) : Prop :=
  DrainTurn e.channels[id]? calls back answer.2.channels[id]?

/-- A turn in which the receive ring of a channel is filled. It answers how many buffers were
posted. -/
def Refill (runs : Nat → Prop) (id : Nat) (e : Engine β) (calls : List (SinkCall β))
    (posted : List (Slot β)) (answer : Nat × Engine β) : Prop :=
  RefillTurn (runs id) e.machine answer.2.machine e.channels[id]? calls posted
    answer.2.channels[id]? ∧ answer.1 = posted.length

theorem DrainTurn.of_none {calls : List (SinkCall β)} {back : List (Direction × Completion β)}
    {c? : Option (Channel β)} (h : DrainTurn none calls back c?) : calls = [] ∧ c? = none := by
  cases h
  exact ⟨rfl, rfl⟩

theorem DrainTurn.of_some {c : Channel β} {calls : List (SinkCall β)}
    {back : List (Direction × Completion β)} {c? : Option (Channel β)}
    (h : DrainTurn (some c) calls back c?) (hc : c.Sound) :
    ∃ c', c? = some c' ∧ calls = (back.map fun t => .complete t.1 t.2) ∧ c.Drains back c' := by
  cases h with
  | drained h => exact ⟨_, rfl, rfl, h hc⟩

theorem RefillTurn.of_none {runs : Prop} {m m' : Machine β} {calls : List (SinkCall β)}
    {posted : List (Slot β)} {c? : Option (Channel β)}
    (h : RefillTurn runs m m' none calls posted c?) : calls = [] ∧ posted = [] := by
  cases h
  exact ⟨rfl, rfl⟩

theorem RefillTurn.of_some {runs : Prop} [Decidable runs] {c : Channel β} {m m' : Machine β}
    {calls : List (SinkCall β)} {posted : List (Slot β)} {c? : Option (Channel β)}
    (h : RefillTurn runs m m' (some c) calls posted c?) (hc : c.Sound) :
    ∃ c', c? = some c' ∧
      if runs then c.Fills m calls posted c' m' else calls = [] ∧ posted = [] ∧ c' = c := by
  cases h with
  | skipped h =>
    have hhalted : ¬ runs := fun hruns => Option.some_ne_none c (h hruns)
    refine ⟨c, rfl, ?_⟩
    rw [if_neg hhalted]
    exact ⟨rfl, rfl, rfl⟩
  | filled hruns h =>
    refine ⟨_, rfl, ?_⟩
    rw [if_pos hruns]
    exact h hc

theorem turn_drainChannel (noise : Noise) (sink : Sink σ β) (id : Nat) (s : Observed σ β)
    (e : Engine β) :
    ∃ calls back, Turn Drain id s e (drainChannel noise sink.observed id s e) calls back := by
  cases hc : e.channels[id]? with
  | none =>
    have hskip : drainChannel noise sink.observed id s e = (0, s, e) := by
      rw [drainChannel, hc]
    rw [hskip]
    refine ⟨[], [], ?_, fun _ _ => rfl, (List.append_nil _).symm⟩
    rw [Drain, hc]
    exact .absent
  | some c =>
    obtain ⟨tx, htx⟩ := delivers_drainRing noise sink id .toDevice ⟨0, 0, s, c, e.machine⟩
    obtain ⟨rx, hrx⟩ := delivers_drainRing noise sink id .fromDevice
      (drainRing noise sink.observed id .toDevice ⟨0, 0, s, c, e.machine⟩)
    have hall := htx.trans hrx
    generalize hd : drainRing noise sink.observed id .fromDevice _ = d at hall
    have hwork : drainChannel noise sink.observed id s e =
        (d.total.toNat, d.sink, (e.put id d.channel d.machine).countDrained d.total d.failed) := by
      rw [drainChannel, hc, ← hd]
      rfl
    have hput : ((e.put id d.channel d.machine).countDrained d.total d.failed).channels[id]? =
        some d.channel := getElem?_set_of_some hc _
    rw [hwork]
    refine ⟨_, tx ++ rx, ?_, fun i hi => List.getElem?_set_ne hi.symm, hall.log_eq⟩
    rw [Drain, hc, hput]
    exact .drained hall.drains

theorem turn_refillChannel (sink : Sink σ β) (id : Nat) (s : Observed σ β) (e : Engine β) :
    ∃ calls posted, Turn (Refill fun i => e.monitor.state? i = some .running) id s e
      (refillChannel sink.observed id s e) calls posted := by
  have hskipped (hskip : refillChannel sink.observed id s e = (0, s, e))
      (h : e.monitor.state? id = some .running → e.channels[id]? = none) :
      Turn (Refill fun i => e.monitor.state? i = some .running) id s e
        (refillChannel sink.observed id s e) [] [] := by
    rw [hskip]
    exact ⟨⟨.skipped h, rfl⟩, fun _ _ => rfl, (List.append_nil _).symm⟩
  cases hc : e.channels[id]? with
  | none => exact ⟨[], [], hskipped (by rw [refillChannel, hc]) fun _ => hc⟩
  | some c =>
    by_cases hruns : e.monitor.state? id = some .running
    · obtain ⟨calls, posted, hasks⟩ :=
        asks_refillRing sink id c.rx.capacity ⟨0, s, c, e.machine⟩
      generalize hd : refillRing sink.observed id c.rx.capacity _ = d at hasks
      have hwork : refillChannel sink.observed id s e =
          (d.posted, d.sink, (e.put id d.channel d.machine).countPosted d.posted) := by
        rw [refillChannel, hc, ← hd]
        exact if_pos hruns
      rw [hwork]
      refine ⟨calls, posted, ⟨?_, hasks.posted_eq.trans (Nat.zero_add _)⟩,
        fun i hi => List.getElem?_set_ne hi.symm, hasks.log_eq⟩
      have hput : ((e.put id d.channel d.machine).countPosted d.posted).channels[id]? =
          some d.channel := getElem?_set_of_some hc _
      rw [hc, hput]
      exact .filled hruns fun hsound => hasks.fills hsound
        (hsound .fromDevice).freeSlots_lt
    · exact ⟨[], [], hskipped (by rw [refillChannel, hc]; exact if_neg hruns)
        fun h => absurd h hruns⟩

/-! ### A pass -/

/-- What a worker has come to when it turns to a channel to fill its receive ring. -/
def refillBegun (noise : Noise) (sink : Sink σ β) (s : σ) (e : Engine β) (id : Nat) :
    σ × Engine β :=
  reachedTurn (refillChannel sink) e.granted.1.refill.toList (drainStage noise sink s e).2.1
    (drainStage noise sink s e).2.2 id

/-- What a worker has come to when it has filled the receive ring of a channel. -/
def refillDone (noise : Noise) (sink : Sink σ β) (s : σ) (e : Engine β) (id : Nat) : Engine β :=
  (refillChannel sink id (refillBegun noise sink s e id).1 (refillBegun noise sink s e id).2).2.2

/-- Observing has no influence on how far a worker has come. -/
theorem refill_observed (noise : Noise) (sink : Sink σ β) (s : Observed σ β) (e : Engine β)
    (id : Nat) :
    (refillBegun noise sink s.1 e id).2 = (refillBegun noise sink.observed s e id).2 ∧
      refillDone noise sink s.1 e id = refillDone noise sink.observed s e id := by
  have hbegun : refillBegun noise sink s.1 e id =
      ((refillBegun noise sink.observed s e id).1.1,
        (refillBegun noise sink.observed s e id).2) := by
    unfold refillBegun
    rw [(stages_view sink.refines_observed noise s e).1]
    exact reachedTurn_view (refillChannel_view sink.refines_observed) _ _ _ _
  refine ⟨congrArg Prod.snd hbegun, ?_⟩
  rw [refillDone, hbegun, refillChannel_view sink.refines_observed]
  rfl

/-- A pass serves channels in turn twice: some are drained, and some of those that run get receive
buffers. -/
theorem inTurn_stages (noise : Noise) (sink : Sink σ β) (s : σ) (e : Engine β) :
    ∃ log back log' posted,
      InTurn Drain (drainChannel noise sink.observed) e.granted.1.reclaim.toList (s, [])
        e.granted.2 log back ∧
      InTurn (Refill fun id => e.monitor.state? id = some .running) (refillChannel sink.observed)
        e.granted.1.refill.toList (drainStage noise sink.observed (s, []) e).2.1
        (drainStage noise sink.observed (s, []) e).2.2 log' posted := by
  obtain ⟨log, back, hdrained⟩ := inTurn_sumOver
    (monitor_drainChannel noise sink.observed)
    (fun id s e _ => turn_drainChannel noise sink id s e)
    e.granted.1.reclaim.toList (s, []) (monitor_granted e)
  have hmonitor : (drainStage noise sink.observed (s, []) e).2.2.monitor = e.monitor :=
    (sumOver_aside (fun id s e => ⟨work_drainChannel noise sink.observed id s e,
      monitor_drainChannel noise sink.observed id s e⟩) _ _ _).2.trans (monitor_granted e)
  have hturn (id : Nat) (s : Observed σ β) (e₁ : Engine β) (hm : e₁.monitor = e.monitor) :
      ∃ calls posted, Turn (Refill fun i => e.monitor.state? i = some .running) id s e₁
        (refillChannel sink.observed id s e₁) calls posted :=
    hm ▸ turn_refillChannel sink id s e₁
  obtain ⟨log', posted, hfilled⟩ := inTurn_sumOver
    (monitor_refillChannel sink.observed) hturn e.granted.1.refill.toList
    (drainStage noise sink.observed (s, []) e).2.1 hmonitor
  exact ⟨log, back, log', posted, hdrained, hfilled⟩

/-- Every channel is drained, if only of nothing. -/
theorem drainTurn_of_inTurn {work : Nat → Observed σ β → Engine β → Nat × Observed σ β × Engine β}
    {ids : List Nat} {s : Observed σ β} {e : Engine β} {log : List (Nat × SinkCall β)}
    {back : List (Nat × Direction × Completion β)} (h : InTurn Drain work ids s e log back)
    (hids : ids.Nodup) (id : Nat) :
    ∃ own, DrainTurn e.channels[id]? (ofChannel id log) own
      (sumOver work ids s e).2.2.channels[id]? := by
  by_cases hid : id ∈ ids
  · obtain ⟨hown, hbefore, hafter⟩ := h.of_mem hids hid rfl
    rw [Drain, hbefore] at hown
    rw [hafter]
    exact ⟨_, hown⟩
  · obtain ⟨hsame, hlog, -⟩ := h.of_notMem hid
    rw [hsame, hlog]
    cases e.channels[id]? with
    | none => exact ⟨[], .absent⟩
    | some c => exact ⟨[], .drained .refl⟩

/-- Every channel is filled that waits for it and runs. -/
theorem refillTurn_of_inTurn {runs : Nat → Prop}
    {work : Nat → Observed σ β → Engine β → Nat × Observed σ β × Engine β} {ids : List Nat}
    {s : Observed σ β} {e : Engine β} {log : List (Nat × SinkCall β)}
    {posted : List (Nat × Slot β)} (h : InTurn (Refill runs) work ids s e log posted)
    (hids : ids.Nodup) (id : Nat) {s₁ : Observed σ β} {e₁ : Engine β}
    (hbegun : reachedTurn work ids s e id = (s₁, e₁)) :
    RefillTurn (id ∈ ids ∧ runs id) e₁.machine (work id s₁ e₁).2.2.machine e.channels[id]?
      (ofChannel id log) (ofChannel id posted) (sumOver work ids s e).2.2.channels[id]? := by
  by_cases hid : id ∈ ids
  · obtain ⟨⟨hown, -⟩, hbefore, hafter⟩ := h.of_mem hids hid hbegun
    rw [hbefore] at hown
    rw [hafter]
    simpa only [hid, true_and] using hown
  · obtain ⟨hsame, hlog, hposted⟩ := h.of_notMem hid
    rw [hsame, hlog, hposted]
    exact .skipped fun hruns => absurd hruns.1 hid

/-- The receive buffers that a worker gets are accounted for, whatever the sink does and the device
writes. For a channel, the sink sees transfers handed over, no more in a direction than were in
flight. If the channel waits for receive buffers and runs, the sink is then asked for some. Those
that it offers are posted after the ones in flight, but for one at the end that may go back. As many
are reported as were posted. -/
theorem receive_buffers_accounted {config : Config} {m : Machine β}
    {moments : List (Moment σ β)} {seen : Story β} {e : Engine β}
    (h : live moments (new config m) = some (seen, e)) (noise : Noise) (sink : Sink τ β) (s : τ) :
    ∃ report s' calls e' posted,
      runDeferred noise sink s e = (report, s', e') ∧
      runDeferred noise sink.observed (s, []) e = (report, (s', calls), e') ∧
      report.refilled = posted.length ∧
      e'.channels = (autoRecoverAll e.granted.1.recover.toList .none
        (refillStage noise sink s e).2.2).2.channels ∧
      ∀ id, (e.channels[id]? = none → ofChannel id calls = [] ∧ ofChannel id posted = []) ∧
        ∀ c, e.channels[id]? = some c → ∃ c₁ c₂ asks, ∃ back : List (Direction × Completion β),
          (drainStage noise sink s e).2.2.channels[id]? = some c₁ ∧
          (refillStage noise sink s e).2.2.channels[id]? = some c₂ ∧
          ofChannel id calls = (back.map fun t => .complete t.1 t.2) ++ asks ∧
          (∀ d, back.countP (·.1 = d) ≤ c.inFlight d) ∧
          if id ∈ e.granted.1.refill.toList ∧ e.monitor.state? id = some .running then
            c₁.Fills (refillBegun noise sink s e id).2.machine asks (ofChannel id posted) c₂
              (refillDone noise sink s e id).machine
          else asks = [] ∧ ofChannel id posted = [] ∧ c₂ = c₁ := by
  obtain ⟨tally, queue, hrun⟩ := runDeferred_eq_stages noise sink.observed (s, []) e
  obtain ⟨log, back, log', posted, hdrained, hfilled⟩ := inTurn_stages noise sink s e
  have hview := runDeferred_view sink.refines_observed noise (s, []) e
  obtain ⟨hdrainStage, hrefillStage⟩ := stages_view sink.refines_observed noise (s, []) e
  dsimp only at hview hdrainStage hrefillStage
  rw [hrun] at hview
  have hcalls : (refillStage noise sink.observed (s, []) e).2.1.2 = log ++ log' := by
    have hlog : (drainStage noise sink.observed (s, []) e).2.1.2 = log := hdrained.log_eq
    exact hfilled.log_eq.trans (by rw [hlog])
  have hlast : (refillStage noise sink s e).2.2 =
      (refillStage noise sink.observed (s, []) e).2.2 := by rw [hrefillStage]; rfl
  refine ⟨_, _, log ++ log', _, posted, hview, ?_, hfilled.count_eq fun _ _ _ _ _ h => h.2, ?_,
    fun id => ?_⟩
  · rw [hrun, ← hcalls]
  · rw [hlast]
  rw [hlast, hdrainStage, (refill_observed noise sink (s, []) e id).1,
    (refill_observed noise sink (s, []) e id).2, ofChannel_append]
  obtain ⟨own, hdrain⟩ := drainTurn_of_inTurn hdrained (ChannelMask.nodup_toList _) id
  have hfill := refillTurn_of_inTurn hfilled (ChannelMask.nodup_toList _) id rfl
  rw [channels_granted] at hdrain
  refine ⟨fun hc => ?_, fun c hc => ?_⟩
  · rw [hc] at hdrain
    obtain ⟨hlog, hnone⟩ := hdrain.of_none
    have hempty : (drainStage noise sink.observed (s, []) e).2.2.channels[id]? = none := hnone
    rw [hempty] at hfill
    obtain ⟨hlog', hposted⟩ := hfill.of_none
    rw [hlog, hlog']
    exact ⟨rfl, hposted⟩
  · have hsound := (sound_of_live h).rings id c hc
    rw [hc] at hdrain
    obtain ⟨c₁, hc₁, hlog, hdrains⟩ := hdrain.of_some hsound
    have hdrained : (drainStage noise sink.observed (s, []) e).2.2.channels[id]? = some c₁ := hc₁
    rw [hdrained] at hfill
    obtain ⟨c₂, hc₂, hfills⟩ := hfill.of_some hdrains.sound
    rw [hlog]
    exact ⟨c₁, c₂, _, own, hc₁, hc₂, rfl, hdrains.count_le hsound, hfills⟩

/-- A receive buffer is in flight and the device finishes it. The channel waits for both kinds of
work, and so does one that does not exist. -/
def supplyTrip : List (Moment Unit Nat) :=
  [.operate (.init 0 1), .operate .start, .operate (.enqueue 0 .fromDevice 3 64),
    .disturb (.descriptors 0 fun _ _ d => { d with control := 0 }),
    .disturb (.work { WorkQueue.new.openUp with
      pending := ⟨.single 0, (ChannelMask.single 0).insert 5, ∅⟩ })]

/-- The sink that offers the buffers of a list. -/
def supply : Sink (List (Nat × Nat)) Nat where
  complete s _ _ _ := s
  rxBuffer s _ := (s.head?, s.tail)
  giveBack s _ _ := s

/-- The first buffer is posted. The second one has no length and goes back, and the third one is not
asked for. -/
theorem receive_buffers_accounted_trip : ∃ seen e report s' calls e',
    ∃ posted : List (Nat × Slot Nat),
      live supplyTrip (new .bench .bench) = some (seen, e) ∧
        runDeferred .none supply [(10, 64), (11, 0), (12, 64)] e = (report, s', e') ∧
        report.refilled = 1 ∧ posted.length = 1 ∧ s' = [(12, 64)] ∧ ofChannel 5 posted = [] ∧
        runDeferred .none supply.observed ([(10, 64), (11, 0), (12, 64)], []) e =
          (report, (s', calls), e') ∧
        calls.drop 1 = [(0, .rxBuffer (some (10, 64))), (0, .rxBuffer (some (11, 0))),
          (0, .giveBack 11)] := by
  have hrun : (live supplyTrip (new .bench .bench)).map (fun p =>
      let (report, (left, calls), _) :=
        runDeferred .none supply.observed ([(10, 64), (11, 0), (12, 64)], []) p.2
      decide (p.2.channels.length = 1) && decide (report.refilled = 1) &&
        decide (left = [(12, 64)]) && decide (calls.drop 1 =
          [(0, .rxBuffer (some (10, 64))), (0, .rxBuffer (some (11, 0))), (0, .giveBack 11)])) =
      some true := by decide +kernel
  obtain ⟨⟨seen, e⟩, h, hrun⟩ := Option.map_eq_some_iff.mp hrun
  obtain ⟨report, s', calls, e', posted, hplain, hobserved, hcount, -, haccount⟩ :=
    receive_buffers_accounted h .none supply [(10, 64), (11, 0), (12, 64)]
  dsimp only at hrun
  rw [hobserved] at hrun
  simp only [Bool.and_eq_true, decide_eq_true_eq] at hrun
  obtain ⟨⟨⟨hlength, hreport⟩, hleft⟩, hcalls⟩ := hrun
  have hnone : e.channels[5]? = none := List.getElem?_eq_none (by omega)
  exact ⟨seen, e, report, s', calls, e', posted, h, hplain, hreport, hcount.symm.trans hreport,
    hleft, ((haccount 5).1 hnone).2, hobserved, hcalls⟩

end Engine

end PacketDma
