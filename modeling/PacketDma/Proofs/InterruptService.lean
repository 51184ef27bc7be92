import PacketDma.Proofs.Isolation
import PacketDma.Proofs.LengthField
import PacketDma.Proofs.Posting
import PacketDma.Proofs.Tallies

/-!
# Service of interrupts

The interrupt handler answers for each source that the device raised, and for no other. Main
statement: `interrupt_service`. The sources that were read are acknowledged and reported, each
channel that raised one has it in its record, and the work that it asks for waits for a worker.

## Implementation notes

What is done to the machine is followed without messages, so a channel that only finished transfers
leaves no trace there. The channels of a status are told apart by the walk over them, which visits
none twice.
-/

namespace PacketDma

variable {σ β : Type}

/-! ### Deeds -/

/-- Whether an event is more than a message. -/
def Event.isDeed : Event β → Bool
  | .log .. | .wake _ => false
  | _ => true

/-- The effects of halting the rings of a channel, given what ring control showed. -/
def ChannelRegisters.halt (r : ChannelRegisters) (shown : UInt32) : List (Event β) :=
  [.read (r.offset .ringControl) shown,
    .write (r.offset .ringControl) (shown &&& ~~~RingControl.enableBoth)]

namespace Machine

/-- The second machine is the first one after these deeds, and after any messages. -/
def Does (m : Machine β) (deeds : List (Event β)) (n : Machine β) : Prop :=
  ∃ new, n.effects = m.effects ++ new ∧ new.filter Event.isDeed = deeds

namespace Does

variable {m n p : Machine β} {deeds later : List (Event β)}

theorem refl (m : Machine β) : m.Does [] m := ⟨[], (List.append_nil _).symm, rfl⟩

theorem trans (h : m.Does deeds n) (h' : n.Does later p) : m.Does (deeds ++ later) p := by
  obtain ⟨new, hnew, rfl⟩ := h
  obtain ⟨more, hmore, rfl⟩ := h'
  exact ⟨new ++ more, by rw [hmore, hnew, List.append_assoc], List.filter_append _ _⟩

theorem read (m : Machine β) (offset : Nat) :
    m.Does [.read offset (m.read offset).1] (m.read offset).2 := ⟨_, m.effects_read offset, rfl⟩

theorem write (m : Machine β) (offset : Nat) (word : UInt32) :
    m.Does [.write offset word] (m.write offset word) := ⟨_, m.effects_write offset word, rfl⟩

theorem log (h : m.Does deeds n) (level : LogLevel) (text : String) :
    m.Does deeds (n.log level text) := by
  have hlog : n.Does [] (n.log level text) := ⟨_, effects_emit n (.log level text), rfl⟩
  simpa only [List.append_nil] using h.trans hlog

theorem wake (h : m.Does deeds n) (woken : Option Nat) : m.Does deeds (n.wake woken) := by
  cases woken with
  | none => exact h
  | some task =>
    have hwake : n.Does [] (n.wake (some task)) := ⟨_, effects_emit n (.wake task), rfl⟩
    simpa only [List.append_nil] using h.trans hwake

end Does

end Machine

namespace Channel

variable {c : Channel β}

theorem Uniform.setRunning_self (h : c.Uniform) : c.setRunning c.running = c := by
  have htx : c.tx.setEnabled c.running = c.tx := by rw [← h.enabled_eq .toDevice]; rfl
  have hrx : c.rx.setEnabled c.running = c.rx := by rw [← h.enabled_eq .fromDevice]; rfl
  rw [setRunning, htx, hrx]

/-- A channel is halted, whether it ran or not. -/
theorem Uniform.stop_eq (h : c.Uniform) (m : Machine β) :
    (c.stop m).2.1 = c.setRunning false := by
  unfold stop
  split
  · rfl
  next hhalted =>
    rw [Bool.not_eq_true] at hhalted
    rw [← hhalted]
    exact h.setRunning_self.symm

/-- Only running rings are halted. -/
theorem does_stop (c : Channel β) (m : Machine β) :
    ∃ shown, m.Does (if c.running then c.registers.halt shown else []) (c.stop m).2.2 := by
  refine ⟨(m.read (c.registers.offset .ringControl)).1, ?_⟩
  unfold stop
  split
  · have hread := Machine.Does.read m (c.registers.offset .ringControl)
    exact (hread.trans (.write _ _ _)).log _ _
  · exact .refl m

end Channel

/-! ### Status words -/

namespace ChannelMask

theorem ext_contains {a b : ChannelMask} (h : ∀ c < 32, a.contains c = b.contains c) : a = b := by
  have hbits : a.bits.toNat = b.bits.toNat := by
    apply Nat.eq_of_testBit_eq
    intro c
    rcases Nat.lt_or_ge c 32 with hc | hc
    · rw [← a.contains_eq_testBit hc, ← b.contains_eq_testBit hc, h c hc]
    · have hsmall (w : UInt32) : w.toNat.testBit c = false :=
        Nat.testBit_lt_two_pow
          (Nat.lt_of_lt_of_le w.toNat_lt (Nat.pow_le_pow_right (by decide) hc))
      rw [hsmall, hsmall]
  exact congrArg ChannelMask.mk (UInt32.toNat_inj.mp hbits)

/-- The walk over a set of channels that exist. -/
theorem mem_toList_of_contains {m : ChannelMask} {count : Nat} (hcount : count ≤ maxChannels)
    (raised : Nat → Bool) (h : ∀ c < 32, m.contains c = (raised c && decide (c < count)))
    (c : Nat) : c ∈ m.toList ↔ c < count ∧ raised c = true := by
  rw [mem_toList]
  constructor
  · rintro ⟨hc, hcontains⟩
    rw [h c hc, Bool.and_eq_true, decide_eq_true_eq] at hcontains
    exact hcontains.symm
  · rintro ⟨hlt, hraised⟩
    have hc : c < 32 := Nat.lt_of_lt_of_le hlt (Nat.le_trans hcount (by decide))
    refine ⟨hc, ?_⟩
    rw [h c hc, hraised, decide_eq_true hlt, Bool.and_self]

end ChannelMask

namespace InterruptStatus

/-- The low half of a status word reports finished transfers. -/
theorem mem_complete_limit (raw : UInt32) {count : Nat} (hcount : count ≤ maxChannels) (i : Nat) :
    i ∈ ((ofWord raw).limit count).complete.toList ↔
      i < count ∧ raw.toNat.testBit i = true := by
  have hmask : ∀ count ≤ maxChannels, ∀ c < 32,
      (InterruptBits.ofChannels count &&& 0xFFFF).toNat.testBit c = decide (c < count) := by
    decide +kernel
  refine ChannelMask.mem_toList_of_contains hcount raw.toNat.testBit (fun c hc => ?_) i
  rw [ChannelMask.contains_eq_testBit _ hc, limit, toWord_ofWord, ← hmask count hcount c hc]
  show (raw &&& InterruptBits.ofChannels count &&& 0xFFFF).toNat.testBit c = _
  rw [UInt32.and_assoc, UInt32.toNat_and, Nat.testBit_and]

/-- The high half of a status word reports errors. -/
theorem mem_error_limit (raw : UInt32) {count : Nat} (hcount : count ≤ maxChannels) (i : Nat) :
    i ∈ ((ofWord raw).limit count).error.toList ↔
      i < count ∧ raw.toNat.testBit (16 + i) = true := by
  have hmask : ∀ count ≤ maxChannels, ∀ c < 32,
      (InterruptBits.ofChannels count).toNat.testBit (16 + c) = decide (c < count) := by
    decide +kernel
  have hshift : InterruptBits.errorShift.toNat % 32 = 16 := rfl
  refine ChannelMask.mem_toList_of_contains hcount (fun c => raw.toNat.testBit (16 + c))
    (fun c hc => ?_) i
  rw [ChannelMask.contains_eq_testBit _ hc, limit, toWord_ofWord, ← hmask count hcount c hc]
  show ((raw &&& InterruptBits.ofChannels count) >>> InterruptBits.errorShift).toNat.testBit c = _
  rw [UInt32.toNat_shiftRight, hshift, Nat.testBit_shiftRight, UInt32.toNat_and, Nat.testBit_and]

theorem mem_channels {s : InterruptStatus} {i : Nat} :
    i ∈ s.channels.toList ↔ i ∈ s.complete.toList ∨ i ∈ s.error.toList := by
  rw [ChannelMask.mem_toList, ChannelMask.mem_toList, ChannelMask.mem_toList, ← and_or_left]
  refine and_congr_right fun hi => ?_
  rw [channels, ChannelMask.contains_union _ _ hi, Bool.or_eq_true]

end InterruptStatus

/-! ### Work -/

namespace ChannelMask

variable {m n k raised : ChannelMask} {ids others : List Nat}

/-- Of some channels, those that raised something were added to a set. -/
def Gains (m : ChannelMask) (ids : List Nat) (raised n : ChannelMask) : Prop :=
  ∀ c < 32, n.contains c = true ↔ m.contains c = true ∨ c ∈ ids ∧ raised.contains c = true

theorem Gains.nil (m raised : ChannelMask) : m.Gains [] raised m := by simp [Gains]

theorem Gains.append (h : m.Gains ids raised n) (h' : n.Gains others raised k) :
    m.Gains (ids ++ others) raised k := by
  intro c hc
  rw [h' c hc, h c hc, List.mem_append, or_and_right, or_assoc]

theorem gains_insert {id : Nat} (hid : id < 32) (m raised : ChannelMask) :
    m.Gains [id] raised (if raised.contains id then m.insert id else m) := by
  intro c hc
  rw [List.mem_singleton]
  by_cases hc' : c = id
  · subst hc'
    split
    next hraised => simp [contains_insert _ hc hc, hraised]
    next hquiet => simp [hquiet]
  · split
    · simp [contains_insert _ hc hid, hc', Ne.symm hc']
    · simp [hc']

/-- If all that raised something were looked at, the sets are joined. -/
theorem Gains.eq_union (h : m.Gains ids raised n)
    (hids : ∀ c < 32, raised.contains c = true → c ∈ ids) : n = m ∪ raised := by
  apply ext_contains
  intro c hc
  rw [contains_union _ _ hc, Bool.eq_iff_iff, h c hc, Bool.or_eq_true]
  exact or_congr_right ⟨And.right, fun hraised => ⟨hids c hc hraised, hraised⟩⟩

end ChannelMask

namespace WorkQueue

variable {q q₁ q₂ : WorkQueue} {s : InterruptStatus} {ids others : List Nat}

/-- An open queue has taken in what the sources of some channels ask for, and nothing else. -/
structure Gathers (ids : List Nat) (s : InterruptStatus) (q q' : WorkQueue) : Prop where
  isOpen : q'.isOpen = true
  reclaim : q.pending.reclaim.Gains ids s.complete q'.pending.reclaim
  refill : q.pending.refill.Gains ids s.complete q'.pending.refill
  recover : q.pending.recover.Gains ids s.error q'.pending.recover

theorem Gathers.nil (s : InterruptStatus) (hopen : q.isOpen = true) : q.Gathers [] s q :=
  ⟨hopen, .nil _ _, .nil _ _, .nil _ _⟩

theorem Gathers.append (h : q.Gathers ids s q₁) (h' : q₁.Gathers others s q₂) :
    q.Gathers (ids ++ others) s q₂ :=
  ⟨h'.isOpen, h.reclaim.append h'.reclaim, h.refill.append h'.refill, h.recover.append h'.recover⟩

/-- What one channel asks for: first what its finished transfers do, then what its error does. -/
theorem gathers_post (hopen : q.isOpen = true) {id : Nat} (hid : id < 32) (s : InterruptStatus)
    (hq₁ : q₁ = if s.complete.contains id then (q.post id .completion).2 else q)
    (hq₂ : q₂ = if s.error.contains id then (q₁.post id .recoverOnly).2 else q₁) :
    q.Gathers [id] s q₂ := by
  have hopen₁ : q₁.isOpen = true := by
    rw [hq₁]
    split
    · exact (isOpen_post q id _).trans hopen
    · exact hopen
  have hpending₁ : q₁.pending = ⟨if s.complete.contains id then q.pending.reclaim.insert id
      else q.pending.reclaim, if s.complete.contains id then q.pending.refill.insert id
      else q.pending.refill, q.pending.recover⟩ := by
    rw [hq₁]
    split
    · exact pending_post hopen id _
    · rfl
  have hpending₂ : q₂.pending = ⟨q₁.pending.reclaim, q₁.pending.refill,
      if s.error.contains id then q₁.pending.recover.insert id else q₁.pending.recover⟩ := by
    rw [hq₂]
    split
    · exact pending_post hopen₁ id _
    · rfl
  have hopen₂ : q₂.isOpen = true := by
    rw [hq₂]
    split
    · exact (isOpen_post q₁ id _).trans hopen₁
    · exact hopen₁
  rw [hpending₁] at hpending₂
  constructor
  · exact hopen₂
  · rw [hpending₂]
    exact ChannelMask.gains_insert hid _ _
  · rw [hpending₂]
    exact ChannelMask.gains_insert hid _ _
  · rw [hpending₂]
    exact ChannelMask.gains_insert hid _ _

/-- If all channels of a status were looked at, what they ask for joins the work that waited. -/
theorem Gathers.pending_eq (h : q.Gathers s.channels.toList s q₁) :
    q₁.pending = ⟨q.pending.reclaim ∪ s.complete, q.pending.refill ∪ s.complete,
      q.pending.recover ∪ s.error⟩ := by
  have hcomplete : ∀ c < 32, s.complete.contains c = true → c ∈ s.channels.toList :=
    fun c hc hraised =>
      InterruptStatus.mem_channels.mpr (.inl (ChannelMask.mem_toList.mpr ⟨hc, hraised⟩))
  have herror : ∀ c < 32, s.error.contains c = true → c ∈ s.channels.toList :=
    fun c hc hraised =>
      InterruptStatus.mem_channels.mpr (.inr (ChannelMask.mem_toList.mpr ⟨hc, hraised⟩))
  rw [← h.reclaim.eq_union hcomplete, ← h.refill.eq_union hcomplete, ← h.recover.eq_union herror]

end WorkQueue

/-! ### One channel -/

namespace Engine

/-- What an error interrupt makes of a channel and its record, and what is done to the device, given
what error status and ring control showed. -/
structure Faulted (r : ChannelRegisters) (now : Nat) (word shown : UInt32)
    (deeds : List (Event β)) (p q : Entry β) : Prop where
  record_eq : q.2 = ((p.2.onInterrupt true now).recordFault (.ofRegister word) now).2
  pending_eq : q.2.pending = p.2.pending ∪ .ofRegister word
  channel_eq : q.1 = if q.2.down then p.1.setRunning false else p.1
  deeds_eq : deeds = .read (r.offset .errorStatus) word ::
    if q.2.down && p.1.running then r.halt shown else []

/-- What an interrupt makes of a channel and its record, and what is done to the device. -/
structure Interrupted (r : ChannelRegisters) (isError : Bool) (now : Nat)
    (deeds : List (Event β)) (p q : Entry β) : Prop where
  totalInterrupts_eq : q.2.stats.totalInterrupts = Counter.add p.2.stats.totalInterrupts 1
  lastInterrupt_eq : q.2.stats.lastInterrupt = some now
  completed : isError = false → q = (p.1, p.2.onInterrupt false now) ∧ deeds = []
  faulted : isError = true → ∃ word shown, Faulted r now word shown deeds p q

variable {e e' : Engine β} {id i : Nat} {c : Channel β} {r : ChannelRecord} {p : Entry β}

/-- A channel with an error is asked for its faults, which are noted, and halted if it is down. -/
theorem noted_of_handleError (hc : e.channels[id]? = some c) (hr : e.monitor.records[id]? = some r)
    (hu : c.Uniform) (now : Nat) :
    ∃ word shown s, s = (r.recordFault (.ofRegister word) now).2 ∧
      (e.handleError id now).work = (e.work.post id .recoverOnly).2 ∧
      e.machine.Does (.read (c.registers.offset .errorStatus) word ::
        if s.down && c.running then c.registers.halt shown else [])
        (e.handleError id now).machine ∧
      Touches id (fun p q => p = (c, r) ∧ q = (if s.down then c.setRunning false else c, s))
        e (e.handleError id now) := by
  let word := (c.registers.read .errorStatus e.machine).1
  let m := (c.registers.read .errorStatus e.machine).2
  let s := (r.recordFault (.ofRegister word) now).2
  obtain ⟨shown, hstop⟩ := c.does_stop m
  obtain ⟨_, hget⟩ := List.getElem?_eq_some_iff.mp hc
  obtain ⟨hlt, _⟩ := List.getElem?_eq_some_iff.mp hr
  have hlook : e.machine.Does [.read (c.registers.offset .errorStatus) word] m := .read _ _
  -- The engine once the faults are noted, before the channel is judged.
  let e₁ : Engine β := { e with
    machine := m
    monitor := { e.monitor with records := e.monitor.records.set id s } }
  have hdown : e₁.monitor.isDown id = s.down :=
    Monitor.isDown_eq (List.getElem?_set_self hlt)
  have heq : e.handleError id now = ((if e₁.monitor.isDown id then (e₁.haltChannel id).2
      else e₁).post id .recoverOnly).log .trace
        s!"ch{id}: error irq {hex (FaultSet.ofRegister word).bits.toNat}" := by
    rw [handleError, hc]
    dsimp only
    rw [Monitor.recordFault, Monitor.act_eq hr]
    rfl
  refine ⟨word, shown, s, rfl, ?_⟩
  rw [heq, hdown]
  cases hs : s.down with
  | false =>
    rw [if_neg Bool.false_ne_true]
    refine ⟨rfl, (hlook.wake _).log _ _, Touches.log (Touches.post ?_ _ _) _ _⟩
    refine touches_entry hc hr ?_ rfl
    rw [← hget, if_neg Bool.false_ne_true, List.set_getElem_self]
  | true =>
    rw [if_pos rfl, haltChannel_eq (e := e₁) hc]
    refine ⟨rfl, ((hlook.trans hstop).wake _).log _ _, Touches.log (Touches.post ?_ _ _) _ _⟩
    refine touches_entry hc hr ?_ rfl
    rw [if_pos rfl, ← hu.stop_eq m]
    rfl

/-- What the faults that a record has taken in are. -/
theorem pending_recordFault (r : ChannelRecord) (faults : FaultSet) (now : Nat) :
    (r.recordFault faults now).2.pending = r.pending ∪ faults := by
  unfold ChannelRecord.recordFault
  split
  next hempty =>
    have hzero : faults.bits = 0 := eq_of_beq hempty
    show r.pending = ⟨r.pending.bits ||| faults.bits⟩
    rw [hzero, UInt32.or_zero]
  · rfl

theorem stats_recordFault (r : ChannelRecord) (faults : FaultSet) (now : Nat) :
    (r.recordFault faults now).2.stats.totalInterrupts = r.stats.totalInterrupts ∧
      (r.recordFault faults now).2.stats.lastInterrupt = r.stats.lastInterrupt := by
  unfold ChannelRecord.recordFault
  split <;> exact ⟨rfl, rfl⟩

/-- A turn of the handler for one channel. -/
structure Attends (status : InterruptStatus) (now id : Nat) (deeds : List (Event β))
    (e e' : Engine β) : Prop where
  touches : Touches id
    (fun p q => Interrupted p.1.registers (status.error.contains id) now deeds p q) e e'
  does : e.machine.Does deeds e'.machine
  gathers : e.work.Gathers [id] status e'.work

/-- The engine once a channel has an interrupt in its record and the work that its finished
transfers ask for waits. -/
def heard (status : InterruptStatus) (now : Nat) (e : Engine β) (id : Nat) : Engine β :=
  let e := { e with monitor := e.monitor.onInterrupt id (status.error.contains id) now }
  if status.complete.contains id then e.post id .completion else e

theorem handleChannel_eq (status : InterruptStatus) (now : Nat) (e : Engine β) (id : Nat) :
    handleChannel status now e id =
      if status.error.contains id then (heard status now e id).handleError id now
      else heard status now e id := rfl

theorem of_heard (status : InterruptStatus) (now : Nat) (e : Engine β) (id : Nat) :
    (heard status now e id).channels = e.channels ∧
      (heard status now e id).work =
        (if status.complete.contains id then (e.work.post id .completion).2 else e.work) ∧
      e.machine.Does [] (heard status now e id).machine ∧
      Touches id (fun p q => q = (p.1, p.2.onInterrupt (status.error.contains id) now))
        e (heard status now e id) := by
  have hseen := touches_update e id (·.onInterrupt (status.error.contains id) now)
  unfold heard
  dsimp only
  split
  · exact ⟨rfl, rfl, (Machine.Does.refl _).wake _, Touches.post hseen _ _⟩
  · exact ⟨rfl, rfl, .refl _, hseen⟩

theorem attends_handleChannel (he : e.Coherent) (hopen : e.work.isOpen = true)
    (hc : e.channels[id]? = some c) (status : InterruptStatus) (now : Nat) :
    ∃ deeds, Attends status now id deeds e (handleChannel status now e id) := by
  obtain ⟨r, hr, -⟩ := he.record hc
  obtain ⟨hlt, _⟩ := List.getElem?_eq_some_iff.mp hc
  have hid : id < 32 :=
    Nat.lt_of_lt_of_le hlt (Nat.le_trans he.length_le (by decide))
  obtain ⟨hchannels, hwork, hmessages, hseen⟩ := of_heard status now e id
  rw [handleChannel_eq]
  generalize heard status now e id = e₁ at *
  have hgathers {q : WorkQueue} (hq : q = if status.error.contains id then
      (e₁.work.post id .recoverOnly).2 else e₁.work) : e.work.Gathers [id] status q :=
    WorkQueue.gathers_post hopen hid status hwork hq
  cases herror : status.error.contains id with
  | false =>
    rw [herror] at hseen hgathers
    rw [if_neg Bool.false_ne_true]
    refine ⟨[], Touches.mono hseen ?_, hmessages, hgathers rfl⟩
    rintro p _ rfl
    exact ⟨rfl, rfl, fun _ => ⟨rfl, rfl⟩, by simp [herror]⟩
  | true =>
    rw [herror] at hseen hgathers
    rw [if_pos rfl]
    have hc₁ : e₁.channels[id]? = some c := by rw [hchannels, hc]
    have hr₁ : e₁.monitor.records[id]? = some (r.onInterrupt true now) := by
      obtain ⟨q, hq, rfl⟩ := hseen.own (c, r) (entryAt_of_record hc hr)
      exact (entryAt_eq_some.mp hq).2
    obtain ⟨word, shown, s, hs, hposted, hdone, hnoted⟩ :=
      noted_of_handleError hc₁ hr₁ (he.uniform id c hc) now
    refine ⟨_, Touches.mono (hseen.comp hnoted) ?_, hmessages.trans hdone, hgathers hposted⟩
    rintro p _ ⟨q, rfl, hq, rfl⟩
    obtain ⟨rfl, hrecord⟩ := Prod.mk.inj hq
    rw [← hrecord] at hs
    obtain ⟨htotal, hlast⟩ := stats_recordFault (p.2.onInterrupt true now)
      (.ofRegister word) now
    subst hs
    refine ⟨htotal, hlast, by simp [herror], fun _ => ⟨word, shown, rfl, ?_, rfl, rfl⟩⟩
    exact pending_recordFault (p.2.onInterrupt true now) _ now

/-! ### All channels -/

/-- Every channel has an entry. -/
theorem Coherent.exists_entry (he : e.Coherent) (hi : i < e.channels.length) :
    ∃ p, e.entryAt i = some p := by
  obtain ⟨r, hr, -⟩ := he.record (List.getElem?_eq_getElem hi)
  exact ⟨_, entryAt_of_record (List.getElem?_eq_getElem hi) hr⟩

/-- The handler has taken its turns for some channels. -/
structure Handled (status : InterruptStatus) (now : Nat) (ids : List Nat)
    (deeds : Nat → List (Event β)) (e e' : Engine β) : Prop where
  entry : ∀ i p, e.entryAt i = some p → ∃ q, e'.entryAt i = some q ∧
    if i ∈ ids then Interrupted p.1.registers (status.error.contains i) now (deeds i) p q
    else q = p
  does : e.machine.Does (ids.flatMap deeds) e'.machine
  gathers : e.work.Gathers ids status e'.work

/-- Each channel is handled once, as no turn for another one touches it. -/
theorem handled_foldl {ids : List Nat} (hids : ids.Nodup) (he : e.Coherent)
    (hopen : e.work.isOpen = true) (hexist : ∀ id ∈ ids, ∃ p, e.entryAt id = some p)
    (status : InterruptStatus) (now : Nat) :
    ∃ deeds, Handled status now ids deeds e (ids.foldl (handleChannel status now) e) := by
  induction ids generalizing e with
  | nil =>
    exact ⟨fun _ => [], fun i p hp => ⟨p, hp, by simp⟩, .refl _, .nil status hopen⟩
  | cons id rest ih =>
    obtain ⟨hid, hrest⟩ := List.nodup_cons.mp hids
    obtain ⟨⟨p₀, hp₀⟩, hothers⟩ := List.forall_mem_cons.mp hexist
    obtain ⟨first, hfirst⟩ :=
      attends_handleChannel he hopen (entryAt_eq_some.mp hp₀).1 status now
    have hexist₁ : ∀ i ∈ rest, ∃ q, (handleChannel status now e id).entryAt i = some q := by
      intro i hi
      obtain ⟨p, hp⟩ := hothers i hi
      obtain ⟨q, hq, -⟩ := hfirst.touches.entry hp
      exact ⟨q, hq⟩
    obtain ⟨deeds, hlater⟩ :=
      ih hrest (coherent_handleChannel status now he id) hfirst.gathers.isOpen hexist₁
    refine ⟨Function.update deeds id first, ?_, ?_, hfirst.gathers.append hlater.gathers⟩
    · intro i p hp
      by_cases hi : i = id
      · subst hi
        obtain ⟨q, hq, hpq⟩ := hfirst.touches.own p hp
        obtain ⟨u, hu, hqu⟩ := hlater.entry i q hq
        rw [if_neg hid] at hqu
        refine ⟨u, hu, ?_⟩
        rw [if_pos List.mem_cons_self, Function.update_self, hqu]
        exact hpq
      · obtain ⟨u, hu, hpu⟩ := hlater.entry i p ((hfirst.touches.other i hi).trans hp)
        refine ⟨u, hu, ?_⟩
        rw [Function.update_of_ne hi]
        simpa only [List.mem_cons, hi, false_or] using hpu
    · have hsame : rest.flatMap (Function.update deeds id first) = rest.flatMap deeds := by
        apply List.flatMap_congr
        intro i hi
        have hne : i ≠ id := by
          rintro rfl
          exact hid hi
        exact Function.update_of_ne hne _ _
      rw [List.flatMap_cons, Function.update_self, hsame]
      exact hfirst.does.trans hlater.does

/-! ### The interrupt -/

/-- A source that was raised after the status was read is shown after what was read is
acknowledged. -/
theorem stored_ackInterrupts {d : DeviceRegisters} {m : Machine β} (h : m.registers.At d)
    (raw late : UInt32) :
    (d.ackInterrupts raw
      { m with registers := m.registers.raiseInterrupts late }).registers.stored.get
        (d.offset .intStatus) =
      (m.registers.stored.get (d.offset .intStatus) ||| late) &&& ~~~raw := by
  have hplace : m.registers.deviceOffset .intStatus = d.offset .intStatus := h.deviceOffset_eq _
  have hraised : m.registers.raiseInterrupts late =
      m.registers.raise (d.offset .intStatus) late := by
    rw [RegisterFile.raiseInterrupts, hplace]
  have hcleared : (m.registers.raise (d.offset .intStatus) late).isClearedByOnes
      (d.offset .intStatus) = true := by
    show (d.offset .intStatus == m.registers.deviceOffset .intStatus || _) = true
    rw [hplace, beq_self_eq_true, Bool.true_or]
  show ((m.registers.raiseInterrupts late).write (d.offset .intStatus) raw).stored.get _ = _
  rw [hraised, RegisterFile.write, if_pos hcleared]
  simp only [RegisterFile.raise, RegisterFile.store, WordTable.get_set, if_true]

/-- What the interrupt handler reports and leaves behind when the status register showed a word that
is not zero. -/
structure Serviced (raw : UInt32) (m : Machine β) (e : Engine β) (status : InterruptStatus)
    (e' : Engine β) : Prop where
  /-- The low half of the word reports finished transfers. -/
  complete_iff : ∀ i, i ∈ status.complete.toList ↔
    i < e.channels.length ∧ raw.toNat.testBit i = true
  /-- The high half of the word reports errors. -/
  error_iff : ∀ i, i ∈ status.error.toList ↔
    i < e.channels.length ∧ raw.toNat.testBit (16 + i) = true
  /-- Sources that the device raises after the read stay raised. -/
  latched : e.machine.registers.At e.device → ∀ late,
    (e.device.ackInterrupts raw
      { m with registers := m.registers.raiseInterrupts late }).registers.stored.get
        (e.device.offset .intStatus) =
      (m.registers.stored.get (e.device.offset .intStatus) ||| late) &&& ~~~raw
  isOpen : e'.work.isOpen = true
  pending_eq : e'.work.pending = ⟨e.work.pending.reclaim ∪ status.complete,
    e.work.pending.refill ∪ status.complete, e.work.pending.recover ∪ status.error⟩
  stats_eq : e'.stats = { e.stats with
    interrupts := Counter.add e.stats.interrupts 1
    completionEvents := Counter.add e.stats.completionEvents status.complete.count
    errorEvents := Counter.add e.stats.errorEvents status.error.count }
  /-- What was read is acknowledged, and then each channel that raised a source is attended to, and
  no other. -/
  attended : ∃ deeds : Nat → List (Event β),
    e.machine.Does (.read (e.device.offset .intStatus) raw ::
      .write (e.device.offset .intStatus) raw :: status.channels.toList.flatMap deeds) e'.machine ∧
    ∀ i < e.channels.length, ∃ p q, e.entryAt i = some p ∧ e'.entryAt i = some q ∧
      if raw.toNat.testBit i || raw.toNat.testBit (16 + i) then
        Interrupted (e.device.channel i) (raw.toNat.testBit (16 + i)) m.clock.now (deeds i) p q
      else q = p

/-- The engine once a status is acknowledged and the interrupt is counted. -/
def acknowledged (e : Engine β) (raw : UInt32) (m : Machine β) (status : InterruptStatus) :
    Engine β :=
  ({ e with machine := e.device.ackInterrupts raw m } : Engine β).now.2.count fun s =>
    { s with
      interrupts := Counter.add s.interrupts 1
      completionEvents := Counter.add s.completionEvents status.complete.count
      errorEvents := Counter.add s.errorEvents status.error.count }

section Interrupt

variable {raw : UInt32} {m : Machine β} (hup : e.initialized = true)
  (hread : e.device.read .intStatus e.machine = (raw, m))
include hup hread

/-- Without a source nothing is done. -/
theorem onInterrupt_of_zero (hraw : raw = 0) :
    e.onInterrupt = (.none, { e with machine := m }) := by
  simp [onInterrupt, hup, hread, hraw]

theorem onInterrupt_of_ne (hraw : raw ≠ 0) {status : InterruptStatus}
    (hstatus : (InterruptStatus.ofWord raw).limit e.channels.length = status) :
    e.onInterrupt = (status, status.channels.toList.foldl (handleChannel status m.clock.now)
      (e.acknowledged raw m status)) := by
  rw [onInterrupt, if_neg (by simp [hup]), hread]
  dsimp only
  rw [if_neg hraw, hstatus]
  rfl

end Interrupt

theorem serviced_of_ne (he : e.Coherent) {windows : Nat}
    (hhome : ∀ i, e.Home ⟨e.device, windows⟩ i)
    (hup : e.initialized = true) (hopen : e.work.isOpen = true) {raw : UInt32} {m : Machine β}
    (hread : e.device.read .intStatus e.machine = (raw, m)) (hraw : raw ≠ 0) :
    e.Serviced raw m e.onInterrupt.1 e.onInterrupt.2 := by
  generalize hstatus : (InterruptStatus.ofWord raw).limit e.channels.length = status
  have hcomplete := InterruptStatus.mem_complete_limit raw he.length_le
  have herror := InterruptStatus.mem_error_limit raw he.length_le
  rw [hstatus] at hcomplete herror
  have hlt : ∀ i ∈ status.channels.toList, i < e.channels.length := by
    intro i hi
    rcases InterruptStatus.mem_channels.mp hi with hi | hi
    · exact ((hcomplete i).mp hi).1
    · exact ((herror i).mp hi).1
  -- Each channel that raised a source is handled, after the acknowledgement.
  have he₁ : (e.acknowledged raw m status).Coherent := ((he.machine _).now).count _
  obtain ⟨deeds, hhandled⟩ := handled_foldl status.channels.nodup_toList he₁ hopen
    (fun i hi => he.exists_entry (hlt i hi)) status m.clock.now
  have hrecorded : ∀ i ∈ status.channels.toList, status.error.contains i = true →
      i < (e.acknowledged raw m status).monitor.records.length :=
    fun i hi _ => he.records_length.symm ▸ hlt i hi
  have hnoted := noted_foldl_handleChannel status m.clock.now hrecorded
  have hm : e.machine.read (e.device.offset .intStatus) = (raw, m) := hread
  have hlook := Machine.Does.read e.machine (e.device.offset .intStatus)
  have hregisters := e.machine.registers.fixed_read (e.device.offset .intStatus)
  rw [hm] at hlook
  rw [onInterrupt_of_ne hup hread hraw hstatus]
  refine ⟨hcomplete, herror, fun hat => stored_ackInterrupts (hat.of_fixed ?_) raw,
    hhandled.gathers.isOpen, hhandled.gathers.pending_eq, hnoted.stats_eq, deeds,
    (hlook.trans (.write m _ raw)).trans hhandled.does, ?_⟩
  · rw [← hregisters]
    exact congrArg (fun r => r.2.registers.fixed) hm.symm
  · intro i hi
    obtain ⟨p, hp⟩ := he.exists_entry hi
    obtain ⟨q, hq, hpq⟩ := hhandled.entry i p hp
    obtain ⟨hid, -, hplaced⟩ := hhome i p.1 (entryAt_eq_some.mp hp).1
    have hsources : i ∈ status.channels.toList ↔
        (raw.toNat.testBit i || raw.toNat.testBit (16 + i)) = true := by
      rw [InterruptStatus.mem_channels, hcomplete, herror, ← and_or_left, and_iff_right hi,
        Bool.or_eq_true]
    have hfaulty : status.error.contains i = raw.toNat.testBit (16 + i) := by
      have hi' : i < 32 := Nat.lt_of_lt_of_le hi (Nat.le_trans he.length_le (by decide))
      have hwalk := ChannelMask.mem_toList.symm.trans (herror i)
      rw [and_iff_right hi', and_iff_right hi] at hwalk
      exact Bool.eq_iff_iff.mpr hwalk
    rw [hplaced.registers_eq, hid, hfaulty] at hpq
    simp only [hsources] at hpq
    exact ⟨p, q, hp, hq, hpq⟩

/-- The interrupt handler of an engine that is up. A status word of zero changes nothing. Any other
word is written back as it was read, and its sources below the number of channels are reported. The
work that they ask for joins the work that waits. The channels that raised them have the interrupt
in their records, those with an error also the faults that their error status showed, and these are
halted if they are down. -/
theorem interrupt_service {config : Config} {m₀ : Machine β} {moments : List (Moment σ β)}
    {seen : Story β} (h : live moments (new config m₀) = some (seen, e))
    (hup : e.initialized = true) (hopen : e.work.isOpen = true) {raw : UInt32} {m : Machine β}
    (hread : e.device.read .intStatus e.machine = (raw, m)) :
    (raw = 0 → e.onInterrupt = (.none, { e with machine := m }) ∧
      m.effects = e.machine.effects ++ [.read (e.device.offset .intStatus) 0]) ∧
    (raw ≠ 0 → e.Serviced raw m e.onInterrupt.1 e.onInterrupt.2) := by
  constructor
  · rintro rfl
    have heffects := e.machine.effects_read (e.device.offset .intStatus)
    rw [show e.machine.read (e.device.offset .intStatus) = (0, m) from hread] at heffects
    exact ⟨onInterrupt_of_zero hup hread rfl, heffects⟩
  · exact serviced_of_ne (steady_of_live h).coherent (home_of_live (Nat.le_refl _) h) hup hopen
      hread

/-- A running channel finishes a transfer and reports a fatal fault, and so does a channel that does
not exist. -/
def fatalTrip : List (Moment Unit Nat) :=
  [.operate (.init 0 1), .operate .start, .disturb (.registers fun f =>
    ((f.injectFaults 0 Fault.fatal.bit).raiseInterrupts 1).raiseInterrupts 0x20002)]

/-- The channel that exists is halted. Before the faults there was nothing to do. -/
theorem interrupt_service_trip : ∃ seen e m₁ told e₁ m₂,
    live readyTrip (new .bench .bench) = some (seen, e) ∧
      e.device.read .intStatus e.machine = (0, m₁) ∧
      e.onInterrupt = (.none, { e with machine := m₁ }) ∧
      live fatalTrip (new .bench .bench) = some (told, e₁) ∧
      e₁.device.read .intStatus e₁.machine = (0x30003, m₂) ∧
      e₁.Serviced 0x30003 m₂ e₁.onInterrupt.1 e₁.onInterrupt.2 ∧
      e₁.channels.map (·.running) = [true] ∧
      e₁.onInterrupt.2.channels.map (·.running) = [false] := by
  have hready : (live readyTrip (new .bench .bench)).map (fun r => (r.2.initialized,
      r.2.work.isOpen, (r.2.device.read .intStatus r.2.machine).1)) =
        some (true, true, 0) := by decide +kernel
  have hfatal : (live fatalTrip (new .bench .bench)).map (fun r => (r.2.initialized,
      r.2.work.isOpen, (r.2.device.read .intStatus r.2.machine).1,
      r.2.channels.map (·.running), r.2.onInterrupt.2.channels.map (·.running))) =
        some (true, true, 0x30003, [true], [false]) := by decide +kernel
  obtain ⟨⟨seen, e⟩, hlive, hfacts⟩ := Option.map_eq_some_iff.mp hready
  obtain ⟨⟨told, e₁⟩, hlive₁, hfacts₁⟩ := Option.map_eq_some_iff.mp hfatal
  simp only [Prod.mk.injEq] at hfacts hfacts₁
  obtain ⟨hup, hopen, hword⟩ := hfacts
  obtain ⟨hup₁, hopen₁, hword₁, hbefore, hafter⟩ := hfacts₁
  have hread : e.device.read .intStatus e.machine = (0, _) := Prod.ext hword rfl
  have hread₁ : e₁.device.read .intStatus e₁.machine = (0x30003, _) := Prod.ext hword₁ rfl
  exact ⟨seen, e, _, told, e₁, _, hlive, hread,
    ((interrupt_service hlive hup hopen hread).1 rfl).1, hlive₁, hread₁,
    (interrupt_service hlive₁ hup₁ hopen₁ hread₁).2 (by decide), hbefore, hafter⟩

end Engine

end PacketDma
