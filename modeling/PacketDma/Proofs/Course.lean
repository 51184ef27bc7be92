import PacketDma.Proofs.LengthField
import PacketDma.Proofs.Teardown

/-!
# Courses of effects

The effects of what is done to one channel are told in two ways: how often its local reset is
pulsed, and which mappings of buffers are made or given up. Both add up along the way.

## Implementation notes

Running and halting the rings writes to the register that also holds the local reset. Such a write
is told from a pulse by the reset bit, which it leaves as it was shown.
-/

namespace PacketDma

variable {β : Type}

/-- Whether an event neither lets time pass nor writes to a register. -/
def Event.isAside : Event β → Bool
  | .delay _ | .write .. => false
  | _ => true

namespace ChannelRegisters

variable {c : ChannelRegisters} {us n k : Nat} {l l' : List (Event β)}

/-- The effects of a pulse of the local reset, given what ring control showed when the reset was
asserted and when it was released. -/
def pulse (c : ChannelRegisters) (us : Nat) (held freed : UInt32) : List (Event β) :=
  [.read (c.offset .ringControl) held,
    .write (c.offset .ringControl) (held ||| RingControl.reset),
    .delay us,
    .read (c.offset .ringControl) freed,
    .write (c.offset .ringControl) (freed &&& ~~~RingControl.reset)]

/-- Effects among which the local reset of a channel is pulsed so many times, each time held for
`us` microseconds. Apart from that no time passes, and ring control changes in other bits only. -/
inductive Pulses (c : ChannelRegisters) (us : Nat) : Nat → List (Event β) → Prop where
  | nil : Pulses c us 0 []
  | aside {n : Nat} {l : List (Event β)} (h : Pulses c us n l) {e : Event β}
      (he : e.isAside = true) : Pulses c us n (l ++ [e])
  | plain {n : Nat} {l : List (Event β)} (h : Pulses c us n l) {offset : Nat}
      (ho : c.Plain offset) (word : UInt32) : Pulses c us n (l ++ [.write offset word])
  | control {n : Nat} {l : List (Event β)} (h : Pulses c us n l) {shown word : UInt32}
      (hreset : word &&& RingControl.reset = shown &&& RingControl.reset) :
      Pulses c us n
        (l ++ [.read (c.offset .ringControl) shown, .write (c.offset .ringControl) word])
  | pulse {n : Nat} {l : List (Event β)} (h : Pulses c us n l) (held freed : UInt32) :
      Pulses c us (n + 1) (l ++ c.pulse us held freed)

namespace Pulses

theorem append (h : c.Pulses us n l) (h' : c.Pulses us k l') :
    c.Pulses us (n + k) (l ++ l') := by
  induction h' with
  | nil => simpa only [Nat.add_zero, List.append_nil] using h
  | aside _ he ih => simpa only [List.append_assoc] using ih.aside he
  | plain _ ho word ih => simpa only [List.append_assoc] using ih.plain ho word
  | control _ hreset ih => simpa only [List.append_assoc] using ih.control hreset
  | pulse _ held freed ih =>
    simpa only [Nat.add_assoc, List.append_assoc] using ih.pulse held freed

theorem of_aside (h : ∀ e ∈ l, e.isAside = true) : c.Pulses us 0 l := by
  induction l with
  | nil => exact .nil
  | cons e rest ih =>
    obtain ⟨he, hrest⟩ := List.forall_mem_cons.mp h
    have hfirst : c.Pulses us 0 [e] := Pulses.nil.aside he
    exact hfirst.append (ih hrest)

end Pulses

end ChannelRegisters

namespace Machine

/-- The second machine is the first one after effects among which the local reset of a channel is
pulsed so many times, and of which these make or give up the mappings of buffers. -/
def Course (c : ChannelRegisters) (us : Nat) (m : Machine β) (pulses : Nat)
    (moved : List (Event β)) (n : Machine β) : Prop :=
  ∃ new, n.effects = m.effects ++ new ∧ c.Pulses us pulses new ∧
    new.filter Event.isMapping = moved

/-- The second machine is the first one after effects that neither let time pass nor write to a
register, and of which these make or give up the mappings of buffers. -/
def Aside (m : Machine β) (moved : List (Event β)) (n : Machine β) : Prop :=
  ∃ new, n.effects = m.effects ++ new ∧ (∀ e ∈ new, e.isAside = true) ∧
    new.filter Event.isMapping = moved

theorem effects_modify (m : Machine β) (offset : Nat) (f : UInt32 → UInt32) :
    (m.modify offset f).effects =
      m.effects ++ [.read offset (m.read offset).1, .write offset (f (m.read offset).1)] := by
  rw [modify, effects_write, effects_read, List.append_assoc]
  rfl

namespace Aside

variable {moved later : List (Event β)} {m n p : Machine β}

theorem refl (m : Machine β) : m.Aside [] m := ⟨[], (List.append_nil _).symm, by simp, rfl⟩

theorem single {e : Event β} (hn : n.effects = m.effects ++ [e]) (he : e.isAside = true)
    (hmapping : e.isMapping = false) : m.Aside [] n :=
  ⟨[e], hn, by simp [he], by simp [hmapping]⟩

theorem trans (h : m.Aside moved n) (h' : n.Aside later p) : m.Aside (moved ++ later) p := by
  obtain ⟨new, hnew, haside, rfl⟩ := h
  obtain ⟨more, hmore, haside', rfl⟩ := h'
  exact ⟨new ++ more, by rw [hmore, hnew, List.append_assoc],
    fun e he => (List.mem_append.mp he).elim (haside e) (haside' e), List.filter_append _ _⟩

/-- Nothing that is done aside pulses a reset. -/
theorem course (h : m.Aside moved n) (c : ChannelRegisters) (us : Nat) :
    m.Course c us 0 moved n := by
  obtain ⟨new, hnew, haside, hmoved⟩ := h
  exact ⟨new, hnew, .of_aside haside, hmoved⟩

theorem reserve {α : Type} (made : Except Error α) (m : Machine β) :
    m.Aside [] (m.reserve made).2 := by
  cases made <;> exact .refl m

theorem mapArray (m : Machine β) (bytes : Nat) : m.Aside [] (m.mapArray bytes).2 := by
  unfold Machine.mapArray
  split
  · exact .single (effects_emit _ (.arrayFailed bytes)) rfl rfl
  · exact .single (effects_emit _ (.arrayMapped bytes _)) rfl rfl

end Aside

namespace Course

variable {c : ChannelRegisters} {us j k : Nat} {moved later : List (Event β)} {m n p : Machine β}

theorem refl (c : ChannelRegisters) (us : Nat) (m : Machine β) : m.Course c us 0 [] m :=
  ⟨[], (List.append_nil _).symm, .nil, rfl⟩

theorem trans (h : m.Course c us j moved n) (h' : n.Course c us k later p) :
    m.Course c us (j + k) (moved ++ later) p := by
  obtain ⟨new, hnew, hpulses, rfl⟩ := h
  obtain ⟨more, hmore, hpulses', rfl⟩ := h'
  exact ⟨new ++ more, by rw [hmore, hnew, List.append_assoc], hpulses.append hpulses',
    List.filter_append _ _⟩

/-- A course goes on without a pulse and without moving a buffer. -/
theorem still (h : m.Course c us j moved n) (h' : n.Course c us 0 [] p) :
    m.Course c us j moved p := by
  simpa only [Nat.add_zero, List.append_nil] using h.trans h'

theorem log (c : ChannelRegisters) (us : Nat) (m : Machine β) (level : LogLevel) (text : String) :
    m.Course c us 0 [] (m.log level text) :=
  (Aside.single (effects_emit m (.log level text)) rfl rfl).course c us

theorem read (c : ChannelRegisters) (us : Nat) (m : Machine β) (offset : Nat) :
    m.Course c us 0 [] (m.read offset).2 :=
  (Aside.single (m.effects_read offset) rfl rfl).course c us

theorem now (c : ChannelRegisters) (us : Nat) (m : Machine β) : m.Course c us 0 [] m.now.2 :=
  ⟨[], (List.append_nil _).symm, .nil, rfl⟩

theorem plain (us : Nat) (m : Machine β) {offset : Nat} (ho : c.Plain offset) (word : UInt32) :
    m.Course c us 0 [] (m.write offset word) :=
  ⟨_, m.effects_write offset word, ChannelRegisters.Pulses.nil.plain ho word, rfl⟩

/-- A change of ring control that leaves the reset bit alone is no pulse. -/
theorem control (us : Nat) (m : Machine β) {f : UInt32 → UInt32}
    (hreset : ∀ w, f w &&& RingControl.reset = w &&& RingControl.reset) :
    m.Course c us 0 [] (m.modify (c.offset .ringControl) f) :=
  ⟨_, effects_modify m _ f, ChannelRegisters.Pulses.nil.control (hreset _), rfl⟩

end Course

end Machine

/-! ### What is done to a channel -/

namespace Channel

open Machine

variable {config : Config} {c c' : Channel β} {m m' : Machine β}

/-- Running the rings leaves the reset bit alone. -/
theorem enable_and_reset (w : UInt32) :
    (w ||| RingControl.enableBoth) &&& RingControl.reset = w &&& RingControl.reset := by
  rw [UInt32.and_comm, and_or_distrib_left, UInt32.and_comm _ w]
  exact UInt32.or_zero

/-- Halting the rings leaves the reset bit alone. -/
theorem disable_and_reset (w : UInt32) :
    (w &&& ~~~RingControl.enableBoth) &&& RingControl.reset = w &&& RingControl.reset := by
  rw [UInt32.and_assoc]
  rfl

theorem effects_enableRings (r : ChannelRegisters) (m : Machine β) :
    (r.enableRings m).effects = m.effects ++
      [.read (r.offset .ringControl) (m.read (r.offset .ringControl)).1,
        .write (r.offset .ringControl)
          ((m.read (r.offset .ringControl)).1 ||| RingControl.enableBoth)] :=
  effects_modify m (r.offset .ringControl) (· ||| RingControl.enableBoth)

theorem course_enableRings (us : Nat) (c : Channel β) (m : Machine β) :
    m.Course c.registers us 0 [] (c.registers.enableRings m) := by
  rw [ChannelRegisters.enableRings, setBits]
  exact .control us m enable_and_reset

theorem course_disableRings (us : Nat) (c : Channel β) (m : Machine β) :
    m.Course c.registers us 0 [] (c.registers.disableRings m) := by
  rw [ChannelRegisters.disableRings, clearBits]
  exact .control us m disable_and_reset

theorem course_stop (us : Nat) (c : Channel β) (m : Machine β) :
    m.Course c.registers us 0 [] (c.stop m).2.2 := by
  unfold stop
  split
  · exact (course_disableRings us c m).still (.log _ us _ _ _)
  · exact .refl _ us m

theorem course_pulseReset (us : Nat) (c : Channel β) (m : Machine β) :
    m.Course c.registers us 1 [] (c.pulseReset us m) := by
  let rc := c.registers.offset .ringControl
  refine ⟨c.registers.pulse us (m.read rc).1
    (((c.registers.assertReset m).delay us).read rc).1, ?_, .pulse .nil _ _, rfl⟩
  have hassert : (c.registers.assertReset m).effects = _ :=
    effects_modify m rc (· ||| RingControl.reset)
  have hdelay : ((c.registers.assertReset m).delay us).effects = _ := effects_emit _ (.delay us)
  have hrelease : (c.pulseReset us m).effects = _ :=
    effects_modify ((c.registers.assertReset m).delay us) rc (· &&& ~~~RingControl.reset)
  have hsame : ({ c.registers.assertReset m with
      clock := (c.registers.assertReset m).clock.advance us } : Machine β).effects =
        (c.registers.assertReset m).effects := rfl
  rw [hrelease, hdelay, hsame, hassert, List.append_assoc, List.append_assoc]
  rfl

theorem course_clearErrors (us : Nat) (c : Channel β) (faults : FaultSet) (m : Machine β) :
    m.Course c.registers us 0 [] (c.clearErrors faults m) :=
  .plain us m (c.plain_offset (by simp)) _

theorem course_errorStatus (us : Nat) (c : Channel β) (m : Machine β) :
    m.Course c.registers us 0 [] (c.errorStatus m).2 := .read _ us m _

/-- The effects of telling the device about one ring. -/
def ringSettings (c : Channel β) (d : Direction) : List (Event β) :=
  [.write (c.registers.offset (.baseLow d)) (c.ring d).base.low,
    .write (c.registers.offset (.baseHigh d)) (c.ring d).base.high,
    .write (c.registers.offset (.size d)) (UInt32.ofNat (c.ring d).capacity),
    .write (c.registers.offset (.head d)) (UInt32.ofNat (c.ring d).head)]

/-- The effects of telling the device about both rings and the form of their descriptors. -/
def programming (c : Channel β) : List (Event β) :=
  c.ringSettings .toDevice ++ c.ringSettings .fromDevice ++
    [.write (c.registers.offset .descControl) (c.features.descriptorControl Descriptor.words)]

theorem effects_programRing (c : Channel β) (d : Direction) (m : Machine β) :
    (c.programRing d m).effects = m.effects ++ c.ringSettings d := by
  simp only [programRing, ChannelRegisters.ringDoorbell, ChannelRegisters.setRingBase,
    ChannelRegisters.write, effects_write, List.append_assoc]
  rfl

theorem effects_program (c : Channel β) (m : Machine β) :
    (c.program m).effects = m.effects ++ c.programming := by
  rw [program, ChannelRegisters.write, effects_write, effects_programRing, effects_programRing,
    programming, List.append_assoc, List.append_assoc, List.append_assoc]

theorem course_programRing (us : Nat) (c : Channel β) (d : Direction) (m : Machine β) :
    m.Course c.registers us 0 [] (c.programRing d m) :=
  (((Course.plain us m (c.plain_offset (r := .baseLow d) (by simp)) _).still
    (.plain us _ (c.plain_offset (r := .baseHigh d) (by simp)) _)).still
      (.plain us _ (c.plain_offset (r := .size d) (by simp)) _)).still
        (.plain us _ (c.plain_offset (r := .head d) (by simp)) _)

theorem course_program (us : Nat) (c : Channel β) (m : Machine β) :
    m.Course c.registers us 0 [] (c.program m) :=
  ((course_programRing us c .toDevice m).still (course_programRing us c .fromDevice _)).still
    (.plain us _ (c.plain_offset (r := .descControl) (by simp)) _)

/-! ### Rings given up and made -/

theorem isAside_of_mem_discards {channel : Nat} {direction : Direction} {slots : List (Slot β)}
    {e : Event β} (he : e ∈ discards channel direction slots) : e.isAside = true := by
  obtain ⟨s, -, rfl⟩ := List.mem_map.mp he
  rfl

theorem aside_releaseRing (channel : Nat) (direction : Direction) (ring : Ring β)
    (m : Machine β) : m.Aside (discards channel direction ring.slots)
      (releaseRing channel direction ring m).2.2 :=
  ⟨_, effects_releaseRing channel direction ring m, fun _ => isAside_of_mem_discards,
    filter_discards _ _ _⟩

theorem aside_resetRings (c : Channel β) (m : Machine β) :
    m.Aside c.unmappings (c.resetRings m).2.2 := by
  refine ⟨_, effects_resetRings c m, fun e he => ?_, ?_⟩
  · exact (List.mem_append.mp he).elim isAside_of_mem_discards isAside_of_mem_discards
  · rw [List.filter_append, filter_discards, filter_discards, unmappings]

theorem aside_buildRing (config : Config) (capacity : Nat) (m : Machine β) :
    m.Aside [] (buildRing config capacity m).2 := by
  have hreserve := Aside.reserve (Ring.create? (β := β) config.capabilities.layout capacity
    config.capabilities.maxRingSize) m
  unfold buildRing
  dsimp only
  split
  next he => simpa only [he] using hreserve
  next new n he =>
    rw [he] at hreserve
    have hmap := hreserve.trans (.mapArray n (new.capacity * Descriptor.bytes))
    split
    next hm => simpa only [hm, List.nil_append] using hmap
    next hm => simpa only [hm, List.nil_append] using hmap

/-- Making the rings of a channel moves no buffer, whether it succeeds or not. -/
theorem aside_buildRings (channel : Nat) (config : Config) (m : Machine β) :
    m.Aside [] (buildRings channel config m).2 := by
  have htx := aside_buildRing config config.txRingSize m
  unfold buildRings
  split
  next he => simpa only [he] using htx
  next tx n he =>
    rw [he] at htx
    have hrx := htx.trans (aside_buildRing config config.rxRingSize n)
    have hnew : IsNewRing config tx := isNewRing_of_buildRing (by rw [he])
    split
    next p he' =>
      rw [he'] at hrx
      have hrelease := aside_releaseRing channel .toDevice tx p
      rw [hnew.slots_eq] at hrelease
      exact hrx.trans hrelease
    next he' => simpa only [he', List.nil_append] using hrx

/-- New rings take the place of old ones, whose buffers are unmapped once. -/
theorem aside_of_reloadRings_ok {k : Nat} (h : c.reloadRings config m = (.ok k, c', m')) :
    m.Aside c.unmappings m' := by
  obtain ⟨tx, rx, n, hbuild, -, rfl⟩ := of_reloadRings_ok h
  have hnew := aside_buildRings c.id config m
  rw [hbuild] at hnew
  have htx := aside_releaseRing c.id .toDevice c.tx n
  exact (hnew.trans htx).trans (aside_releaseRing c.id .fromDevice c.rx _)

end Channel

end PacketDma
