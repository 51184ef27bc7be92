import PacketDma.Channel
import PacketDma.Machine.Reset
import PacketDma.Proofs.RingQueue

/-!
# Quiet effects

Most of what is done to the machine leaves the mapped buffers alone. A quiet stretch of effects
maps and unmaps no buffer and writes only to registers of a given kind: those of the device as a
whole, or those of one channel other than its ring control.

## Implementation notes

Quietness is closed under the primitive accesses of the machine. Each operation built from them is
shown quiet once, and later arguments look at the five primitive cases only.
-/

namespace PacketDma

variable {β : Type}

/-- Whether an event tells neither of a register nor of a mapped buffer. -/
def Event.isNote : Event β → Bool
  | .delay _ | .mapFailed .. | .arrayMapped .. | .arrayFailed _ | .log .. | .wake _ => true
  | .read .. | .write .. | .mapped .. | .unmapped .. => false

/-- The offsets of the registers of the device as a whole. -/
def DeviceRegisters.Own (d : DeviceRegisters) (offset : Nat) : Prop := ∃ r, offset = d.offset r

/-- The offsets of a channel's registers other than its ring control. -/
def ChannelRegisters.Plain (c : ChannelRegisters) (offset : Nat) : Prop :=
  ∃ r, r ≠ .ringControl ∧ offset = c.offset r

namespace Machine

/-- The effects on the machine so far, the first one first. -/
def effects (m : Machine β) : List (Event β) := m.trace.toList

@[simp] theorem effects_emit (m : Machine β) (e : Event β) :
    (m.emit e).effects = m.effects ++ [e] := by
  simp [effects, emit]

theorem effects_read (m : Machine β) (offset : Nat) :
    (m.read offset).2.effects = m.effects ++ [.read offset (m.read offset).1] := by
  rw [read, effects_emit]
  rfl

theorem effects_write (m : Machine β) (offset : Nat) (word : UInt32) :
    (m.write offset word).effects = m.effects ++ [.write offset word] := by
  rw [write, effects_emit]
  rfl

theorem effects_mapBuffer {m n : Machine β} {channel : Nat} {direction : Direction} {index : Nat}
    {buffer : β} {length : Nat} {addr : BusAddress}
    (h : m.mapBuffer channel direction index buffer length = (some addr, n)) :
    n.effects = m.effects ++ [.mapped channel direction index buffer addr length] := by
  unfold mapBuffer at h
  split at h
  · simp at h
  · obtain ⟨haddr, rfl⟩ := Prod.mk.inj h
    obtain rfl := Option.some.inj haddr
    rw [effects_emit]
    rfl

theorem effects_unmapBuffer (m : Machine β) (channel : Nat) (direction : Direction)
    (addr : BusAddress) (length : Nat) (cause : UnmapCause) :
    (m.unmapBuffer channel direction addr length cause).effects =
      m.effects ++ [.unmapped channel direction addr length cause] := by
  rw [unmapBuffer, effects_emit]
  rfl

theorem registers_wake (m : Machine β) (task : Option Nat) :
    (m.wake task).registers = m.registers := by
  cases task <;> rfl

theorem registers_mapBuffer (m : Machine β) (channel : Nat) (direction : Direction) (index : Nat)
    (buffer : β) (length : Nat) :
    (m.mapBuffer channel direction index buffer length).2.registers = m.registers := by
  unfold mapBuffer
  split <;> rfl

theorem registers_mapArray (m : Machine β) (bytes : Nat) :
    (m.mapArray bytes).2.registers = m.registers := by
  unfold mapArray
  split <;> rfl

theorem registers_reserve {α : Type} (made : Except Error α) (m : Machine β) :
    (m.reserve made).2.registers = m.registers := by
  cases made <;> rfl

theorem registers_of_reserve {α : Type} {made result : Except Error α} {m n : Machine β}
    (h : m.reserve made = (result, n)) : n.registers = m.registers := by
  rw [← registers_reserve made m, h]

/-- The second machine is the first one after effects that map and unmap no buffer and write only
to registers at `writable` offsets. -/
inductive Quiet (writable : Nat → Prop) : Machine β → Machine β → Prop where
  | refl (m : Machine β) : Quiet writable m m
  | read {m n : Machine β} (h : Quiet writable m n) (offset : Nat) :
      Quiet writable m (n.read offset).2
  | write {m n : Machine β} (h : Quiet writable m n) {offset : Nat} (hw : writable offset)
      (word : UInt32) : Quiet writable m (n.write offset word)
  | note {m n : Machine β} (h : Quiet writable m n) {e : Event β} (he : e.isNote = true) :
      Quiet writable m (n.emit e)
  | aside {m n : Machine β} (h : Quiet writable m n) (clock : Clock) (mapper : Mapper β)
      (retired : List DescriptorArray) :
      Quiet writable m { n with clock := clock, mapper := mapper, retired := retired }

namespace Quiet

variable {writable : Nat → Prop} {m n : Machine β}

theorem mono {wider : Nat → Prop} (hw : ∀ o, writable o → wider o) (h : Quiet writable m n) :
    Quiet wider m n := by
  induction h with
  | refl => exact .refl _
  | read _ offset ih => exact ih.read offset
  | write _ ho word ih => exact ih.write (hw _ ho) word
  | note _ he ih => exact ih.note he
  | aside _ clock mapper retired ih => exact ih.aside clock mapper retired

theorem log (h : Quiet writable m n) (level : LogLevel) (text : String) :
    Quiet writable m (n.log level text) := h.note rfl

theorem delay (h : Quiet writable m n) (us : Nat) : Quiet writable m (n.delay us) :=
  (h.aside (n.clock.advance us) n.mapper n.retired).note rfl

theorem now (h : Quiet writable m n) : Quiet writable m n.now.2 :=
  h.aside n.clock.read.2 n.mapper n.retired

theorem wake (h : Quiet writable m n) (task : Option Nat) : Quiet writable m (n.wake task) := by
  cases task with
  | none => exact h
  | some t => exact h.note rfl

theorem clock (h : Quiet writable m n) (clock : Clock) :
    Quiet writable m { n with clock := clock } := h.aside clock n.mapper n.retired

theorem modify (h : Quiet writable m n) {offset : Nat} (hw : writable offset)
    (f : UInt32 → UInt32) : Quiet writable m (n.modify offset f) := (h.read offset).write hw _

theorem retire (h : Quiet writable m n) (base : BusAddress) (descriptors : Array Descriptor) :
    Quiet writable m (n.retire base descriptors) := h.aside n.clock n.mapper _

theorem mapArray (h : Quiet writable m n) (bytes : Nat) :
    Quiet writable m (n.mapArray bytes).2 := by
  unfold Machine.mapArray
  split <;> exact (h.aside n.clock _ n.retired).note rfl

theorem reserve {α : Type} (h : Quiet writable m n) (made : Except Error α) :
    Quiet writable m (n.reserve made).2 := by
  cases made with
  | error => exact h
  | ok => exact h.aside n.clock _ n.retired

/-- Asking for storage is quiet, whatever the answer. -/
theorem of_reserve {α : Type} {made result : Except Error α} {p : Machine β}
    (h : Quiet writable m n) (hp : n.reserve made = (result, p)) : Quiet writable m p := by
  have hreserve := h.reserve made
  rwa [hp] at hreserve

/-- A buffer that could not be mapped leaves a note only. -/
theorem mapBuffer_none {channel : Nat} {direction : Direction} {index : Nat} {buffer : β}
    {length : Nat} (h : Quiet writable m n)
    (hp : n.mapBuffer channel direction index buffer length = (none, p)) :
    Quiet writable m p := by
  unfold Machine.mapBuffer at hp
  split at hp
  · obtain rfl := (Prod.mk.inj hp).2
    exact (h.aside n.clock _ n.retired).note rfl
  · simp at hp

end Quiet

end Machine

/-! ### The device as a whole -/

namespace DeviceRegisters

open Machine

variable (d : DeviceRegisters) {m n : Machine β}

theorem own_offset (r : DeviceRegister) : d.Own (d.offset r) := ⟨r, rfl⟩

variable {d}

theorem quiet_read {writable : Nat → Prop} (h : Quiet writable m n) (r : DeviceRegister) :
    Quiet writable m (d.read r n).2 :=
  Quiet.read h _

theorem quiet_write (h : Quiet d.Own m n) (r : DeviceRegister) (word : UInt32) :
    Quiet d.Own m (d.write r word n) := Quiet.write h (d.own_offset r) word

theorem quiet_modify (h : Quiet d.Own m n) (r : DeviceRegister) (f : UInt32 → UInt32) :
    Quiet d.Own m (n.modify (d.offset r) f) := Quiet.modify h (d.own_offset r) f

theorem quiet_isReady {writable : Nat → Prop} (h : Quiet writable m n) :
    Quiet writable m (d.isReady n).2 := quiet_read h .status

end DeviceRegisters

/-- What every look and every pause keep, a wait keeps. -/
theorem pollUntil_keeps {σ : Type} (keeps : σ → Prop) (check : σ → Bool × σ)
    (pause : Nat → σ → σ) (hc : ∀ s, keeps s → keeps (check s).2)
    (hp : ∀ us s, keeps s → keeps (pause us s)) (interval : Nat) (deadline : Deadline)
    (clock : Clock) (s : σ) (hs : keeps s) :
    keeps (pollUntil check pause interval deadline clock s).2.2 := by
  fun_induction pollUntil check pause interval deadline clock s with
  | case1 clock s t ht => simpa only [ht] using hc s hs
  | case2 clock s t ht _ => simpa only [ht] using hc s hs
  | case3 clock s t ht _ ih =>
    have hkept : keeps t := by simpa only [ht] using hc s hs
    exact ih (hp _ _ hkept)

namespace DeviceRegisters

open Machine

variable {d : DeviceRegisters} {m n : Machine β}

/-- Waiting for the device writes to no register at all, however long it takes. -/
theorem quiet_awaitReady {writable : Nat → Prop} (h : Quiet writable m n)
    (timeout interval : Nat) : Quiet writable m (d.awaitReady timeout interval n).2 := by
  have hpoll := pollUntil_keeps (Quiet writable m) d.isReady (fun us m => m.emit (.delay us))
    (fun s hs => quiet_isReady hs) (fun us s hs => Quiet.note hs rfl) interval
    (Deadline.after n.clock timeout).1 (Deadline.after n.clock timeout).2 n h
  rw [awaitReady]
  generalize Deadline.after n.clock timeout = start at hpoll ⊢
  obtain ⟨deadline, clock⟩ := start
  dsimp only at hpoll ⊢
  generalize pollUntil d.isReady (fun us m => m.emit (.delay us)) interval deadline clock n =
    result at hpoll ⊢
  obtain ⟨ready, clock, p⟩ := result
  cases ready <;> exact Quiet.clock hpoll clock

/-- A device reset writes to device registers only. -/
theorem quiet_resetDevice (h : Quiet d.Own m n) (timing : ResetTiming) :
    Quiet d.Own m (d.resetDevice timing n).2 := by
  have hassert : Quiet d.Own m (d.assertReset n) := quiet_modify h .control (· ||| Control.reset)
  have hrelease : Quiet d.Own m (d.releaseReset ((d.assertReset n).delay timing.settleUs)) :=
    quiet_modify (hassert.delay timing.settleUs) .control (· &&& ~~~Control.reset)
  rw [resetDevice]
  exact quiet_awaitReady hrelease timing.readyTimeoutUs timing.pollIntervalUs

end DeviceRegisters

/-! ### One channel -/

namespace Channel

open Machine

variable {c : Channel β} {m n : Machine β}

theorem plain_offset (c : Channel β) {r : ChannelRegister} (hr : r ≠ .ringControl) :
    c.registers.Plain (c.registers.offset r) := ⟨r, hr, rfl⟩

theorem quiet_ringDoorbell (h : Quiet c.registers.Plain m n) (direction : Direction)
    (head : Nat) : Quiet c.registers.Plain m (c.registers.ringDoorbell direction head n) :=
  Quiet.write h (c.plain_offset (by simp)) _

theorem quiet_programRing (h : Quiet c.registers.Plain m n) (direction : Direction) :
    Quiet c.registers.Plain m (c.programRing direction n) :=
  quiet_ringDoorbell
    (Quiet.write
      (Quiet.write
        (Quiet.write h (c.plain_offset (r := .baseLow direction) (by simp)) _)
        (c.plain_offset (r := .baseHigh direction) (by simp)) _)
      (c.plain_offset (r := .size direction) (by simp)) _) direction _

theorem quiet_program (h : Quiet c.registers.Plain m n) :
    Quiet c.registers.Plain m (c.program n) :=
  Quiet.write (quiet_programRing (quiet_programRing h .toDevice) .fromDevice)
    (c.plain_offset (by simp)) _

theorem quiet_errorStatus (h : Quiet c.registers.Plain m n) :
    Quiet c.registers.Plain m (c.errorStatus n).2 := Quiet.read h _

theorem quiet_clearErrors (h : Quiet c.registers.Plain m n) (faults : FaultSet) :
    Quiet c.registers.Plain m (c.clearErrors faults n) :=
  Quiet.write h (c.plain_offset (by simp)) _

end Channel

/-! ### Making rings -/

namespace Channel

open Machine

variable {writable : Nat → Prop} {config : Config} {m n : Machine β}

/-- A ring that was just made: disabled, laid out as configured, and empty. -/
structure IsNewRing (config : Config) (r : Ring β) : Prop where
  enabled_eq : r.enabled = false
  layout_eq : r.layout = config.capabilities.layout
  slots_eq : r.slots = []
  carries : r.Carries []

theorem quiet_buildRing (config : Config) (h : Quiet writable m n) (capacity : Nat) :
    Quiet writable m (buildRing config capacity n).2 := by
  unfold buildRing
  dsimp only
  split
  next he => exact h.of_reserve he
  next r p he =>
    have hmap := (h.of_reserve he).mapArray (r.capacity * Descriptor.bytes)
    split
    next hm => simpa only [hm] using hmap
    next hm => simpa only [hm] using hmap

theorem isNewRing_of_buildRing {capacity : Nat} {r : Ring β}
    (h : (buildRing config capacity m).1 = .ok r) : IsNewRing config r := by
  unfold buildRing at h
  dsimp only at h
  split at h
  · simp at h
  next new n hnew =>
    obtain ⟨rfl, hc⟩ := Ring.eq_of_create?_ok (eq_of_reserve_ok hnew).1
    split at h
    · simp at h
    · obtain rfl := Except.ok.inj h
      refine ⟨rfl, rfl, ?_, Ring.carries_replicate _ hc false _⟩
      simp [Ring.slots, RingCell.empty]

/-- Giving up a ring without transfers unmaps nothing. -/
theorem quiet_releaseRing {channel : Nat} {direction : Direction} {r : Ring β}
    (h : Quiet writable m n) (hr : r.slots = []) :
    Quiet writable m (releaseRing channel direction r n).2.2 := by
  simp only [releaseRing, resetRing, hr, discardSlots, List.foldl_nil]
  split
  · exact h
  · exact h.retire _ _

theorem quiet_buildRings (config : Config) (h : Quiet writable m n) (channel : Nat) :
    Quiet writable m (buildRings channel config n).2 := by
  have htx := quiet_buildRing config h config.txRingSize
  unfold buildRings
  split
  next he => simpa only [he] using htx
  next tx p he =>
    have hp : Quiet writable m p := by simpa only [he] using htx
    have hrx := quiet_buildRing config hp config.rxRingSize
    have hnew : IsNewRing config tx := isNewRing_of_buildRing (by rw [he])
    split
    next he' =>
      rw [he'] at hrx
      exact quiet_releaseRing hrx hnew.slots_eq
    next he' => simpa only [he'] using hrx

theorem isNewRing_of_buildRings {channel : Nat} {tx rx : Ring β}
    (h : (buildRings channel config m).1 = .ok (tx, rx)) :
    IsNewRing config tx ∧ IsNewRing config rx := by
  unfold buildRings at h
  split at h
  · simp at h
  next he =>
    split at h
    · simp at h
    next he' =>
      obtain ⟨rfl, rfl⟩ := Prod.mk.inj (Except.ok.inj h)
      exact ⟨isNewRing_of_buildRing (by rw [he]), isNewRing_of_buildRing (by rw [he'])⟩

/-- A channel that was just made is stopped, with new rings. -/
theorem of_build {id window : Nat} {c : Channel β}
    (h : build id window config m = (.ok c, n)) :
    c.id = id ∧ c.window = window ∧ c.map = config.capabilities.registers ∧
      c.initialized = true ∧ c.running = false ∧
      ∀ d, IsNewRing config (c.ring d) := by
  unfold build at h
  split at h
  · simp at h
  next tx rx p he =>
    obtain ⟨htx, hrx⟩ := isNewRing_of_buildRings (by rw [he])
    obtain rfl := Except.ok.inj (Prod.mk.inj h).1
    refine ⟨rfl, rfl, rfl, rfl, rfl, ?_⟩
    intro d
    cases d with
    | toDevice => exact htx
    | fromDevice => exact hrx

theorem quiet_build (config : Config) (h : Quiet writable m n) (id window : Nat) :
    Quiet writable m (build id window config n).2 := by
  have hrings := quiet_buildRings config h id
  unfold build
  split
  next he => simpa only [he] using hrings
  next he =>
    rw [he] at hrings
    exact hrings.log _ _

/-- Making a channel touches no register, whether it succeeds or not. -/
theorem quiet_of_build {id window : Nat} {result : Except Error (Channel β)}
    (h : build id window config m = (result, n)) : m.Quiet (fun _ => False) n := by
  have hbuild : m.Quiet (fun _ => False) (build id window config m).2 :=
    quiet_build config (.refl m) id window
  rwa [h] at hbuild

end Channel

end PacketDma
