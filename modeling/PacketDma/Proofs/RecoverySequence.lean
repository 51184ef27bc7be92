import PacketDma.Proofs.Course
import PacketDma.Proofs.Provision
import PacketDma.Proofs.StuckFaults

/-!
# The recovery sequence

A recovery attempt leaves a channel in one of two ways. Main statement: `recovery_sequence`. Either
the channel runs again, with rings that were kept, emptied or replaced as the action and the faults
ask for, and the device was told of them. Or new rings were asked for and could not be made. Then
the channel is halted, and its rings and the mapped buffers are as they were.

## Implementation notes

An attempt is cut where it comes to the rings, as only there actions differ in what may fail. Rings
are compared without regard to whether buffers may be posted, which changes on either side of the
cut.
-/

namespace PacketDma

variable {β : Type}

namespace FaultSet

/-- A set of known categories is empty if no category is in it. -/
theorem isEmpty_ofRegister_iff (word : UInt32) :
    (ofRegister word).isEmpty = true ↔ ∀ f : Fault, f ∉ ofRegister word := by
  rw [isEmpty, beq_iff_eq]
  constructor
  · intro h f hf
    exact hf (by rw [h, UInt32.zero_and])
  · intro h
    have hbit (f : Fault) : (ofRegister word).bits &&& f.bit = 0 := not_not.mp (h f)
    have hall : all.bits = Fault.all.foldr (fun f bits => f.bit ||| bits) 0 := rfl
    have hself : (ofRegister word).bits &&& all.bits = (ofRegister word).bits := by
      rw [ofRegister, UInt32.and_assoc, UInt32.and_self]
    rw [← hself, hall]
    simp only [Fault.all, List.foldr_cons, List.foldr_nil, and_or_distrib_left, hbit,
      UInt32.or_zero]

theorem meets_ringCorrupting_iff (s : FaultSet) :
    s.meets .ringCorrupting = true ↔ .descriptor ∈ s ∨ .ringFull ∈ s := by
  have hbits : ringCorrupting.bits = Fault.descriptor.bit ||| Fault.ringFull.bit := rfl
  rw [meets, bne_iff_ne, hbits, and_or_distrib_left, ne_eq, UInt32.or_eq_zero_iff, not_and_or]
  exact Iff.rfl

end FaultSet

namespace Machine

theorem mapped_reserve {α : Type} (made : Except Error α) (m : Machine β) :
    (m.reserve made).2.mapper.mapped = m.mapper.mapped := by
  cases made <;> rfl

theorem mapped_mapArray (m : Machine β) (bytes : Nat) :
    (m.mapArray bytes).2.mapper.mapped = m.mapper.mapped := by
  have hmapper : (m.mapArray bytes).2.mapper = (m.mapper.mapArray bytes).2 := by
    unfold mapArray
    split
    next h => rw [h]; rfl
    next h => rw [h]; rfl
  rw [hmapper]
  unfold Mapper.mapArray
  split <;> rfl

end Machine

/-- How often a recovery attempt holds the channel in its local reset. -/
def RecoveryAction.pulses : RecoveryAction → Nat
  | none | restart => 0
  | reset | reinit | reload => 1

/-- The second ring is the first one, but for whether buffers may be posted. -/
def Ring.Alike (r s : Ring β) : Prop := ∃ enabled, s = r.setEnabled enabled

namespace Ring.Alike

variable {r s t : Ring β}

theorem refl (r : Ring β) : r.Alike r := ⟨r.enabled, rfl⟩

theorem trans (h : r.Alike s) (h' : s.Alike t) : r.Alike t := by
  obtain ⟨_, rfl⟩ := h
  obtain ⟨enabled, rfl⟩ := h'
  exact ⟨enabled, rfl⟩

theorem rewind (h : r.Alike s) : r.rewind.Alike s.rewind := by
  obtain ⟨enabled, rfl⟩ := h
  exact ⟨enabled, rfl⟩

end Ring.Alike

namespace Channel

open Machine

variable {config : Config} {action : RecoveryAction} {faults : FaultSet} {c c' : Channel β}
  {m m' : Machine β}

/-! ### Before the rings are renewed -/

/-- Halting a running channel disables its rings. -/
theorem ring_stop (c : Channel β) (m : Machine β) (d : Direction) : (c.stop m).2.1.ring d =
    (c.ring d).setEnabled ((c.ring d).enabled && !c.running) := by
  unfold stop
  split
  next hrun => rw [ring_setRunning, hrun, Bool.not_true, Bool.and_false]
  next hrun =>
    rw [Bool.not_eq_true] at hrun
    rw [hrun, Bool.not_false, Bool.and_true]
    rfl

theorem samePlace_stop (c : Channel β) (m : Machine β) : SamePlace c (c.stop m).2.1 :=
  (run_stop Config.standard c m).samePlace

theorem mapper_stop (c : Channel β) (m : Machine β) : (c.stop m).2.2.mapper = m.mapper := by
  unfold stop
  split <;> rfl

/-- What is unmapped depends on the buffers in flight only. -/
theorem unmappings_congr (hid : c'.id = c.id)
    (hslots : ∀ d, (c'.ring d).slots = (c.ring d).slots) : c'.unmappings = c.unmappings := by
  have htx : c'.tx.slots = c.tx.slots := hslots .toDevice
  have hrx : c'.rx.slots = c.rx.slots := hslots .fromDevice
  rw [unmappings, hid, htx, hrx]
  rfl

/-- What holds of a channel when a recovery attempt comes to its rings. -/
structure Readied (action : RecoveryAction) (config : Config) (c : Channel β) (m : Machine β)
    (c' : Channel β) (m' : Machine β) : Prop where
  running_eq : c'.running = false
  place : SamePlace c c'
  ring_eq : ∀ d, c'.ring d = (c.ring d).setEnabled ((c.ring d).enabled && !c.running)
  mapper_eq : m'.mapper = m.mapper
  course : m.Course c.registers config.channelResetUs action.pulses [] m'
  /-- Last of all, every fault is cleared. -/
  cleared : ∃ before, m'.effects =
    before ++ [.write (c.registers.offset .errorStatus) FaultSet.all.bits]

theorem readied_readied (hact : action ≠ .none) (c : Channel β) (faults : FaultSet)
    (config : Config) (m : Machine β) : Readied action config c m
      (c.readied action faults config m).1 (c.readied action faults config m).2 := by
  unfold readied
  dsimp only
  generalize s!"ch{c.id}: recovery {action.name} for {hex faults.bits.toNat}" = text
  have hlog : m.Course c.registers config.channelResetUs 0 [] (m.log .debug text) :=
    .log _ _ m .debug text
  have hstop := hlog.still (course_stop config.channelResetUs c (m.log .debug text))
  have hplace := samePlace_stop c (m.log .debug text)
  have hmapper := mapper_stop c (m.log .debug text)
  have hrings := ring_stop c (m.log .debug text)
  have hhalted := running_stop c (m.log .debug text)
  generalize c.stop (m.log .debug text) = stopped at *
  obtain ⟨ran, c₁, m₁⟩ := stopped
  dsimp only at *
  have hclear (n : Machine β) := course_clearErrors config.channelResetUs c₁ .all n
  have hpulse := course_pulseReset config.channelResetUs c₁ m₁
  rw [hplace.registers_eq] at hclear hpulse
  refine ⟨hhalted, hplace, hrings, ?_, ?_, ?_⟩
  · split <;> exact hmapper
  · cases action with
    | none => exact absurd rfl hact
    | restart => exact hstop.still (hclear m₁)
    | reset | reinit | reload => exact (hstop.trans hpulse).still (hclear _)
  · rw [← hplace.registers_eq]
    exact ⟨_, effects_write _ _ _⟩

/-- What is done aside afterwards leaves the clearing as the last write. -/
theorem Readied.cleared_then {moved : List (Event β)} {n : Machine β}
    (h : Readied action config c m c' m') (haside : m'.Aside moved n) :
    ∃ before after, n.effects =
        before ++ .write (c.registers.offset .errorStatus) FaultSet.all.bits :: after ∧
      ∀ e ∈ after, e.isAside = true := by
  obtain ⟨before, hcleared⟩ := h.cleared
  obtain ⟨new, hnew, haside, -⟩ := haside
  exact ⟨before, new, by rw [hnew, hcleared, List.append_assoc]; rfl, haside⟩

/-! ### Renewing the rings -/

/-- What becomes of the rings of a channel: they are kept, emptied or replaced as the action and the
faults ask for. Buffers in flight are unmapped once, unless the rings are kept. -/
structure Renewed (action : RecoveryAction) (faults : FaultSet) (config : Config) (pulses : Nat)
    (c : Channel β) (m : Machine β) (c' : Channel β) (m' : Machine β) : Prop where
  kept : action = .restart ∨ action = .reset ∧ .descriptor ∉ faults ∧ .ringFull ∉ faults →
    (∀ d, (c.ring d).Alike (c'.ring d)) ∧
      m.Course c.registers config.channelResetUs pulses [] m'
  emptied : action = .reinit ∨ action = .reset ∧ (.descriptor ∈ faults ∨ .ringFull ∈ faults) →
    (∀ d, Ring.Alike { c.ring d with
      cells := .replicate (c.ring d).capacity .empty, head := 0, tail := 0 } (c'.ring d)) ∧
      m.Course c.registers config.channelResetUs pulses c.unmappings m'
  replaced : action = .reload →
    (∀ d, ∃ base, Ring.Alike { Ring.blank config d with base := base } (c'.ring d)) ∧
      m.Course c.registers config.channelResetUs pulses c.unmappings m'

/-- A ring that was made is the blank one of its direction, where the device finds it. -/
theorem blank_of_buildRings {id : Nat} {tx rx : Ring β}
    (h : buildRings id config m = (.ok (tx, rx), m')) :
    tx = { Ring.blank config .toDevice with base := tx.base } ∧
      rx = { Ring.blank config .fromDevice with base := rx.base } := by
  have hplaced {r b : Ring β} (hr : r.unplaced = b) : r = { b with base := r.base } := by
    rw [← hr]
    rfl
  unfold buildRings at h
  split at h
  · cases h
  next newTx n htx =>
    split at h
    · cases h
    next newRx p hrx =>
      obtain ⟨rfl, rfl⟩ := Prod.mk.inj (Except.ok.inj (Prod.mk.inj h).1)
      have hblankTx : newTx.unplaced = Ring.blank config .toDevice := unplaced_of_buildRing htx
      have hblankRx : newRx.unplaced = Ring.blank config .fromDevice := unplaced_of_buildRing hrx
      exact ⟨hplaced hblankTx, hplaced hblankRx⟩

/-- Rings that were emptied are told to the device. -/
theorem emptied_resetRings (us : Nat) (c : Channel β) (m : Machine β) :
    (∀ d, Ring.Alike { c.ring d with
      cells := .replicate (c.ring d).capacity .empty, head := 0, tail := 0 }
        ((c.resetRings m).2.1.ring d)) ∧
      m.Course c.registers us 0 c.unmappings
        ((c.resetRings m).2.1.program (c.resetRings m).2.2) := by
  have hprogram := course_program us (c.resetRings m).2.1 (c.resetRings m).2.2
  have hplace : (c.resetRings m).2.1.registers = c.registers := rfl
  rw [hplace] at hprogram
  refine ⟨fun d => ?_, ((aside_resetRings c m).course c.registers us).still hprogram⟩
  cases d <;> exact ⟨_, rfl⟩

theorem renewed_of_reloadRings {k : Nat} (h : c.reloadRings config m = (.ok k, c', m')) :
    Renewed .reload faults config 0 c m c' (c'.program m') := by
  have hreload := (aside_of_reloadRings_ok h).course c.registers config.channelResetUs
  have hprogram := course_program config.channelResetUs c' m'
  obtain ⟨tx, rx, n, hbuild, rfl, -⟩ := of_reloadRings_ok h
  obtain ⟨htx, hrx⟩ := blank_of_buildRings hbuild
  refine ⟨by simp, by simp, fun _ => ⟨fun d => ?_, hreload.still hprogram⟩⟩
  cases d with
  | toDevice => exact ⟨tx.base, c.tx.enabled, congrArg (·.setEnabled c.tx.enabled) htx⟩
  | fromDevice => exact ⟨rx.base, c.rx.enabled, congrArg (·.setEnabled c.rx.enabled) hrx⟩

/-- Rings that were renewed are as the action and the faults ask for. -/
theorem renewed_of_renewRings (hact : action ≠ .none)
    (h : c.renewRings action faults config m = (.ok (), c', m')) :
    Renewed action faults config 0 c m c' m' ∧
      ∃ n moved, m.Aside moved n ∧
        m'.effects = n.effects ++ if action = .restart then [] else c'.programming := by
  cases action with
  | none => exact absurd rfl hact
  | restart =>
    obtain ⟨-, h⟩ := Prod.mk.inj h
    obtain ⟨rfl, rfl⟩ := Prod.mk.inj h
    exact ⟨⟨fun _ => ⟨fun d => .refl _, .refl _ _ m⟩, by simp, by simp⟩, m, [], .refl m, by simp⟩
  | reinit =>
    obtain ⟨-, h⟩ := Prod.mk.inj h
    obtain ⟨rfl, rfl⟩ := Prod.mk.inj h
    exact ⟨⟨by simp, fun _ => emptied_resetRings _ c m, by simp⟩, _, _, aside_resetRings c m,
      effects_program _ _⟩
  | reset =>
    have hmeets := faults.meets_ringCorrupting_iff
    simp only [renewRings] at h
    split at h
    next hcorrupt =>
      obtain ⟨-, h⟩ := Prod.mk.inj h
      obtain ⟨rfl, rfl⟩ := Prod.mk.inj h
      refine ⟨⟨?_, fun _ => emptied_resetRings _ c m, by simp⟩, _, _, aside_resetRings c m,
        effects_program _ _⟩
      rintro (hno | ⟨-, hd, hf⟩)
      · cases hno
      · exact absurd (hmeets.mp hcorrupt) (not_or.mpr ⟨hd, hf⟩)
    next hsound =>
      obtain ⟨-, h⟩ := Prod.mk.inj h
      obtain ⟨rfl, rfl⟩ := Prod.mk.inj h
      refine ⟨⟨fun _ => ⟨fun d => .refl _, course_program _ c m⟩, ?_, by simp⟩, m, [], .refl m,
        effects_program _ _⟩
      rintro (hno | ⟨-, hcorrupt⟩)
      · cases hno
      · exact absurd (hmeets.mpr hcorrupt) hsound
  | reload =>
    simp only [renewRings] at h
    split at h
    · cases h
    next hreload =>
      obtain ⟨-, h⟩ := Prod.mk.inj h
      obtain ⟨rfl, rfl⟩ := Prod.mk.inj h
      exact ⟨renewed_of_reloadRings hreload, _, _, aside_of_reloadRings_ok hreload,
        effects_program _ _⟩

/-- Only new rings can be missing. -/
theorem renewRings_error_iff (c : Channel β) (action : RecoveryAction) (faults : FaultSet)
    (config : Config) (m : Machine β) :
    (∃ x, (c.renewRings action faults config m).1 = .error x) ↔
      action = .reload ∧ ∃ x, (buildRings c.id config m).1 = .error x := by
  cases action with
  | none | restart | reinit => simp [renewRings]
  | reset =>
    simp only [renewRings]
    split <;> simp
  | reload =>
    simp only [renewRings, reloadRings]
    generalize buildRings c.id config m = result
    obtain ⟨x | rings, n⟩ := result <;> simp

/-- Without new rings nothing is renewed. -/
theorem of_renewRings_error {x : Error}
    (h : c.renewRings action faults config m = (.error x, c', m')) :
    c' = c ∧ m' = (buildRings c.id config m).2 := by
  obtain ⟨rfl, -⟩ := (c.renewRings_error_iff action faults config m).mp ⟨x, congrArg (·.1) h⟩
  simp only [renewRings, reloadRings] at h
  generalize buildRings c.id config m = result at h ⊢
  obtain ⟨y | rings, n⟩ := result
  · obtain ⟨-, h⟩ := Prod.mk.inj h
    obtain ⟨rfl, rfl⟩ := Prod.mk.inj h
    exact ⟨rfl, rfl⟩
  · cases (Prod.mk.inj h).1

/-- New rings cannot be made exactly if their sizes do not allow it or the world does not grant
what they take. -/
theorem buildRings_error_iff (id : Nat) :
    (∃ x, (buildRings id config m).1 = .error x) ↔
      ¬ (config.RingsFit ∧ m.mapper.Serves 2 2) := by
  have hnothing (n : Machine β) : n.mapper.Serves 0 0 := ⟨by simp [FaultPlan.Spares],
    by simp [FaultPlan.Spares]⟩
  have hprovided : Provided (buildRings id config m) 0 0 ↔
      config.RingsFit ∧ m.mapper.Serves 2 2 := provided_buildRings id
  rw [← hprovided]
  generalize buildRings id config m = result
  obtain ⟨x | rings, n⟩ := result
  · exact iff_of_true ⟨x, rfl⟩ not_provided_error
  · refine iff_of_false ?_ (not_not.mpr ⟨⟨rings, rfl⟩, hnothing n⟩)
    rintro ⟨x, hx⟩
    cases hx

theorem mapped_buildRing (config : Config) (capacity : Nat) (m : Machine β) :
    (buildRing config capacity m).2.mapper.mapped = m.mapper.mapped := by
  have hreserve {made result : Except Error (Ring β)} {n : Machine β}
      (h : m.reserve made = (result, n)) : n.mapper.mapped = m.mapper.mapped := by
    rw [← (Prod.mk.inj h).2]
    exact mapped_reserve made m
  unfold buildRing
  dsimp only
  split
  next he => exact hreserve he
  next new n he =>
    have hmap := (mapped_mapArray n (new.capacity * Descriptor.bytes)).trans (hreserve he)
    split
    next hm => simpa only [hm] using hmap
    next hm => simpa only [hm] using hmap

/-- Making rings, or failing to, leaves the mapped buffers as they are. -/
theorem mapped_buildRings (id : Nat) (config : Config) (m : Machine β) :
    (buildRings id config m).2.mapper.mapped = m.mapper.mapped := by
  have htx := mapped_buildRing config config.txRingSize m
  unfold buildRings
  split
  next he => simpa only [he] using htx
  next tx n he =>
    rw [he] at htx
    have hrx := (mapped_buildRing config config.rxRingSize n).trans htx
    have hnew : IsNewRing config tx := isNewRing_of_buildRing (by rw [he])
    split
    next p he' =>
      rw [he'] at hrx
      rw [releaseRing, resetRing, hnew.slots_eq, discardSlots, List.foldl_nil]
      dsimp only
      split <;> exact hrx
    next he' => simpa only [he'] using hrx

/-! ### The whole attempt -/

/-- How a recovery attempt ends with the channel running. -/
structure Recovered (action : RecoveryAction) (faults : FaultSet) (config : Config) (c : Channel β)
    (m : Machine β) (clean : Bool) (c' : Channel β) (m' : Machine β) : Prop where
  place : SamePlace c c'
  running_eq : c'.running = true
  enabled_eq : ∀ d, (c'.ring d).enabled = true
  renewed : Renewed action faults config action.pulses c m c' m'
  /-- Every fault is cleared. Before anything else is written, the device is told of rings that it
  may not know. Both rings are run, and then the error status is read. The attempt is clean if it
  shows no known category. -/
  ends : ∃ before between shown text word, m'.effects =
      before ++ .write (c.registers.offset .errorStatus) FaultSet.all.bits :: between ++
      (if action = .restart then [] else c'.programming) ++
      [.read (c.registers.offset .ringControl) shown,
        .write (c.registers.offset .ringControl) (shown ||| RingControl.enableBoth),
        .log .trace text, .read (c.registers.offset .errorStatus) word] ∧
    (∀ e ∈ between, e.isAside = true) ∧
    (clean = true ↔ ∀ f : Fault, f ∉ FaultSet.ofRegister word)

/-- How a recovery attempt ends without the new rings that were asked for. -/
structure Abandoned (config : Config) (c : Channel β) (m : Machine β) (c' : Channel β)
    (m' : Machine β) : Prop where
  place : SamePlace c c'
  running_eq : c'.running = false
  ring_eq : ∀ d, c'.ring d = (c.ring d).setEnabled ((c.ring d).enabled && !c.running)
  course : m.Course c.registers config.channelResetUs 1 [] m'
  mapped_eq : m'.mapper.mapped = m.mapper.mapped
  /-- Every fault is cleared, and nothing is written after that. -/
  ends : ∃ before after, m'.effects =
      before ++ .write (c.registers.offset .errorStatus) FaultSet.all.bits :: after ∧
    ∀ e ∈ after, e.isAside = true

/-- A halted channel that has rings is started. -/
theorem start_of_halted (hbuilt : c.initialized = true) (hhalted : c.running = false)
    (m : Machine β) : c.start m = (.ok (), c.setRunning true,
      (c.registers.enableRings m).log .trace s!"ch{c.id}: started") := by
  rw [start, if_neg (by simp [hbuilt]), if_neg (by simp [hhalted])]

/-- How a renewal goes on if it was prepared by a course without buffers. -/
theorem Renewed.of_readied {c₁ : Channel β} {m₁ : Machine β}
    (h : Renewed action faults config 0 c₁ m₁ c' m') (hready : Readied action config c m c₁ m₁) :
    Renewed action faults config action.pulses c m c' m' := by
  have halike (d : Direction) : (c.ring d).Alike (c₁.ring d) := ⟨_, hready.ring_eq d⟩
  have hslots (d : Direction) : (c₁.ring d).slots = (c.ring d).slots := by
    rw [hready.ring_eq d]
    rfl
  have hunmappings := unmappings_congr hready.place.id_eq hslots
  have hcourse {moved : List (Event β)}
      (hmoved : m₁.Course c₁.registers config.channelResetUs 0 moved m') :
      m.Course c.registers config.channelResetUs action.pulses moved m' := by
    rw [hready.place.registers_eq] at hmoved
    simpa only [Nat.add_zero, List.nil_append] using hready.course.trans hmoved
  constructor
  · intro hkept
    obtain ⟨hrings, hmoved⟩ := h.kept hkept
    exact ⟨fun d => (halike d).trans (hrings d), hcourse hmoved⟩
  · intro hemptied
    obtain ⟨hrings, hmoved⟩ := h.emptied hemptied
    rw [hunmappings] at hmoved
    exact ⟨fun d => (halike d).rewind.trans (hrings d), hcourse hmoved⟩
  · intro hreplaced
    obtain ⟨hrings, hmoved⟩ := h.replaced hreplaced
    rw [hunmappings] at hmoved
    exact ⟨hrings, hcourse hmoved⟩

/-- What comes after a renewal touches neither the places of the rings nor any buffer. -/
theorem Renewed.still {k : Nat} {d : Channel β} {n : Machine β}
    (h : Renewed action faults config k c m c' m')
    (halike : ∀ direction, (c'.ring direction).Alike (d.ring direction))
    (hcourse : m'.Course c.registers config.channelResetUs 0 [] n) :
    Renewed action faults config k c m d n := by
  constructor
  · intro hkept
    obtain ⟨hrings, hmoved⟩ := h.kept hkept
    exact ⟨fun direction => (hrings direction).trans (halike direction), hmoved.still hcourse⟩
  · intro hemptied
    obtain ⟨hrings, hmoved⟩ := h.emptied hemptied
    exact ⟨fun direction => (hrings direction).trans (halike direction), hmoved.still hcourse⟩
  · intro hreplaced
    obtain ⟨hrings, hmoved⟩ := h.replaced hreplaced
    refine ⟨fun direction => ?_, hmoved.still hcourse⟩
    obtain ⟨base, hring⟩ := hrings direction
    exact ⟨base, hring.trans (halike direction)⟩

/-- The effects of running both rings and looking at the error status. -/
theorem effects_enableRings_errorStatus (r : ChannelRegisters) (text : String) (m : Machine β) :
    (r.read .errorStatus ((r.enableRings m).log .trace text)).2.effects = m.effects ++
      [.read (r.offset .ringControl) (m.read (r.offset .ringControl)).1,
        .write (r.offset .ringControl)
          ((m.read (r.offset .ringControl)).1 ||| RingControl.enableBoth),
        .log .trace text,
        .read (r.offset .errorStatus)
          (r.read .errorStatus ((r.enableRings m).log .trace text)).1] := by
  rw [ChannelRegisters.read, effects_read, log, effects_emit, effects_enableRings,
    List.append_assoc, List.append_assoc]
  rfl

/-- A channel whose rings were renewed runs again. -/
theorem recovered_of_renewed {c₁ : Channel β} {m₁ m₂ : Machine β} {text : String}
    (hplace : SamePlace c c₁)
    (hrenewed : Renewed action faults config action.pulses c m c₁ m₁)
    (htold : ∃ before between, m₁.effects =
        before ++ .write (c.registers.offset .errorStatus) FaultSet.all.bits :: between ++
          (if action = .restart then [] else c₁.programming) ∧
      ∀ e ∈ between, e.isAside = true)
    (hstart : m₂ = (c₁.registers.enableRings m₁).log .trace text) :
    Recovered action faults config c m ((c₁.setRunning true).errorStatus m₂).1.isEmpty
      (c₁.setRunning true) ((c₁.setRunning true).errorStatus m₂).2 := by
  have hregisters : (c₁.setRunning true).registers = c.registers := hplace.registers_eq
  have halike (d : Direction) : (c₁.ring d).Alike ((c₁.setRunning true).ring d) :=
    ⟨true, ring_setRunning c₁ true d⟩
  have hrun := (course_enableRings config.channelResetUs c₁ m₁).still (.log _ _ _ .trace text)
  have hlook := course_errorStatus config.channelResetUs (c₁.setRunning true) m₂
  rw [hplace.registers_eq] at hrun hstart
  rw [hregisters] at hlook
  rw [← hstart] at hrun
  refine ⟨⟨hplace.id_eq, hplace.registers_eq, hplace.features_eq, hplace.initialized_eq⟩, rfl, ?_,
    hrenewed.still halike (hrun.still hlook), ?_⟩
  · intro d
    rw [ring_setRunning]
    rfl
  · obtain ⟨before, between, htold, haside⟩ := htold
    refine ⟨before, between, (m₁.read (c.registers.offset .ringControl)).1, text,
      (c.registers.read .errorStatus m₂).1, ?_, haside, ?_⟩
    · have hends := effects_enableRings_errorStatus c.registers text m₁
      rw [htold, ← hstart] at hends
      rw [errorStatus, hregisters]
      exact hends
    · rw [errorStatus, hregisters]
      exact FaultSet.isEmpty_ofRegister_iff _

/-- A recovery attempt on a channel that has rings fails exactly if it asks for new rings that
cannot be made. Then the channel is halted, and its rings and the mapped buffers are as they were.
Otherwise the channel runs, with both rings enabled, which were kept, emptied or replaced as the
action and the faults ask for. Every attempt clears every fault before the rings run again, and
every one but a restart pulses the local reset once. The answer tells whether the error status shows
no known category in the end. -/
theorem recovery_sequence (hbuilt : c.initialized = true) (hact : action ≠ .none)
    {result : Except Error Bool} (h : c.recover action faults config m = (result, c', m')) :
    ((∃ x, result = .error x) ↔
        action = .reload ∧ ¬ (config.RingsFit ∧ m.mapper.Serves 2 2)) ∧
      (∀ clean, result = .ok clean → Recovered action faults config c m clean c' m') ∧
      ∀ x, result = .error x → Abandoned config c m c' m' := by
  have hready := readied_readied hact c faults config m
  unfold recover at h
  rw [if_neg hact] at h
  generalize c.readied action faults config m = readied at h hready
  obtain ⟨c₁, m₁⟩ := readied
  dsimp only at h hready
  have hfails := c₁.renewRings_error_iff action faults config m₁
  rw [buildRings_error_iff, hready.mapper_eq] at hfails
  split at h
  next x c₂ m₂ hrenew =>
    obtain ⟨hresult, hends⟩ := Prod.mk.inj h
    obtain ⟨rfl, rfl⟩ := Prod.mk.inj hends
    rw [hrenew] at hfails
    obtain ⟨rfl, hmissing⟩ := hfails.mp ⟨x, rfl⟩
    refine ⟨iff_of_true ⟨x, hresult.symm⟩ ⟨rfl, hmissing⟩, fun _ hok => ?_, fun _ _ => ?_⟩
    · cases hresult.trans hok
    · obtain ⟨rfl, rfl⟩ := of_renewRings_error hrenew
      have hmapped := mapped_buildRings c₂.id config m₁
      rw [hready.mapper_eq] at hmapped
      exact ⟨hready.place, hready.running_eq, hready.ring_eq,
        hready.course.still ((aside_buildRings _ _ _).course _ _), hmapped,
        hready.cleared_then (aside_buildRings c₂.id config m₁)⟩
  next c₂ m₂ hrenew =>
    obtain ⟨hrenewed, n, moved, haside, htold⟩ := renewed_of_renewRings hact hrenew
    obtain ⟨before, between, hbetween, hasides⟩ := hready.cleared_then haside
    rw [hbetween] at htold
    obtain ⟨hrun, hhalted⟩ := run_renewRings action faults hready.running_eq hrenew
    have hplace := hready.place.trans hrun.samePlace
    rw [start_of_halted (hplace.initialized_eq.trans hbuilt) hhalted] at h
    obtain ⟨hresult, hends⟩ := Prod.mk.inj h
    obtain ⟨rfl, rfl⟩ := Prod.mk.inj hends
    rw [hrenew] at hfails
    refine ⟨iff_of_false ?_ fun hno => ?_, ?_, ?_⟩
    · rintro ⟨x, hx⟩
      cases hresult.trans hx
    · obtain ⟨x, hx⟩ := hfails.mpr hno
      cases hx
    · rintro clean hclean
      obtain rfl := Except.ok.inj (hresult.trans hclean)
      exact recovered_of_renewed hplace (hrenewed.of_readied hready)
        ⟨before, between, htold, hasides⟩ rfl
    · intro x hx
      cases hresult.trans hx

/-- A running channel with a buffer in flight. -/
def busy : Channel Nat :=
  ((blank .bench 0 0).setRing .toDevice
    ((Ring.blank .bench .toDevice).post 7 ⟨0x10000⟩ 64)).setRunning true

/-- A machine that maps one more array of descriptors. -/
def sparseMachine : Machine Nat :=
  { Machine.bench with mapper := { Machine.bench.mapper with arrayPlan := .window 1 1 } }

/-- A full ring is reset and the channel runs again. New rings that cannot be mapped leave it
halted. -/
theorem recovery_sequence_trip : ∃ c₁ m₁ x c₂ m₂,
    busy.recover .reset (.single .ringFull) .bench .bench = (.ok true, c₁, m₁) ∧
      Recovered .reset (.single .ringFull) .bench busy .bench true c₁ m₁ ∧
      busy.recover .reload .all .bench sparseMachine = (.error x, c₂, m₂) ∧
      Abandoned .bench busy sparseMachine c₂ m₂ := by
  have hreset : (busy.recover .reset (.single .ringFull) .bench .bench).1 = .ok true := by
    decide +kernel
  have hreload : (busy.recover .reload .all .bench sparseMachine).1 =
      .error (.dma .mappingFailed) := by decide +kernel
  generalize h₁ : busy.recover .reset (.single .ringFull) .bench .bench = r₁ at hreset
  generalize h₂ : busy.recover .reload .all .bench sparseMachine = r₂ at hreload
  obtain ⟨result₁, c₁, m₁⟩ := r₁
  obtain ⟨result₂, c₂, m₂⟩ := r₂
  obtain ⟨-, hok, -⟩ := recovery_sequence rfl (by decide) h₁
  obtain ⟨-, -, herror⟩ := recovery_sequence rfl (by decide) h₂
  obtain rfl : result₁ = .ok true := hreset
  obtain rfl : result₂ = .error (.dma .mappingFailed) := hreload
  exact ⟨c₁, m₁, _, c₂, m₂, rfl, hok true rfl, rfl, herror _ rfl⟩

end Channel

end PacketDma
