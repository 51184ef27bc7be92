import PacketDma.Proofs.RingShape

/-!
# The length in a control word

A length is cut to the bits of a mask and shifted into its place in the control word. Bits outside
the mask, and bits that the shift moves out of the word, do not come through. What is left is read
back unharmed, since no flag stands in the length field.
-/

namespace PacketDma

theorem and_or_distrib_left (a b c : UInt32) : a &&& (b ||| c) = (a &&& b) ||| (a &&& c) :=
  UInt32.toBitVec_inj.mp (by simp [BitVec.and_or_distrib_left])

/-- A word loses nothing to bits that it does not have. -/
theorem and_not_of_and_eq_zero {a b : UInt32} (h : a &&& b = 0) : a &&& ~~~b = a :=
  calc a &&& ~~~b
    _ = (a &&& ~~~b) ||| (a &&& b) := by rw [h, UInt32.or_zero]
    _ = a &&& (~~~b ||| b) := (and_or_distrib_left a _ b).symm
    _ = a := by rw [UInt32.not_or_self, UInt32.and_neg_one]

namespace DescriptorLayout

variable {l : DescriptorLayout} {length : Nat}

/-- The bits of a length that come through the control word. -/
def carriedBits (l : DescriptorLayout) : UInt32 := l.lengthField >>> l.lenShift

/-- Whether a length comes through the control word unchanged. -/
def carries (l : DescriptorLayout) (length : Nat) : Bool :=
  length &&& l.carriedBits.toNat == length

/-- The flags of a buffer that is a whole packet and belongs to the device. -/
def armedFlags (l : DescriptorLayout) : UInt32 := l.packetFlags ||| l.own

/-! ### Flags outside the length field -/

theorem disjoint_of_flagsDisjoint {seen : UInt32} {flags : List UInt32}
    (h : flagsDisjoint seen flags = true) : ∀ flag ∈ flags, seen &&& flag = 0 := by
  induction flags generalizing seen with
  | nil => simp
  | cons first rest ih =>
    simp only [flagsDisjoint, Bool.and_eq_true, beq_iff_eq] at h
    obtain ⟨⟨_, hfirst⟩, hrest⟩ := h
    intro flag hflag
    rcases List.mem_cons.mp hflag with rfl | hflag
    · exact hfirst
    · have hboth := ih hrest flag hflag
      rw [UInt32.and_comm, and_or_distrib_left, UInt32.or_eq_zero_iff] at hboth
      exact (UInt32.and_comm _ _).trans hboth.1

theorem lengthField_and_armedFlags (h : l.isConsistent = true) :
    l.lengthField &&& l.armedFlags = 0 := by
  simp only [isConsistent, Bool.and_eq_true] at h
  have hflags := disjoint_of_flagsDisjoint h.1.1
  have hown := hflags l.own (by simp)
  have hsop := hflags l.sop (by simp)
  have heop := hflags l.eop (by simp)
  have hirq := hflags l.irq (by simp)
  simp only [armedFlags, packetFlags, and_or_distrib_left, hown, hsop, heop, hirq, UInt32.or_self]

theorem encodeLength_and_lengthField (l : DescriptorLayout) (length : Nat) :
    l.encodeLength length &&& l.lengthField = l.encodeLength length := by
  rw [encodeLength, UInt32.shiftLeft_and, lengthField, UInt32.and_assoc, UInt32.and_self]

theorem control_armed (l : DescriptorLayout) (addr : BusAddress) (length : Nat) :
    (Descriptor.armed l addr length).control = l.armedFlags ||| l.encodeLength length := by
  rw [Descriptor.armed, armedFlags, UInt32.or_assoc, UInt32.or_comm (l.encodeLength length),
    UInt32.or_assoc]

/-- Outside the length field an armed control word holds the flags, all of them and nothing else. -/
theorem control_and_not_lengthField (h : l.isConsistent = true) (addr : BusAddress)
    (length : Nat) :
    (Descriptor.armed l addr length).control &&& ~~~l.lengthField = l.armedFlags := by
  have hlength : ~~~l.lengthField &&& l.encodeLength length = 0 := by
    rw [← encodeLength_and_lengthField, UInt32.and_comm, UInt32.and_assoc, UInt32.and_not_self,
      UInt32.and_zero]
  have hflags : ~~~l.lengthField &&& l.armedFlags = l.armedFlags := by
    rw [UInt32.and_comm]
    exact and_not_of_and_eq_zero ((UInt32.and_comm _ _).trans (lengthField_and_armedFlags h))
  calc
    (Descriptor.armed l addr length).control &&& ~~~l.lengthField
      = ~~~l.lengthField &&& (l.armedFlags ||| l.encodeLength length) := by
        rw [UInt32.and_comm, control_armed]
    _ = l.armedFlags := by rw [and_or_distrib_left, hlength, hflags, UInt32.or_zero]

/-! ### Bits of the length field -/

section Bits

variable (hshift : l.lenShift.toNat < 32)
include hshift

theorem testBit_shiftRight (x : UInt32) (i : Nat) :
    (x >>> l.lenShift).toNat.testBit i = x.toNat.testBit (l.lenShift.toNat + i) := by
  rw [UInt32.toNat_shiftRight, Nat.mod_eq_of_lt hshift, Nat.testBit_shiftRight]

theorem testBit_shiftLeft (x : UInt32) (i : Nat) :
    (x <<< l.lenShift).toNat.testBit (l.lenShift.toNat + i) =
      (decide (l.lenShift.toNat + i < 32) && x.toNat.testBit i) := by
  rw [UInt32.toNat_shiftLeft, Nat.mod_eq_of_lt hshift, Nat.testBit_mod_two_pow,
    Nat.testBit_shiftLeft, Nat.add_sub_cancel_left]
  simp

theorem testBit_carriedBits (i : Nat) :
    l.carriedBits.toNat.testBit i =
      (decide (l.lenShift.toNat + i < 32) && l.lenMask.toNat.testBit i) := by
  rw [carriedBits, testBit_shiftRight hshift, lengthField, testBit_shiftLeft hshift]

/-- A bit outside the length field is not read as a bit of the length. -/
theorem testBit_of_outside {flags : UInt32} (h : l.lengthField &&& flags = 0) {i : Nat}
    (hi : l.lenMask.toNat.testBit i = true) :
    flags.toNat.testBit (l.lenShift.toNat + i) = false := by
  by_cases hword : l.lenShift.toNat + i < 32
  · have hfield : l.lengthField.toNat.testBit (l.lenShift.toNat + i) = true := by
      rw [lengthField, testBit_shiftLeft hshift, hi, decide_eq_true hword]
      rfl
    have hnone := congrArg (fun w : UInt32 => w.toNat.testBit (l.lenShift.toNat + i)) h
    simpa only [UInt32.toNat_and, Nat.testBit_and, hfield, Bool.true_and, UInt32.toNat_zero,
      Nat.zero_testBit] using hnone
  · apply Nat.testBit_lt_two_pow
    calc
      flags.toNat < 2 ^ 32 := UInt32.toNat_lt _
      _ ≤ 2 ^ (l.lenShift.toNat + i) := Nat.pow_le_pow_right (by decide) (by omega)

theorem testBit_encodeLength (length i : Nat) :
    (l.encodeLength length).toNat.testBit (l.lenShift.toNat + i) =
      (decide (l.lenShift.toNat + i < 32) && (length.testBit i && l.lenMask.toNat.testBit i)) := by
  rw [encodeLength, testBit_shiftLeft hshift, UInt32.toNat_and, Nat.testBit_and,
    UInt32.toNat_ofNat', Nat.testBit_mod_two_pow]
  by_cases hword : l.lenShift.toNat + i < 32
  · rw [decide_eq_true (show i < 32 by omega), Bool.true_and]
  · rw [decide_eq_false hword, Bool.false_and, Bool.false_and]

/-- A length in its place beside flags outside the length field is read back cut to the bits that
come through. -/
theorem decodeLength_or_encodeLength {flags : UInt32} (h : l.lengthField &&& flags = 0)
    (length : Nat) :
    l.decodeLength (flags ||| l.encodeLength length) = length &&& l.carriedBits.toNat := by
  apply Nat.eq_of_testBit_eq
  intro i
  rw [decodeLength, UInt32.toNat_and, Nat.testBit_and, testBit_shiftRight hshift, UInt32.toNat_or,
    Nat.testBit_or, testBit_encodeLength hshift, Nat.testBit_and, testBit_carriedBits hshift]
  cases hmask : l.lenMask.toNat.testBit i with
  | false => simp
  | true =>
    rw [testBit_of_outside hshift h hmask]
    simp [Bool.and_comm]

/-- The length read from an armed control word is the length posted, cut to the bits that come
through. -/
theorem length_armed (h : l.isConsistent = true) (length : Nat) (addr : BusAddress) :
    (Descriptor.armed l addr length).length l = length &&& l.carriedBits.toNat := by
  rw [Descriptor.length, control_armed]
  exact decodeLength_or_encodeLength hshift (lengthField_and_armedFlags h) length

theorem length_armed_eq_iff (h : l.isConsistent = true) (length : Nat) (addr : BusAddress) :
    (Descriptor.armed l addr length).length l = length ↔ l.carries length = true := by
  rw [length_armed hshift h, carries, beq_iff_eq]

end Bits

end DescriptorLayout

variable {σ β : Type}

/-! ### Accepted lengths -/

namespace Ring

variable {r : Ring β} {length : Nat}

theorem length_le_of_refusal?_none (h : r.refusal? length = none) :
    length ≤ r.layout.maxLength := by
  unfold refusal? at h
  split at h
  · simp at h
  split at h
  · simp at h
  split at h
  · simp at h
  next hlength => omega

/-- The place that a buffer is posted at holds an armed descriptor. -/
theorem descriptor_post {q : List (Slot β)} (h : r.Carries q) (buffer : β) (addr : BusAddress)
    (length : Nat) :
    ((r.post buffer addr length).cell r.head).descriptor = .armed r.layout addr length := by
  have hcell : (r.post buffer addr length).cell r.head =
      (r.setCell r.head ⟨.armed r.layout addr length, some ⟨buffer, addr, length⟩⟩).cell r.head :=
    rfl
  rw [hcell, cell_setCell, if_pos ⟨rfl, h.head_lt⟩]

end Ring

theorem Config.isConsistent_of_validate {config : Config} (h : config.validate = .ok ()) :
    config.capabilities.layout.isConsistent = true := by
  unfold validate at h
  split at h
  · cases h
  next hfamily =>
    simp only [familyValid, Bool.not_eq_true', Bool.not_eq_false, Bool.and_eq_true] at hfamily
    exact hfamily.1.2

namespace Engine

open DescriptorLayout

section Accepted

variable {config : Config} {m : Machine β} {moments : List (Moment σ β)} {seen : Story β}
  {e e' : Engine β} {id : Nat} {direction : Direction} {buffer : β} {length : Nat}

/-- In every history, a buffer that is accepted leaves an armed descriptor where the ring was filled
up to, and is no longer than the mask. -/
theorem armed_of_enqueue_ok (hlive : live moments (new config m) = some (seen, e))
    (hposted : e.enqueue id direction buffer length = (.ok (), e')) :
    ∃ c c' addr, e.channels[id]? = some c ∧ e'.channels[id]? = some c' ∧
      ((c'.ring direction).cell (c.ring direction).head).descriptor =
        .armed config.capabilities.layout addr length ∧
      length ≤ config.capabilities.layout.maxLength := by
  have hshaped := shaped_of_live hlive
  obtain ⟨c, c', m', f, hc, hchannel, rfl⟩ := of_enqueue_ok hposted
  obtain ⟨addr, n, hroom, _, rfl, _⟩ := Channel.of_enqueue_ok hchannel
  have hlayout := (hshaped.rings c (List.mem_of_getElem? hc) direction).layout_eq
  have hlength := Ring.length_le_of_refusal?_none hroom
  have hdescriptor :=
    Ring.descriptor_post (hshaped.sound.rings id c hc direction) buffer addr length
  rw [hlayout] at hlength hdescriptor
  refine ⟨c, _, addr, hc, getElem?_set_of_some hc _, ?_, hlength⟩
  rw [Channel.ring_setRing]
  exact hdescriptor

/-- Whenever a buffer is accepted, all flags of a whole packet are set in its descriptor, and no
other bit outside the length field. The length read from it is the length posted exactly if that
length comes through the control word. -/
theorem armed_length_eq_iff (hvalid : config.validate = .ok ())
    (hshift : config.capabilities.layout.lenShift.toNat < 32)
    (hlive : live moments (new config m) = some (seen, e))
    (hposted : e.enqueue id direction buffer length = (.ok (), e')) :
    ∃ c c' d, e.channels[id]? = some c ∧ e'.channels[id]? = some c' ∧
      d = ((c'.ring direction).cell (c.ring direction).head).descriptor ∧
      d.control &&& ~~~config.capabilities.layout.lengthField =
        config.capabilities.layout.armedFlags ∧
      (d.length config.capabilities.layout = length ↔
        config.capabilities.layout.carries length = true) := by
  have hconsistent := config.isConsistent_of_validate hvalid
  obtain ⟨c, c', addr, hc, hc', hd, -⟩ := armed_of_enqueue_ok hlive hposted
  exact ⟨c, c', _, hc, hc', hd.symm, control_and_not_lengthField hconsistent addr length,
    length_armed_eq_iff hshift hconsistent length addr⟩

end Accepted

/-- A device with the length in the upper bits of the control word, so that four of the bits of a
length are shifted out of it. -/
def upperLengthConfig : Config :=
  { Config.bench with
    capabilities :=
      { Capabilities.standard with
        layout :=
          { DescriptorLayout.standard with
            own := 1
            sop := 2
            eop := 4
            irq := 8
            lenShift := 20 } } }

/-- One channel comes up and runs. -/
def readyTrip : List (Moment Unit Nat) := [.operate (.init 0 1), .operate .start]

theorem accepts_upperLength (length : Nat) (h : length = 4095 ∨ length = 4096) :
    ∃ seen e e', live readyTrip (new upperLengthConfig .bench) = some (seen, e) ∧
      e.enqueue 0 .toDevice 7 length = (.ok (), e') := by
  have hends : (live readyTrip (new upperLengthConfig .bench)).map
      (fun r => (r.2.enqueue 0 .toDevice 7 length).1.isOk) = some true := by
    rcases h with rfl | rfl <;> decide +kernel
  obtain ⟨⟨seen, e⟩, hlive, hok⟩ := Option.map_eq_some_iff.mp hends
  cases hposted : e.enqueue 0 .toDevice 7 length with
  | mk answer e' =>
    cases answer with
    | ok => exact ⟨seen, e, e', hlive, hposted⟩
    | error => simp [hposted, Except.isOk, Except.toBool] at hok

theorem armed_length_eq_iff_trip : ∃ seen e e' c c',
    live readyTrip (new upperLengthConfig .bench) = some (seen, e) ∧
      e.enqueue 0 .toDevice 7 4095 = (.ok (), e') ∧
      e.channels[0]? = some c ∧ e'.channels[0]? = some c' ∧
      ((c'.ring .toDevice).cell (c.ring .toDevice).head).descriptor.length
        upperLengthConfig.capabilities.layout = 4095 := by
  obtain ⟨seen, e, e', hlive, hposted⟩ := accepts_upperLength 4095 (.inl rfl)
  obtain ⟨c, c', d, hc, hc', rfl, _, hlength⟩ :=
    armed_length_eq_iff (show upperLengthConfig.validate = .ok () from rfl) (by decide) hlive
      hposted
  exact ⟨seen, e, e', c, c', hlive, hposted, hc, hc', hlength.mpr (by decide)⟩

/-- A length can be accepted that the device does not see. -/
theorem armed_length_ne : ¬ ∀ (config : Config) (m : Machine Nat) (moments : List (Moment Unit Nat))
    (seen : Story Nat) (e e' : Engine Nat) (id : Nat) (direction : Direction) (buffer length : Nat),
      config.validate = .ok () → config.capabilities.layout.lenShift.toNat < 32 →
        live moments (new config m) = some (seen, e) →
          e.enqueue id direction buffer length = (.ok (), e') →
            ∃ c c', e.channels[id]? = some c ∧ e'.channels[id]? = some c' ∧
              ((c'.ring direction).cell (c.ring direction).head).descriptor.length
                config.capabilities.layout = length := by
  intro h
  obtain ⟨seen, e, e', hlive, hposted⟩ := accepts_upperLength 4096 (.inr rfl)
  obtain ⟨c, c', hc, hc', hlength⟩ := h upperLengthConfig .bench readyTrip seen e e' 0 .toDevice 7
    4096 rfl (by decide) hlive hposted
  obtain ⟨d, d', addr, hd, hd', harmed, -⟩ := armed_of_enqueue_ok hlive hposted
  obtain rfl := Option.some.inj (hc.symm.trans hd)
  obtain rfl := Option.some.inj (hc'.symm.trans hd')
  rw [harmed, length_armed_eq_iff (by decide) (by decide)] at hlength
  exact absurd hlength (by decide)

end Engine

end PacketDma
