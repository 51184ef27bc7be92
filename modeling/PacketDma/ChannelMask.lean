/-!
# Sets of channels

A set of channels is a word with one bit for each channel number below 32. Walking through a
set takes its lowest channel and clears that bit, until no bit is left. So the channels come in
ascending order, each once.
-/

namespace PacketDma

/-- A set of channel numbers below 32. -/
structure ChannelMask where
  /-- Bit `c` tells whether channel `c` is in the set. -/
  bits : UInt32
  deriving DecidableEq, Inhabited

namespace ChannelMask

/-- The word with only the bit of channel `c`. -/
def bit (c : Nat) : UInt32 := 1 <<< UInt32.ofNat c

/-- The set without channels. -/
def empty : ChannelMask := ⟨0⟩

instance : EmptyCollection ChannelMask := ⟨empty⟩
instance : Union ChannelMask := ⟨fun a b => ⟨a.bits ||| b.bits⟩⟩

/-- The set of one channel. -/
def single (c : Nat) : ChannelMask := ⟨bit c⟩

/-- Adds a channel. -/
def insert (m : ChannelMask) (c : Nat) : ChannelMask := ⟨m.bits ||| bit c⟩

/-- Whether a channel is in the set. -/
def contains (m : ChannelMask) (c : Nat) : Bool := m.bits &&& bit c != 0

/-- Whether the set has no channel. -/
def isEmpty (m : ChannelMask) : Bool := m.bits == 0

/-- How many channels the set has. -/
def count (m : ChannelMask) : Nat := m.bits.toBitVec.cpop.toNat

/-- The lowest channel of a set that has one. -/
def lowest (m : ChannelMask) : Nat := m.bits.toBitVec.ctz.toNat

/-- The set without its lowest channel. -/
def dropLowest (m : ChannelMask) : ChannelMask := ⟨m.bits &&& (m.bits - 1)⟩

theorem dropLowest_lt {m : ChannelMask} (h : m.bits ≠ 0) :
    m.dropLowest.bits.toNat < m.bits.toNat := by
  have hpos : 1 ≤ m.bits.toNat := Nat.one_le_iff_ne_zero.mpr fun h0 => h (UInt32.toNat_inj.mp h0)
  have hsub : (m.bits - 1).toNat = m.bits.toNat - 1 :=
    UInt32.toNat_sub_of_le _ _ (UInt32.le_iff_toNat_le.mpr hpos)
  simp only [dropLowest, UInt32.toNat_and, hsub]
  have := Nat.and_le_right (n := m.bits.toNat) (m := m.bits.toNat - 1)
  omega

/-- The channels of the set, in ascending order: the lowest one, then the others. -/
def toList (m : ChannelMask) : List Nat :=
  if m.bits = 0 then [] else m.lowest :: m.dropLowest.toList
termination_by m.bits.toNat
decreasing_by exact dropLowest_lt ‹_›

theorem bit_toNat {c : Nat} (hc : c < 32) : (bit c).toNat = 1 <<< c := by
  have hlt : 1 <<< c < 2 ^ 32 := by
    rw [Nat.shiftLeft_eq, Nat.one_mul]
    exact Nat.pow_lt_pow_right (by decide) hc
  have hc' : (UInt32.ofNat c).toNat = c := UInt32.toNat_ofNat_of_lt' (Nat.lt_trans hc (by decide))
  rw [bit, UInt32.toNat_shiftLeft, hc', Nat.mod_eq_of_lt hc, UInt32.toNat_one,
    Nat.mod_eq_of_lt hlt]

theorem contains_eq_testBit (m : ChannelMask) {c : Nat} (hc : c < 32) :
    m.contains c = m.bits.toNat.testBit c := by
  have hand : (m.bits &&& bit c).toNat = m.bits.toNat &&& 2 ^ c := by
    rw [UInt32.toNat_and, bit_toNat hc, Nat.shiftLeft_eq, Nat.one_mul]
  by_cases h : m.bits.toNat.testBit c
  · rw [h, contains, bne_iff_ne]
    intro h0
    have hz : (m.bits.toNat &&& 2 ^ c).testBit c = false := by
      rw [← hand, h0]
      exact Nat.zero_testBit c
    simp [h, Nat.testBit_two_pow_self] at hz
  · rw [Bool.not_eq_true] at h
    rw [h, contains, bne_eq_false_iff_eq]
    apply UInt32.toNat_inj.mp
    rw [hand]
    apply Nat.eq_of_testBit_eq
    intro i
    rw [Nat.testBit_and, Nat.testBit_two_pow]
    by_cases hi : c = i
    · subst hi
      simp [h]
    · simp [hi]

@[simp]
theorem contains_empty (c : Nat) : (∅ : ChannelMask).contains c = false := by
  show (0 &&& bit c != 0) = false
  rw [UInt32.zero_and]
  rfl

/-- The channels of a set after one was added. -/
theorem contains_insert (m : ChannelMask) {c d : Nat} (hc : c < 32) (hd : d < 32) :
    (m.insert d).contains c = (m.contains c || decide (d = c)) := by
  have hbit : (bit d).toNat = 2 ^ d := by rw [bit_toNat hd, Nat.shiftLeft_eq, Nat.one_mul]
  rw [contains_eq_testBit _ hc, contains_eq_testBit _ hc]
  show (m.bits ||| bit d).toNat.testBit c = _
  rw [UInt32.toNat_or, Nat.testBit_or, hbit, Nat.testBit_two_pow]

/-- The channels of two sets together. -/
theorem contains_union (m n : ChannelMask) {c : Nat} (hc : c < 32) :
    (m ∪ n).contains c = (m.contains c || n.contains c) := by
  rw [contains_eq_testBit _ hc, contains_eq_testBit _ hc, contains_eq_testBit _ hc]
  show (m.bits ||| n.bits).toNat.testBit c = _
  rw [UInt32.toNat_or, Nat.testBit_or]

/-- A number and its predecessor have all bits in common but the lowest set bit and those below. -/
theorem testBit_and_sub_one {n t : Nat} (ht : n.testBit t = true)
    (hlow : ∀ i < t, n.testBit i = false) (i : Nat) :
    (n &&& (n - 1)).testBit i = (n.testBit i && decide (i ≠ t)) := by
  have hpow : 2 ^ t < 2 ^ (t + 1) := Nat.pow_lt_pow_right (by decide) (by omega)
  have hpos : 0 < 2 ^ t := Nat.two_pow_pos t
  have hmod : n % 2 ^ (t + 1) = 2 ^ t := by
    apply Nat.eq_of_testBit_eq
    intro j
    rw [Nat.testBit_mod_two_pow, Nat.testBit_two_pow]
    rcases Nat.lt_trichotomy j t with h | h | h
    · simp [hlow j h, Nat.ne_of_gt h]
    · simp [h, ht]
    · simp [show ¬ j < t + 1 by omega, show t ≠ j by omega]
  have hsub : n - 1 = 2 ^ (t + 1) * (n / 2 ^ (t + 1)) + (2 ^ t - 1) := by
    have := Nat.div_add_mod n (2 ^ (t + 1))
    omega
  have hbit : (n - 1).testBit i = if i < t + 1 then decide (i < t) else n.testBit i := by
    rw [hsub, Nat.testBit_two_pow_mul_add _ (by omega), Nat.testBit_two_pow_sub_one]
    split
    · rfl
    · rw [Nat.testBit_div_two_pow]
      congr 1
      omega
  rw [Nat.testBit_and, hbit]
  rcases Nat.lt_trichotomy i t with h | h | h
  · simp [hlow i h]
  · simp [h]
  · simp [show ¬ i < t + 1 by omega, show i ≠ t by omega]

theorem testBit_lowest {m : ChannelMask} (h : m.bits ≠ 0) :
    m.bits.toNat.testBit m.lowest = true :=
  BitVec.getLsbD_true_ctz_of_ne_zero fun h0 => h (UInt32.toBitVec_inj.mp h0)

theorem testBit_below_lowest (m : ChannelMask) {i : Nat} (hi : i < m.lowest) :
    m.bits.toNat.testBit i = false :=
  BitVec.getLsbD_false_of_lt_ctz hi

theorem testBit_dropLowest {m : ChannelMask} (h : m.bits ≠ 0) (c : Nat) :
    m.dropLowest.bits.toNat.testBit c = (m.bits.toNat.testBit c && decide (c ≠ m.lowest)) := by
  have hpos : 1 ≤ m.bits.toNat := Nat.one_le_iff_ne_zero.mpr fun h0 => h (UInt32.toNat_inj.mp h0)
  have hsub : (m.bits - 1).toNat = m.bits.toNat - 1 :=
    UInt32.toNat_sub_of_le _ _ (UInt32.le_iff_toNat_le.mpr hpos)
  rw [← testBit_and_sub_one (testBit_lowest h) (fun i hi => m.testBit_below_lowest hi)]
  simp only [dropLowest, UInt32.toNat_and, hsub]

theorem toList_empty : (∅ : ChannelMask).toList = [] := by
  unfold toList
  exact if_pos rfl

theorem mem_toList_iff_testBit (m : ChannelMask) (c : Nat) :
    c ∈ m.toList ↔ m.bits.toNat.testBit c = true := by
  fun_induction toList m with
  | case1 m h => simp [h]
  | case2 m h ih =>
    rw [List.mem_cons, ih, testBit_dropLowest h]
    by_cases hc : c = m.lowest
    · simp [hc, testBit_lowest h]
    · simp [hc]

/-- The walk visits the channels of the set. -/
theorem mem_toList {m : ChannelMask} {c : Nat} :
    c ∈ m.toList ↔ c < 32 ∧ m.contains c = true := by
  rw [mem_toList_iff_testBit]
  constructor
  · intro h
    have hc : c < 32 := by
      have hle := Nat.ge_two_pow_of_testBit h
      have hlt := m.bits.toNat_lt
      exact (Nat.pow_lt_pow_iff_right (by decide)).mp (Nat.lt_of_le_of_lt hle hlt)
    exact ⟨hc, (m.contains_eq_testBit hc).trans h⟩
  · rintro ⟨hc, h⟩
    rwa [m.contains_eq_testBit hc] at h

/-- The walk visits no channel twice. -/
theorem nodup_toList (m : ChannelMask) : m.toList.Nodup := by
  fun_induction toList m with
  | case1 m h => exact List.nodup_nil
  | case2 m h ih =>
    refine List.nodup_cons.mpr ⟨?_, ih⟩
    rw [mem_toList_iff_testBit, testBit_dropLowest h]
    simp

end ChannelMask

end PacketDma
