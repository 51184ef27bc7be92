import PacketDma.Proofs.Counting

/-!
# Walks over sets of channels

Sets of channels are made of single channels, by adding channels and by uniting sets. Interrupts and
work are dispatched by a walk over such a set, which takes one channel at a time. Main statement:
`walk_of_making`. The walk ends, after as many steps as the set has channels, and comes by the
channels that went into the set and by no others, in ascending order.

## Implementation notes

The list of a set is computed at once. A walk takes the channels from the set one by one, and the
list is what every walk comes by.
-/

namespace PacketDma

namespace ChannelMask

/-! ### The steps of a walk -/

/-- The channel that a walk takes next, and the set without it, if any channel is left. -/
def next? (m : ChannelMask) : Option (Nat × ChannelMask) :=
  if m.bits = 0 then none else some (m.lowest, m.dropLowest)

/-- A walk over a set takes these channels, one after the other, and then finds no more. -/
inductive Visits : ChannelMask → List Nat → Prop where
  | done {m : ChannelMask} (h : m.next? = none) : Visits m []
  | step {m rest : ChannelMask} {c : Nat} {cs : List Nat} (h : m.next? = some (c, rest))
      (tail : Visits rest cs) : Visits m (c :: cs)

variable {m : ChannelMask} {cs : List Nat}

/-- Every walk over a set ends and takes the channels that the set lists. -/
theorem visits_iff : m.Visits cs ↔ cs = m.toList := by
  constructor
  · intro h
    induction h with
    | @done m h =>
      rw [next?, ite_eq_left_iff] at h
      rw [toList, if_pos (by simpa using h)]
    | @step m rest c cs h _ ih =>
      rw [next?, ite_eq_iff] at h
      obtain ⟨-, hnone⟩ | ⟨hbits, hnext⟩ := h
      · cases hnone
      · cases hnext
        rw [toList, if_neg hbits, ih]
  · rintro rfl
    fun_induction toList m with
    | case1 m h => exact .done (if_pos h)
    | case2 m h ih => exact .step (if_neg h) ih

/-- A walk goes upwards. -/
theorem pairwise_toList (m : ChannelMask) : m.toList.Pairwise (· < ·) := by
  fun_induction toList m with
  | case1 m h => exact .nil
  | case2 m h ih =>
    refine List.pairwise_cons.mpr ⟨fun c hc => ?_, ih⟩
    rw [mem_toList_iff_testBit, testBit_dropLowest h, Bool.and_eq_true, decide_eq_true_eq] at hc
    obtain ⟨hbit, hne⟩ := hc
    have hle : ¬ c < m.lowest := by
      intro hlt
      rw [m.testBit_below_lowest hlt] at hbit
      exact Bool.false_ne_true hbit
    omega

theorem toList_eq_nil_iff : m.toList = [] ↔ m.isEmpty = true := by
  rw [toList, isEmpty, beq_iff_eq]
  split
  next h => simp [h]
  next h => simp [h]

/-! ### What a set is made of -/

/-- A channel number counts modulo the width of the word. -/
theorem testBit_bit (c d : Nat) : (bit d).toNat.testBit c = decide (c = d % 32) := by
  have hshift : (UInt32.ofNat d).toNat % 32 = d % 32 := by
    rw [UInt32.toNat_ofNat', Nat.mod_mod_of_dvd _ (by decide)]
  have hlt : 1 <<< (d % 32) < 2 ^ 32 := by
    rw [Nat.shiftLeft_eq, Nat.one_mul]
    exact Nat.pow_lt_pow_right (by decide) (Nat.mod_lt _ (by decide))
  rw [bit, UInt32.toNat_shiftLeft, hshift, UInt32.toNat_one, Nat.mod_eq_of_lt hlt,
    Nat.shiftLeft_eq, Nat.one_mul, Nat.testBit_two_pow]
  simp only [eq_comm]

theorem mem_toList_empty (c : Nat) : c ∉ (∅ : ChannelMask).toList := by
  rw [mem_toList, contains_empty]
  simp

theorem mem_toList_insert (m : ChannelMask) (c d : Nat) :
    c ∈ (m.insert d).toList ↔ c ∈ m.toList ∨ c = d % 32 := by
  rw [mem_toList_iff_testBit, mem_toList_iff_testBit]
  show (m.bits ||| bit d).toNat.testBit c = true ↔ _
  rw [UInt32.toNat_or, Nat.testBit_or, testBit_bit, Bool.or_eq_true, decide_eq_true_eq]

theorem mem_toList_single (c d : Nat) : c ∈ (single d).toList ↔ c = d % 32 := by
  rw [mem_toList_iff_testBit]
  show (bit d).toNat.testBit c = true ↔ _
  rw [testBit_bit, decide_eq_true_eq]

theorem mem_toList_union (m n : ChannelMask) (c : Nat) :
    c ∈ (m ∪ n).toList ↔ c ∈ m.toList ∨ c ∈ n.toList := by
  rw [mem_toList_iff_testBit, mem_toList_iff_testBit, mem_toList_iff_testBit]
  show (m.bits ||| n.bits).toNat.testBit c = true ↔ _
  rw [UInt32.toNat_or, Nat.testBit_or, Bool.or_eq_true]

/-- How a set of channels is made. -/
inductive Making where
  /-- There is no channel to begin with. -/
  | empty
  /-- There is one channel to begin with. -/
  | single (channel : Fin 32)
  /-- A channel is added. -/
  | insert (made : Making) (channel : Fin 32)
  /-- Two sets are united. -/
  | union (made other : Making)

namespace Making

/-- The set that is made. -/
def mask : Making → ChannelMask
  | empty => ∅
  | single channel => .single channel
  | insert made channel => made.mask.insert channel
  | union made other => made.mask ∪ other.mask

/-- The channels that go into the set. -/
def channels : Making → List Nat
  | empty => []
  | single channel => [channel]
  | insert made channel => channel :: made.channels
  | union made other => made.channels ++ other.channels

theorem mem_toList_mask (made : Making) (c : Nat) :
    c ∈ made.mask.toList ↔ c ∈ made.channels := by
  induction made with
  | empty => simp [mask, channels, mem_toList_empty]
  | single channel =>
    rw [mask, channels, mem_toList_single, Nat.mod_eq_of_lt channel.isLt, List.mem_singleton]
  | insert made channel ih =>
    rw [mask, channels, mem_toList_insert, Nat.mod_eq_of_lt channel.isLt, ih, List.mem_cons,
      or_comm]
  | union made other ih ih' => rw [mask, channels, mem_toList_union, ih, ih', List.mem_append]

end Making

/-- However a set of channels was made, there is one list of channels that every walk over the set
takes before it ends. The list ascends strictly. It has the channels that the set contains, which
are those that went into the set, and as many as the set counts; and it is empty exactly if the set
is. -/
theorem walk_of_making (made : Making) :
    ∃ cs : List Nat, (∀ visited, made.mask.Visits visited ↔ visited = cs) ∧
      cs.Pairwise (· < ·) ∧
      (∀ c, c ∈ cs ↔ c < 32 ∧ made.mask.contains c = true) ∧
      (∀ c, c ∈ cs ↔ c ∈ made.channels) ∧
      cs.length = made.mask.count ∧
      (cs = [] ↔ made.mask.isEmpty = true) := by
  refine ⟨made.mask.toList, fun visited => visits_iff, pairwise_toList _, fun c => mem_toList,
    made.mem_toList_mask, ?_, toList_eq_nil_iff⟩
  exact (count_eq_length_toList _).symm

example : (((Making.single 15).insert 0).union (.single 5)).mask.toList = [0, 5, 15] := by
  decide +kernel

end ChannelMask

end PacketDma
