import Mathlib.Algebra.GroupWithZero.Nat
import Mathlib.Data.List.Nodup
import PacketDma.Engine
import PacketDma.Interrupt
import PacketDma.Proofs.MonitorRun

/-!
# Counting

What the engine and the monitor count with: counters that stop at their limit, and sets of channels
that tell how many channels they have. Some things are counted twice, by the engine for all channels
together and by the monitor for each of them.

## Implementation notes

Counters stop at their limit, so a sum of channel counters is compared as far as a counter shows.
Then growth of totals and of sums composes in the same way, whether anything has stopped or not.
-/

namespace PacketDma

/-! ### Counters -/

namespace Counter

/-- As far as a counter shows, `c'` is `n` more than `c`. -/
def Grows (c n c' : Nat) : Prop := add c' 0 = add c n

theorem Grows.refl (c : Nat) : Grows c 0 c := rfl

theorem Grows.of_eq {c c' : Nat} (h : c' = c) : Grows c 0 c' := h ▸ .refl c

theorem grows_add (c n : Nat) : Grows c n (add c n) := by
  rw [Grows, add_add, Nat.add_zero]

theorem Grows.trans {c m c' n c'' : Nat} (h : Grows c m c') (h' : Grows c' n c'') :
    Grows c (m + n) c'' := by
  simp only [Grows, add] at h h' ⊢
  omega

theorem Grows.add_add {c n c' d k d' : Nat} (h : Grows c n c') (h' : Grows d k d') :
    Grows (c + d) (n + k) (c' + d') := by
  simp only [Grows, add] at h h' ⊢
  omega

/-- One of several counters grows. -/
theorem grows_sum_set {l : List Nat} {i c n c' : Nat} (hc : l[i]? = some c) (h : Grows c n c') :
    Grows l.sum n (l.set i c').sum := by
  induction l generalizing i with
  | nil => simp at hc
  | cons d rest ih =>
    cases i with
    | zero =>
      obtain rfl : d = c := by simpa using hc
      simpa using h.add_add (.refl rest.sum)
    | succ i =>
      have hrest := ih (by simpa using hc)
      simpa using (Grows.refl d).add_add hrest

end Counter

/-! ### Sets of channels -/

namespace ChannelMask

theorem cpopNatRec_eq_countP {w : Nat} (x : BitVec w) (n acc : Nat) :
    x.cpopNatRec n acc = acc + (List.range n).countP x.getLsbD := by
  induction n generalizing acc with
  | zero => simp
  | succ n ih =>
    rw [BitVec.cpopNatRec_succ, ih, List.range_succ, List.countP_append, List.countP_singleton]
    cases x.getLsbD n with
    | false => simp
    | true =>
      show acc + 1 + _ = acc + (_ + 1)
      omega

/-- A set has as many channels as the walk visits. -/
theorem count_eq_length_toList (m : ChannelMask) : m.count = m.toList.length := by
  have hperm : m.toList.Perm ((List.range 32).filter m.bits.toBitVec.getLsbD) := by
    rw [List.perm_ext_iff_of_nodup m.nodup_toList (List.nodup_range.filter _)]
    intro c
    rw [mem_toList, List.mem_filter, List.mem_range]
    apply and_congr_right
    intro hc
    rw [m.contains_eq_testBit hc]
    rfl
  rw [count, BitVec.toNat_cpop, cpopNatRec_eq_countP, Nat.zero_add, List.countP_eq_length_filter,
    hperm.length_eq]

theorem contains_foldl_insert {ids : List Nat} (hids : ∀ id ∈ ids, id < 32) (m : ChannelMask)
    {c : Nat} (hc : c < 32) :
    (ids.foldl insert m).contains c = (m.contains c || decide (c ∈ ids)) := by
  induction ids generalizing m with
  | nil => simp
  | cons id rest ih =>
    obtain ⟨hid, hrest⟩ := List.forall_mem_cons.mp hids
    rw [List.foldl_cons, ih hrest, contains_insert _ hc hid, Bool.or_assoc, ← Bool.decide_or]
    congr 2
    rw [List.mem_cons, @eq_comm _ c id]

/-- A set made of some channels has these. -/
theorem mem_toList_foldl_insert {ids : List Nat} (hids : ∀ id ∈ ids, id < 32) {c : Nat} :
    c ∈ (ids.foldl insert ∅).toList ↔ c ∈ ids := by
  rw [mem_toList]
  constructor
  · rintro ⟨hc, hcontains⟩
    rw [contains_foldl_insert hids _ hc] at hcontains
    simpa using hcontains
  · intro hmem
    refine ⟨hids c hmem, ?_⟩
    rw [contains_foldl_insert hids _ (hids c hmem)]
    simpa using hmem

end ChannelMask

/-- A status word is what its halves make. -/
theorem InterruptStatus.toWord_ofWord (word : UInt32) : (ofWord word).toWord = word := by
  have hshift : InterruptBits.errorShift.toNat % 32 = 16 := rfl
  have hlow (k : Nat) : (65535 : Nat).testBit k = decide (k < 16) :=
    Nat.testBit_two_pow_sub_one 16 k
  apply UInt32.toNat_inj.mp
  apply Nat.eq_of_testBit_eq
  intro k
  simp only [toWord, ofWord, UInt32.toNat_or, UInt32.toNat_and, UInt32.toNat_shiftLeft,
    UInt32.toNat_shiftRight, hshift, Nat.testBit_or, Nat.testBit_and, Nat.testBit_mod_two_pow,
    Nat.testBit_shiftLeft, Nat.testBit_shiftRight, UInt32.reduceToNat, hlow]
  rcases Nat.lt_or_ge k 16 with hk | hk
  · simp [hk, Nat.not_le_of_lt hk]
  · rw [Nat.add_sub_of_le hk]
    rcases Nat.lt_or_ge k 32 with hk' | hk'
    · simp [hk, hk', Nat.not_lt_of_le hk]
    · have hlt : word.toNat < 2 ^ k :=
        Nat.lt_of_lt_of_le word.toNat_lt (Nat.pow_le_pow_right (by decide) hk')
      rw [Nat.testBit_lt_two_pow hlt]
      simp

/-- A channel of which neither bit is set is not among those that raised an interrupt. -/
theorem InterruptStatus.ne_of_mem_limit {raw : UInt32} {i : Nat}
    (hcomplete : raw.toNat.testBit i = false)
    (herror : raw.toNat.testBit (16 + i) = false) (count : Nat) :
    ∀ id ∈ ((ofWord raw).limit count).channels.toList, id < 32 ∧ i ≠ id := by
  have hshift : InterruptBits.errorShift.toNat % 32 = 16 := rfl
  intro id hid
  refine ⟨(ChannelMask.mem_toList.mp hid).1, ?_⟩
  rintro rfl
  rw [ChannelMask.mem_toList_iff_testBit, limit, toWord_ofWord] at hid
  have hbits : (raw &&& InterruptBits.ofChannels count &&& 0xFFFF |||
      (raw &&& InterruptBits.ofChannels count) >>> InterruptBits.errorShift).toNat.testBit i =
        true := hid
  simp [UInt32.toNat_or, UInt32.toNat_and, UInt32.toNat_shiftRight, hshift, Nat.testBit_or,
    Nat.testBit_and, Nat.testBit_shiftRight, hcomplete, herror] at hbits

/-- What the engine counts for all channels together and the monitor for each of them. -/
inductive Counted where
  /-- A full ring refused a buffer. -/
  | refusal
  /-- A channel raised an error interrupt. -/
  | error
  /-- A recovery attempt was made. -/
  | attempt
  /-- A recovery attempt succeeded. -/
  | success
  /-- The watchdog found a channel stalled. -/
  | stall

namespace Counted

/-- What the engine counts for all channels together. -/
def total : Counted → EngineStats → Nat
  | refusal, s => s.ringFull
  | error, s => s.errorEvents
  | attempt, s => s.recoveriesAttempted
  | success, s => s.recoveriesSucceeded
  | stall, s => s.watchdogTimeouts

/-- What the monitor counts for one channel. -/
def own : Counted → ChannelStats → Nat
  | refusal, s => s.ringFullEvents
  | error, s => s.errorInterrupts
  | attempt, s => s.recoveryAttempts
  | success, s => s.recoverySuccesses
  | stall, s => s.timeouts

end Counted

namespace Monitor

/-- The sum of a counter over all channels. -/
def tally (m : Monitor) (own : ChannelStats → Nat) : Nat :=
  (m.records.map fun r => own r.stats).sum

variable {m : Monitor} {own : ChannelStats → Nat} {n : Nat}

theorem grows_tally_set {c : Nat} {r s : ChannelRecord} (hr : m.records[c]? = some r)
    (h : Counter.Grows (own r.stats) n (own s.stats)) :
    Counter.Grows (m.tally own) n (tally { m with records := m.records.set c s } own) := by
  rw [tally, tally, List.map_set]
  exact Counter.grows_sum_set (by rw [List.getElem?_map, hr, Option.map_some]) h

/-- Only a channel that exists has a counter that may grow. -/
theorem grows_tally_update {c : Nat} {f : ChannelRecord → ChannelRecord}
    (hc : n = 0 ∨ c < m.records.length)
    (hf : ∀ r, Counter.Grows (own r.stats) n (own (f r).stats)) :
    Counter.Grows (m.tally own) n ((m.update c f).tally own) := by
  cases hr : m.records[c]? with
  | none =>
    rw [update_absent hr]
    obtain rfl := hc.resolve_right (Nat.not_lt_of_le (List.getElem?_eq_none_iff.mp hr))
    exact .refl _
  | some r =>
    rw [update_eq hr]
    exact grows_tally_set hr (hf r)

end Monitor

namespace ChannelRecord

/-- Faults that are noted are no error interrupts. -/
theorem own_recordFault (x : Counted) (r : ChannelRecord) (faults : FaultSet) (now : Nat) :
    x.own (r.recordFault faults now).2.stats = x.own r.stats := by
  unfold recordFault
  split
  · rfl
  · cases x <;> rfl

end ChannelRecord

/-! ### A turn of the watchdog -/

namespace Monitor

variable {m : Monitor} {own : ChannelStats → Nat}

end Monitor

end PacketDma
