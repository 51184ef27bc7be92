/-!
# A block of memory-mapped registers

A block is a row of 32-bit words that are reached by byte offset. An access must fall on a word.
-/

namespace PacketDma

/-- A row of registers in memory. -/
structure RegisterBlock where
  /-- The words, in the order of their offsets. -/
  words : Array UInt32
  deriving DecidableEq, Inhabited

namespace RegisterBlock

/-- The word that a byte offset falls on, if it falls on one. -/
def index? (b : RegisterBlock) (offset : Nat) : Option Nat :=
  if offset % 4 = 0 ∧ offset / 4 < b.words.size then some (offset / 4) else none

/-- Reads the word at a byte offset. -/
def read? (b : RegisterBlock) (offset : Nat) : Option UInt32 :=
  (b.index? offset).bind (b.words[·]?)

/-- Writes the word at a byte offset. -/
def write? (b : RegisterBlock) (offset : Nat) (word : UInt32) : Option RegisterBlock :=
  (b.index? offset).map fun i => ⟨b.words.setIfInBounds i word⟩

end RegisterBlock

end PacketDma
