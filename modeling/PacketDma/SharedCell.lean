/-!
# Shared cells

A cell holds a value that several contexts use. Each access is one step: nobody sees a change
half done.
-/

namespace PacketDma

/-- A value that is read and changed in single steps. -/
structure SharedCell (α : Type) where
  /-- The value between two accesses. -/
  value : α
  deriving DecidableEq, Inhabited

namespace SharedCell

variable {α ρ : Type}

/-- Changes the value and returns what the change reports. -/
def update (c : SharedCell α) (f : α → ρ × α) : ρ × SharedCell α :=
  let (result, value) := f c.value
  (result, ⟨value⟩)

/-- Puts a value into the cell and returns the one before it. -/
def replace (c : SharedCell α) (value : α) : α × SharedCell α :=
  c.update fun old => (old, value)

end SharedCell

end PacketDma
