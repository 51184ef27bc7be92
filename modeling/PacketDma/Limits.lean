/-!
# Limits of the hardware

Bounds that hold for every device family.
-/

namespace PacketDma

/-- The most channels an engine drives: the interrupt status register has room for sixteen. -/
def maxChannels : Nat := 16

/-- The smallest ring. One of its descriptors always stays empty. -/
def minRingSize : Nat := 2

end PacketDma
