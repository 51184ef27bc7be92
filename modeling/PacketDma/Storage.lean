/-!
# Storage

Tables and rings are kept in pieces of storage. A piece is smaller than half the address space,
so a table of too many entries cannot exist.
-/

namespace PacketDma.Storage

/-- Pieces of storage have fewer bytes than this. -/
def limit : Nat := UInt64.size / 2

/-- Whether `count` entries of `bytes` bytes fit in one piece of storage. -/
def holds (count bytes : Nat) : Bool := count * bytes < limit

end PacketDma.Storage
