import VideoLink.Flow

/-! Packets on the link. A packet has sizes and no contents. -/
namespace VideoLink

inductive PacketKind
  | data
  | ack
deriving DecidableEq, Repr, Inhabited

namespace PacketKind

def text : PacketKind → String
  | data => "Data"
  | ack => "Ack"

end PacketKind

structure Packet where
  /-- A number that no other packet of the run has. -/
  uid : Nat
  flow : FlowKey
  payload : Nat
  kind : PacketKind
deriving DecidableEq, Repr, Inhabited

namespace Packet

def size (p : Packet) : Nat := p.flow.protocol.overhead + p.payload

end Packet

structure UidCounter where
  next : Nat
deriving DecidableEq, Repr

namespace UidCounter

def start : UidCounter := ⟨0⟩

def take (c : UidCounter) : Nat × UidCounter := (c.next, ⟨c.next + 1⟩)

end UidCounter

end VideoLink
