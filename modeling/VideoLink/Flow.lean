import VideoLink.Numeric.Reading

/-! Flows. A flow is the one-way stream of packets that share their addresses, ports and protocol, so these
five fields are both the header of a packet and the key of its flow. -/
namespace VideoLink

inductive Protocol
  | tcp
  | udp
deriving DecidableEq, Repr, Ord, Inhabited

namespace Protocol

def text : Protocol → String
  | tcp => "TCP"
  | udp => "UDP"

def headerBytes : Protocol → Nat
  | tcp => 20
  | udp => 8

/-- Bytes that a packet carries besides its payload: the network header, then the transport header. -/
def overhead (p : Protocol) : Nat := 20 + p.headerBytes

end Protocol

structure Address where
  a : UInt8
  b : UInt8
  c : UInt8
  d : UInt8
deriving DecidableEq, Repr, Ord, Inhabited

namespace Address

def text (x : Address) : String := s!"{x.a}.{x.b}.{x.c}.{x.d}"

/-- One to three digits with a value below 256 and no zero in front. -/
private def readOctet? (text : String) : Option UInt8 :=
  if text.length ≤ 3 ∧ (text.length = 1 ∨ ¬ text.startsWith "0") then
    ((Numeric.readDigits? text.toList).filter (· < 256)).map UInt8.ofNat
  else none

def read? (text : String) : Option Address :=
  match text.splitOn "." with
  | [a, b, c, d] => do
    return ⟨← readOctet? a, ← readOctet? b, ← readOctet? c, ← readOctet? d⟩
  | _ => none

end Address

structure FlowKey where
  source : Address
  destination : Address
  sourcePort : UInt16
  destinationPort : UInt16
  protocol : Protocol
deriving DecidableEq, Repr, Ord, Inhabited

namespace FlowKey

def reversed (k : FlowKey) : FlowKey :=
  ⟨k.destination, k.source, k.destinationPort, k.sourcePort, k.protocol⟩

def text (k : FlowKey) : String :=
  s!"{k.source.text}:{k.sourcePort} -> {k.destination.text}:{k.destinationPort} {k.protocol.text}"

@[simp] theorem reversed_reversed (k : FlowKey) : k.reversed.reversed = k := rfl

end FlowKey

end VideoLink
