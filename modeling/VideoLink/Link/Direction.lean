import VideoLink.Flow

/-! The two directions of the link, pairs of one thing for each, and the flows of their video. The server
sends downlink video, the client uplink video. -/
namespace VideoLink

inductive Direction
  | uplink
  | downlink
deriving DecidableEq, Repr, Inhabited

namespace Direction

def all : List Direction := [uplink, downlink]

def reverse : Direction → Direction
  | uplink => downlink
  | downlink => uplink

def text : Direction → String
  | uplink => "uplink"
  | downlink => "downlink"

@[simp] theorem reverse_reverse (d : Direction) : d.reverse.reverse = d := by cases d <;> rfl

end Direction

structure Duplex (α : Type) where
  up : α
  down : α
deriving DecidableEq, Repr, Inhabited

namespace Duplex

variable {α β : Type}

def get (p : Duplex α) : Direction → α
  | .uplink => p.up
  | .downlink => p.down

def set (p : Duplex α) (d : Direction) (a : α) : Duplex α :=
  match d with
  | .uplink => { p with up := a }
  | .downlink => { p with down := a }

def map (f : α → β) (p : Duplex α) : Duplex β := ⟨f p.up, f p.down⟩

def total (f : α → Nat) (p : Duplex α) : Nat := f p.up + f p.down

@[simp] theorem get_set_self (p : Duplex α) (d : Direction) (a : α) : (p.set d a).get d = a := by
  cases d <;> rfl

theorem get_set_of_ne (p : Duplex α) {d e : Direction} (h : e ≠ d) (a : α) :
    (p.set d a).get e = p.get e := by
  cases d <;> cases e <;> first | rfl | exact absurd rfl h

@[simp] theorem get_map (f : α → β) (p : Duplex α) (d : Direction) :
    (p.map f).get d = f (p.get d) := by
  cases d <;> rfl

theorem total_set (f : α → Nat) (p : Duplex α) (d : Direction) (a : α) :
    (p.set d a).total f + f (p.get d) = p.total f + f a := by
  cases d <;> simp only [total, set, get] <;> omega

theorem ext {p q : Duplex α} (h : ∀ d, p.get d = q.get d) : p = q := by
  rcases p with ⟨_, _⟩
  rcases q with ⟨_, _⟩
  have up := h .uplink
  have down := h .downlink
  simp_all [get]

end Duplex

def serverAddress : Address := ⟨10, 1, 1, 1⟩

def clientAddress : Address := ⟨10, 1, 1, 2⟩

def senderPort : UInt16 := 49153

def videoFlow (protocol : Protocol) : Direction → FlowKey
  | .uplink => ⟨clientAddress, serverAddress, senderPort, 50000, protocol⟩
  | .downlink => ⟨serverAddress, clientAddress, senderPort, 60000, protocol⟩

end VideoLink
