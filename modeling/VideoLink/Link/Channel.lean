import VideoLink.Fifo
import VideoLink.Link.Direction
import VideoLink.Packet
import VideoLink.Time.Basic

/-! The link. Each direction has a bounded queue of packets in front of a wire that carries one packet at a
time. The link tells when a packet leaves the wire and when it arrives; it schedules nothing itself. -/
namespace VideoLink

structure LinkSettings where
  /-- Bits per second. -/
  rate : Nat
  /-- Time from the end of the wire to the far node. -/
  delay : Span
  capacity : Nat
deriving DecidableEq, Repr

namespace LinkSettings

def standard : LinkSettings := ⟨100_000_000, .ofMillis 10, 100⟩

/-- The time in which `bytes` pass onto the wire, rounded down to a nanosecond. A rate of zero counts
as one, and the time is at most what an instant can count. -/
def serialization (s : LinkSettings) (bytes : Nat) : Span :=
  ⟨min (bytes * 8 * nanosPerSecond / max s.rate 1) 0xFFFF_FFFF_FFFF_FFFF⟩

end LinkSettings

structure ChannelStats where
  packets : Nat := 0
  bytes : Nat := 0
  /-- Packets that found the queue full. -/
  drops : Nat := 0
deriving DecidableEq, Repr

structure Channel where
  queue : Fifo Packet := .empty
  busy : Bool := false
  stats : ChannelStats := {}

namespace Channel

def push (c : Channel) (p : Packet) : Channel := { c with queue := c.queue.push p }

/-- Puts a packet at the end of the queue, or drops and counts it if the queue is full. -/
def enqueue (c : Channel) (capacity : Nat) (p : Packet) : Bool × Channel :=
  if c.queue.size < capacity then (true, c.push p)
  else (false, { c with stats := { c.stats with drops := c.stats.drops + 1 } })

def dequeue? (c : Channel) : Option (Packet × Channel) :=
  c.queue.pop?.map fun (p, queue) => (p, { c with queue })

def carry (c : Channel) (p : Packet) : Channel :=
  { c with
    busy := true
    stats := { c.stats with
      packets := c.stats.packets + 1
      bytes := c.stats.bytes + p.size } }

def release (c : Channel) : Channel := { c with busy := false }

end Channel

structure Transmission where
  packet : Packet
  /-- When the wire is free again. -/
  finish : Instant
  arrival : Instant

structure Link where
  settings : LinkSettings
  channels : Duplex Channel

namespace Link

def idle (settings : LinkSettings) : Link := ⟨settings, ⟨{}, {}⟩⟩

def channel (l : Link) (d : Direction) : Channel := l.channels.get d

def setChannel (l : Link) (d : Direction) (c : Channel) : Link :=
  { l with channels := l.channels.set d c }

def isIdle (l : Link) (d : Direction) : Bool := !(l.channel d).busy

def queued (l : Link) (d : Direction) : Nat := (l.channel d).queue.size

def hasRoom (l : Link) (d : Direction) : Bool := l.queued d < l.settings.capacity

def room (l : Link) (d : Direction) : Nat := l.settings.capacity - l.queued d

def stats (l : Link) (d : Direction) : ChannelStats := (l.channel d).stats

def push (l : Link) (d : Direction) (p : Packet) : Link := l.setChannel d ((l.channel d).push p)

/-- Whether the queue took the packet, and the link after it. -/
def enqueue (l : Link) (d : Direction) (p : Packet) : Bool × Link :=
  let (taken, c) := (l.channel d).enqueue l.settings.capacity p
  (taken, l.setChannel d c)

def dequeue? (l : Link) (d : Direction) : Option (Packet × Link) :=
  (l.channel d).dequeue?.map fun (p, c) => (p, l.setChannel d c)

def transmit (l : Link) (d : Direction) (now : Instant) (p : Packet) : Transmission × Link :=
  let finish := now.after (l.settings.serialization p.size)
  (⟨p, finish, finish.after l.settings.delay⟩, l.setChannel d ((l.channel d).carry p))

def start? (l : Link) (d : Direction) (now : Instant) : Option (Transmission × Link) :=
  if l.isIdle d then
    (l.dequeue? d).map fun (p, l) => l.transmit d now p
  else none

def complete (l : Link) (d : Direction) : Link := l.setChannel d (l.channel d).release

@[simp] theorem channel_setChannel_self (l : Link) (d : Direction) (c : Channel) :
    (l.setChannel d c).channel d = c := by
  simp [channel, setChannel]

theorem channel_setChannel_of_ne (l : Link) {d e : Direction} (h : e ≠ d) (c : Channel) :
    (l.setChannel d c).channel e = l.channel e := by
  simp [channel, setChannel, Duplex.get_set_of_ne _ h]

theorem room_of_enqueue {l link : Link} {d : Direction} {p : Packet} (h : l.enqueue d p = (true, link)) :
    link.room d + 1 = l.room d := by
  unfold enqueue Channel.enqueue at h
  split at h
  rename_i taken c henqueued
  split at henqueued <;> cases henqueued <;> cases h
  rename_i hroom
  have hsize : (l.setChannel d ((l.channel d).push p)).queued d = l.queued d + 1 := by
    rw [queued, channel_setChannel_self]
    rfl
  show l.settings.capacity - (l.setChannel d ((l.channel d).push p)).queued d + 1 = l.room d
  unfold room queued at *
  omega

end Link

end VideoLink
