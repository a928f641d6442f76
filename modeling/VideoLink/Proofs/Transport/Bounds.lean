import VideoLink.Proofs.Calls
import VideoLink.Proofs.Transport.Pipe

/-! The bounds of a socket. Its buffer and its backlog never hold more than they may, so the sums of the
buffer fit 32 bits and no counter falls below zero. A send waits only behind packets that are still to come.
-/
namespace VideoLink

namespace Socket

/-- Whether the backlog is drained in range: the buffer and the next send together fit 32 bits, and a send
that leaves the backlog is not larger than what the backlog holds. -/
def drainsInRange (s : Socket) : Bool :=
  match _ : s.backlog.pop? with
  | none => true
  | some (bytes, backlog) =>
    s.buffered + bytes < UInt32.size &&
      (!s.fits bytes || (bytes ≤ s.backlogged &&
        drainsInRange (({ s with backlog, backlogged := s.backlogged - bytes }).accept bytes)))
termination_by s.backlog.size
decreasing_by
  have := Fifo.size_of_pop? ‹_›
  simp only [accept]
  omega

/-- Whether a call computes in range: the sums of the buffer fit 32 bits, and nothing is taken from less. -/
def inRange (s : Socket) : SocketCall → Bool
  | .send bytes =>
    s.closed || s.capacity < bytes || !s.backlog.isEmpty || s.buffered + bytes < UInt32.size
  | .next =>
    match s.pending.pop? with
    | none => true
    | some (payload, pending) =>
      payload ≤ s.buffered && drainsInRange { s with pending, buffered := s.buffered - payload }
  | .close => true

/-- Nothing in a socket passes its limits, and every waiting send has a sum of 32 bits with any content of the
buffer. -/
structure Bounded (s : Socket) : Prop extends Counted s where
  mss_pos : 0 < s.mss
  buffered_le : s.buffered ≤ s.capacity
  pieces : ∀ n ∈ s.pending.toList, 0 < n ∧ n ≤ s.mss
  backlogged_le : s.backlogged ≤ s.maxBacklog
  summable : ∀ b ∈ s.backlog.toList, s.capacity + b < UInt32.size

theorem bounded_idle (flow : FlowKey) {settings : TransportSettings} (hmss : 0 < settings.mss) :
    (idle flow settings).Bounded where
  toCounted := (sound_idle flow settings).toCounted
  mss_pos := hmss
  buffered_le := Nat.zero_le _
  pieces := by simp [idle]
  backlogged_le := Nat.zero_le _
  summable := by simp [idle]

namespace Bounded

variable {s : Socket}

theorem close (h : s.Bounded) : s.close.Bounded := { h with }

theorem accept (h : s.Bounded) {bytes : Nat} (hfits : s.fits bytes = true) : (s.accept bytes).Bounded where
  toCounted := h.toCounted.accept bytes
  mss_pos := h.mss_pos
  buffered_le := by simpa [Socket.fits, Socket.accept] using hfits
  pieces := by
    intro n hn
    simp only [Socket.accept, Fifo.toList_pushAll, List.mem_append] at hn
    rcases hn with hn | hn
    · exact h.pieces n hn
    · exact ⟨pos_of_mem_pieces h.mss_pos hn, le_of_mem_pieces h.mss_pos hn⟩
  backlogged_le := h.backlogged_le
  summable := h.summable

theorem defer (h : s.Bounded) {bytes : Nat} (hle : bytes ≤ s.capacity)
    (hroom : s.backlogged + bytes ≤ s.maxBacklog) (hsum : s.capacity + bytes < UInt32.size) :
    (s.defer bytes).Bounded where
  buffered := h.buffered
  backlogged := by simp [Socket.defer, h.backlogged]
  fits := by
    intro b hb
    simp only [Socket.defer, Fifo.toList_push, List.mem_append, List.mem_singleton] at hb
    rcases hb with hb | rfl
    · exact h.fits b hb
    · exact hle
  mss_pos := h.mss_pos
  buffered_le := h.buffered_le
  pieces := h.pieces
  backlogged_le := hroom
  summable := by
    intro b hb
    simp only [Socket.defer, Fifo.toList_push, List.mem_append, List.mem_singleton] at hb
    rcases hb with hb | rfl
    · exact h.summable b hb
    · exact hsum

theorem send (h : s.Bounded) {bytes : Nat}
    (hsum : bytes ≤ s.capacity → s.capacity + bytes < UInt32.size) : (s.send bytes).2.Bounded := by
  unfold Socket.send
  split
  · exact h
  · split
    · exact h
    · rename_i hlarge
      split
      · rename_i hfits
        exact h.accept hfits.2
      · split
        · exact { h with }
        · rename_i hroom
          have hle : bytes ≤ s.capacity := by omega
          exact h.defer hle (by omega) (hsum hle)

theorem shift (h : s.Bounded) {bytes : Nat} {backlog : Fifo Nat}
    (hp : s.backlog.pop? = some (bytes, backlog)) (hfits : s.fits bytes = true) :
    bytes ≤ s.backlogged ∧
      (({ s with backlog, backlogged := s.backlogged - bytes } : Socket).accept bytes).Bounded := by
  have hl := Fifo.toList_of_pop? hp
  have hsum := h.backlogged
  rw [hl, weight_cons, id] at hsum
  refine ⟨by omega, ?_⟩
  have hmoved : ({ s with backlog, backlogged := s.backlogged - bytes } : Socket).Bounded :=
    { h with
      backlogged := by simp only [hsum]; omega
      fits := fun b hb => h.fits b (by rw [hl]; exact List.mem_cons_of_mem _ hb)
      backlogged_le := (Nat.sub_le ..).trans h.backlogged_le
      summable := fun b hb => h.summable b (by rw [hl]; exact List.mem_cons_of_mem _ hb) }
  exact hmoved.accept hfits

theorem acceptBacklog (h : s.Bounded) : s.acceptBacklog.Bounded := by
  fun_induction Socket.acceptBacklog s with
  | case1 => exact h
  | case2 s bytes backlog hp hfits ih => exact ih (h.shift hp hfits).2
  | case3 => exact h

theorem drainsInRange (h : s.Bounded) : s.drainsInRange = true := by
  fun_induction Socket.drainsInRange s with
  | case1 => rfl
  | case2 s bytes backlog hp ih =>
    have hsum := h.summable bytes (by rw [Fifo.toList_of_pop? hp]; exact List.mem_cons_self)
    have hfull := h.buffered_le
    have hrange : s.buffered + bytes < UInt32.size := by omega
    cases hfits : s.fits bytes with
    | false => simp [hrange]
    | true =>
      obtain ⟨hle, hmoved⟩ := h.shift hp hfits
      simp [hrange, hle, ih hmoved]

theorem release (h : s.Bounded) {payload : Nat} {pending : Fifo Nat}
    (hp : s.pending.pop? = some (payload, pending)) :
    payload ≤ s.buffered ∧ ({ s with pending, buffered := s.buffered - payload } : Socket).Bounded := by
  have hl := Fifo.toList_of_pop? hp
  have hsum := h.buffered
  rw [hl, weight_cons, id] at hsum
  refine ⟨by omega, ?_⟩
  exact { h with
    buffered := by simp only [hsum]; omega
    buffered_le := (Nat.sub_le ..).trans h.buffered_le
    pieces := fun n hn => h.pieces n (by rw [hl]; exact List.mem_cons_of_mem _ hn) }

theorem of_next? {t : Socket} (h : s.Bounded) {uids uids' : UidCounter} {p : Packet}
    (hn : s.next? uids = some (p, t, uids')) : t.Bounded := by
  simp only [next?, Option.map_eq_some_iff, Prod.exists, Prod.mk.injEq] at hn
  obtain ⟨payload, pending, hp, rfl, rfl, rfl⟩ := hn
  exact { (h.release hp).2.acceptBacklog with }

theorem inRange (h : s.Bounded) {c : SocketCall}
    (hsum : ∀ bytes, c = .send bytes → bytes ≤ s.capacity → s.capacity + bytes < UInt32.size) :
    s.inRange c = true := by
  cases c with
  | send bytes =>
    have hfull := h.buffered_le
    by_cases hle : bytes ≤ s.capacity
    · have hlt : s.buffered + bytes < UInt32.size := by
        have := hsum bytes rfl hle
        omega
      simp [Socket.inRange, hlt]
    · simp [Socket.inRange, Nat.lt_of_not_le hle]
  | next =>
    rw [Socket.inRange]
    split
    · rfl
    · rename_i payload pending hp
      obtain ⟨hle, hreleased⟩ := h.release hp
      simp [hle, hreleased.drainsInRange]
  | close => rfl

end Bounded

end Socket

namespace Exchange

structure Limited (settings : TransportSettings) (x : Exchange) : Prop where
  sound : x.socket.Sound
  bounded : x.socket.Bounded
  mss : x.socket.mss = settings.mss
  capacity : x.socket.capacity = settings.bufferBytes
  maxBacklog : x.socket.maxBacklog = settings.backlogBytes

namespace Limited

variable {settings : TransportSettings} {x : Exchange}

theorem begin (flow : FlowKey) (hmss : 0 < settings.mss) (uids : UidCounter) :
    (Exchange.begin flow settings uids).Limited settings :=
  ⟨Socket.sound_idle flow settings, Socket.bounded_idle flow hmss, rfl, rfl, rfl⟩

theorem of_continues (h : x.Limited settings) {y : Exchange} (hsound : y.socket.Sound)
    (hbounded : y.socket.Bounded) (hc : x.socket.Continues y.socket) : y.Limited settings :=
  ⟨hsound, hbounded, hc.mss.trans h.mss, hc.capacity.trans h.capacity, hc.maxBacklog.trans h.maxBacklog⟩

theorem call (h : x.Limited settings) {c : SocketCall}
    (hsum : ∀ bytes, c = .send bytes → bytes ≤ settings.bufferBytes →
      settings.bufferBytes + bytes < UInt32.size) : (x.call c).Limited settings := by
  cases c with
  | send bytes =>
    have hsum' : bytes ≤ x.socket.capacity → x.socket.capacity + bytes < UInt32.size := by
      rw [h.capacity]
      exact hsum bytes rfl
    apply h.of_continues <;> rw [socket_call_send]
    · exact h.sound.send bytes
    · exact h.bounded.send hsum'
    · exact x.socket.continues_send bytes
  | next =>
    rw [Exchange.call]
    split
    · exact h
    · rename_i p socket uids hn
      obtain ⟨hsound, hreleased, _⟩ := h.sound.of_next? hn
      exact h.of_continues hsound (h.bounded.of_next? hn) hreleased.continues
  | close => exact h.of_continues h.sound.close h.bounded.close ⟨rfl, rfl, rfl, rfl⟩

theorem calls (h : x.Limited settings) {cs : List SocketCall}
    (hsums : ∀ bytes, .send bytes ∈ cs → bytes ≤ settings.bufferBytes →
      settings.bufferBytes + bytes < UInt32.size) :
    (x.calls cs).Limited settings ∧ (history Exchange.call x cs).all fun e => e.1.socket.inRange e.2 := by
  induction cs generalizing x with
  | nil => exact ⟨h, rfl⟩
  | cons c cs ih =>
    have hc : ∀ bytes, c = .send bytes → bytes ≤ settings.bufferBytes →
        settings.bufferBytes + bytes < UInt32.size := by
      rintro bytes rfl
      exact hsums bytes List.mem_cons_self
    obtain ⟨hlimited, hrange⟩ := ih (h.call hc) fun bytes hb => hsums bytes (List.mem_cons_of_mem _ hb)
    have hfirst : x.socket.inRange c = true := h.bounded.inRange (by rwa [h.capacity])
    exact ⟨hlimited, by simp [history, hfirst, hrange]⟩

/-- What waits in the backlog waits for room in a buffer that is not empty. -/
theorem blocked (h : x.Limited settings) {b : Nat} (hb : x.socket.backlog.toList.head? = some b) :
    settings.bufferBytes < x.socket.buffered + b ∧ x.socket.pending.toList ≠ [] := by
  have hblocked := h.sound.blocked b hb
  have hfits := h.sound.fits b (List.mem_of_mem_head? hb)
  rw [h.capacity] at hblocked hfits
  -- An empty buffer would have room for the send.
  refine ⟨hblocked, fun hempty => ?_⟩
  have hbuffered := h.sound.buffered
  rw [hempty, weight_nil] at hbuffered
  omega

theorem next?_eq_none_iff (h : x.Limited settings) (uids : UidCounter) :
    x.socket.next? uids = none ↔ x.socket.unsent = 0 := by
  constructor
  · intro hn
    exact h.sound.unsent_eq_zero (Socket.next?_eq_none hn)
  · intro hzero
    have hbuffered := h.sound.buffered
    have hempty : x.socket.pending.toList = [] := by
      cases hl : x.socket.pending.toList with
      | nil => rfl
      | cons n rest =>
        have hpos := (h.bounded.pieces n (by rw [hl]; exact List.mem_cons_self)).1
        rw [hl, weight_cons, id] at hbuffered
        simp only [Socket.unsent] at hzero
        omega
    rw [Socket.next?, Fifo.pop?_eq_none.2 hempty]
    rfl

end Limited

/-- Whatever is called on a socket, as long as no sum of its buffer with a send can pass 32 bits: the
buffer and the backlog hold what their counters say and never more than they may, every packet to come has a
payload that is not empty and not too long, and no call computed out of range. A send waits only if it does not
fit the buffer, which then has packets to give, so a packet is to be had exactly as long as there are bytes
to send. -/
theorem socket_keeps_its_bounds (flow : FlowKey) {settings : TransportSettings} (hmss : 0 < settings.mss)
    (uids : UidCounter) {cs : List SocketCall}
    (hsums : ∀ bytes, .send bytes ∈ cs → bytes ≤ settings.bufferBytes →
      settings.bufferBytes + bytes < UInt32.size) :
    let s := ((begin flow settings uids).calls cs).socket
    s.buffered = weight id s.pending.toList ∧ s.buffered ≤ settings.bufferBytes ∧
    (∀ n ∈ s.pending.toList, 1 ≤ n ∧ n ≤ settings.mss) ∧
    s.backlogged = weight id s.backlog.toList ∧ s.backlogged ≤ settings.backlogBytes ∧
    ((history call (begin flow settings uids) cs).all fun e => e.1.socket.inRange e.2) ∧
    (∀ b, s.backlog.toList.head? = some b →
      settings.bufferBytes < s.buffered + b ∧ s.pending.toList ≠ []) ∧
    ∀ uids, s.next? uids = none ↔ s.unsent = 0 := by
  intro s
  obtain ⟨hlimited, hrange⟩ := (Limited.begin flow hmss uids).calls hsums
  have hbuffered := hlimited.bounded.buffered_le
  have hbacklogged := hlimited.bounded.backlogged_le
  have hpieces := hlimited.bounded.pieces
  rw [hlimited.capacity] at hbuffered
  rw [hlimited.maxBacklog] at hbacklogged
  rw [hlimited.mss] at hpieces
  exact ⟨hlimited.bounded.buffered, hbuffered, hpieces, hlimited.bounded.backlogged, hbacklogged, hrange,
    fun _ => hlimited.blocked, hlimited.next?_eq_none_iff⟩

/-- A buffer of 6 bytes that is exactly full, an empty send behind one that waits, a send that is refused, and
two waiting sends that enter the buffer at once. -/
theorem tight_socket_keeps_its_bounds :
    let settings : TransportSettings := ⟨.tcp, 4, 6, 8, 2⟩
    let flow := videoFlow .tcp .uplink
    let sent : List SocketCall := [.send 6, .send 0, .send 5, .send 0, .send 9, .send 4]
    let s := ((begin flow settings .start).calls sent).socket
    let t := ((begin flow settings .start).calls (sent ++ [.next, .next, .close, .send 1])).socket
    s.backlog.toList = [5, 0] ∧ s.buffered ≤ 6 ∧ s.next? .start ≠ none ∧
      t.pending.toList = [4, 1] ∧ t.buffered = 5 ∧ t.backlog.toList = [] := by
  intro settings flow sent s t
  have hsums : ∀ bytes ≤ settings.bufferBytes, settings.bufferBytes + bytes < UInt32.size := by
    intro bytes hle
    have hbuffer : settings.bufferBytes = 6 := rfl
    have hsize : UInt32.size = 0x1_0000_0000 := rfl
    omega
  obtain ⟨_, hbuffered, _, _, _, _, _, hnext⟩ :=
    @socket_keeps_its_bounds flow settings (by decide) .start sent fun bytes _ => hsums bytes
  obtain ⟨hsum, _⟩ :=
    @socket_keeps_its_bounds flow settings (by decide) .start (sent ++ [.next, .next, .close, .send 1])
      fun bytes _ => hsums bytes
  have hunsent : s.unsent ≠ 0 := by decide +kernel
  have hpending : t.pending.toList = [4, 1] := by decide +kernel
  rw [hpending] at hsum
  exact ⟨by decide +kernel, hbuffered, fun hn => hunsent ((hnext _).1 hn), hpending, hsum,
    by decide +kernel⟩

end Exchange

end VideoLink
