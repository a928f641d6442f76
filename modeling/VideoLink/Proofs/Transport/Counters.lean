import VideoLink.Proofs.Transport.Bounds

/-! The counters of a socket as the books of its sends. A send that is deferred is counted when it enters
the backlog and again when it enters the buffer, so the counters agree with the answers only together with
the backlog. A send that fails changes nothing but the count of refusals, and not every failure is counted
there. -/
namespace VideoLink

/-- A send and its answer. -/
structure Attempt where
  bytes : Nat
  answer : Except TransportError SendStatus

namespace Attempt

def isTaken : Attempt → Bool
  | ⟨_, .ok _⟩ => true
  | ⟨_, .error _⟩ => false

def isDeferred : Attempt → Bool
  | ⟨_, .ok .deferred⟩ => true
  | _ => false

/-- Whether the send failed for a full backlog. -/
def isCrowdedOut : Attempt → Bool
  | ⟨_, .error (.backlogFull ..)⟩ => true
  | _ => false

/-- Whether the send failed for its size or for coming after the end. -/
def isTurnedAway : Attempt → Bool
  | ⟨_, .error .connectionClosed⟩ | ⟨_, .error (.segmentTooLarge ..)⟩ => true
  | _ => false

theorem length_eq_countP (l : List Attempt) :
    l.length = l.countP isTaken + l.countP isCrowdedOut + l.countP isTurnedAway := by
  induction l with
  | nil => rfl
  | cons a l ih =>
    obtain ⟨bytes, answer⟩ := a
    rw [List.length_cons, ih]
    rcases answer with (_ | _ | _) | _ <;>
      simp [List.countP_cons, isTaken, isCrowdedOut, isTurnedAway] <;> omega

theorem not_of_isTurnedAway {a : Attempt} (h : a.isTurnedAway = true) :
    a.isTaken = false ∧ a.isDeferred = false ∧ a.isCrowdedOut = false := by
  obtain ⟨bytes, answer⟩ := a
  rcases answer with (_ | _ | _) | _ <;>
    simp_all [isTaken, isDeferred, isCrowdedOut, isTurnedAway]

end Attempt

namespace Socket

/-- A send on a closed socket, or one that is larger than the buffer. -/
def Bars (s : Socket) (bytes : Nat) : Prop := s.closed = true ∨ s.capacity < bytes

/-- What becomes of a send, and what it leaves of the socket. -/
theorem send_outcomes (s : Socket) (bytes : Nat) :
    (¬ s.Bars bytes ∧ s.backlog.toList = [] ∧ s.send bytes = (.ok .queued, s.accept bytes)) ∨
    (¬ s.Bars bytes ∧ s.send bytes = (.ok .deferred, s.defer bytes)) ∨
    (¬ s.Bars bytes ∧ s.send bytes = (.error (.backlogFull bytes s.backlogged),
      { s with stats := { s.stats with refused := s.stats.refused + 1 } })) ∨
    (s.Bars bytes ∧ ∃ error, (Attempt.mk bytes (.error error)).isTurnedAway ∧
      s.send bytes = (.error error, s)) := by
  unfold send Bars
  by_cases hclosed : s.closed = true
  · simp [hclosed, Attempt.isTurnedAway]
  · by_cases hlarge : s.capacity < bytes
    · simp [hclosed, hlarge, Attempt.isTurnedAway]
    · by_cases hfits : s.backlog.isEmpty ∧ s.fits bytes
      · simp [hclosed, hlarge, hfits, Fifo.isEmpty_iff.1 hfits.1]
      · by_cases hfull : s.maxBacklog < s.backlogged + bytes
        · simp [hclosed, hlarge, hfits, hfull]
        · simp [hclosed, hlarge, hfits, hfull]

theorem isTurnedAway_send (s : Socket) (bytes : Nat) :
    (Attempt.mk bytes (s.send bytes).1).isTurnedAway = true ↔ s.Bars bytes := by
  rcases s.send_outcomes bytes with
    ⟨hopen, _, hsend⟩ | ⟨hopen, hsend⟩ | ⟨hopen, hsend⟩ | ⟨hbarred, error, haway, hsend⟩ <;> rw [hsend]
  · simp [hopen, Attempt.isTurnedAway]
  · simp [hopen, Attempt.isTurnedAway]
  · simp [hopen, Attempt.isTurnedAway]
  · simp [hbarred, haway]

theorem closed_send (s : Socket) (bytes : Nat) : (s.send bytes).2.closed = s.closed := by
  rcases s.send_cases bytes with ⟨hsend, _⟩ | ⟨hsend, _⟩ | ⟨_, _, hsend⟩ <;> rw [hsend] <;> rfl

theorem acceptBacklog_moves (s : Socket) : ∃ moved,
    s.backlog.toList = moved ++ s.acceptBacklog.backlog.toList ∧
    s.acceptBacklog.stats = { s.stats with
      accepted := s.stats.accepted + moved.length
      bytes := s.stats.bytes + weight id moved } ∧
    s.acceptBacklog.closed = s.closed := by
  fun_induction acceptBacklog s with
  | case1 s hp => exact ⟨[], rfl, rfl, rfl⟩
  | case2 s bytes backlog hp hfits ih =>
    obtain ⟨moved, hbacklog, hstats, hclosed⟩ := ih
    refine ⟨bytes :: moved, ?_, ?_, hclosed⟩
    · rw [Fifo.toList_of_pop? hp, List.cons_append, ← hbacklog]
      rfl
    · rw [hstats]
      simp only [accept, List.length_cons, weight_cons, id_eq, SocketStats.mk.injEq, and_true, true_and]
      omega
  | case3 s bytes backlog hp hfits => exact ⟨[], rfl, rfl, rfl⟩

theorem next?_moves {s t : Socket} {uids uids' : UidCounter} {p : Packet}
    (hn : s.next? uids = some (p, t, uids')) : ∃ moved,
    s.backlog.toList = moved ++ t.backlog.toList ∧
    t.stats = { s.stats with
      accepted := s.stats.accepted + moved.length
      bytes := s.stats.bytes + weight id moved
      packets := s.stats.packets + 1 } ∧
    t.closed = s.closed ∧ t.capacity = s.capacity := by
  simp only [next?, Option.map_eq_some_iff, Prod.exists, Prod.mk.injEq] at hn
  obtain ⟨payload, pending, hp, rfl, rfl, rfl⟩ := hn
  obtain ⟨moved, hbacklog, hstats, hclosed⟩ :=
    acceptBacklog_moves { s with pending, buffered := s.buffered - payload }
  obtain ⟨_, _, hcontinues⟩ := acceptBacklog_stats { s with pending, buffered := s.buffered - payload }
  refine ⟨moved, hbacklog, ?_, hclosed, hcontinues.capacity⟩
  simp [hstats]

end Socket

namespace Exchange

def attempt? (x : Exchange) : SocketCall → Option Attempt
  | .send bytes => some ⟨bytes, (x.socket.send bytes).1⟩
  | .next | .close => none

def attempts (x : Exchange) (cs : List SocketCall) : List Attempt :=
  (history call x cs).filterMap fun e => e.1.attempt? e.2

variable (x : Exchange) (cs : List SocketCall) (c : SocketCall)

theorem calls_concat : x.calls (cs ++ [c]) = (x.calls cs).call c := by
  simp [calls]

theorem attempts_concat :
    x.attempts (cs ++ [c]) = x.attempts cs ++ ((x.calls cs).attempt? c).toList := by
  rw [attempts, history_concat, List.filterMap_append]
  cases hattempt : (x.calls cs).attempt? c <;> simp_all [attempts, calls]

/-- The books of an exchange: `entered` are the sends that are in the buffer or beyond, `sends` are all. -/
structure Books (x : Exchange) (sends : List Attempt) (entered : List Nat) : Prop where
  taken : x.taken = entered ++ x.socket.backlog.toList
  answered : x.taken = (sends.filter Attempt.isTaken).map Attempt.bytes
  accepted : x.socket.stats.accepted = entered.length
  bytes : x.socket.stats.bytes = weight id entered
  packets : x.socket.stats.packets = x.emitted.length
  deferred : x.socket.stats.deferred = sends.countP Attempt.isDeferred
  refused : x.socket.stats.refused = sends.countP Attempt.isCrowdedOut

variable {x} {cs} {sends : List Attempt} {entered : List Nat}

theorem Books.send (h : x.Books sends entered) (bytes : Nat) : ∃ entered',
    (x.call (.send bytes)).Books (sends ++ [⟨bytes, (x.socket.send bytes).1⟩]) entered' := by
  rcases x.socket.send_outcomes bytes with
    ⟨_, hempty, hsend⟩ | ⟨_, hsend⟩ | ⟨_, hsend⟩ | ⟨_, error, haway, hsend⟩ <;>
    simp only [Exchange.call, hsend]
  -- Nothing waits before a send that enters the buffer.
  · refine ⟨entered ++ [bytes], ?_, ?_, ?_, ?_, h.packets, ?_, ?_⟩
    · simp [h.taken, hempty, Socket.accept]
    · simp [h.answered, List.filter_cons, Attempt.isTaken]
    · simp [h.accepted, Socket.accept]
    · simp [h.bytes, Socket.accept]
    · simp [h.deferred, Socket.accept, Attempt.isDeferred]
    · simp [h.refused, Socket.accept, Attempt.isCrowdedOut]
  · refine ⟨entered, ?_, ?_, h.accepted, h.bytes, h.packets, ?_, ?_⟩
    · simp [h.taken, Socket.defer]
    · simp [h.answered, List.filter_cons, Attempt.isTaken]
    · simp [h.deferred, Socket.defer, Attempt.isDeferred]
    · simp [h.refused, Socket.defer, Attempt.isCrowdedOut]
  · refine ⟨entered, h.taken, ?_, h.accepted, h.bytes, h.packets, ?_, ?_⟩
    · simp [h.answered, Attempt.isTaken]
    · simp [h.deferred, Attempt.isDeferred]
    · simp [h.refused, Attempt.isCrowdedOut]
  · obtain ⟨htaken, hdeferred, hcrowded⟩ := Attempt.not_of_isTurnedAway haway
    refine ⟨entered, h.taken, ?_, h.accepted, h.bytes, h.packets, ?_, ?_⟩
    · simp [h.answered, htaken]
    · simp [h.deferred, hdeferred]
    · simp [h.refused, hcrowded]

theorem Books.call (h : x.Books sends entered) (c : SocketCall) :
    ∃ entered', (x.call c).Books (sends ++ (x.attempt? c).toList) entered' := by
  cases c with
  | send bytes => exact h.send bytes
  | next =>
    rw [attempt?, Option.toList_none, List.append_nil, Exchange.call]
    split
    · exact ⟨entered, h⟩
    · rename_i p socket uids hn
      obtain ⟨moved, hbacklog, hstats, _⟩ := Socket.next?_moves hn
      refine ⟨entered ++ moved, ?_, h.answered, ?_, ?_, ?_, ?_, ?_⟩
      · simp [h.taken, hbacklog]
      · simp [hstats, h.accepted]
      · simp [hstats, h.bytes]
      · simp [hstats, h.packets]
      · simp [hstats, h.deferred]
      · simp [hstats, h.refused]
  | close =>
    rw [attempt?, Option.toList_none, List.append_nil]
    exact ⟨entered, h.taken, h.answered, h.accepted, h.bytes, h.packets, h.deferred, h.refused⟩

theorem books_calls (flow : FlowKey) (settings : TransportSettings) (uids : UidCounter)
    (cs : List SocketCall) : ∃ entered,
    ((begin flow settings uids).calls cs).Books ((begin flow settings uids).attempts cs) entered := by
  induction cs using List.reverseRecOn with
  | nil => exact ⟨[], rfl, rfl, rfl, rfl, rfl, rfl, rfl⟩
  | append_singleton cs c ih =>
    obtain ⟨entered, h⟩ := ih
    rw [calls_concat, attempts_concat]
    exact h.call c

theorem Books.countP_isTaken (h : x.Books sends entered) :
    sends.countP Attempt.isTaken = x.socket.stats.accepted + x.socket.backlog.toList.length := by
  have hlength := congrArg List.length (h.answered.symm.trans h.taken)
  rwa [List.length_map, ← List.countP_eq_length_filter, List.length_append, ← h.accepted] at hlength

variable {mss : Nat}

theorem Books.entered_flatMap_pieces (h : x.Books sends entered) (hpiped : x.Piped mss) :
    x.payloads ++ x.socket.pending.toList = entered.flatMap (pieces mss) := by
  have hconserved := hpiped.conserved
  rw [Socket.stream, hpiped.mss_eq, h.taken, List.flatMap_append, ← List.append_assoc] at hconserved
  exact List.append_cancel_right hconserved

/-- After any calls on a socket its counters and its backlog account for the answers that it gave, for the bytes
that it took and for the packets that they make. A send that fails leaves all of the socket as it is but the
count of refusals. -/
theorem counters_keep_the_books (flow : FlowKey) {settings : TransportSettings} (hmss : 0 < settings.mss)
    (uids : UidCounter) (cs : List SocketCall) :
    let x := (begin flow settings uids).calls cs
    let s := x.socket
    let sends := (begin flow settings uids).attempts cs
    let taken := sends.filter Attempt.isTaken
    let entered := taken.take s.stats.accepted
    s.stats.accepted + s.backlog.toList.length = sends.countP Attempt.isTaken ∧
    s.stats.deferred = sends.countP Attempt.isDeferred ∧
    weight Attempt.bytes taken = s.stats.bytes + s.backlogged ∧
    s.stats.bytes = weight id x.payloads + s.buffered ∧
    taken.map Attempt.bytes = entered.map Attempt.bytes ++ s.backlog.toList ∧
    s.stats.packets = x.emitted.length ∧
    s.stats.packets + s.pending.toList.length = weight (·.bytes ⌈/⌉ settings.mss) entered ∧
    ∀ bytes error, (s.send bytes).1 = .error error →
      ∃ refused, (s.send bytes).2 = { s with stats := { s.stats with refused } } := by
  intro x s sends taken entered
  obtain ⟨inside, h⟩ := books_calls flow settings uids cs
  have hpiped := (piped_begin flow settings uids).calls cs
  have htaken : taken.map Attempt.bytes = inside ++ s.backlog.toList := h.answered.symm.trans h.taken
  have hentered : entered.map Attempt.bytes = inside := by
    rw [List.map_take, htaken, h.accepted, List.take_left]
  have hpieces : x.payloads ++ s.pending.toList = entered.flatMap fun a => pieces settings.mss a.bytes := by
    rw [h.entered_flatMap_pieces hpiped, ← hentered, List.flatMap_map]
  refine ⟨h.countP_isTaken.symm, h.deferred, ?_, ?_, ?_, h.packets, ?_, ?_⟩
  · have hsum := congrArg (weight id) htaken
    rw [weight_map, weight_append, ← h.bytes, ← hpiped.sound.backlogged] at hsum
    exact hsum
  · have hsum := congrArg (weight id) hpieces
    rw [weight_append, weight_flatMap_pieces, ← hpiped.sound.buffered] at hsum
    rw [hsum, h.bytes, ← hentered, weight_map]
    rfl
  · rw [hentered, htaken]
  · have hlength := congrArg List.length hpieces
    rw [List.length_append, length_flatMap_pieces hmss, payloads, List.length_map, ← h.packets] at hlength
    exact hlength
  · intro bytes error herror
    rcases s.send_cases bytes with ⟨hsend, _⟩ | ⟨hsend, _⟩ | ⟨_, refused, hsend⟩ <;> rw [hsend] at herror ⊢
    · cases herror
    · cases herror
    · exact ⟨refused, rfl⟩

/-- A buffer of 6 bytes and a backlog of 8: one send is in the buffer, one waits, and one finds the backlog full,
one is too large and one comes too late. -/
theorem counters_of_a_tight_socket :
    let start := begin (videoFlow .tcp .uplink) ⟨.tcp, 4, 6, 8, 2⟩ .start
    let cs : List SocketCall := [.send 6, .send 5, .send 7, .send 4, .next, .close, .send 1]
    let s := (start.calls cs).socket
    s.stats = ⟨1, 1, 1, 6, 1⟩ ∧ s.backlog.toList = [5] ∧ (start.attempts cs).countP Attempt.isTaken = 2 ∧
      weight Attempt.bytes ((start.attempts cs).filter Attempt.isTaken) = 11 ∧
      s.stats.packets + s.pending.toList.length = 2 ∧
      ∃ refused, (s.send 9).2 = { s with stats := { s.stats with refused } } := by
  obtain ⟨hsends, _, hbytes, _, _, _, hpackets, hfailed⟩ :=
    counters_keep_the_books (videoFlow .tcp .uplink)
      (show 0 < TransportSettings.mss ⟨.tcp, 4, 6, 8, 2⟩ by decide) .start
      [.send 6, .send 5, .send 7, .send 4, .next, .close, .send 1]
  dsimp only
  refine ⟨by decide +kernel, by decide +kernel, hsends.symm.trans ?_, hbytes.trans ?_, hpackets.trans ?_,
    hfailed 9 .connectionClosed ?_⟩
  · decide +kernel
  · decide +kernel
  · decide +kernel
  · decide +kernel

/-! Which refusals are counted. -/

/-- Calls without a send that is larger than the buffer or comes after the end. -/
structure Permitted (capacity : Nat) (cs : List SocketCall) : Prop where
  fits : ∀ bytes, .send bytes ∈ cs → bytes ≤ capacity
  ends : cs.Pairwise fun c d => c = .close → ∀ bytes, d ≠ .send bytes

theorem permitted_concat {capacity : Nat} :
    Permitted capacity (cs ++ [c]) ↔
      Permitted capacity cs ∧ ∀ bytes, c = .send bytes → .close ∉ cs ∧ bytes ≤ capacity := by
  constructor
  · rintro ⟨hfits, hends⟩
    rw [List.pairwise_append] at hends
    obtain ⟨hends, -, hlast⟩ := hends
    refine ⟨⟨fun bytes hb => hfits bytes (List.mem_append_left _ hb), hends⟩, ?_⟩
    rintro bytes rfl
    refine ⟨fun hclose => ?_, hfits bytes (by simp)⟩
    exact hlast _ hclose _ (List.mem_singleton_self _) rfl bytes rfl
  · rintro ⟨⟨hfits, hends⟩, hlast⟩
    refine ⟨fun bytes hb => ?_, ?_⟩
    · rcases List.mem_append.1 hb with hb | hb
      · exact hfits bytes hb
      · exact (hlast bytes (List.mem_singleton.1 hb).symm).2
    · rw [List.pairwise_append]
      refine ⟨hends, List.pairwise_singleton .., ?_⟩
      intro d hd e he hclose bytes heq
      subst hclose
      exact (hlast bytes (by rw [← List.mem_singleton.1 he, heq])).1 hd

/-- What decides whether a socket bars a send, after the calls `cs`. -/
structure Gate (settings : TransportSettings) (cs : List SocketCall) (x : Exchange) : Prop where
  capacity : x.socket.capacity = settings.bufferBytes
  closed : x.socket.closed = true ↔ .close ∈ cs

theorem Gate.call {settings : TransportSettings} (h : Gate settings cs x) (c : SocketCall) :
    Gate settings (cs ++ [c]) (x.call c) := by
  obtain ⟨hcapacity, hclosed⟩ := h
  cases c with
  | send bytes =>
    constructor
    · rw [socket_call_send, (x.socket.continues_send bytes).capacity, hcapacity]
    · rw [socket_call_send, Socket.closed_send, hclosed]
      simp
  | next =>
    rw [Exchange.call]
    split
    · exact ⟨hcapacity, by simp [hclosed]⟩
    · rename_i p socket uids hn
      obtain ⟨_, _, _, hclosed', hcapacity'⟩ := Socket.next?_moves hn
      exact ⟨hcapacity'.trans hcapacity, by simp [hclosed', hclosed]⟩
  | close => exact ⟨hcapacity, by simp [Exchange.call, Socket.close]⟩

theorem gate_calls (flow : FlowKey) (settings : TransportSettings) (uids : UidCounter)
    (cs : List SocketCall) : Gate settings cs ((begin flow settings uids).calls cs) := by
  induction cs using List.reverseRecOn with
  | nil => exact ⟨rfl, by simp [begin, calls, Socket.idle]⟩
  | append_singleton cs c ih =>
    rw [calls_concat]
    exact ih.call c

/-- No send is turned away exactly if all are permitted. -/
theorem countP_isTurnedAway_eq_zero (flow : FlowKey) (settings : TransportSettings) (uids : UidCounter)
    (cs : List SocketCall) :
    ((begin flow settings uids).attempts cs).countP Attempt.isTurnedAway = 0 ↔
      Permitted settings.bufferBytes cs := by
  induction cs using List.reverseRecOn with
  | nil => exact ⟨fun _ => ⟨by simp, List.Pairwise.nil⟩, fun _ => rfl⟩
  | append_singleton cs c ih =>
    obtain ⟨hcapacity, hclosed⟩ := gate_calls flow settings uids cs
    rw [attempts_concat, List.countP_append, Nat.add_eq_zero_iff, ih, permitted_concat]
    cases c with
    | send bytes =>
      have haway := Socket.isTurnedAway_send ((begin flow settings uids).calls cs).socket bytes
      rw [Socket.Bars, hclosed, hcapacity] at haway
      simp [attempt?, List.countP_cons, haway]
    | next => simp [attempt?]
    | close => simp [attempt?]

/-- Every send is in the buffer or beyond, or waits, or was refused and counted, or was turned away for its size or
for coming after the end. The counters leave out the last kind: they add up to the sends exactly if none was
turned away. If payloads may have a byte and no sum of the buffer with a send can pass 32 bits, then no call that
leads there computes out of range. -/
theorem counters_leave_out_the_turned_away (flow : FlowKey) (settings : TransportSettings)
    (uids : UidCounter) (cs : List SocketCall) :
    let s := ((begin flow settings uids).calls cs).socket
    let sends := (begin flow settings uids).attempts cs
    let counted := s.stats.accepted + s.backlog.toList.length + s.stats.refused
    s.stats.refused = sends.countP Attempt.isCrowdedOut ∧
    sends.length = counted + sends.countP Attempt.isTurnedAway ∧
    (sends.length = counted ↔ Permitted settings.bufferBytes cs) ∧
    (0 < settings.mss →
      (∀ bytes, .send bytes ∈ cs → bytes ≤ settings.bufferBytes → settings.bufferBytes + bytes < UInt32.size) →
      (history call (begin flow settings uids) cs).all fun e => e.1.socket.inRange e.2) := by
  intro s sends counted
  obtain ⟨entered, h⟩ := books_calls flow settings uids cs
  have hlength : sends.length = counted + sends.countP Attempt.isTurnedAway := by
    rw [Attempt.length_eq_countP, h.countP_isTaken, ← h.refused]
  have hnone : sends.countP Attempt.isTurnedAway = 0 ↔ Permitted settings.bufferBytes cs :=
    countP_isTurnedAway_eq_zero flow settings uids cs
  refine ⟨h.refused, hlength, ?_, fun hmss hsums => ((Limited.begin flow hmss uids).calls hsums).2⟩
  rw [← hnone]
  omega

/-- A send that finds the backlog full is counted, so here the counters add up, and all is computed in range. -/
theorem counters_of_permitted_sends :
    let start := begin (videoFlow .tcp .uplink) ⟨.tcp, 4, 10, 8, 2⟩ .start
    let cs : List SocketCall := [.send 10, .send 8, .send 1, .next, .close]
    let s := (start.calls cs).socket
    (start.attempts cs).length = s.stats.accepted + s.backlog.toList.length + s.stats.refused ∧ s.stats.refused = 1 ∧
      (history call start cs).all fun e => e.1.socket.inRange e.2 := by
  dsimp only
  have hbytes : ∀ bytes, .send bytes ∈ [.send 10, .send 8, .send 1, .next, SocketCall.close] → bytes ≤ 10 := by simp
  have hpermitted : Permitted 10 [.send 10, .send 8, .send 1, .next, .close] := ⟨hbytes, by simp⟩
  obtain ⟨_, _, hcounted, hrange⟩ := counters_leave_out_the_turned_away (videoFlow .tcp .uplink)
    ⟨.tcp, 4, 10, 8, 2⟩ .start [.send 10, .send 8, .send 1, .next, .close]
  refine ⟨hcounted.2 hpermitted, by decide +kernel, hrange (by decide) fun bytes hsend _ => ?_⟩
  have hle := hbytes bytes hsend
  have hsize : UInt32.size = 0x1_0000_0000 := rfl
  dsimp only
  omega

/-- A send that is too large and one after the end, of which no counter knows. -/
theorem turned_away_sends_are_not_counted :
    let start := begin (videoFlow .tcp .uplink) ⟨.tcp, 4, 10, 8, 2⟩ .start
    let cs : List SocketCall := [.send 11, .close, .send 5]
    let s := (start.calls cs).socket
    (start.attempts cs).length = 2 ∧
      (start.attempts cs).length ≠ s.stats.accepted + s.backlog.toList.length + s.stats.refused := by
  decide +kernel

end Exchange

end VideoLink
