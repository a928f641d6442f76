import VideoLink.Link.Direction
import VideoLink.Proofs.Transport.Sound

/-! A socket is a pipe of bytes. Its two queues together are one stream of payloads: a send that is taken
adds its pieces at the end, wherever it goes, and a packet leaves from the front. So what comes out in the
end is what was taken, cut into pieces. -/
namespace VideoLink

namespace Socket

/-- The payloads of all packets to come, those of the waiting sends last. -/
def stream (s : Socket) : List Nat :=
  s.pending.toList ++ s.backlog.toList.flatMap (pieces s.mss)

/-- A socket without packets has no stream, since nothing waits for room in an empty buffer. -/
theorem Sound.stream_eq_nil {s : Socket} (h : s.Sound) (hp : s.pending.toList = []) :
    s.stream = [] := by
  have hbuffered := h.buffered
  rw [hp, weight_nil] at hbuffered
  rw [stream, hp, List.nil_append]
  cases hq : s.backlog.toList with
  | nil => rfl
  | cons b rest =>
    have hfit := h.fits b (by rw [hq]; exact List.mem_cons_self)
    have hblocked := h.blocked b (by rw [hq]; rfl)
    omega

theorem send_stream (s : Socket) (bytes : Nat) :
    (∃ status t, s.send bytes = (.ok status, t) ∧ t.stream = s.stream ++ pieces s.mss bytes) ∨
    ∃ error t, s.send bytes = (.error error, t) ∧ t.stream = s.stream := by
  rcases s.send_cases bytes with ⟨heq, hempty⟩ | ⟨heq, _⟩ | ⟨error, refused, heq⟩
  · refine .inl ⟨_, _, heq, ?_⟩
    simp only [stream, accept, Fifo.toList_pushAll, hempty, List.flatMap_nil, List.append_nil]
  · refine .inl ⟨_, _, heq, ?_⟩
    simp only [stream, defer, Fifo.toList_push, List.flatMap_append, List.flatMap_cons,
      List.flatMap_nil, List.append_nil, List.append_assoc]
  · exact .inr ⟨error, _, heq, rfl⟩

/-- The pieces of a waiting send keep their place when it enters the buffer. -/
theorem stream_acceptBacklog (s : Socket) : s.acceptBacklog.stream = s.stream := by
  fun_induction acceptBacklog s with
  | case1 => rfl
  | case2 s bytes backlog hp hfits ih =>
    rw [ih]
    simp only [stream, accept, Fifo.toList_pushAll, Fifo.toList_of_pop? hp, List.flatMap_cons,
      List.append_assoc]
  | case3 => rfl

theorem stream_of_next? {s t : Socket} {uids uids' : UidCounter} {p : Packet}
    (hn : s.next? uids = some (p, t, uids')) : s.stream = p.payload :: t.stream := by
  simp only [next?, Option.map_eq_some_iff, Prod.exists, Prod.mk.injEq] at hn
  obtain ⟨payload, pending, hp, rfl, rfl, rfl⟩ := hn
  have hkept := stream_acceptBacklog { s with pending, buffered := s.buffered - payload }
  show s.stream = payload :: (acceptBacklog _).stream
  rw [hkept]
  simp only [stream, Fifo.toList_of_pop? hp, List.cons_append]

/-- The segments that a socket takes of those handed to it: all before the first that it refuses. -/
def takes (s : Socket) : List Nat → List Nat
  | [] => []
  | size :: rest =>
    match s.send size with
    | (.ok _, t) => size :: t.takes rest
    | (.error _, _) => []

private theorem stream_dispatch_go (s : Socket) (o : DispatchOutcome) (sizes : List Nat) :
    (dispatch.go o s sizes).2.stream = s.stream ++ (s.takes sizes).flatMap (pieces s.mss) := by
  induction sizes generalizing s o with
  | nil => exact (List.append_nil _).symm
  | cons size rest ih =>
    have hmss := (s.continues_send size).mss
    have heq : SegmentSink.send s size = s.send size := rfl
    rw [dispatch.go, takes, heq]
    rcases s.send_stream size with ⟨status, t, hsend, hstream⟩ | ⟨error, t, hsend, hstream⟩ <;>
      rw [hsend] at hmss ⊢
    · show (dispatch.go _ t rest).2.stream = _
      rw [ih, hstream, hmss, List.flatMap_cons, List.append_assoc]
    · exact hstream.trans (List.append_nil _).symm

theorem stream_dispatch (s : Socket) (sizes : List Nat) :
    (dispatch s sizes).2.stream = s.stream ++ (s.takes sizes).flatMap (pieces s.mss) :=
  stream_dispatch_go s {} sizes

end Socket

inductive SocketCall
  | send (bytes : Nat)
  | next
  | close
deriving DecidableEq, Repr

/-- A socket in use, with the sends that it took and the packets that it handed out. -/
structure Exchange where
  socket : Socket
  uids : UidCounter
  taken : List Nat := []
  emitted : List Packet := []

namespace Exchange

def begin (flow : FlowKey) (settings : TransportSettings) (uids : UidCounter) : Exchange :=
  { socket := .idle flow settings, uids }

def call (x : Exchange) : SocketCall → Exchange
  | .send bytes =>
    match x.socket.send bytes with
    | (.ok _, socket) => { x with socket, taken := x.taken ++ [bytes] }
    | (.error _, socket) => { x with socket }
  | .next =>
    match x.socket.next? x.uids with
    | none => x
    | some (p, socket, uids) => { x with socket, uids, emitted := x.emitted ++ [p] }
  | .close => { x with socket := x.socket.close }

def calls (x : Exchange) (cs : List SocketCall) : Exchange := cs.foldl call x

theorem socket_call_send (x : Exchange) (bytes : Nat) :
    (x.call (.send bytes)).socket = (x.socket.send bytes).2 := by
  rw [call]
  split <;> rename_i heq <;> rw [heq]

def drain (x : Exchange) : Exchange :=
  match _ : x.socket.next? x.uids with
  | none => x
  | some (p, socket, uids) => drain { x with socket, uids, emitted := x.emitted ++ [p] }
termination_by x.socket.stream.length
decreasing_by
  have := congrArg List.length (Socket.stream_of_next? ‹_›)
  rw [List.length_cons] at this
  omega

def payloads (x : Exchange) : List Nat := x.emitted.map (·.payload)

/-- What came out and what is to come is what was taken, in pieces. -/
structure Piped (mss : Nat) (x : Exchange) : Prop where
  sound : x.socket.Sound
  mss_eq : x.socket.mss = mss
  conserved : x.payloads ++ x.socket.stream = x.taken.flatMap (pieces mss)

theorem piped_begin (flow : FlowKey) (settings : TransportSettings) (uids : UidCounter) :
    (begin flow settings uids).Piped settings.mss :=
  ⟨Socket.sound_idle flow settings, rfl, rfl⟩

theorem Piped.of_next? {mss : Nat} {x : Exchange} (h : x.Piped mss) {p : Packet} {socket : Socket}
    {uids : UidCounter} (hn : x.socket.next? x.uids = some (p, socket, uids)) :
    ({ x with socket, uids, emitted := x.emitted ++ [p] } : Exchange).Piped mss := by
  obtain ⟨hsound, hreleased, _⟩ := h.sound.of_next? hn
  refine ⟨hsound, hreleased.continues.mss.trans h.mss_eq, ?_⟩
  have hconserved := h.conserved
  rw [Socket.stream_of_next? hn] at hconserved
  simpa only [payloads, List.map_append, List.map_cons, List.map_nil, List.append_assoc,
    List.singleton_append] using hconserved

theorem Piped.call {mss : Nat} {x : Exchange} (h : x.Piped mss) (c : SocketCall) :
    (x.call c).Piped mss := by
  cases c with
  | send bytes =>
    have hsound := h.sound.send bytes
    have hmss := (x.socket.continues_send bytes).mss.trans h.mss_eq
    rw [Exchange.call]
    rcases x.socket.send_stream bytes with ⟨status, t, hsend, hstream⟩ | ⟨error, t, hsend, hstream⟩ <;>
      rw [hsend] at hsound hmss ⊢ <;> refine ⟨hsound, hmss, ?_⟩
    · show x.payloads ++ t.stream = (x.taken ++ [bytes]).flatMap (pieces mss)
      rw [hstream, ← List.append_assoc, h.conserved, h.mss_eq, List.flatMap_append,
        List.flatMap_singleton]
    · show x.payloads ++ t.stream = _
      rw [hstream, h.conserved]
  | next =>
    rw [Exchange.call]
    split
    · exact h
    · rename_i p socket uids hn
      exact h.of_next? hn
  | close => exact ⟨h.sound.close, h.mss_eq, h.conserved⟩

theorem Piped.calls {mss : Nat} {x : Exchange} (h : x.Piped mss) (cs : List SocketCall) :
    (x.calls cs).Piped mss := by
  induction cs generalizing x with
  | nil => exact h
  | cons c cs ih => exact ih (h.call c)

theorem Piped.drain {mss : Nat} {x : Exchange} (h : x.Piped mss) :
    x.drain.Piped mss ∧ x.drain.taken = x.taken ∧ x.drain.socket.next? x.drain.uids = none := by
  fun_induction Exchange.drain x with
  | case1 x hn => exact ⟨h, rfl, hn⟩
  | case2 x p socket uids hn ih => exact ih (h.of_next? hn)

/-- A socket from which no packet comes any more has handed out everything that it took. -/
theorem Piped.payloads_drain {mss : Nat} {x : Exchange} (h : x.Piped mss) :
    x.drain.payloads = x.taken.flatMap (pieces mss) := by
  obtain ⟨hpiped, htaken, hend⟩ := h.drain
  have hempty := hpiped.sound.stream_eq_nil (Socket.next?_eq_none hend)
  have hconserved := hpiped.conserved
  rwa [hempty, List.append_nil, htaken] at hconserved

/-- Whatever is called on a socket, what comes out of it in the end is what it took in pieces, in the order
of the sends. The sizes of the buffer and of the backlog and the moments of the calls have no part in it. -/
theorem drained_payloads_are_pieces_of_sends (flow : FlowKey) (settings : TransportSettings)
    (uids : UidCounter) (cs : List SocketCall) :
    let x := (begin flow settings uids).calls cs
    x.drain.socket.next? x.drain.uids = none ∧
    x.drain.payloads = x.taken.flatMap (pieces settings.mss) ∧
    ∀ flow' settings' uids' cs', settings'.mss = settings.mss →
      ((begin flow' settings' uids').calls cs').taken = x.taken →
      ((begin flow' settings' uids').calls cs').drain.payloads = x.drain.payloads := by
  have hpiped := (piped_begin flow settings uids).calls cs
  refine ⟨hpiped.drain.2.2, hpiped.payloads_drain, fun flow' settings' uids' cs' hmss htaken => ?_⟩
  have hpiped' := (piped_begin flow' settings' uids').calls cs'
  rw [hpiped'.payloads_drain, hpiped.payloads_drain, hmss, htaken]

/-- Of two sends in a row a buffer of 6 bytes defers the second, a large one none. -/
theorem tight_and_roomy_buffers_agree :
    let tight : TransportSettings := { TransportSettings.standard with mss := 4, bufferBytes := 6 }
    let roomy : TransportSettings := { TransportSettings.standard with mss := 4 }
    let flow := videoFlow .tcp .uplink
    let x := (begin flow tight .start).calls [.send 6, .send 5]
    let y := (begin flow roomy .start).calls [.send 6, .send 5]
    x.socket.backlog.toList = [5] ∧ y.socket.backlog.toList = [] ∧
      x.drain.payloads = [4, 2, 4, 1] ∧ y.drain.payloads = x.drain.payloads := by
  intro tight roomy flow x y
  obtain ⟨_, hpayloads, hsame⟩ :=
    drained_payloads_are_pieces_of_sends flow tight .start [.send 6, .send 5]
  exact ⟨rfl, rfl, hpayloads.trans (by decide), hsame flow roomy .start [.send 6, .send 5] rfl rfl⟩

end Exchange

end VideoLink
