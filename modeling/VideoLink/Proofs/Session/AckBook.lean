import VideoLink.Proofs.Session.Routes

/-! The book of a direction's acknowledgments: what was counted at the far end, what was sent and what was
dropped. It is kept by every event but the arrival of data, which counts one packet and acknowledges the
packets counted so far, if there are enough. -/
namespace VideoLink

theorem Link.drops_stats_setChannel {l : Link} {d : Direction} {x : Channel}
    (h : x.stats.drops = (l.stats d).drops) (e : Direction) :
    ((l.setChannel d x).stats e).drops = (l.stats e).drops := by
  by_cases he : e = d
  · subst he
    rw [stats, channel_setChannel_self, h]
  · rw [stats, channel_setChannel_of_ne _ he]
    rfl

/-- The acknowledgments of the video of one direction. -/
@[ext] structure AckBook where
  counter? : Option AckCounter
  /-- Data packets that arrived. -/
  received : Nat
  sent : Traffic
  /-- Acknowledgments that found a queue full. -/
  dropped : Nat

namespace AckBook

/-- Of `generated` acknowledgments each was sent or dropped, and one was generated for every so many
packets that arrived. -/
structure Settled (every generated : Nat) (b : AckBook) : Prop where
  each : b.sent.packets + b.dropped = generated
  bytes : b.sent.bytes = Protocol.tcp.overhead * b.sent.packets
  due : ∀ acks, b.counter? = some acks → acks.every = every ∧ acks.unanswered < every ∧
    b.received = every * generated + acks.unanswered
  silent : b.counter? = none → generated = 0

variable {every generated : Nat} {b : AckBook} {acks rest : AckCounter} {uids uids' : UidCounter}

theorem Settled.generated_eq (h : b.Settled every generated) (hb : b.counter? = some acks) :
    generated = b.received / every := by
  obtain ⟨_, hlt, hreceived⟩ := h.due acks hb
  rw [hreceived, Nat.mul_add_div (by omega), Nat.div_eq_of_lt hlt, Nat.add_zero]

theorem Settled.ignore (h : b.Settled every generated) (hb : b.counter? = none) :
    { b with received := b.received + 1 }.Settled every generated := by
  refine ⟨h.each, h.bytes, fun acks hacks => ?_, h.silent⟩
  rw [hb] at hacks
  cases hacks

theorem Settled.count (h : b.Settled every generated) (hb : b.counter? = some acks)
    (hcount : acks.onData uids = (none, rest, uids')) :
    { b with received := b.received + 1, counter? := some rest }.Settled every generated := by
  obtain ⟨hevery, hlt, hreceived⟩ := h.due acks hb
  rcases acks.onData_cases uids with ⟨hfew, heq⟩ | ⟨_, heq⟩ <;> rw [heq] at hcount <;> cases hcount
  refine ⟨h.each, h.bytes, fun acks' hacks => ?_, fun hnone => by cases hnone⟩
  cases hacks
  rw [hevery] at hfew
  refine ⟨hevery, hfew, ?_⟩
  show b.received + 1 = every * generated + (acks.unanswered + 1)
  omega

theorem Settled.acknowledge (h : b.Settled every generated) (hb : b.counter? = some acks)
    {ack : Packet} (hcount : acks.onData uids = (some ack, rest, uids')) {sent : Traffic}
    {dropped : Nat} (heach : sent.packets + dropped = generated + 1)
    (hbytes : sent.bytes = Protocol.tcp.overhead * sent.packets) :
    AckBook.Settled every (generated + 1) ⟨some rest, b.received + 1, sent, dropped⟩ := by
  obtain ⟨hevery, hlt, hreceived⟩ := h.due acks hb
  rcases acks.onData_cases uids with ⟨_, heq⟩ | ⟨hdue, heq⟩ <;> rw [heq] at hcount <;> cases hcount
  refine ⟨heach, hbytes, fun acks' hacks => ?_, fun hnone => by cases hnone⟩
  cases hacks
  rw [hevery] at hdue
  refine ⟨hevery, Nat.zero_lt_of_lt hlt, ?_⟩
  show b.received + 1 = every * (generated + 1) + 0
  rw [Nat.mul_succ]
  omega

theorem Settled.send (h : b.Settled every generated) (hb : b.counter? = some acks) {ack : Packet}
    (hcount : acks.onData uids = (some ack, rest, uids')) (hflow : acks.flow.protocol = .tcp)
    (now : Instant) : AckBook.Settled every (generated + 1)
      ⟨some rest, b.received + 1, b.sent.add ack.size now, b.dropped⟩ := by
  have heach := h.each
  have hbytes := h.bytes
  have hsize : ack.size = Protocol.tcp.overhead := by
    obtain ⟨rfl, _⟩ := AckCounter.of_onData hcount
    rw [Packet.size, hflow]
    rfl
  apply h.acknowledge hb hcount
  · show b.sent.packets + 1 + b.dropped = generated + 1
    omega
  · show b.sent.bytes + ack.size = Protocol.tcp.overhead * (b.sent.packets + 1)
    rw [hbytes, hsize, Nat.mul_succ]

theorem Settled.drop (h : b.Settled every generated) (hb : b.counter? = some acks) {ack : Packet}
    (hcount : acks.onData uids = (some ack, rest, uids')) : AckBook.Settled every (generated + 1)
      ⟨some rest, b.received + 1, b.sent, b.dropped + 1⟩ := by
  have heach := h.each
  apply h.acknowledge hb hcount _ h.bytes
  omega

end AckBook

namespace Session

variable {σ γ : Type}

def ackBook (s : Session σ γ) (d : Direction) : AckBook where
  counter? := (s.generator? d).bind (·.acks?)
  received := (s.monitor.record (videoFlow s.config.transport.protocol d)).received.packets
  sent := (s.monitor.record (videoFlow s.config.transport.protocol d).reversed).sent
  dropped := (s.link.stats d.reverse).drops

theorem Begins.ackBook {c : Config} {feeds : Duplex (Option (Feed σ γ))} {s : Session σ γ}
    (h : s.Begins c feeds) (d : Direction) :
    (s.ackBook d).Settled (max c.transport.ackEvery 1) 0 := by
  obtain ⟨_, _, hm, _, hu, hgen⟩ := h.untouched
  obtain ⟨delays, jitters, _, _, rfl⟩ := Monitor.of_new? hm
  have hempty : s.monitor.record = fun _ => .empty delays jitters := by
    rw [hu.monitor]
    rfl
  have hdrops : (s.link.stats d.reverse).drops = 0 := by
    rw [hu.link]
    cases d <;> rfl
  refine ⟨?_, ?_, fun acks hacks => ?_, fun _ => rfl⟩
  · show (s.monitor.record _).sent.packets + (s.link.stats d.reverse).drops = 0
    rw [hempty, hdrops]
    rfl
  · show (s.monitor.record _).sent.bytes = _ * (s.monitor.record _).sent.packets
    rw [hempty]
    rfl
  · obtain ⟨g, hfound, hacks⟩ := Option.bind_eq_some_iff.1 hacks
    obtain ⟨pending?, hd⟩ := hgen d
    rw [hfound] at hd
    obtain ⟨feed, _, rfl⟩ := Option.map_eq_some_iff.1 hd.symm
    unfold Generator.idle at hacks
    have hreceived : (s.ackBook d).received = 0 := by
      show (s.monitor.record _).received.packets = 0
      rw [hempty]
      rfl
    rw [hreceived]
    cases hp : c.transport.protocol with
    | tcp =>
      simp only [hp, Option.some.injEq] at hacks
      subst hacks
      refine ⟨rfl, ?_, rfl⟩
      show 0 < max c.transport.ackEvery 1
      omega
    | udp => simp [hp] at hacks

/-! What keeps the book. -/

section

variable {s : Session σ γ} {d : Direction} {now : Instant}

theorem counter?_setGenerator (s : Session σ γ) (d : Direction) (g : Generator σ γ) (e : Direction) :
    ((s.setGenerator d g).generator? e).bind Generator.acks? =
      if e = d then g.acks? else (s.generator? e).bind Generator.acks? := by
  by_cases he : e = d
  · rw [if_pos he, he, generator?_setGenerator]
    rfl
  · rw [if_neg he, generator?_setGenerator_of_ne _ he]

theorem ackBook_setGenerator {g g' : Generator σ γ} (hfound : s.generator? d = some g)
    (hacks : g'.acks? = g.acks?) : (s.setGenerator d g').ackBook = s.ackBook := by
  funext e
  have hcounter : ((s.setGenerator d g').generator? e).bind Generator.acks? =
      (s.generator? e).bind Generator.acks? := by
    rw [counter?_setGenerator]
    split
    · rename_i he
      rw [he, hfound]
      exact hacks
    · rfl
  exact AckBook.ext hcounter rfl rfl rfl

theorem drops_of_start? {l link : Link} {x : Transmission} (h : l.start? d now = some (x, link))
    (e : Direction) : (link.stats e).drops = (l.stats e).drops := by
  obtain ⟨_, _, _, _, _, rfl⟩ := start?_eq_some h
  exact l.drops_stats_setChannel (by rfl) e

theorem ackBook_link (link : Link) (h : ∀ e, (link.stats e).drops = (s.link.stats e).drops) :
    ({ s with link } : Session σ γ).ackBook = s.ackBook := by
  funext e
  exact AckBook.ext rfl rfl rfl (h e.reverse)

theorem ackBook_recordDispatch {g g' : Generator σ γ} (hfound : s.generator? d = some g)
    (hacks : g'.acks? = g.acks?) (o : DispatchOutcome) (socket : Socket) :
    (s.recordDispatch d g' o socket).ackBook = s.ackBook := by
  unfold recordDispatch
  cases failureNotice? d o with
  | none => exact ackBook_setGenerator hfound hacks
  | some n => exact ackBook_setGenerator (s := s.note n) hfound hacks

theorem ackBook_afterSegment {g : Generator σ γ} (hfound : s.generator? d = some g)
    (pacer? : Option (Pacer γ)) (size? : Option Nat) :
    (s.afterSegment d { g with pacer? } size?).ackBook = s.ackBook := by
  cases size? with
  | none => exact ackBook_setGenerator hfound rfl
  | some size => exact ackBook_recordDispatch hfound (by rfl) _ _

theorem ackBook_armSource : (s.armSource d).ackBook = s.ackBook := by
  unfold armSource
  split
  · rfl
  · rename_i g hfound
    generalize g.source.arm s.events (.frameTick d) = r
    obtain ⟨_, source, events⟩ := r
    exact ackBook_setGenerator (s := { s with events }) hfound rfl

theorem ackBook_startWire : (s.startWire d now).ackBook = s.ackBook := by
  rcases s.startWire_cases d now with ⟨_, heq⟩ | ⟨x, link, journal, capture, hstart, heq⟩ <;> rw [heq]
  exact ackBook_link link (drops_of_start? hstart)

theorem ackBook_onStop : (s.onStop now).ackBook = s.ackBook := by
  obtain ⟨journal, discarded, heq, _⟩ := onStop_eq s now
  rw [heq]
  funext e
  have hcounter : ((s.generators.map (Option.map Generator.halted)).get e).bind Generator.acks? =
      (s.generator? e).bind Generator.acks? := by
    rw [Duplex.get_map, generator?]
    cases s.generators.get e <;> rfl
  have hsent : ∀ k, ((s.monitor.giveUp now).2.record k).sent = (s.monitor.record k).sent ∧
      ((s.monitor.giveUp now).2.record k).received = (s.monitor.record k).received := by
    intro k
    rw [Monitor.record_giveUp]
    exact ⟨rfl, rfl⟩
  exact AckBook.ext hcounter (congrArg Traffic.packets (hsent _).2) (hsent _).1 rfl

theorem Standing.ackBook_load? {c : Config} {t : Session σ γ} (hs : s.Standing c)
    (h : s.load? d now = some t) : t.ackBook = s.ackBook := by
  obtain ⟨g, p, socket, uids, hfound, hnext, rfl⟩ := load?_eq_some h
  obtain ⟨_, hflow⟩ := hs.of_next? hfound hnext
  have hrecord := s.monitor.record_send p.flow p.uid p.size now
  -- The far end keeps its counter, so the book may be read off the session with the new socket.
  have hset := ackBook_setGenerator hfound (show ({ g with socket } : Generator σ γ).acks? = _ from rfl)
  rw [← hset]
  funext e
  have hdrops : ((s.link.push d p).stats e.reverse).drops = (s.link.stats e.reverse).drops :=
    s.link.drops_stats_setChannel (by rfl) e.reverse
  have hsent : ((s.monitor.send p.flow p.uid p.size now).record
      (videoFlow s.config.transport.protocol e).reversed).sent =
        (s.monitor.record (videoFlow s.config.transport.protocol e).reversed).sent := by
    rw [hrecord, hflow, hs.config, if_neg (reversed_videoFlow_ne _ _ _)]
  have hreceived := s.monitor.received_send p.flow p.uid p.size now
    (videoFlow s.config.transport.protocol e)
  exact AckBook.ext rfl (congrArg Traffic.packets hreceived) hsent hdrops

variable [Draws γ Span]

theorem ackBook_armPacer : (s.armPacer d now).ackBook = s.ackBook := by
  unfold armPacer
  split
  · rfl
  · rename_i g hfound
    split
    · rfl
    · rename_i pacer hpaced
      generalize pacer.arm s.events now (.segmentDue d) = r
      obtain ⟨_, rest, events⟩ := r
      exact ackBook_setGenerator (s := { s with events }) hfound rfl

theorem ackBook_hand {g : Generator σ γ} (hfound : s.generator? d = some g) (source : FrameSource σ)
    (frame : Frame) : (s.hand d now { g with source } frame).ackBook = s.ackBook := by
  unfold hand
  dsimp only
  split
  · rename_i pacer hpaced
    generalize (pacer.push (s.segmenter.sizes frame.size)).arm s.events now (.segmentDue d) = r
    obtain ⟨_, rest, events⟩ := r
    exact ackBook_setGenerator (s := { s with events }) hfound rfl
  · exact ackBook_recordDispatch hfound (by rfl) _ _

variable [Draws σ Nat] {c : Config}

theorem Standing.ackBook_loadUpTo (n : Nat) (hs : s.Standing c) (hn : n ≤ s.link.room d) :
    (loadUpTo d now n s).ackBook = s.ackBook := by
  induction n generalizing s with
  | zero => rfl
  | succ n ih =>
    rw [loadUpTo]
    cases hload : s.load? d now with
    | none => rfl
    | some t =>
      obtain ⟨hmove, hleft⟩ := move_load? hload hn
      have hone := hs.ackBook_load? hload
      have hrest := ih (hmove.standing hs) hleft
      exact hrest.trans hone

theorem Standing.ackBook_fill (hs : s.Standing c) : (s.fill d now).ackBook = s.ackBook := by
  rw [fill_eq, ackBook_startWire]
  exact hs.ackBook_loadUpTo _ (Nat.le_refl _)

theorem Standing.ackBook_onFrameTick (hs : s.Standing c) :
    (s.onFrameTick d now).ackBook = s.ackBook := by
  cases hfound : s.generator? d with
  | none =>
    unfold onFrameTick
    rw [hfound]
  | some g =>
    obtain ⟨⟨frame, source⟩, hemit⟩ : ∃ r, g.source.emit now = r := ⟨_, rfl⟩
    have hnoted : Move now d s (s.note (.frameGenerated frame.index frame.size now)) :=
      .note d s _ s.capture
    have hhand := moves_hand (s := s.note (.frameGenerated frame.index frame.size now)) hfound hemit
    have hmoves := (Moves.trans (.single hnoted) hhand).trans (moves_armSource _ d now)
    rw [onFrameTick_of_found hfound hemit, (hmoves.standing hs).1.ackBook_fill, ackBook_armSource,
      ackBook_hand (by exact hfound)]
    rfl

theorem Standing.ackBook_onSegmentDue (hs : s.Standing c) :
    (s.onSegmentDue d now).ackBook = s.ackBook := by
  cases hfound : s.generator? d with
  | none =>
    unfold onSegmentDue
    rw [hfound]
  | some g =>
    cases hpaced : g.pacer? with
    | none =>
      unfold onSegmentDue
      rw [hfound]
      dsimp only
      rw [hpaced]
    | some pacer =>
      obtain ⟨⟨size?, rest⟩, htake⟩ : ∃ r, pacer.take = r := ⟨_, rfl⟩
      have hmoves := (moves_afterSegment hfound hpaced htake).trans (moves_armPacer _ d now)
      rw [onSegmentDue_of_found hfound hpaced htake, (hmoves.standing hs).1.ackBook_fill,
        ackBook_armPacer, ackBook_afterSegment hfound]

end

/-! What an arrival enters in the book. -/

section

variable {s : Session σ γ} {d : Direction} {now : Instant}

theorem ackBook_receive {p : Packet} {sentAt : Instant}
    (hknown : s.monitor.inFlight[p.uid]? = some ⟨p.flow, sentAt⟩) (hle : sentAt ≤ now)
    (hroute : s.config.Routes d p) (e : Direction) :
    ({ s with monitor := (s.monitor.receive p.flow p.uid p.size now).2 } : Session σ γ).ackBook e =
      if p.kind = .data ∧ e = d then
        { s.ackBook e with received := (s.ackBook e).received + 1 }
      else s.ackBook e := by
  have hsent := s.monitor.sent_receive p.flow p.uid p.size now
    (videoFlow s.config.transport.protocol e).reversed
  have hrecord := Monitor.record_receive_of_known hknown hle p.size
    (videoFlow s.config.transport.protocol e)
  split
  · rename_i hdata
    obtain ⟨hp, rfl⟩ := hdata
    rw [if_pos (hroute.of_data hp).symm] at hrecord
    exact AckBook.ext rfl (congrArg (·.received.packets) hrecord) hsent rfl
  · rename_i hother
    have hne : videoFlow s.config.transport.protocol e ≠ p.flow := by
      cases hp : p.kind with
      | data =>
        rw [hroute.of_data hp]
        exact fun heq => hother ⟨hp, videoFlow_inj heq⟩
      | ack =>
        rw [hroute.of_ack hp]
        exact (reversed_videoFlow_ne _ _ _).symm
    rw [if_neg hne] at hrecord
    exact AckBook.ext rfl (congrArg (·.received.packets) hrecord) hsent rfl

theorem ackBook_counted (g : Generator σ γ) (rest : AckCounter) (uids : UidCounter) (e : Direction) :
    ({ s with uids }.setGenerator d { g with acks? := some rest }).ackBook e =
      if e = d then { s.ackBook e with counter? := some rest } else s.ackBook e := by
  have hcounter := s.counter?_setGenerator d { g with acks? := some rest } e
  split <;> rename_i he
  · rw [if_pos he] at hcounter
    exact AckBook.ext hcounter rfl rfl rfl
  · rw [if_neg he] at hcounter
    exact AckBook.ext hcounter rfl rfl rfl

theorem ackBook_answered (g : Generator σ γ) (rest : AckCounter) (uids : UidCounter) {ack : Packet}
    (hflow : ack.flow = (videoFlow s.config.transport.protocol d).reversed) (e : Direction) :
    ({ s.setGenerator d { g with acks? := some rest } with
      uids
      link := s.link.push d.reverse ack
      monitor := s.monitor.send ack.flow ack.uid ack.size now } : Session σ γ).ackBook e =
      if e = d then
        { s.ackBook e with counter? := some rest, sent := (s.ackBook e).sent.add ack.size now }
      else s.ackBook e := by
  have hcounter := s.counter?_setGenerator d { g with acks? := some rest } e
  have hreceived := s.monitor.received_send ack.flow ack.uid ack.size now
    (videoFlow s.config.transport.protocol e)
  have hrecord := s.monitor.record_send ack.flow ack.uid ack.size now
    (videoFlow s.config.transport.protocol e).reversed
  have hdrops : ((s.link.push d.reverse ack).stats e.reverse).drops = (s.link.stats e.reverse).drops :=
    s.link.drops_stats_setChannel (by rfl) e.reverse
  split <;> rename_i he
  · subst he
    rw [if_pos rfl] at hcounter
    have hsent : ((s.monitor.send ack.flow ack.uid ack.size now).record
        (videoFlow s.config.transport.protocol e).reversed).sent =
          (s.ackBook e).sent.add ack.size now := by
      rw [hrecord, if_pos hflow.symm, hflow]
      rfl
    exact AckBook.ext hcounter (congrArg Traffic.packets hreceived) hsent hdrops
  · have hne : (videoFlow s.config.transport.protocol e).reversed ≠ ack.flow := by
      rw [hflow]
      exact fun heq => he (videoFlow_inj (congrArg FlowKey.reversed heq))
    rw [if_neg he] at hcounter
    rw [if_neg hne] at hrecord
    exact AckBook.ext hcounter (congrArg Traffic.packets hreceived) (congrArg FlowRecord.sent hrecord)
      hdrops

theorem ackBook_refused (g : Generator σ γ) (rest : AckCounter) (uids : UidCounter) {ack : Packet}
    (hfull : ¬ s.link.queued d.reverse < s.link.settings.capacity) (journal : Array Notice)
    (e : Direction) :
    ({ s.setGenerator d { g with acks? := some rest } with
      uids
      link := (s.link.enqueue d.reverse ack).2
      journal } : Session σ γ).ackBook e =
      if e = d then { s.ackBook e with counter? := some rest, dropped := (s.ackBook e).dropped + 1 }
      else s.ackBook e := by
  have hcounter := s.counter?_setGenerator d { g with acks? := some rest } e
  have hlink := congrArg Prod.snd (enqueue_of_full hfull ack)
  split <;> rename_i he
  · subst he
    rw [if_pos rfl] at hcounter
    have hdrops : ((s.link.enqueue e.reverse ack).2.stats e.reverse).drops =
        (s.link.stats e.reverse).drops + 1 := by
      rw [hlink, Link.stats, Link.channel_setChannel_self]
      rfl
    exact AckBook.ext hcounter rfl rfl hdrops
  · -- The acknowledgments of the two directions go into different queues.
    have hne : e.reverse ≠ d.reverse := by
      intro heq
      rw [← d.reverse_reverse, ← heq, e.reverse_reverse] at he
      exact he rfl
    have hdrops : ((s.link.enqueue d.reverse ack).2.stats e.reverse).drops =
        (s.link.stats e.reverse).drops := by
      rw [hlink, Link.stats, Link.channel_setChannel_of_ne _ hne]
      rfl
    rw [if_neg he] at hcounter
    exact AckBook.ext hcounter rfl rfl hdrops

end

end Session

end VideoLink
