import VideoLink.Proofs.Session.Standing

/-! Conservation. Every byte that a source has generated was refused, waits to be paced, waits in the socket
or was counted as sent, and every segment of every frame was refused, waits to be paced or was taken. -/
namespace VideoLink

theorem Draws.take_succ {σ α : Type} [Draws σ α] (n : Nat) (s : σ) : take (n + 1) s =
    ((take n s).1 ++ [(draw (take n s).2).1], (draw (take n s).2).2) := by
  induction n generalizing s with
  | zero => rfl
  | succ n ih =>
    rw [take]
    dsimp only
    rw [ih]
    rfl

section

variable {σ γ : Type} [Draws σ Nat]

/-- The accounts of the video of a direction. Its frames are drawn from `sizes`, the segments in `waiting`
wait to be paced, and `sent` is the traffic that was counted at its sender. -/
structure Generator.Ledger (c : Config) (sizes : σ) (waiting : List Nat) (sent : Traffic)
    (g : Generator σ γ) : Prop where
  supply : g.source.sizes = (Draws.take g.source.stats.frames sizes).2
  frames : g.source.stats.bytes = weight id (Draws.take g.source.stats.frames sizes).1
  bytes : g.source.stats.bytes = g.source.stats.failedBytes + weight id waiting +
    g.socket.unsent + (sent.bytes - c.transport.protocol.overhead * sent.packets)
  headers : c.transport.protocol.overhead * sent.packets ≤ sent.bytes
  packets : g.socket.stats.packets = sent.packets
  issued : g.source.stats.segments = g.socket.stats.accepted + g.socket.backlog.toList.length
  deferred : g.source.stats.deferred = g.socket.stats.deferred
  segments : g.source.stats.segments + g.source.stats.failed + waiting.length =
    weight (· ⌈/⌉ c.maxSegment) (Draws.take g.source.stats.frames sizes).1

namespace Generator.Ledger

variable {c : Config} {sizes : σ} {waiting : List Nat} {sent : Traffic} {g : Generator σ γ}

theorem of_same (h : g.Ledger c sizes waiting sent) {g' : Generator σ γ}
    (hsizes : g'.source.sizes = g.source.sizes) (hstats : g'.source.stats = g.source.stats)
    (hunsent : g'.socket.unsent = g.socket.unsent)
    (hsocket : g'.socket.stats = g.socket.stats)
    (hbacklog : g'.socket.backlog = g.socket.backlog) : g'.Ledger c sizes waiting sent := by
  constructor
  · rw [hsizes, hstats]; exact h.supply
  · rw [hstats]; exact h.frames
  · rw [hstats, hunsent]; exact h.bytes
  · exact h.headers
  · rw [hsocket]; exact h.packets
  · rw [hstats, hsocket, hbacklog]; exact h.issued
  · rw [hstats, hsocket]; exact h.deferred
  · rw [hstats]; exact h.segments

theorem idle (c : Config) (d : Direction) (feed : Feed σ γ) (pending? : Option Ticket) :
    (Generator.idle c d feed pending?).Ledger c feed.sizes [] {} := by
  constructor <;> rfl

theorem of_emit (h : g.Ledger c sizes waiting sent) (hc : 0 < c.maxSegment) {now : Instant}
    {frame : Frame} {source : FrameSource σ} (hemit : g.source.emit now = (frame, source)) :
    ({ g with source } : Generator σ γ).Ledger c sizes
      (waiting ++ pieces c.maxSegment frame.size) sent := by
  simp only [FrameSource.emit, Prod.mk.injEq] at hemit
  obtain ⟨rfl, rfl⟩ := hemit
  have htake := Draws.take_succ g.source.stats.frames sizes
  rw [← h.supply] at htake
  have hbytes := h.bytes
  have hframes := h.frames
  have hsegments := h.segments
  refine ⟨?_, ?_, ?_, h.headers, h.packets, h.issued, h.deferred, ?_⟩ <;>
    dsimp only [GeneratorStats.addFrame]
  · rw [htake]
  · rw [htake, weight_append, weight_cons, weight_nil, id]
    omega
  · rw [weight_append, weight_pieces]
    omega
  · rw [htake, weight_append, weight_cons, weight_nil, List.length_append, length_pieces,
      pieceCount_eq_ceilDiv hc]
    omega

theorem of_dispatch {first rest : List Nat} (h : g.Ledger c sizes (first ++ rest) sent)
    (hsound : g.socket.Sound) {o : DispatchOutcome} {socket : Socket}
    (hsent : dispatch g.socket first = (o, socket)) :
    ({ g with source := g.source.record o, socket } : Generator σ γ).Ledger c sizes rest sent := by
  obtain ⟨_, hd⟩ := hsound.of_dispatch hsent
  have hbytes := h.bytes
  have hsegments := h.segments
  have hissued := h.issued
  have hdeferred := h.deferred
  have htaken := hd.taken
  have hunsent := hd.unsent
  have hcount := hd.segments
  have hsum := hd.bytes
  rw [weight_append] at hbytes
  rw [List.length_append] at hsegments
  unfold Socket.taken at htaken
  refine ⟨h.supply, h.frames, ?_, h.headers, hd.packets.trans h.packets, ?_, ?_, ?_⟩ <;>
    dsimp only [FrameSource.record, GeneratorStats.addOutcome]
  · omega
  · omega
  · rw [hd.deferred, hdeferred]
  · omega

theorem of_frame (h : g.Ledger c sizes [] sent) (hc : 0 < c.maxSegment)
    (hsound : g.socket.Sound) {now : Instant} {frame : Frame} {source : FrameSource σ}
    (hemit : g.source.emit now = (frame, source)) {o : DispatchOutcome} {socket : Socket}
    (hsent : dispatch g.socket (pieces c.maxSegment frame.size) = (o, socket)) :
    ({ g with source := source.record o, socket } : Generator σ γ).Ledger c sizes [] sent := by
  have hframe := h.of_emit hc hemit
  rw [List.nil_append, ← List.append_nil (pieces _ _)] at hframe
  exact hframe.of_dispatch hsound hsent

theorem of_next? (h : g.Ledger c sizes waiting sent) (hsound : g.socket.Sound)
    (hflow : g.socket.flow.protocol = c.transport.protocol) {uids uids' : UidCounter}
    {p : Packet} {socket : Socket} (hnext : g.socket.next? uids = some (p, socket, uids'))
    (now : Instant) : ({ g with socket } : Generator σ γ).Ledger c sizes waiting
      (sent.add p.size now) := by
  obtain ⟨_, hr, _⟩ := hsound.of_next? hnext
  have hbytes := h.bytes
  have hheaders := h.headers
  have hissued := h.issued
  have hunsent := hr.unsent
  have htaken := hr.taken
  unfold Socket.taken at htaken
  have hsize : p.size = c.transport.protocol.overhead + p.payload := by
    rw [Packet.size, hr.flow, hflow]
  have hmore : c.transport.protocol.overhead * (sent.packets + 1) =
      c.transport.protocol.overhead * sent.packets + c.transport.protocol.overhead :=
    Nat.mul_succ _ _
  refine ⟨h.supply, h.frames, ?_, ?_, hr.packets.trans (congrArg (· + 1) h.packets), ?_,
    h.deferred.trans hr.deferred.symm, h.segments⟩ <;> dsimp only [Traffic.add]
  · omega
  · omega
  · omega

theorem halted (h : g.Ledger c sizes waiting sent) : g.halted.Ledger c sizes waiting sent :=
  h.of_same rfl rfl rfl rfl rfl

end Generator.Ledger

end

namespace Session

variable {σ γ : Type} [Draws σ Nat]

/-- The accounts of one direction, with what a monitor counted of its flow. -/
def Entered (c : Config) (feeds : Duplex (Option (Feed σ γ))) (m : Monitor) (d : Direction)
    (g : Generator σ γ) : Prop :=
  ∃ feed, feeds.get d = some feed ∧
    g.Ledger c feed.sizes g.waiting (m.record (videoFlow c.transport.protocol d)).sent

/-- The video of every direction keeps its accounts. -/
def Balanced (c : Config) (feeds : Duplex (Option (Feed σ γ))) (s : Session σ γ) : Prop :=
  ∀ d g, s.generator? d = some g → Entered c feeds s.monitor d g

variable {c : Config} {feeds : Duplex (Option (Feed σ γ))}

theorem Entered.of_sent {m m' : Monitor} {d : Direction} {g : Generator σ γ}
    (h : Entered c feeds m d g) (hsent : (m'.record (videoFlow c.transport.protocol d)).sent =
      (m.record (videoFlow c.transport.protocol d)).sent) : Entered c feeds m' d g := by
  obtain ⟨feed, hfeed, hl⟩ := h
  refine ⟨feed, hfeed, ?_⟩
  rw [hsent]
  exact hl

theorem Entered.of_same {m : Monitor} {d : Direction} {g g' : Generator σ γ}
    (h : Entered c feeds m d g) (hsizes : g'.source.sizes = g.source.sizes)
    (hstats : g'.source.stats = g.source.stats) (hsocket : g'.socket = g.socket)
    (hwaiting : g'.waiting = g.waiting) : Entered c feeds m d g' := by
  obtain ⟨feed, hfeed, hl⟩ := h
  refine ⟨feed, hfeed, ?_⟩
  rw [hwaiting]
  exact hl.of_same hsizes hstats (by rw [hsocket]) (by rw [hsocket]) (by rw [hsocket])

theorem Begins.balanced {s : Session σ γ} (h : s.Begins c feeds) : s.Balanced c feeds := by
  obtain ⟨monitor, _, hm, _, hu, hgen⟩ := h.untouched
  intro d g hfound
  obtain ⟨pending?, hd⟩ := hgen d
  rw [hfound] at hd
  cases hfeed : feeds.get d with
  | none => rw [hfeed] at hd; cases hd
  | some feed =>
    rw [hfeed, Option.map_some, Option.some.injEq] at hd
    have hsent : (s.monitor.record (videoFlow c.transport.protocol d)).sent = {} := by
      obtain ⟨delays, jitters, _, _, rfl⟩ := Monitor.of_new? hm
      rw [hu.monitor]
      rfl
    have hwaiting : g.waiting = [] := by
      rw [hd, Generator.waiting, Generator.idle]
      cases feed.gaps? <;> rfl
    refine ⟨feed, hfeed, ?_⟩
    rw [hsent, hwaiting, hd]
    exact Generator.Ledger.idle c d feed pending?

variable [Draws γ Span]

theorem Move.balanced {now : Instant} {d : Direction} {s t : Session σ γ} (h : Move now d s t)
    (hstanding : s.Standing c) (hc : 0 < c.maxSegment) (hs : s.Balanced c feeds) :
    t.Balanced c feeds := by
  have hsizes : ∀ n, s.segmenter.sizes n = pieces c.maxSegment n := fun n => by
    rw [Segmenter.sizes, hstanding.limit]
  cases h with
  | note | start => exact hs
  | @frame _ _ g frame source o socket hfound hunpaced hemit hsent =>
    obtain ⟨feed, hfeed, hl⟩ := hs _ _ hfound
    have hwaiting : g.waiting = [] := by rw [Generator.waiting, hunpaced, Option.elim_none]
    rw [hwaiting] at hl
    rw [hsizes] at hsent
    refine forall_setGenerator hs ⟨feed, hfeed, ?_⟩
    show Generator.Ledger c feed.sizes g.waiting _ _
    rw [hwaiting]
    exact hl.of_frame hc (hstanding.fit _ _ hfound).sound hemit hsent
  | @paced _ _ g pacer frame source hfound hpaced hemit =>
    obtain ⟨feed, hfeed, hl⟩ := hs _ _ hfound
    rw [Generator.waiting, hpaced] at hl
    refine forall_setGenerator hs ⟨feed, hfeed, ?_⟩
    have hwaiting : (pacer.push (s.segmenter.sizes frame.size)).queued.toList =
        pacer.queued.toList ++ pieces c.maxSegment frame.size := by
      rw [hsizes, Pacer.push, Fifo.toList_pushAll]
    rw [Generator.waiting, Option.elim_some, hwaiting]
    exact (hl.of_emit hc hemit).of_same rfl rfl rfl rfl rfl
  | segment hfound hpaced htake hsent =>
    obtain ⟨feed, hfeed, hl⟩ := hs _ _ hfound
    rw [Generator.waiting, hpaced, Option.elim_some, Pacer.toList_of_take htake] at hl
    refine forall_setGenerator hs ⟨feed, hfeed, ?_⟩
    exact (hl.of_dispatch (hstanding.fit _ _ hfound).sound hsent).of_same rfl rfl rfl rfl rfl
  | @noSegment _ _ g pacer rest hfound hpaced htake =>
    have hwaiting : pacer.queued.toList = rest.queued.toList := Pacer.toList_of_take htake
    refine forall_setGenerator hs ((hs _ _ hfound).of_same rfl rfl rfl ?_)
    rw [Generator.waiting, Generator.waiting, hpaced, Option.elim_some, Option.elim_some, hwaiting]
  | @armPacer _ _ g pacer rest time? events hfound hpaced harm =>
    have hwaiting : rest.queued = pacer.queued := by
      rcases Pacer.arm_cases harm with ⟨rfl, _⟩ | ⟨_, _, _, rfl, _⟩ <;> rfl
    refine forall_setGenerator hs ((hs _ _ hfound).of_same rfl rfl rfl ?_)
    rw [Generator.waiting, Generator.waiting, hpaced, Option.elim_some, Option.elim_some, hwaiting]
  | armSource hfound harm =>
    obtain ⟨_, rfl, _⟩ := FrameSource.arm_cases harm
    exact forall_setGenerator hs ((hs _ _ hfound).of_same rfl rfl rfl rfl)
  | @load _ _ g p socket uids hroom hfound hnext =>
    have hg := hstanding.fit _ _ hfound
    obtain ⟨_, hflow⟩ := hstanding.of_next? hfound hnext
    have hrecord := s.monitor.record_send p.flow p.uid p.size now
    refine forall_setGenerator_of_ne (fun e g' he hfound' => (hs e g' hfound').of_sent ?_) ?_
    -- The video of the other direction has a flow of its own.
    · rw [hrecord, hflow, if_neg fun heq => he (videoFlow_inj heq)]
    · obtain ⟨feed, hfeed, hl⟩ := hs _ _ hfound
      refine ⟨feed, hfeed, ?_⟩
      rw [hrecord, hflow, if_pos rfl]
      apply hl.of_next? hg.sound _ hnext now
      rw [hg.socket.flow, Socket.idle, protocol_videoFlow]
  | count hfound | refuse hfound =>
    exact forall_setGenerator hs ((hs _ _ hfound).of_same rfl rfl rfl rfl)
  | @answer _ _ g acks rest uids ack hfound hacks hcount hroom =>
    have hack := hstanding.flow_of_onData hfound hacks hcount
    have hrecord := s.monitor.record_send ack.flow ack.uid ack.size now
    refine forall_setGenerator (fun e g' hfound' => (hs e g' hfound').of_sent ?_) ?_
    · rw [hrecord, hack, if_neg (reversed_videoFlow_ne _ _ _).symm]
    · refine ((hs _ _ hfound).of_sent ?_).of_same rfl rfl rfl rfl
      rw [hrecord, hack, if_neg (reversed_videoFlow_ne _ _ _).symm]

omit [Draws γ Span] in
theorem Opening.balanced {now : Instant} {s t : Session σ γ} (h : s.Opening now t)
    (hs : s.Balanced c feeds) : t.Balanced c feeds := by
  cases h with
  | tick | due | free => exact hs
  | arrival => exact fun d g hfound => (hs d g hfound).of_sent (s.monitor.sent_receive ..)

theorem Reaches.balanced {s t : Session σ γ} (h : s.Reaches t) (hs : s.Begins c feeds)
    (hrunning : t.summary? = none) : t.Balanced c feeds := by
  apply h.induct_moves hs hrunning (hs.note _).balanced fun _ hu hopen => hopen.balanced hu
  intro u v now d hstanding _ hu hmove
  exact hmove.balanced hstanding hs.positive.maxSegment hu

/-- The stop keeps the accounts, if the segments that it drops still count as waiting. -/
theorem Stops.ledger {s t : Session σ γ} (h : s.Stops t) (hs : s.Balanced c feeds) {d : Direction}
    {g : Generator σ γ} (hfound : s.generator? d = some g) {feed : Feed σ γ}
    (hfeed : feeds.get d = some feed) : t.generator? d = some g.halted ∧
      g.halted.Ledger c feed.sizes g.waiting
        (t.monitor.record (videoFlow c.transport.protocol d)).sent ∧
      Notice.generatorStopped d (weight id g.waiting) g.socket.unsent (s.link.queued d) ∈
        t.journal := by
  obtain ⟨now, events, _, rfl⟩ := h.stop
  obtain ⟨journal, discarded, heq, hnoted⟩ := onStop_eq (s.advanced events) now
  obtain ⟨feed', hfeed', hl⟩ := hs d g hfound
  rw [hfeed, Option.some.injEq] at hfeed'
  subst hfeed'
  rw [heq]
  refine ⟨?_, ?_, hnoted d g hfound⟩
  · show (s.generators.map (Option.map Generator.halted)).get d = some g.halted
    rw [Duplex.get_map, show s.generators.get d = some g from hfound, Option.map_some]
  · have hrecord := s.monitor.record_giveUp now (videoFlow c.transport.protocol d)
    show g.halted.Ledger c feed.sizes g.waiting ((s.monitor.giveUp now).2.record _).sent
    rw [hrecord]
    exact hl.halted

/-- Bytes and segments are conserved in every state of a run, whatever is drawn. At its end the segments
that the stop dropped, which it noted, stand for those that wait. -/
theorem run_conserves_bytes_and_segments {s : Session σ γ} (hs : s.Begins c feeds) {d : Direction}
    {feed : Feed σ γ} (hfeed : feeds.get d = some feed) :
    (∀ t, s.Reaches t → t.summary? = none → ∃ g, t.generator? d = some g ∧
      g.Ledger c feed.sizes g.waiting
        (t.monitor.record (videoFlow c.transport.protocol d)).sent) ∧
    ∃ last g, s.Reaches last ∧ last.Stops s.run.2 ∧ last.generator? d = some g ∧
      s.run.2.generator? d = some g.halted ∧
      g.halted.Ledger c feed.sizes g.waiting
        (s.run.2.monitor.record (videoFlow c.transport.protocol d)).sent ∧
      Notice.generatorStopped d (weight id g.waiting) g.socket.unsent (last.link.queued d) ∈
        s.run.2.journal := by
  have hgenerator : ∀ t : Session σ γ, t.Standing c → ∃ g, t.generator? d = some g := by
    intro t ht
    have hvideo := ht.video d
    rw [← hs.video d, hfeed] at hvideo
    exact Option.isSome_iff_exists.1 hvideo
  constructor
  · intro t hreach hrunning
    obtain ⟨g, hfound⟩ := hgenerator t (hreach.standing hs)
    obtain ⟨feed', hfeed', hl⟩ := hreach.balanced hs hrunning d g hfound
    rw [hfeed, Option.some.injEq] at hfeed'
    exact ⟨g, hfound, hfeed' ▸ hl⟩
  · obtain ⟨last, hreach, hstop, _⟩ := hs.run_stops
    obtain ⟨g, hfound⟩ := hgenerator last (hreach.standing hs)
    have hend := hstop.ledger (hreach.balanced hs hstop.running) hfound hfeed
    exact ⟨last, g, hreach, hstop, hfound, hend⟩

theorem brief_run_conserves : ∃ s : Session (Constant Nat) (Constant Span),
    s.Begins (.brief .tcp) .brief ∧
    ∃ last g, s.Reaches last ∧ last.Stops s.run.2 ∧ last.generator? .downlink = some g ∧
      s.run.2.generator? .downlink = some g.halted ∧
      g.halted.Ledger (.brief .tcp) ⟨7808⟩ g.waiting
        (s.run.2.monitor.record (videoFlow .tcp .downlink)).sent ∧
      Notice.generatorStopped .downlink (weight id g.waiting) g.socket.unsent
        (last.link.queued .downlink) ∈ s.run.2.journal := by
  obtain ⟨s, hs⟩ := exists_brief .tcp
  have hfeed : Duplex.brief.get .downlink = some ⟨⟨7808⟩, some ⟨.ofMillis 1⟩⟩ := rfl
  exact ⟨s, hs, (run_conserves_bytes_and_segments hs hfeed).2⟩

end Session

end VideoLink
