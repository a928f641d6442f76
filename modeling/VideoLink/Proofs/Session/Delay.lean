import VideoLink.Proofs.Measure.DelayBins
import VideoLink.Proofs.Session.Ending
import VideoLink.Proofs.Session.Timing
import VideoLink.Proofs.Transport.Pipe

/-! How long a packet is under way. In the queue it waits for the packet on the wire and for those before
it, one slot at most for each, since the wire is never idle while a packet waits. Then it passes onto the
wire and takes the delay of the link. -/
namespace VideoLink

theorem LinkSettings.serialization_mono (s : LinkSettings) {m n : Nat} (h : m ≤ n) :
    s.serialization m ≤ s.serialization n := by
  have hbits : m * 8 * nanosPerSecond ≤ n * 8 * nanosPerSecond :=
    Nat.mul_le_mul_right _ (Nat.mul_le_mul_right _ h)
  have hdiv : m * 8 * nanosPerSecond / max s.rate 1 ≤ n * 8 * nanosPerSecond / max s.rate 1 :=
    Nat.div_le_div_right hbits
  rw [Span.le_iff]
  dsimp only [serialization]
  omega

/-- The nanoseconds in which the greatest packet of a run passes onto the wire. -/
def Config.slot (c : Config) : Nat :=
  (c.link.serialization (c.transport.protocol.overhead + c.transport.mss)).nanos

theorem Config.Carries.protocol {c : Config} {k : FlowKey} (h : c.Carries k) :
    k.protocol = c.transport.protocol := by
  obtain ⟨d, _, rfl | ⟨_, rfl⟩⟩ := h <;> exact protocol_videoFlow _ d

theorem Generator.Fit.le_of_dispatch {σ γ : Type} {c : Config} {d : Direction}
    {g : Generator σ γ} (hg : g.Fit c d) (hmss : 0 < c.transport.mss)
    (hs : ∀ n ∈ g.socket.stream, n ≤ c.transport.mss) {sizes : List Nat} {o : DispatchOutcome}
    {socket : Socket} (hsent : dispatch g.socket sizes = (o, socket)) :
    ∀ n ∈ socket.stream, n ≤ c.transport.mss := by
  have hstream := g.socket.stream_dispatch sizes
  rw [hsent, hg.socket.mss] at hstream
  intro n hn
  rw [hstream, List.mem_append, List.mem_flatMap] at hn
  rcases hn with hn | ⟨bytes, _, hn⟩
  · exact hs n hn
  · exact le_of_mem_pieces hmss hn

namespace Session

variable {σ γ : Type}

/-! The sizes of the packets. -/

/-- No payload that is to come is greater than the configuration allows. -/
structure Sized (c : Config) (s : Session σ γ) : Prop where
  queued : ∀ d, ∀ p ∈ (s.link.channel d).queue.toList, p.payload ≤ c.transport.mss
  unsent : ∀ d g, s.generator? d = some g → ∀ n ∈ g.socket.stream, n ≤ c.transport.mss

theorem Begins.sized {c : Config} {feeds : Duplex (Option (Feed σ γ))} {s : Session σ γ}
    (h : s.Begins c feeds) : s.Sized c := by
  obtain ⟨_, _, _, _, hu, hgen⟩ := h.untouched
  constructor
  · intro d p hp
    rw [hu.link] at hp
    cases d <;> cases hp
  · intro d g hfound n hn
    obtain ⟨pending?, hd⟩ := hgen d
    rw [hfound] at hd
    obtain ⟨feed, _, rfl⟩ := Option.map_eq_some_iff.1 hd.symm
    cases hn

theorem Opening.sized {now : Instant} {c : Config} {s t : Session σ γ} (h : s.Opening now t)
    (hs : s.Sized c) : t.Sized c := by
  obtain ⟨_, _, _, hgen⟩ := h.popped
  refine ⟨fun d => by rw [h.queue d]; exact hs.queued d, fun d g hfound => hs.unsent d g ?_⟩
  rw [generator?, ← hgen]
  exact hfound

variable [Draws σ Nat] [Draws γ Span]

theorem Move.sized {now : Instant} {d : Direction} {c : Config} {s t : Session σ γ}
    (h : Move now d s t) (hstanding : s.Standing c) (hmss : 0 < c.transport.mss) (hs : s.Sized c) :
    t.Sized c := by
  constructor
  · intro e p hp
    cases h.route hstanding with
    | kept _ hqueue =>
      rw [hqueue e] at hp
      exact hs.queued e p hp
    | entered q _ hsource _ hlink =>
      rw [hlink, queue_push, List.mem_append] at hp
      rcases hp with hp | hp
      · exact hs.queued e p hp
      · obtain ⟨rfl, rfl⟩ : e = d ∧ p = q := by simpa using hp
        rcases hsource with hzero | ⟨g, socket, uids, hfound, hnext⟩
        · omega
        · refine hs.unsent e g hfound p.payload ?_
          rw [Socket.stream_of_next? hnext]
          exact List.mem_cons_self
    | taken x link hstart heq =>
      rw [heq] at hp
      refine hs.queued e p ?_
      rw [queue_start? hstart e]
      exact List.mem_append_right _ hp
  · cases h with
    | note | start => exact hs.unsent
    | frame hfound _ _ hsent | segment hfound _ _ hsent =>
      exact forall_setGenerator hs.unsent
        ((hstanding.fit _ _ hfound).le_of_dispatch hmss (hs.unsent _ _ hfound) hsent)
    | paced hfound | noSegment hfound | armPacer hfound | armSource hfound | count hfound
    | answer hfound | refuse hfound =>
      have hg := hs.unsent _ _ hfound
      exact forall_setGenerator hs.unsent hg
    | load _ hfound hnext =>
      refine forall_setGenerator hs.unsent fun n hn => hs.unsent _ _ hfound n ?_
      rw [Socket.stream_of_next? hnext]
      exact List.mem_cons_of_mem _ hn

/-! What the monitor knows. -/

/-- The monitor knows when a packet was sent. -/
def Known (s : Session σ γ) (p : Packet) (sentAt : Instant) : Prop :=
  s.monitor.inFlight[p.uid]? = some ⟨p.flow, sentAt⟩

section

variable {c : Config} {now : Instant} {s t : Session σ γ}

omit [Draws σ Nat] [Draws γ Span]

theorem Steady.le_of_known (hs : s.Steady c now) {p : Packet} (hp : p ∈ s.underWay)
    {sentAt : Instant} (h : s.Known p sentAt) : sentAt ≤ now := by
  obtain ⟨time, hknown, hle⟩ := hs.accounted.tally.known hp
  unfold Known at h
  rw [hknown, Option.some.injEq, InFlight.mk.injEq] at h
  rw [← h.2, ← hs.time]
  exact hle

theorem Steady.known_send (hs : s.Steady c now) {p q : Packet} (hp : p.uid = s.uids.next)
    (hq : q ∈ s.underWay) {sentAt : Instant} (h : s.Known q sentAt) :
    (s.monitor.send p.flow p.uid p.size now).inFlight[q.uid]? = some ⟨q.flow, sentAt⟩ := by
  have hlt := hs.accounted.tally.numbered q hq
  have hne : p.uid ≠ q.uid := by omega
  change (s.monitor.inFlight.insert p.uid ⟨p.flow, now⟩)[q.uid]? = _
  rw [Std.TreeMap.getElem?_insert, if_neg (by simpa using hne)]
  exact h

theorem Opening.known {before : Instant} (h : s.Opening now t) (hs : s.Steady c before) {p : Packet}
    (hp : p ∈ t.underWay) {sentAt : Instant} (hknown : s.Known p sentAt) : t.Known p sentAt := by
  obtain ⟨_, hle, _⟩ := h.standing hs.standing
  obtain ⟨_, _, ⟨_, hmonitor⟩ | ⟨q, hunder, hmonitor⟩⟩ := h.traced
  · unfold Known
    rw [hmonitor]
    exact hknown
  · have htally := hs.accounted.tally.later (Nat.le_refl _) hle
    rw [hunder] at htally
    obtain ⟨time, hq, hpast⟩ := htally.known List.mem_cons_self
    have hnodup := htally.nodup
    rw [List.map_cons, List.nodup_cons] at hnodup
    have hne : q.uid ≠ p.uid := fun heq => hnodup.1 (heq ▸ List.mem_map_of_mem hp)
    unfold Known
    rw [hmonitor, Monitor.receive_of_known hq hpast q.size]
    change (s.monitor.inFlight.erase q.uid)[p.uid]? = _
    rw [Std.TreeMap.getElem?_erase, if_neg (by simpa using hne)]
    exact hknown

end

/-! Waiting. -/

/-- How long the packets of a run have to wait. A packet in a queue takes the wire after those before it, one
slot for each, and a packet on its way has an arrival that is neither early nor late. -/
structure Waits (c : Config) (s : Session σ γ) : Prop where
  soon : ∀ d free, s.FreeAt d free → free.nanos ≤ s.events.now.nanos + c.slot
  queued : ∀ d free i p, s.FreeAt d free → (s.link.channel d).queue.toList[i]? = some p →
    ∃ sentAt, s.Known p sentAt ∧
      free.nanos + i * c.slot ≤ sentAt.nanos + c.link.capacity * c.slot
  coming : ∀ ticket d p, (ticket, Event.arrival d p) ∈ s.events.toList → ∃ sentAt, s.Known p sentAt ∧
    (sentAt.after (c.link.serialization p.size)).after c.link.delay ≤ ticket.time ∧
    ticket.time.nanos ≤ sentAt.nanos + (c.link.capacity + 1) * c.slot + c.link.delay.nanos

section

variable {c : Config} {now : Instant} {s t : Session σ γ}

omit [Draws σ Nat] [Draws γ Span]

theorem Steady.serialization_le (hs : s.Steady c now) (hsized : s.Sized c) {d : Direction}
    {p : Packet} (hp : p ∈ (s.link.channel d).queue.toList) :
    (c.link.serialization p.size).nanos ≤ c.slot := by
  have hprotocol := (hs.accounted.carried p (mem_underWay_of_queued hp)).protocol
  have hpayload := hsized.queued d p hp
  refine c.link.serialization_mono ?_
  rw [Packet.size, hprotocol]
  omega

theorem Begins.waits {feeds : Duplex (Option (Feed σ γ))} (h : s.Begins c feeds) : s.Waits c := by
  obtain ⟨_, _, _, _, hu, _⟩ := h.untouched
  have hnone : ∀ ticket e, (ticket, e) ∈ s.events.toList → e = .stop ∨ ∃ d, e = .frameTick d :=
    fun ticket e ha => hu.events (ticket, e) ha
  refine ⟨fun d free hfree => ?_, fun d free i p _ hp => ?_, fun ticket d p ha => ?_⟩
  · rcases hfree with ⟨_, rfl⟩ | ⟨number, ha⟩
    · exact Nat.le_add_right _ _
    · rcases hnone _ _ ha with heq | ⟨_, heq⟩ <;> cases heq
  · rw [hu.link] at hp
    cases d <;> cases hp
  · rcases hnone _ _ ha with heq | ⟨_, heq⟩ <;> cases heq

theorem Opening.waits {before : Instant} (h : s.Opening now t) (hs : s.Steady c before)
    (hall : ∀ d, s.Conserves d) (hw : s.Waits c) : t.Waits c := by
  obtain ⟨_, hle, hnow⟩ := h.standing hs.standing
  have hnanos : s.events.now.nanos ≤ now.nanos := hle
  refine ⟨fun d free hfree => ?_, fun d free i p hfree hp => ?_, fun ticket d p ha => ?_⟩
  · rw [hnow]
    rcases h.freeAt hs.standing hfree with hold | ⟨_, _, rfl⟩
    · have hsoon := hw.soon d free hold
      omega
    · exact Nat.le_add_right _ _
  · have hunder := mem_underWay_of_queued (List.mem_of_getElem? hp)
    rw [h.queue d] at hp
    rcases h.freeAt hs.standing hfree with hold | ⟨hidle, _, _⟩
    · obtain ⟨sentAt, hknown, hbound⟩ := hw.queued d free i p hold hp
      exact ⟨sentAt, h.known hs hunder hknown, hbound⟩
    · -- Nothing waits for a wire that was idle before the event.
      rw [(hall d hidle).1] at hp
      cases hp
  · have hunder := mem_underWay_of_coming ha rfl
    obtain ⟨sentAt, hknown, hbounds⟩ := hw.coming ticket d p (h.mem_events ha)
    exact ⟨sentAt, h.known hs hunder hknown, hbounds⟩

/-- A packet that enters a queue waits for the packet on the wire and for those before it. -/
theorem Waits.entered {d : Direction} {p : Packet} (hw : s.Waits c) (hs : s.Steady c now)
    (hquiet : s.Quiet t) (hnumber : p.uid = s.uids.next)
    (hroom : s.link.queued d < s.link.settings.capacity) (hlink : t.link = s.link.push d p)
    (hmonitor : t.monitor = s.monitor.send p.flow p.uid p.size now) : t.Waits c := by
  have hkept : ∀ q ∈ s.underWay, ∀ sentAt, s.Known q sentAt → t.Known q sentAt := by
    intro q hq sentAt hknown
    unfold Known
    rw [hmonitor]
    exact hs.known_send hnumber hq hknown
  refine ⟨fun e free hfree => ?_, fun e free i q hfree hq => ?_, fun ticket e q ha => ?_⟩
  · rw [hquiet.time]
    exact hw.soon e free (hquiet.freeAt hfree)
  · rw [hlink, queue_push] at hq
    have hlength := (s.link.channel e).queue.length_toList
    rcases Nat.lt_or_ge i (s.link.channel e).queue.toList.length with hlt | hge
    · rw [List.getElem?_append_left hlt] at hq
      obtain ⟨sentAt, hknown, hbound⟩ := hw.queued e free i q (hquiet.freeAt hfree) hq
      exact ⟨sentAt, hkept q (mem_underWay_of_queued (List.mem_of_getElem? hq)) sentAt hknown, hbound⟩
    · rw [List.getElem?_append_right hge] at hq
      -- Beyond the old queue there is only the new packet.
      obtain ⟨rfl, rfl, hzero⟩ : e = d ∧ q = p ∧ i - (s.link.channel e).queue.toList.length = 0 := by
        have hmem := List.mem_of_getElem? hq
        obtain ⟨rfl, rfl⟩ : e = d ∧ q = p := by simpa using hmem
        have hlt := (List.getElem?_eq_some_iff.1 hq).1
        rw [if_pos rfl, List.length_singleton] at hlt
        exact ⟨rfl, rfl, by omega⟩
      refine ⟨now, ?_, ?_⟩
      · unfold Known
        rw [hmonitor]
        exact Std.TreeMap.getElem?_insert_self
      · have hsoon := hw.soon e free (hquiet.freeAt hfree)
        rw [hs.time] at hsoon
        rw [hs.standing.settings, Link.queued] at hroom
        have hslots : (i + 1) * c.slot ≤ c.link.capacity * c.slot :=
          Nat.mul_le_mul_right _ (by omega)
        rw [Nat.add_mul] at hslots
        omega
  · have hold := hquiet.arrivals ticket e q ha
    obtain ⟨sentAt, hknown, hbounds⟩ := hw.coming ticket e q hold
    exact ⟨sentAt, hkept q (mem_underWay_of_coming hold rfl) sentAt hknown, hbounds⟩

/-- The head of a queue arrives a delay after its end on the wire, which is neither early nor late. -/
theorem Waits.le_arrival {d : Direction} {x : Transmission} {link : Link} (hw : s.Waits c)
    (hs : s.Steady c now) (hsized : s.Sized c) (hstart : s.link.start? d now = some (x, link)) :
    x.finish.nanos ≤ now.nanos + c.slot ∧ ∃ sentAt, s.Known x.packet sentAt ∧
      (sentAt.after (c.link.serialization x.packet.size)).after c.link.delay ≤ x.arrival ∧
      x.arrival.nanos ≤ sentAt.nanos + (c.link.capacity + 1) * c.slot + c.link.delay.nanos := by
  obtain ⟨_, _, _, hfinish, harrival, _⟩ := start?_eq_some hstart
  rw [hs.standing.settings] at hfinish harrival
  have hfirst : (s.link.channel d).queue.toList[0]? = some x.packet := by
    rw [queue_start? hstart d, if_pos rfl]
    rfl
  have hhead := List.mem_of_getElem? hfirst
  have hslot := hs.serialization_le hsized hhead
  have hend : x.finish.nanos ≤ now.nanos + c.slot := by
    rw [hfinish, Instant.nanos_after]
    omega
  obtain ⟨sentAt, hknown, hbound⟩ := hw.queued d now 0 x.packet (hs.freeAt_of_start? hstart) hfirst
  have hpast := hs.le_of_known (mem_underWay_of_queued hhead) hknown
  refine ⟨hend, sentAt, hknown, ?_, ?_⟩
  · rw [harrival, hfinish]
    exact Instant.after_le_after (Instant.after_le_after hpast _) _
  · rw [harrival, Instant.nanos_after, Nat.add_mul]
    omega

/-- When a packet takes the wire, those behind it move up by one. -/
theorem Waits.taken {d : Direction} {x : Transmission} {link : Link} (hw : s.Waits c)
    (hs : s.Steady c now) (hsized : s.Sized c) (hstart : s.link.start? d now = some (x, link)) :
    (s.started d x link).Waits c := by
  obtain ⟨hend, harrives⟩ := hw.le_arrival hs hsized hstart
  have hqueue := queue_start? hstart
  have htime : (s.started d x link).events.now = now := hs.time
  refine ⟨fun e free hfree => ?_, fun e free i p hfree hp => ?_, fun ticket e p ha => ?_⟩
  · rw [htime]
    rcases hs.freeAt_started hstart hfree with ⟨_, rfl⟩ | ⟨_, hother⟩
    · exact hend
    · have hsoon := hw.soon e free hother
      rwa [hs.time] at hsoon
  · change (link.channel e).queue.toList[i]? = some p at hp
    rcases hs.freeAt_started hstart hfree with ⟨rfl, rfl⟩ | ⟨hne, hother⟩
    · have hbehind : (s.link.channel e).queue.toList[i + 1]? = some p := by
        rw [hqueue e, if_pos rfl]
        exact hp
      obtain ⟨sentAt, hknown, hbound⟩ :=
        hw.queued e now (i + 1) p (hs.freeAt_of_start? hstart) hbehind
      refine ⟨sentAt, hknown, ?_⟩
      rw [Nat.add_mul] at hbound
      omega
    · refine hw.queued e free i p hother ?_
      rw [hqueue e, if_neg hne]
      exact hp
  · rcases (hs.mem_started hstart).1 ha with heq | heq | hold
    · cases heq
      exact harrives
    · cases heq
    · exact hw.coming ticket e p hold

end

theorem Move.waits {now : Instant} {d : Direction} {c : Config} {s t : Session σ γ}
    (h : Move now d s t) (hs : s.Steady c now) (hsized : s.Sized c) (hw : s.Waits c) : t.Waits c := by
  cases h.route hs.standing with
  | kept hbusy hqueue hmonitor hevents =>
    have hquiet := hs.standing.quiet hbusy hevents
    have hkept : ∀ p sentAt, s.Known p sentAt → t.Known p sentAt := by
      intro p sentAt hknown
      unfold Known
      rw [hmonitor]
      exact hknown
    refine ⟨fun e free hfree => ?_, fun e free i p hfree hp => ?_, fun ticket e p ha => ?_⟩
    · rw [hquiet.time]
      exact hw.soon e free (hquiet.freeAt hfree)
    · rw [hqueue e] at hp
      obtain ⟨sentAt, hknown, hbound⟩ := hw.queued e free i p (hquiet.freeAt hfree) hp
      exact ⟨sentAt, hkept p sentAt hknown, hbound⟩
    · obtain ⟨sentAt, hknown, hbounds⟩ := hw.coming ticket e p (hquiet.arrivals ticket e p ha)
      exact ⟨sentAt, hkept p sentAt hknown, hbounds⟩
  | entered p hnumber _ hroom hlink hmonitor hevents =>
    have hquiet := hs.standing.quiet (d := d) (t := t) (fun e => by rw [hlink, busy_push]) (.inl hevents)
    exact hw.entered hs hquiet hnumber hroom hlink hmonitor
  | taken x link hstart heq =>
    rw [heq]
    exact hw.taken hs hsized hstart

theorem Reaches.waits {c : Config} {feeds : Duplex (Option (Feed σ γ))} {s t : Session σ γ}
    (h : s.Reaches t) (hs : s.Begins c feeds) (hrunning : t.summary? = none) : t.Waits c := by
  refine (h.induct_steady (P := fun t => t.Sized c ∧ t.Waits c) hs hrunning
    ⟨(hs.note _).sized, (hs.note _).waits⟩ ?_ ?_).2
  · rintro u v now hreach hgoing ⟨hsized, hw⟩ hopen
    exact ⟨hopen.sized hsized, hopen.waits (hreach.steady hs hgoing) (hreach.conserves hs hgoing) hw⟩
  · rintro u v now d hsteady ⟨hsized, hw⟩ hmove
    exact ⟨hmove.sized hsteady.standing hs.positive.mss hsized, hmove.waits hsteady hsized hw⟩

/-! Delays. -/

omit [Draws σ Nat] [Draws γ Span] in
theorem Begins.delaysFrom {c : Config} {feeds : Duplex (Option (Feed σ γ))} {s : Session σ γ}
    (h : s.Begins c feeds) (least : Span) : s.monitor.DelaysFrom least := by
  obtain ⟨monitor, _, hm, _, hu, _⟩ := h.untouched
  obtain ⟨delays, jitters, hdelays, _, rfl⟩ := Monitor.of_new? hm
  rw [hu.monitor]
  refine ⟨fun i _ => Histogram.count_of_new? hdelays i, fun a ha => ?_⟩
  cases ha

theorem Reaches.delay_of_arrival {c : Config} {feeds : Duplex (Option (Feed σ γ))}
    {s t : Session σ γ} (h : s.Reaches t) (hs : s.Begins c feeds) (hrunning : t.summary? = none)
    {now : Instant} {d : Direction} {p : Packet} {events : EventQueue Event}
    (hpop : t.events.pop? = some ((now, .arrival d p), events)) : ∃ sentAt, t.Known p sentAt ∧
      sentAt ≤ now ∧
      c.link.delay.nanos + (c.link.serialization p.size).nanos ≤ (now.elapsed sentAt).nanos ∧
      (now.elapsed sentAt).nanos ≤ c.link.delay.nanos + (c.link.capacity + 1) * c.slot := by
  obtain ⟨number, hl, _⟩ := EventQueue.toList_of_pop? hpop
  have hmem : (⟨now, number⟩, Event.arrival d p) ∈ t.events.toList := by
    rw [hl]
    exact List.mem_cons_self
  obtain ⟨sentAt, hknown, hearliest, hlatest⟩ := (h.waits hs hrunning).coming _ d p hmem
  have hsteady := h.steady hs hrunning
  obtain ⟨hle, _⟩ := hsteady.standing.orderly.of_pop? hpop
  have hpast := hsteady.le_of_known (mem_underWay_of_coming hmem rfl) hknown
  rcases h.time_of_pop? hs hrunning hpop with ⟨heq, _⟩ | ⟨_, hbefore⟩
  · cases heq
  · -- The clock has not reached its latest instant, so no sum of times was cut off.
    have hfree : now.nanos < 0xFFFF_FFFF_FFFF_FFFF := by
      have hend := (Instant.zero.after c.duration).nanos_lt
      rw [Instant.lt_iff] at hbefore
      omega
    rw [Instant.le_iff, Instant.nanos_after, Instant.nanos_after] at hearliest
    have hsum : sentAt.nanos + (c.link.serialization p.size).nanos + c.link.delay.nanos ≤ now.nanos := by
      change min _ _ ≤ now.nanos at hearliest
      omega
    change now.nanos ≤ _ at hlatest
    refine ⟨sentAt, hknown, Nat.le_trans hpast hle, ?_, ?_⟩
    · show _ ≤ now.nanos - sentAt.nanos
      omega
    · show now.nanos - sentAt.nanos ≤ _
      omega

theorem Reaches.delaysFrom {c : Config} {feeds : Duplex (Option (Feed σ γ))} {s t : Session σ γ}
    (h : s.Reaches t) (hs : s.Begins c feeds) (hrunning : t.summary? = none) :
    t.monitor.DelaysFrom c.link.delay := by
  refine h.induct_steady (P := fun t => t.monitor.DelaysFrom c.link.delay) hs hrunning
    ((hs.note _).delaysFrom _) ?_ ?_
  · intro u v now hreach hgoing hu hopen
    cases hopen with
    | tick | due | free => exact hu
    | @arrival d p events hpop =>
      obtain ⟨sentAt, hknown, hpast, hleast, _⟩ := hreach.delay_of_arrival hs hgoing hpop
      exact hu.receive hknown hpast (Nat.le_trans (Nat.le_add_right _ _) hleast) p.size
  · intro u v now d hsteady hu hmove
    cases hmove.route hsteady.standing with
    | kept _ _ hmonitor => rwa [hmonitor]
    | entered p _ _ _ _ hmonitor =>
      rw [hmonitor]
      exact hu.send p.flow p.uid p.size now
    | taken x link _ heq =>
      rw [heq]
      exact hu

/-- Every recorded delay lies between that of a packet that finds the link idle and that of one that finds
the queue as full as it can be, whatever is drawn. No flow has a delay in a bin before that of the delay of the
link. -/
theorem recorded_delays_are_bounded {c : Config} {feeds : Duplex (Option (Feed σ γ))}
    {s : Session σ γ} (hs : s.Begins c feeds) :
    (∀ t, s.Reaches t → t.summary? = none → ∀ now d p events,
      t.events.pop? = some ((now, .arrival d p), events) →
      ∃ delay, t.monitor.receive p.flow p.uid p.size now = (some delay,
          { t.monitor with inFlight := t.monitor.inFlight.erase p.uid }.update p.flow
            (·.addReceived p.size now delay)) ∧
        c.link.delay.nanos + (c.link.serialization p.size).nanos ≤ delay.nanos ∧
        delay.nanos ≤ c.link.delay.nanos + (c.link.capacity + 1) *
          (c.link.serialization (c.transport.protocol.overhead + c.transport.mss)).nanos) ∧
    ∀ t, s.Reaches t → ∀ k r, (k, r) ∈ t.monitor.flows →
      ∀ i < r.delays.histogram.indexOf c.link.delay, r.delays.histogram.count i = 0 := by
  constructor
  · intro t hreach hrunning now d p events hpop
    obtain ⟨sentAt, hknown, hpast, hleast, hmost⟩ := hreach.delay_of_arrival hs hrunning hpop
    exact ⟨_, Monitor.receive_of_known hknown hpast p.size, hleast, hmost⟩
  · intro t hreach k r hr
    rcases hreach.running_or_stopped hs with ⟨hrunning, _⟩ | ⟨last, hlast, hstop⟩
    · exact (hreach.delaysFrom hs hrunning).flows (k, r) hr
    · obtain ⟨now, events, _, rfl⟩ := hstop.stop
      obtain ⟨_, _, heq, _⟩ := onStop_eq (last.advanced events) now
      rw [heq] at hr
      exact ((hlast.delaysFrom hs hstop.running).giveUp now).flows (k, r) hr

/-- On a link of one millisecond a packet is under way for at most 13.4 ms. -/
theorem brief_delays_over_a_short_link :
    let c := { Config.brief .tcp with link := { LinkSettings.standard with delay := .ofMillis 1 } }
    ∃ s : Session (Constant Nat) (Constant Span), s.Begins c .brief ∧
      (∀ t, s.Reaches t → t.summary? = none → ∀ now d p events,
        t.events.pop? = some ((now, .arrival d p), events) →
        ∃ delay, (t.monitor.receive p.flow p.uid p.size now).1 = some delay ∧
          1_000_000 + (c.link.serialization p.size).nanos ≤ delay.nanos ∧
          delay.nanos ≤ 13_443_200) ∧
      ∀ t, s.Reaches t → ∀ k r, (k, r) ∈ t.monitor.flows →
        ∀ i < r.delays.histogram.indexOf (.ofMillis 1), r.delays.histogram.count i = 0 := by
  intro c
  have hpositive : c.Positive := by constructor <;> decide
  obtain ⟨s, hs⟩ := exists_begins hpositive (by decide) Duplex.brief fun d => by cases d <;> rfl
  obtain ⟨hdelays, hbins⟩ := recorded_delays_are_bounded hs
  refine ⟨s, hs, fun t hreach hrunning now d p events hpop => ?_, hbins⟩
  obtain ⟨delay, hreceive, hleast, hmost⟩ := hdelays t hreach hrunning now d p events hpop
  exact ⟨delay, congrArg Prod.fst hreceive, hleast, Nat.le_trans hmost (by decide)⟩

end Session

end VideoLink
