import VideoLink.Proofs.Session.AckBook
import VideoLink.Proofs.Session.Delivery
import VideoLink.Proofs.Session.Ledger

/-! Data and acknowledgments share the queues, and only acknowledgments find one full. Each one that is
generated is sent or dropped, and one is generated for every so many data packets that arrive. -/
namespace VideoLink

namespace Monitor

/-- What was counted of a flow at its sender, which is nothing if the flow was never seen. -/
def sentIn (m : Monitor) (key : FlowKey) : Traffic := (m.flow? key).elim {} (·.sent)

def receivedIn (m : Monitor) (key : FlowKey) : Traffic := (m.flow? key).elim {} (·.received)

end Monitor

namespace Session

variable {σ γ : Type}

/-- The answer in a direction to a data packet of the other one, if an answer is due. -/
def answer? (s : Session σ γ) (d : Direction) : Option Packet := do
  let g ← s.generator? d.reverse
  let acks ← g.acks?
  (acks.onData s.uids).1

def nextAck? (s : Session σ γ) (d : Direction) : Option Packet :=
  match s.events.pop? with
  | some ((_, .arrival e p), _) => if p.kind = .data ∧ d = e then s.answer? d.reverse else none
  | _ => none

/-- The acknowledgments that the first events generate for the data of a direction. -/
def acksGenerated [Draws σ Nat] [Draws γ Span] (d : Direction) : Nat → Session σ γ → List Packet
  | 0, _ => []
  | n + 1, s =>
    match s.step? with
    | none => []
    | some t => (s.nextAck? d).toList ++ acksGenerated d n t

/-! The arrival of a packet. -/

section

variable {s : Session σ γ} {d : Direction} {now : Instant}

theorem Standing.ackBook_acknowledge_of_ne {c : Config} (hs : s.Standing c) {e : Direction}
    (he : e ≠ d) : (s.acknowledge d now).ackBook e = s.ackBook e := by
  rcases s.acknowledge_cases d now with ⟨heq, _⟩ | ⟨g, acks, rest, uids, hfound, hacks, hcases⟩
  · rw [heq]
  · rcases hcases with ⟨_, heq⟩ | ⟨ack, hcount, ⟨_, heq⟩ | ⟨hfull, journal, heq⟩⟩ <;> rw [heq]
    · rw [ackBook_counted, if_neg he]
    · have hflow := hs.flow_of_onData hfound hacks hcount
      rw [← hs.config] at hflow
      rw [ackBook_startWire, ackBook_answered g rest uids hflow, if_neg he]
    · rw [ackBook_refused g rest uids hfull, if_neg he]

theorem Standing.settled_acknowledge {c : Config} (hs : s.Standing c) {every generated : Nat}
    {b : AckBook} (hb : b.Settled every generated)
    (hbook : s.ackBook d = { b with received := b.received + 1 }) :
    ((s.acknowledge d now).ackBook d).Settled every
      (generated + (s.answer? d.reverse).toList.length) := by
  have hcounter : (s.generator? d).bind Generator.acks? = b.counter? := congrArg AckBook.counter? hbook
  have hanswer : s.answer? d.reverse = b.counter?.bind fun acks => (acks.onData s.uids).1 := by
    rw [← hcounter, Option.bind_assoc, answer?, d.reverse_reverse]
    rfl
  rcases s.acknowledge_cases d now with ⟨heq, hnone⟩ | ⟨g, acks, rest, uids, hfound, hacks, hcases⟩
  · have hsilent : b.counter? = none := by
      rw [← hcounter, Option.bind_eq_none_iff]
      exact hnone
    rw [hsilent, Option.bind_none] at hanswer
    rw [heq, hbook, hanswer]
    exact hb.ignore hsilent
  · have hsome : b.counter? = some acks := by
      rw [← hcounter, hfound]
      exact hacks
    rw [hsome, Option.bind_some] at hanswer
    rcases hcases with ⟨hcount, heq⟩ | ⟨ack, hcount, ⟨_, heq⟩ | ⟨hfull, journal, heq⟩⟩ <;>
      rw [heq, hanswer, hcount]
    · rw [ackBook_counted, if_pos rfl, hbook]
      exact hb.count hsome hcount
    · obtain ⟨htcp, hreversed⟩ := (hs.fit d g hfound).acks acks hacks
      have hflow := hs.flow_of_onData hfound hacks hcount
      rw [← hs.config] at hflow
      rw [ackBook_startWire, ackBook_answered g rest uids hflow, if_pos rfl, hbook]
      refine hb.send hsome hcount ?_ now
      rw [hreversed]
      show (videoFlow _ d).protocol = _
      rw [protocol_videoFlow, htcp]
    · rw [ackBook_refused g rest uids hfull, if_pos rfl, hbook]
      exact hb.drop hsome hcount

theorem Standing.settled_onArrival {c : Config} {p : Packet} {sentAt : Instant} {e : Direction}
    (hs : ({ s with monitor := (s.monitor.receive p.flow p.uid p.size now).2 } : Session σ γ).Standing c)
    (hknown : s.monitor.inFlight[p.uid]? = some ⟨p.flow, sentAt⟩) (hle : sentAt ≤ now)
    (hroute : s.config.Routes e p) {every generated : Nat}
    (hb : (s.ackBook d).Settled every generated) :
    ((s.onArrival e now p).ackBook d).Settled every (generated +
      (if p.kind = .data ∧ d = e then s.answer? d.reverse else none).toList.length) := by
  obtain ⟨journal, capture, hreceive⟩ := receive_eq s e now p
  obtain ⟨t, ht⟩ : ∃ t, t = { s with
    journal
    capture
    monitor := (s.monitor.receive p.flow p.uid p.size now).2 } := ⟨_, rfl⟩
  have hstanding : t.Standing c := by
    rw [ht]
    exact ⟨hs.config, hs.settings, hs.limit, hs.monitor, hs.orderly, hs.fit, hs.video⟩
  have hbook : t.ackBook d = if p.kind = .data ∧ d = e then
      { s.ackBook d with received := (s.ackBook d).received + 1 } else s.ackBook d := by
    rw [ht]
    exact ackBook_receive hknown hle hroute d
  -- The monitor has no part in what is answered.
  have hanswer : s.answer? = t.answer? := by
    rw [ht]
    rfl
  rw [onArrival, hreceive, ← ht, hanswer]
  cases hp : p.kind with
  | ack =>
    rw [hp, if_neg (by simp)] at hbook
    rw [if_neg (by simp)]
    show (t.ackBook d).Settled every generated
    rw [hbook]
    exact hb
  | data =>
    by_cases hd : d = e
    · subst hd
      rw [hp, if_pos ⟨rfl, rfl⟩] at hbook
      rw [if_pos ⟨rfl, rfl⟩]
      exact hstanding.settled_acknowledge hb hbook
    · rw [if_neg fun h => hd h.2] at hbook
      rw [if_neg fun h => hd h.2]
      show ((t.acknowledge e now).ackBook d).Settled every generated
      rw [hstanding.ackBook_acknowledge_of_ne hd, hbook]
      exact hb

theorem nextAck?_eq_none {e : Event} {events : EventQueue Event}
    (hpop : s.events.pop? = some ((now, e), events)) (he : e.packet? = none) (d : Direction) :
    s.nextAck? d = none := by
  rw [nextAck?, hpop]
  cases e with
  | arrival => cases he
  | _ => rfl

end

/-! The run. -/

variable [Draws σ Nat] [Draws γ Span] {c : Config} {feeds : Duplex (Option (Feed σ γ))}
  {s t u : Session σ γ} {every : Nat}

theorem Reaches.settled_of_step? (ht : s.Reaches t) (hs : s.Begins c feeds)
    {generated : Direction → Nat} (hall : ∀ d, (t.ackBook d).Settled every (generated d))
    (hstep : t.step? = some u) (d : Direction) :
    (u.ackBook d).Settled every (generated d + (t.nextAck? d).toList.length) := by
  obtain ⟨hrunning, now, e, events, hpop, rfl⟩ := step?_eq_some hstep
  have hstanding := ht.standing hs
  have hkept : e.packet? = none → ((t.advanced events).handle now e).ackBook = t.ackBook →
      (((t.advanced events).handle now e).ackBook d).Settled every
        (generated d + (t.nextAck? d).toList.length) := by
    intro he hbook
    rw [nextAck?_eq_none hpop he, hbook]
    exact hall d
  cases e with
  | frameTick e =>
    have hopen : (t.advanced events).Standing c := ((Opening.tick hpop).standing hstanding).1
    exact hkept rfl hopen.ackBook_onFrameTick
  | segmentDue e =>
    have hopen : (t.advanced events).Standing c := ((Opening.due hpop).standing hstanding).1
    exact hkept rfl hopen.ackBook_onSegmentDue
  | wireFree e =>
    have hopen := ((Opening.free hpop).standing hstanding).1
    have hfreed := ackBook_link (s := t.advanced events) (t.link.complete e)
      (t.link.drops_stats_setChannel rfl)
    exact hkept rfl (hopen.ackBook_fill.trans hfreed)
  | stop => exact hkept rfl ackBook_onStop
  | arrival e p =>
    have hopen := ((Opening.arrival hpop).standing hstanding).1
    obtain ⟨sentAt, hknown, hle⟩ := (ht.accounted hs hrunning).known_of_pop? hstanding hpop
    have hroute := (ht.routed hs hrunning).of_pop? hpop
    rw [← hstanding.config] at hroute
    have hnext : t.nextAck? d =
        if p.kind = .data ∧ d = e then (t.advanced events).answer? d.reverse else none := by
      rw [nextAck?, hpop]
      rfl
    rw [hnext]
    exact Standing.settled_onArrival (s := t.advanced events) hopen hknown hle hroute (hall d)

theorem Reaches.settled_afterEvents {n : Nat} (ht : s.Reaches t) (hs : s.Begins c feeds)
    {generated : Direction → Nat} (hall : ∀ d, (t.ackBook d).Settled every (generated d))
    (hafter : t.afterEvents n = some u) (d : Direction) :
    (u.ackBook d).Settled every (generated d + (t.acksGenerated d n).length) := by
  induction n generalizing t generated with
  | zero =>
    cases hafter
    exact hall d
  | succ n ih =>
    obtain ⟨v, hstep, hrest⟩ := Option.bind_eq_some_iff.1 hafter
    have hlength : (t.acksGenerated d (n + 1)).length =
        (t.nextAck? d).toList.length + (v.acksGenerated d n).length := by
      rw [acksGenerated, hstep]
      exact List.length_append
    rw [hlength, ← Nat.add_assoc]
    exact ih (.tail ht hstep) (ht.settled_of_step? hs hall hstep) hrest

/-! The accounts. -/

section

omit [Draws σ Nat] [Draws γ Span]

def acksSent (s : Session σ γ) (d : Direction) : Nat :=
  (s.ackFlow? d).elim 0 fun key => (s.monitor.sentIn key).packets

/-- What became of the acknowledgments that were generated in the two directions, and of the data. -/
structure AckAccounts (generated : Direction → List Packet) (s : Session σ γ) : Prop where
  each : ∀ d, s.acksSent d + (s.link.stats d.reverse).drops = (generated d).length
  tcp : s.config.transport.protocol = .tcp → ∀ d data, s.dataFlow? d = some data →
    s.ackFlow? d = some data.reversed ∧
    (s.monitor.sentIn data.reversed).packets + (s.link.stats d.reverse).drops =
      (s.monitor.receivedIn data).packets / s.config.transport.ackEvery ∧
    (s.monitor.sentIn data.reversed).bytes = 40 * (s.monitor.sentIn data.reversed).packets
  silent : ∀ d, s.generator? d.reverse = none → (s.link.stats d).drops = 0
  udp : s.config.transport.protocol = .udp →
    (∀ d, (s.link.stats d).drops = 0 ∧ s.ackFlow? d = none) ∧
    ∀ key ∈ s.monitor.keys, ∃ d, s.dataFlow? d = some key
  /-- Every data packet that left a socket entered the queue and was sent. -/
  data : ∀ d g, s.generator? d = some g → g.socket.stats.packets =
    (s.monitor.sentIn (videoFlow s.config.transport.protocol d)).packets
  report : s.report.diagnostics.ackDrops + (s.acksSent .uplink + s.acksSent .downlink) =
    (generated .uplink).length + (generated .downlink).length

theorem Standing.sentIn_eq (hs : s.Standing c) (key : FlowKey) :
    s.monitor.sentIn key = (s.monitor.record key).sent ∧
      s.monitor.receivedIn key = (s.monitor.record key).received := by
  obtain ⟨delays, jitters, hfresh⟩ := hs.fresh
  unfold Monitor.sentIn Monitor.receivedIn Monitor.record
  cases s.monitor.flow? key with
  | none => rw [Option.getD_none, hfresh]; exact ⟨rfl, rfl⟩
  | some r => exact ⟨rfl, rfl⟩

theorem Standing.counter?_eq_none (hs : s.Standing c) {d : Direction}
    (h : s.generator? d = none ∨ c.transport.protocol = .udp) : (s.ackBook d).counter? = none := by
  show (s.generator? d).bind Generator.acks? = none
  rcases h with hnone | hudp
  · rw [hnone]
    rfl
  · rw [Option.bind_eq_none_iff]
    exact fun g hfound => hs.acks?_eq_none hudp hfound

theorem Standing.acksSent_eq (hs : s.Standing c) {d : Direction} {generated : Nat}
    (h : (s.ackBook d).Settled every generated) : s.acksSent d = (s.ackBook d).sent.packets := by
  have hnone : (s.ackBook d).counter? = none → (s.ackBook d).sent.packets = 0 := by
    intro hcounter
    have heach := h.each
    rw [h.silent hcounter] at heach
    exact Nat.eq_zero_of_add_eq_zero_right heach
  unfold acksSent ackFlow? dataFlow?
  rw [hs.config]
  cases hp : c.transport.protocol with
  | udp => exact (hnone (hs.counter?_eq_none (.inr hp))).symm
  | tcp =>
    cases hfound : s.generator? d with
    | none => exact (hnone (hs.counter?_eq_none (.inl hfound))).symm
    | some g =>
      have hsent := (hs.sentIn_eq (videoFlow .tcp d).reversed).1
      have hbook : (s.ackBook d).sent = (s.monitor.record (videoFlow .tcp d).reversed).sent := by
        rw [ackBook, hs.config, hp]
      rw [hbook, ← hsent]
      rfl

theorem Standing.acks_of_tcp (hs : s.Standing c) (hc : 0 < c.transport.ackEvery)
    (htcp : c.transport.protocol = .tcp) {d : Direction} {data : FlowKey} {generated : Nat}
    (hdata : s.dataFlow? d = some data)
    (h : (s.ackBook d).Settled (max c.transport.ackEvery 1) generated) :
    s.ackFlow? d = some data.reversed ∧
    (s.monitor.sentIn data.reversed).packets + (s.link.stats d.reverse).drops =
      (s.monitor.receivedIn data).packets / s.config.transport.ackEvery ∧
    (s.monitor.sentIn data.reversed).bytes = 40 * (s.monitor.sentIn data.reversed).packets := by
  obtain ⟨g, hfound, rfl⟩ := Option.map_eq_some_iff.1 hdata
  obtain ⟨acks, hacks⟩ := Option.isSome_iff_exists.1 ((hs.fit d g hfound).answered htcp)
  have hcounter : (s.ackBook d).counter? = some acks := by
    show (s.generator? d).bind Generator.acks? = some acks
    rw [hfound]
    exact hacks
  have hsent := (hs.sentIn_eq (videoFlow s.config.transport.protocol d).reversed).1
  have hreceived := (hs.sentIn_eq (videoFlow s.config.transport.protocol d)).2
  refine ⟨?_, ?_, ?_⟩
  · rw [ackFlow?, hdata, hs.config, htcp]
    rfl
  · have heach := h.each
    rw [h.generated_eq hcounter, Nat.max_eq_left hc, ackBook, hs.config] at heach
    rw [hsent, hreceived, hs.config]
    exact heach
  · rw [hsent]
    exact h.bytes

end

/-- A socket has handed out as many packets as were sent in its flow. -/
theorem Reaches.handed_out (ht : s.Reaches t) (hs : s.Begins c feeds) {d : Direction}
    {g : Generator σ γ} (hfound : t.generator? d = some g) : g.socket.stats.packets =
      (t.monitor.record (videoFlow c.transport.protocol d)).sent.packets := by
  rcases ht.running_or_stopped hs with ⟨hrunning, _⟩ | ⟨last, hlast, hstop⟩
  · obtain ⟨_, _, hledger⟩ := ht.balanced hs hrunning d g hfound
    exact hledger.packets
  · have hvideo := (hlast.standing hs).video d
    rw [← (ht.standing hs).video d, hfound, Option.isSome_some, Option.isSome_iff_exists] at hvideo
    obtain ⟨g', hfound'⟩ := hvideo
    obtain ⟨feed, hfeed, _⟩ := hlast.balanced hs hstop.running d g' hfound'
    obtain ⟨hhalted, hledger, _⟩ := hstop.ledger (hlast.balanced hs hstop.running) hfound' hfeed
    rw [hfound, Option.some.injEq] at hhalted
    rw [hhalted]
    exact hledger.packets

theorem Reaches.ackAccounts (ht : s.Reaches t) (hs : s.Begins c feeds)
    {generated : Direction → List Packet}
    (h : ∀ d, (t.ackBook d).Settled (max c.transport.ackEvery 1) (generated d).length) :
    t.AckAccounts generated := by
  have hstanding := ht.standing hs
  have heach : ∀ d, t.acksSent d + (t.link.stats d.reverse).drops = (generated d).length := by
    intro d
    rw [hstanding.acksSent_eq (h d)]
    exact (h d).each
  have hsilent : ∀ d, (t.ackBook d.reverse).counter? = none → (t.link.stats d).drops = 0 := by
    intro d hcounter
    have hnone := (h d.reverse).silent hcounter
    have hdrops := heach d.reverse
    rw [d.reverse_reverse, hnone] at hdrops
    exact Nat.eq_zero_of_add_eq_zero_left hdrops
  refine ⟨heach, fun htcp d data hdata => ?_, fun d hnone => ?_, fun hudp => ⟨fun d => ?_, ?_⟩,
    fun d g hfound => ?_, ?_⟩
  · rw [hstanding.config] at htcp
    exact hstanding.acks_of_tcp hs.positive.ackEvery htcp hdata (h d)
  · exact hsilent d (hstanding.counter?_eq_none (.inl hnone))
  · rw [hstanding.config] at hudp
    refine ⟨hsilent d (hstanding.counter?_eq_none (.inr hudp)), ?_⟩
    rw [ackFlow?, hstanding.config, hudp]
  · intro key hkey
    obtain ⟨d, hdata | hack⟩ := (ht.attributed hs).flows key hkey
    · exact ⟨d, hdata⟩
    · rw [ackFlow?, hudp] at hack
      cases hack
  · rw [hstanding.config, (hstanding.sentIn_eq _).1]
    exact ht.handed_out hs hfound
  · have hup := heach .uplink
    have hdown := heach .downlink
    show (t.link.stats .uplink).drops + (t.link.stats .downlink).drops + _ = _
    simp only [Direction.reverse] at hup hdown
    omega

/-- In every state of a run, whatever is drawn, each acknowledgment that was generated was sent or dropped, one
was generated for every so many data packets that arrived, and no data was dropped. -/
theorem acknowledgments_are_sent_or_dropped (hs : s.Begins c feeds) :
    (∀ t, s.Reaches t → ∃ n, (s.note (.started s.directions.length)).afterEvents n = some t) ∧
    s.Reaches s.run.2 ∧
    ∀ n t, (s.note (.started s.directions.length)).afterEvents n = some t →
      t.AckAccounts fun d => (s.note (.started s.directions.length)).acksGenerated d n := by
  have hnoted := hs.note (.started s.directions.length)
  have hbegins : s.Reaches (s.note (.started s.directions.length)) := .refl
  refine ⟨fun t hreach => ?_, ?_, fun n t hafter => ?_⟩
  · obtain ⟨n, hafter, _⟩ := Leads.exists_afterEvents hreach
    exact ⟨n, hafter⟩
  · obtain ⟨last, hlast, hstop, _⟩ := hs.run_stops
    exact .tail hlast hstop.step
  · have hreach : s.Reaches t := leads_of_afterEvents hafter
    refine hreach.ackAccounts hs fun d => ?_
    have hsettled := hbegins.settled_afterEvents hs hnoted.ackBook hafter d
    rwa [Nat.zero_add] at hsettled

/-- Queues of one packet, in which an acknowledgment finds no room beside data, keep the same accounts. -/
theorem acknowledgments_of_narrow_queues :
    let c := { Config.brief .tcp with link := ⟨100_000_000, .ofMillis 1, 1⟩ }
    ∃ s : Session (Constant Nat) (Constant Span), s.Begins c .brief ∧ ∃ n,
      (s.note (.started s.directions.length)).afterEvents n = some s.run.2 ∧
      s.run.2.AckAccounts fun d => (s.note (.started s.directions.length)).acksGenerated d n := by
  intro c
  have hpositive : c.Positive := by constructor <;> decide
  obtain ⟨s, hs⟩ := exists_begins hpositive (by decide) Duplex.brief fun d => by cases d <;> rfl
  obtain ⟨hreaches, hend, haccounts⟩ := acknowledgments_are_sent_or_dropped hs
  obtain ⟨n, hafter⟩ := hreaches _ hend
  exact ⟨s, hs, n, hafter, haccounts n _ hafter⟩

end Session

end VideoLink
