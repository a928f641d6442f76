import Mathlib.Algebra.Group.Prod
import VideoLink.Proofs.Session.Acknowledgments
import VideoLink.Proofs.Session.Tap

/-! The meters of a run agree at every instant. What a wire has carried and what waits for it is what was
counted as sent in the two flows of the direction, and the capture has counted what the wires have carried
and what has arrived. -/
namespace VideoLink

def Traffic.amount (t : Traffic) : Nat × Nat := (t.packets, t.bytes)

namespace Channel

/-- The packets, and their bytes, that a channel has taken: those that it has carried and those that wait. -/
def taken (c : Channel) : Nat × Nat :=
  (c.stats.packets + c.queue.size, c.stats.bytes + weight Packet.size c.queue.toList)

theorem taken_push (c : Channel) (p : Packet) : (c.push p).taken = c.taken + (1, p.size) := by
  have hsize := (c.queue.push p).length_toList
  rw [Fifo.toList_push, List.length_append, Fifo.length_toList] at hsize
  unfold taken push
  rw [← hsize, Fifo.toList_push, weight_append]
  simp only [List.length_cons, List.length_nil, weight_cons, weight_nil, Prod.mk_add_mk]
  exact Prod.ext (by omega) (by omega)

theorem taken_carry {c : Channel} {p : Packet} {queue : Fifo Packet}
    (h : c.queue.pop? = some (p, queue)) : ({ c with queue }.carry p).taken = c.taken := by
  have hsize := Fifo.size_of_pop? h
  unfold taken carry
  rw [Fifo.toList_of_pop? h, weight_cons]
  exact Prod.ext (by dsimp only; omega) (by dsimp only; omega)

end Channel

namespace Link

theorem taken_push (l : Link) (d : Direction) (p : Packet) (e : Direction) :
    ((l.push d p).channel e).taken =
      (l.channel e).taken + if e = d then (1, p.size) else 0 := by
  unfold push
  by_cases he : e = d
  · rw [he, channel_setChannel_self, Channel.taken_push, if_pos rfl]
  · rw [channel_setChannel_of_ne _ he, if_neg he, add_zero]

theorem taken_of_start? {l link : Link} {d : Direction} {now : Instant} {x : Transmission}
    (h : l.start? d now = some (x, link)) (e : Direction) :
    (link.channel e).taken = (l.channel e).taken := by
  obtain ⟨_, queue, hpop, _, _, rfl⟩ := Session.start?_eq_some h
  by_cases he : e = d
  · rw [he, channel_setChannel_self, Channel.taken_carry hpop]
  · rw [channel_setChannel_of_ne _ he]

theorem taken_of_full {l : Link} {d : Direction} (h : ¬ l.queued d < l.settings.capacity)
    (p : Packet) (e : Direction) :
    ((l.enqueue d p).2.channel e).taken = (l.channel e).taken := by
  rw [Session.enqueue_of_full h p]
  cases d <;> cases e <;> rfl

end Link

namespace Monitor

/-- The packets, and their bytes, that were sent in the two flows of a direction: that of its video and that
which answers the video of the other one. -/
def sentVia (m : Monitor) (protocol : Protocol) (d : Direction) : Nat × Nat :=
  (m.record (videoFlow protocol d)).sent.amount +
    (m.record (videoFlow protocol d.reverse).reversed).sent.amount

theorem sentVia_congr {m m' : Monitor} (h : ∀ k, (m'.record k).sent = (m.record k).sent)
    (protocol : Protocol) (d : Direction) : m'.sentVia protocol d = m.sentVia protocol d := by
  rw [sentVia, h, h, sentVia]

theorem amount_send (m : Monitor) (key : FlowKey) (uid bytes : Nat) (now : Instant) (k : FlowKey) :
    ((m.send key uid bytes now).record k).sent.amount =
      (m.record k).sent.amount + if k = key then (1, bytes) else 0 := by
  rw [record_send]
  by_cases h : k = key
  · rw [if_pos h, if_pos h, h]
    rfl
  · rw [if_neg h, if_neg h, add_zero]

theorem sentVia_send (m : Monitor) {protocol : Protocol} {d : Direction} {key : FlowKey}
    (hkey : key = videoFlow protocol d ∨ key = (videoFlow protocol d.reverse).reversed)
    (uid bytes : Nat) (now : Instant) (e : Direction) :
    (m.send key uid bytes now).sentVia protocol e =
      m.sentVia protocol e + if e = d then (1, bytes) else 0 := by
  have hvideo : videoFlow protocol e = videoFlow protocol d ↔ e = d :=
    ⟨videoFlow_inj, fun h => by rw [h]⟩
  have hanswers : (videoFlow protocol e.reverse).reversed =
      (videoFlow protocol d.reverse).reversed ↔ e = d := by
    refine ⟨fun h => ?_, fun h => by rw [h]⟩
    have hreverse := congrArg Direction.reverse (videoFlow_inj (congrArg FlowKey.reversed h))
    simpa only [Direction.reverse_reverse] using hreverse
  rw [sentVia, amount_send, amount_send, sentVia]
  rcases hkey with rfl | rfl
  · rw [if_neg (reversed_videoFlow_ne _ _ _), add_zero, add_right_comm]
    simp only [hvideo]
  · rw [if_neg (reversed_videoFlow_ne _ _ _).symm, add_zero, add_assoc]
    simp only [hanswers]

end Monitor

namespace Session

variable {σ γ : Type}

/-! The wires and the queues against the traffic that was sent. -/

/-- What each channel has taken was sent in the flows of its direction. -/
def Metered (c : Config) (s : Session σ γ) : Prop :=
  ∀ d, (s.link.channel d).taken = s.monitor.sentVia c.transport.protocol d

variable {c : Config} {feeds : Duplex (Option (Feed σ γ))} {s t : Session σ γ} {now : Instant}
  {d : Direction}

theorem Begins.metered (h : s.Begins c feeds) : s.Metered c := by
  obtain ⟨monitor, _, hm, _, hu, _⟩ := h.untouched
  obtain ⟨delays, jitters, _, _, rfl⟩ := Monitor.of_new? hm
  intro d
  rw [hu.link, hu.monitor]
  cases d <;> rfl

theorem Metered.enter (hs : s.Metered c) {p : Packet}
    (hp : p.flow = videoFlow c.transport.protocol d ∨
      p.flow = (videoFlow c.transport.protocol d.reverse).reversed) (e : Direction) :
    ((s.link.push d p).channel e).taken =
      (s.monitor.send p.flow p.uid p.size now).sentVia c.transport.protocol e := by
  rw [Link.taken_push, Monitor.sentVia_send _ hp, hs e]

theorem Opening.metered (h : s.Opening now t) (hs : s.Metered c) : t.Metered c := by
  cases h with
  | tick | due => exact hs
  | @free d =>
    intro e
    have hsame : ((s.link.complete d).channel e).taken = (s.link.channel e).taken := by
      cases d <;> cases e <;> rfl
    exact hsame.trans (hs e)
  | arrival =>
    exact fun e => (hs e).trans (Monitor.sentVia_congr (s.monitor.sent_receive _ _ _ _) _ e).symm

variable [Draws σ Nat] [Draws γ Span]

theorem Move.metered (h : Move now d s t) (hstanding : s.Standing c) (hs : s.Metered c) :
    t.Metered c := by
  cases h with
  | note | frame | paced | segment | noSegment | armPacer | armSource | count => exact hs
  | load hroom hfound hnext => exact hs.enter (.inl (hstanding.of_next? hfound hnext).2)
  | answer hfound hacks hcount hroom =>
    exact hs.enter (.inr (hstanding.flow_of_onData hfound hacks hcount))
  | refuse hfound hacks hcount hfull => exact fun e => (Link.taken_of_full hfull _ e).trans (hs e)
  | start hstart => exact fun e => (Link.taken_of_start? hstart e).trans (hs e)

theorem Stops.metered (h : s.Stops t) (hs : s.Metered c) : t.Metered c := by
  obtain ⟨now, events, _, rfl⟩ := h.stop
  obtain ⟨_, _, heq, _⟩ := onStop_eq (s.advanced events) now
  rw [heq]
  refine fun e => (hs e).trans (Monitor.sentVia_congr (fun k => ?_) _ e).symm
  show ((s.monitor.giveUp now).2.record k).sent = _
  rw [Monitor.record_giveUp]

theorem Reaches.metered (h : s.Reaches t) (hs : s.Begins c feeds) : t.Metered c := by
  have hrunning : ∀ {t}, s.Reaches t → t.summary? = none → t.Metered c := fun h hrunning =>
    h.induct_moves hs hrunning (hs.note _).metered (fun _ hu hopen => hopen.metered hu)
      fun hstanding _ hu hmove => hmove.metered hstanding hu
  rcases h.running_or_stopped hs with ⟨hgoing, _⟩ | ⟨last, hlast, hstop⟩
  · exact hrunning h hgoing
  · exact hstop.metered (hrunning hlast hstop.running)

/-! The meters that a reader sees. -/

section

omit [Draws σ Nat] [Draws γ Span]

def sentOf (s : Session σ γ) (key? : Option FlowKey) : Traffic := key?.elim {} s.monitor.sentIn

/-- The link, the monitor and the capture have counted the same packets. -/
structure Reconciled (s : Session σ γ) : Prop where
  packets : ∀ d, (s.link.stats d).packets + s.link.queued d =
    (s.sentOf (s.dataFlow? d)).packets + (s.sentOf (s.ackFlow? d.reverse)).packets
  bytes : ∀ d, (s.link.stats d).bytes + weight Packet.size (s.link.channel d).queue.toList =
    (s.sentOf (s.dataFlow? d)).bytes + (s.sentOf (s.ackFlow? d.reverse)).bytes
  capture : s.capture.count = if s.config.capture then
    (s.link.stats .uplink).packets + (s.link.stats .downlink).packets +
      weight (fun a => a.2.received.packets) s.monitor.flows else 0

theorem Standing.sentOf_eq (hs : s.Standing c) {key? : Option FlowKey} {k : FlowKey}
    (hk : key? = some k ∨ key? = none ∧ k ∉ s.monitor.keys) :
    s.sentOf key? = (s.monitor.record k).sent := by
  rcases hk with rfl | ⟨rfl, hunseen⟩
  · exact (hs.sentIn_eq k).1
  · obtain ⟨delays, jitters, hfresh⟩ := hs.fresh
    have hnone : s.monitor.flow? k = none := by
      refine List.lookup_eq_none_iff.2 fun a ha => ?_
      simp only [bne_iff_ne, ne_eq]
      rintro rfl
      exact hunseen (List.mem_map_of_mem ha)
    rw [Monitor.record, hnone, Option.getD_none, hfresh]
    rfl

theorem Standing.sentOf_dataFlow? (hs : s.Standing c) (hseen : s.Attributed) (d : Direction) :
    s.sentOf (s.dataFlow? d) = (s.monitor.record (videoFlow c.transport.protocol d)).sent := by
  apply hs.sentOf_eq
  unfold dataFlow?
  rw [hs.config]
  cases hfound : s.generator? d with
  | some g => exact .inl rfl
  | none =>
    refine .inr ⟨rfl, fun hk => ?_⟩
    obtain ⟨e, hdata | hack⟩ := hseen.flows _ hk
    · obtain ⟨g, hg, hkey⟩ := Option.map_eq_some_iff.1 hdata
      rw [hs.config] at hkey
      rw [videoFlow_inj hkey, hfound] at hg
      cases hg
    · unfold ackFlow? at hack
      split at hack
      · obtain ⟨k, hdata, hkey⟩ := Option.map_eq_some_iff.1 hack
        obtain ⟨g, _, rfl⟩ := Option.map_eq_some_iff.1 hdata
        rw [hs.config] at hkey
        exact absurd hkey (reversed_videoFlow_ne _ _ _)
      · cases hack

theorem Standing.sentOf_ackFlow? (hs : s.Standing c) (hseen : s.Attributed) (d : Direction) :
    s.sentOf (s.ackFlow? d) =
      (s.monitor.record (videoFlow c.transport.protocol d).reversed).sent := by
  apply hs.sentOf_eq
  cases hack : s.ackFlow? d with
  | some k =>
    left
    unfold ackFlow? at hack
    split at hack
    · obtain ⟨k', hdata, rfl⟩ := Option.map_eq_some_iff.1 hack
      obtain ⟨g, _, rfl⟩ := Option.map_eq_some_iff.1 hdata
      rw [hs.config]
    · cases hack
  | none =>
    refine .inr ⟨rfl, fun hk => ?_⟩
    obtain ⟨e, hdata | hother⟩ := hseen.flows _ hk
    · obtain ⟨g, _, hkey⟩ := Option.map_eq_some_iff.1 hdata
      rw [hs.config] at hkey
      exact absurd hkey.symm (reversed_videoFlow_ne _ _ _)
    · -- The flow answers the video of this direction, which would then be there.
      have hsame : e = d := by
        unfold ackFlow? at hother
        split at hother
        · obtain ⟨k, hdata, hkey⟩ := Option.map_eq_some_iff.1 hother
          obtain ⟨g, _, rfl⟩ := Option.map_eq_some_iff.1 hdata
          rw [hs.config] at hkey
          exact videoFlow_inj (congrArg FlowKey.reversed hkey)
        · cases hother
      rw [hsame, hack] at hother
      cases hother

end

/-- In every state of a run, whatever is drawn, the link, the monitor and the capture have counted the same
packets: those that a wire has carried and those that wait for it are those that were sent, and the capture has
seen each one that took a wire and each one that arrived. -/
theorem counters_reconcile (hs : s.Begins c feeds) :
    s.Reaches s.run.2 ∧ ∀ t, s.Reaches t → t.Reconciled := by
  constructor
  · obtain ⟨last, hlast, hstop, _⟩ := hs.run_stops
    exact .tail hlast hstop.step
  · intro t hreach
    have hstanding := hreach.standing hs
    have hseen := hreach.attributed hs
    have hmetered := hreach.metered hs
    refine ⟨fun d => ?_, fun d => ?_, (hreach.tapped hs).count⟩
    · rw [hstanding.sentOf_dataFlow? hseen, hstanding.sentOf_ackFlow? hseen]
      exact congrArg Prod.fst (hmetered d)
    · rw [hstanding.sentOf_dataFlow? hseen, hstanding.sentOf_ackFlow? hseen]
      exact congrArg Prod.snd (hmetered d)

/-- A captured run over queues that are too short for its frames keeps the same accounts. -/
theorem captured_run_reconciles :
    let c := { Config.brief .tcp with capture := true, link := ⟨1_000_000, .ofMillis 1, 2⟩ }
    ∃ s : Session (Constant Nat) (Constant Span), s.Begins c .brief ∧ s.run.2.Reconciled ∧
      ∀ t, s.Reaches t → t.Reconciled := by
  intro c
  have hpositive : c.Positive := by constructor <;> decide
  obtain ⟨s, hs⟩ := exists_begins hpositive (by decide) Duplex.brief fun d => by cases d <;> rfl
  obtain ⟨hend, hall⟩ := counters_reconcile hs
  exact ⟨s, hs, hall _ hend, hall⟩

end Session

end VideoLink
