import VideoLink.Proofs.Session.Timing

/-! What the capture has seen. If it is on, it has counted every packet once when it took a wire and once
when it arrived, and else it has counted nothing. -/
namespace VideoLink

theorem Capture.see_eq (c : Capture) (point : CapturePoint) (d : Direction) (now : Instant)
    (p : Packet) :
    (c.see point d now p).2 = { c with count := c.count + if c.enabled then 1 else 0 } := by
  obtain ⟨enabled, count⟩ := c
  cases enabled <;> rfl

namespace Link

def carried (l : Link) : Nat := l.channels.total (·.stats.packets)

theorem carried_push (l : Link) (d : Direction) (p : Packet) : (l.push d p).carried = l.carried := by
  cases d <;> rfl

theorem carried_complete (l : Link) (d : Direction) : (l.complete d).carried = l.carried := by
  cases d <;> rfl

theorem carried_of_full {l : Link} {d : Direction} (h : ¬ l.queued d < l.settings.capacity)
    (p : Packet) : (l.enqueue d p).2.carried = l.carried := by
  rw [Session.enqueue_of_full h]
  cases d <;> rfl

theorem carried_of_start? {l link : Link} {d : Direction} {now : Instant} {x : Transmission}
    (h : l.start? d now = some (x, link)) : link.carried = l.carried + 1 := by
  obtain ⟨_, queue, _, _, _, rfl⟩ := Session.start?_eq_some h
  have htotal := l.channels.total_set (·.stats.packets) d
    ({ l.channel d with queue }.carry x.packet)
  simp only [Channel.carry, channel] at htotal
  simp only [carried, setChannel, Channel.carry, channel]
  omega

end Link

namespace Monitor

def arrived (m : Monitor) : Nat := weight (fun a => a.2.received.packets) m.flows

theorem arrived_send {m : Monitor} (hfresh : m.fresh.received.packets = 0) (key : FlowKey)
    (uid bytes : Nat) (now : Instant) : (m.send key uid bytes now).arrived = m.arrived :=
  weight_updateRecords (g := fun r => r.received.packets) (n := 0) (f := (·.addSent bytes now)) hfresh
    (fun _ => rfl) key m.flows

theorem arrived_receive {m : Monitor} (hfresh : m.fresh.received.packets = 0) {key : FlowKey}
    {uid : Nat} {sentAt now : Instant} (h : m.inFlight[uid]? = some ⟨key, sentAt⟩)
    (hle : sentAt ≤ now) (bytes : Nat) :
    (m.receive key uid bytes now).2.arrived = m.arrived + 1 := by
  rw [receive_of_known h hle]
  exact weight_updateRecords (g := fun r => r.received.packets) (n := 1)
    (f := (·.addReceived bytes now (now.elapsed sentAt))) hfresh (fun _ => rfl) key m.flows

theorem arrived_giveUp {m : Monitor} (hfresh : m.fresh.received.packets = 0) (now : Instant) :
    (m.giveUp now).2.arrived = m.arrived := by
  have hlost := weight_foldl_addLost (g := fun r => r.received.packets) (n := 0) (m.overdue now)
    (m := { m with inFlight := m.inFlight.filter fun _ packet => !m.isOverdue now packet })
    hfresh fun _ => rfl
  rw [Nat.zero_mul] at hlost
  exact hlost

end Monitor

namespace Session

variable {σ γ : Type} {c : Config} {feeds : Duplex (Option (Feed σ γ))} {s t : Session σ γ}
  {now : Instant} {d : Direction}

/-- What the capture has to do with: whether it is on, and what the link and the monitor have counted. -/
def watched (s : Session σ γ) : Config × Capture × Link × Monitor :=
  (s.config, s.capture, s.link, s.monitor)

/-- The capture, if it is on, has seen every packet that took a wire and every one that arrived. -/
structure Tapped (s : Session σ γ) : Prop where
  enabled : s.capture.enabled = s.config.capture
  count : s.capture.count =
    if s.config.capture then s.link.carried + s.monitor.arrived else 0
  fresh : s.monitor.fresh.received.packets = 0

theorem Tapped.of_counts (hs : s.Tapped) (hconfig : t.config = s.config)
    (hcapture : t.capture = s.capture) (hcarried : t.link.carried = s.link.carried)
    (harrived : t.monitor.arrived = s.monitor.arrived) (hfresh : t.monitor.fresh = s.monitor.fresh) :
    t.Tapped := by
  constructor
  · rw [hconfig, hcapture]
    exact hs.enabled
  · rw [hconfig, hcapture, hcarried, harrived]
    exact hs.count
  · rw [hfresh]
    exact hs.fresh

theorem Tapped.of_seen (hs : s.Tapped) (hconfig : t.config = s.config)
    (hcapture : t.capture =
      { s.capture with count := s.capture.count + if s.capture.enabled then 1 else 0 })
    (hmore : t.link.carried + t.monitor.arrived = s.link.carried + s.monitor.arrived + 1)
    (hfresh : t.monitor.fresh = s.monitor.fresh) : t.Tapped := by
  have hcount := hs.count
  have henabled := hs.enabled
  constructor
  · rw [hconfig, hcapture]
    exact henabled
  · rw [hconfig, hcapture, hmore]
    dsimp only
    rw [hcount, henabled]
    cases s.config.capture with
    | false => rfl
    | true => rfl
  · rw [hfresh]
    exact hs.fresh

theorem Tapped.of_watched (hs : s.Tapped) (h : t.watched = s.watched) : t.Tapped := by
  simp only [watched, Prod.mk.injEq] at h
  obtain ⟨hconfig, hcapture, hlink, hmonitor⟩ := h
  exact hs.of_counts hconfig hcapture (by rw [hlink]) (by rw [hmonitor]) (by rw [hmonitor])

theorem watched_see (s : Session σ γ) (point : CapturePoint) (d : Direction) (now : Instant)
    (p : Packet) : (s.see point d now p).watched = (s.config,
      { s.capture with count := s.capture.count + if s.capture.enabled then 1 else 0 }, s.link,
      s.monitor) := by
  have hcapture := s.capture.see_eq point d now p
  unfold see
  rw [← hcapture]
  generalize s.capture.see point d now p = r
  obtain ⟨n?, capture⟩ := r
  cases n? <;> rfl

theorem watched_noteAny (s : Session σ γ) (n? : Option Notice) :
    (s.noteAny n?).watched = s.watched := by
  cases n? <;> rfl

theorem watched_recordDispatch (s : Session σ γ) (d : Direction) (g : Generator σ γ)
    (o : DispatchOutcome) (socket : Socket) :
    (s.recordDispatch d g o socket).watched = s.watched :=
  s.watched_noteAny _

theorem watched_hand [Draws γ Span] (s : Session σ γ) (d : Direction) (now : Instant)
    (g : Generator σ γ) (frame : Frame) : (s.hand d now g frame).watched = s.watched := by
  unfold hand
  cases g.pacer? with
  | none => exact s.watched_recordDispatch d g _ _
  | some pacer => rfl

theorem watched_armSource (s : Session σ γ) (d : Direction) :
    (s.armSource d).watched = s.watched := by
  unfold armSource
  split <;> rfl

theorem watched_armPacer [Draws γ Span] (s : Session σ γ) (d : Direction) (now : Instant) :
    (s.armPacer d now).watched = s.watched := by
  unfold armPacer
  split
  · rfl
  · split <;> rfl

theorem watched_afterSegment (s : Session σ γ) (d : Direction) (g : Generator σ γ)
    (size? : Option Nat) : (s.afterSegment d g size?).watched = s.watched := by
  cases size? with
  | none => rfl
  | some size => exact s.watched_recordDispatch d g _ _

theorem watched_receive (s : Session σ γ) (now : Instant) (p : Packet) :
    (s.receive now p).watched = (s.config, s.capture, s.link,
      (s.monitor.receive p.flow p.uid p.size now).2) := by
  unfold receive
  generalize s.monitor.receive p.flow p.uid p.size now = r
  obtain ⟨delay?, monitor⟩ := r
  cases delay? <;> rfl

theorem watched_addGenerator (s : Session σ γ) (d : Direction) (feed : Feed σ γ) :
    (s.addGenerator d feed).watched = s.watched := by
  rcases addGenerator_cases s d feed with heq | ⟨_, _, heq⟩ <;> rw [heq] <;> rfl

theorem Begins.tapped (h : s.Begins c feeds) : s.Tapped := by
  obtain ⟨monitor, segmenter, journal, hm, _, rfl⟩ := h.state
  obtain ⟨journal', heq⟩ := start_eq c monitor segmenter feeds
  obtain ⟨delays, jitters, _, _, rfl⟩ := Monitor.of_new? hm
  have hadd : ∀ (s : Session σ γ) d,
      ((feeds.get d).elim s (s.addGenerator d)).watched = s.watched := by
    intro s d
    cases feeds.get d with
    | none => rfl
    | some feed => exact s.watched_addGenerator d feed
  have hbare : (bare c { maxDelay := c.monitor.maxDelay, fresh := .empty delays jitters } segmenter :
      Session σ γ).Tapped := by
    refine ⟨rfl, ?_, rfl⟩
    cases h : c.capture <;> simp only [bare, h] <;> rfl
  rw [heq]
  exact hbare.of_watched ((hadd _ .downlink).trans (hadd _ .uplink))

theorem Tapped.load? (hs : s.Tapped) (h : s.load? d now = some t) : t.Tapped := by
  obtain ⟨g, p, socket, uids, _, _, rfl⟩ := load?_eq_some h
  exact hs.of_counts rfl rfl (s.link.carried_push d p) (Monitor.arrived_send hs.fresh ..) rfl

theorem Tapped.loadUpTo (n : Nat) (hs : s.Tapped) : (loadUpTo d now n s).Tapped := by
  induction n generalizing s with
  | zero => exact hs
  | succ n ih =>
    rw [Session.loadUpTo]
    cases hload : s.load? d now with
    | none => exact hs
    | some t => exact ih (hs.load? hload)

theorem Tapped.startWire (hs : s.Tapped) : (s.startWire d now).Tapped := by
  unfold Session.startWire
  cases hstart : s.link.start? d now with
  | none => exact hs
  | some r =>
    obtain ⟨x, link⟩ := r
    have hcarried := Link.carried_of_start? hstart
    have hsee := ({ s with link } : Session σ γ).watched_see .transmit d now x.packet
    simp only [watched, Prod.mk.injEq] at hsee
    obtain ⟨hconfig, hcapture, hlink, hmonitor⟩ := hsee
    have hseen : (({ s with link } : Session σ γ).see .transmit d now x.packet).Tapped := by
      refine hs.of_seen hconfig hcapture ?_ (by rw [hmonitor])
      rw [hlink, hmonitor, hcarried]
      omega
    exact hseen.of_watched rfl

theorem Tapped.fill (hs : s.Tapped) : (s.fill d now).Tapped := by
  rw [fill_eq]
  exact (hs.loadUpTo _).startWire

theorem Tapped.acknowledge (hs : s.Tapped) : (s.acknowledge d now).Tapped := by
  rcases s.acknowledge_cases d now with ⟨heq, _⟩ | ⟨g, acks, rest, uids, _, _, hcases⟩
  · rw [heq]
    exact hs
  · rcases hcases with ⟨_, heq⟩ | ⟨ack, _, ⟨_, heq⟩ | ⟨hfull, journal, heq⟩⟩ <;> rw [heq]
    · exact hs.of_watched rfl
    · exact Tapped.startWire (hs.of_counts rfl rfl (s.link.carried_push d.reverse ack)
        (Monitor.arrived_send hs.fresh ..) rfl)
    · exact hs.of_counts rfl rfl (Link.carried_of_full hfull ack) rfl rfl

theorem Tapped.onArrival (hs : s.Tapped) {p : Packet} {sentAt : Instant}
    (hknown : s.monitor.inFlight[p.uid]? = some ⟨p.flow, sentAt⟩) (hle : sentAt ≤ now) :
    (s.onArrival d now p).Tapped := by
  have hsee := s.watched_see .receive d now p
  have hreceive := (s.see .receive d now p).watched_receive now p
  simp only [watched, Prod.mk.injEq] at hsee hreceive
  obtain ⟨hconfig, hcapture, hlink, hmonitor⟩ := hsee
  obtain ⟨hconfig', hcapture', hlink', hmonitor'⟩ := hreceive
  have hreceived : ((s.see .receive d now p).receive now p).Tapped := by
    refine hs.of_seen (hconfig'.trans hconfig) (hcapture'.trans hcapture) ?_ ?_
    · rw [hlink', hlink, hmonitor', hmonitor, Monitor.arrived_receive hs.fresh hknown hle]
      omega
    · rw [hmonitor', hmonitor]
      exact (s.monitor.receive_settings p.flow p.uid p.size now).1
  unfold Session.onArrival
  cases p.kind with
  | data => exact hreceived.acknowledge
  | ack => exact hreceived

theorem Tapped.onStop (hs : s.Tapped) : (s.onStop now).Tapped := by
  obtain ⟨_, _, heq, _⟩ := onStop_eq s now
  rw [heq]
  exact hs.of_counts rfl rfl rfl (Monitor.arrived_giveUp hs.fresh now) (s.monitor.giveUp_settings now).1

theorem Tapped.onSegmentDue [Draws γ Span] (hs : s.Tapped) : (s.onSegmentDue d now).Tapped := by
  cases hfound : s.generator? d with
  | none =>
    unfold Session.onSegmentDue
    rwa [hfound]
  | some g =>
    cases hpaced : g.pacer? with
    | none =>
      unfold Session.onSegmentDue
      rw [hfound]
      dsimp only
      rwa [hpaced]
    | some pacer =>
      rw [onSegmentDue_of_found hfound hpaced rfl]
      refine Tapped.fill (hs.of_watched ?_)
      rw [watched_armPacer, watched_afterSegment]

variable [Draws σ Nat] [Draws γ Span]

theorem Tapped.onFrameTick (hs : s.Tapped) : (s.onFrameTick d now).Tapped := by
  cases hfound : s.generator? d with
  | none =>
    unfold Session.onFrameTick
    rwa [hfound]
  | some g =>
    rw [onFrameTick_of_found hfound rfl]
    refine Tapped.fill (hs.of_watched ?_)
    rw [watched_armSource, watched_hand]
    rfl

theorem Steady.tapped_of_step? {events : EventQueue Event} {e : Event} (hsteady : s.Steady c now)
    {later : Instant} (hs : s.Tapped) (hpop : s.events.pop? = some ((later, e), events)) :
    ((s.advanced events).handle later e).Tapped := by
  have hadvanced : (s.advanced events).Tapped := hs.of_watched rfl
  cases e with
  | frameTick d => exact hadvanced.onFrameTick
  | segmentDue d => exact hadvanced.onSegmentDue
  | wireFree d =>
    have hfreed : ({ s.advanced events with link := s.link.complete d } : Session σ γ).Tapped :=
      hs.of_counts rfl rfl (s.link.carried_complete d) rfl rfl
    exact hfreed.fill
  | arrival d p =>
    obtain ⟨sentAt, hknown, hle⟩ := hsteady.accounted.known_of_pop? hsteady.standing hpop
    exact hadvanced.onArrival hknown hle
  | stop => exact hadvanced.onStop

theorem Reaches.tapped (h : s.Reaches t) (hs : s.Begins c feeds) : t.Tapped := by
  refine (h.induct (P := fun t => s.Reaches t ∧ t.Tapped) ⟨.refl, (hs.note _).tapped⟩ ?_).2
  rintro u v ⟨hreach, hu⟩ hstep
  obtain ⟨hrunning, now, e, events, hpop, heq⟩ := step?_eq_some hstep
  exact ⟨.tail hreach hstep, heq ▸ (hreach.steady hs hrunning).tapped_of_step? hu hpop⟩

end Session

end VideoLink
