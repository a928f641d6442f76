import VideoLink.Proofs.Measure.Parallel
import VideoLink.Proofs.Session.Runnable
import VideoLink.Proofs.Session.Start

/-! Observing does not disturb. Two runs whose configurations differ only in the capture and in the bins of
the histograms do the same at every event, and tell their monitors the same. -/
namespace VideoLink

namespace Config

/-- Nothing differs but whether packets are captured and how the bins of the histograms lie. -/
structure SameTraffic (c c' : Config) : Prop where
  duration : c.duration = c'.duration
  link : c.link = c'.link
  uplink : c.uplink = c'.uplink
  downlink : c.downlink = c'.downlink
  quality : c.quality = c'.quality
  frameInterval : c.frameInterval = c'.frameInterval
  maxSegment : c.maxSegment = c'.maxSegment
  maxFrame : c.maxFrame = c'.maxFrame
  jitter? : c.jitter? = c'.jitter?
  transport : c.transport = c'.transport
  maxDelay : c.monitor.maxDelay = c'.monitor.maxDelay
  seed : c.seed = c'.seed

theorem SameTraffic.feed? {c c' : Config} (h : c.SameTraffic c') (d : Direction) :
    c.feed? d = c'.feed? d := by
  have hvideo : c.hasVideo d = c'.hasVideo d := by
    cases d with
    | uplink => exact h.uplink
    | downlink => exact h.downlink
  have hseed : c.directionSeed d = c'.directionSeed d := by
    unfold directionSeed
    rw [h.seed]
  unfold Config.feed?
  rw [hvideo, hseed, h.quality, h.maxFrame, h.jitter?, h.frameInterval]

end Config

namespace Session

variable {σ γ : Type} {a a' : MonitorSettings} {s t : Session σ γ}

/-- Two sessions in the same state, but for what has been observed. -/
structure Twins (a a' : MonitorSettings) (s t : Session σ γ) : Prop where
  config : s.config.SameTraffic t.config
  events : s.events = t.events
  link : s.link = t.link
  segmenter : s.segmenter = t.segmenter
  generators : s.generators = t.generators
  uids : s.uids = t.uids
  processed : s.processed = t.processed
  summary? : s.summary? = t.summary?
  monitor : Monitor.Parallel a a' s.monitor t.monitor

theorem runEvents_eq [Draws σ Nat] [Draws γ Span] (s : Session σ γ) :
    s.runEvents = s.step?.elim s runEvents := by
  rw [runEvents]
  split <;> rename_i h <;> rw [h] <;> rfl

namespace Twins

theorem generator? (h : Twins a a' s t) (d : Direction) : s.generator? d = t.generator? d :=
  congrArg (·.get d) h.generators

theorem note (h : Twins a a' s t) (n n' : Notice) : Twins a a' (s.note n) (t.note n') :=
  { h with }

theorem noteAny (h : Twins a a' s t) (n? n'? : Option Notice) :
    Twins a a' (s.noteAny n?) (t.noteAny n'?) := by
  cases n? <;> cases n'? <;> exact { h with }

theorem setGenerator (h : Twins a a' s t) (d : Direction) (g : Generator σ γ) :
    Twins a a' (s.setGenerator d g) (t.setGenerator d g) :=
  { h with generators := congrArg (·.set d (some g)) h.generators }

theorem setEvents (h : Twins a a' s t) (events : EventQueue Event) :
    Twins a a' { s with events } { t with events } :=
  { h with events := rfl }

theorem setLink (h : Twins a a' s t) (link : Link) : Twins a a' { s with link } { t with link } :=
  { h with link := rfl }

theorem setUids (h : Twins a a' s t) (uids : UidCounter) :
    Twins a a' { s with uids } { t with uids } :=
  { h with uids := rfl }

theorem schedule (h : Twins a a' s t) (time : Instant) (e : Event) :
    Twins a a' (s.schedule time e) (t.schedule time e) :=
  { h with events := by rw [Session.schedule, Session.schedule, h.events] }

theorem send (h : Twins a a' s t) (key : FlowKey) (uid bytes : Nat) (now : Instant) :
    Twins a a' { s with monitor := s.monitor.send key uid bytes now }
      { t with monitor := t.monitor.send key uid bytes now } :=
  { h with monitor := h.monitor.send key uid bytes now }

theorem see (h : Twins a a' s t) (point : CapturePoint) (d : Direction) (now : Instant) (p : Packet) :
    Twins a a' (s.see point d now p) (t.see point d now p) := by
  obtain ⟨journal, capture, hs⟩ := see_eq s point d now p
  obtain ⟨journal', capture', ht⟩ := see_eq t point d now p
  rw [hs, ht]
  exact { h with }

theorem startWire (h : Twins a a' s t) (d : Direction) (now : Instant) :
    Twins a a' (s.startWire d now) (t.startWire d now) := by
  unfold Session.startWire
  rw [h.link]
  cases t.link.start? d now with
  | none => exact h
  | some r =>
    obtain ⟨x, link⟩ := r
    exact (((h.setLink link).see .transmit d now x.packet).schedule _ _).schedule _ _

theorem load? (h : Twins a a' s t) (d : Direction) (now : Instant) :
    Option.Rel (Twins a a') (s.load? d now) (t.load? d now) := by
  unfold Session.load?
  rw [h.generator? d, h.uids]
  cases t.generator? d with
  | none => exact .none
  | some g =>
    simp only [Option.bind_eq_bind, Option.bind_some]
    cases g.socket.next? t.uids with
    | none => exact .none
    | some r =>
      obtain ⟨p, socket, uids⟩ := r
      have hsent := ((h.setGenerator d { g with socket }).send p.flow p.uid p.size now).setUids uids
      exact .some { hsent with link := congrArg (·.push d p) h.link }

theorem loadUpTo (h : Twins a a' s t) (d : Direction) (now : Instant) (n : Nat) :
    Twins a a' (loadUpTo d now n s) (loadUpTo d now n t) := by
  induction n generalizing s t with
  | zero => exact h
  | succ n ih =>
    have hload := h.load? d now
    rw [Session.loadUpTo, Session.loadUpTo]
    generalize s.load? d now = s'? at *
    generalize t.load? d now = t'? at *
    cases hload with
    | none => exact h
    | some hloaded => exact ih hloaded

theorem fill (h : Twins a a' s t) (d : Direction) (now : Instant) :
    Twins a a' (s.fill d now) (t.fill d now) := by
  rw [fill_eq, fill_eq, h.link]
  exact (h.loadUpTo d now _).startWire d now

theorem recordDispatch (h : Twins a a' s t) (d : Direction) (g : Generator σ γ) (o : DispatchOutcome)
    (socket : Socket) :
    Twins a a' (s.recordDispatch d g o socket) (t.recordDispatch d g o socket) :=
  (h.noteAny _ _).setGenerator d _

theorem armSource (h : Twins a a' s t) (d : Direction) :
    Twins a a' (s.armSource d) (t.armSource d) := by
  unfold Session.armSource
  rw [h.generator? d, h.events]
  cases t.generator? d with
  | none => exact h
  | some g => exact (h.setEvents _).setGenerator d _

theorem sendAck (h : Twins a a' s t) (d : Direction) (now : Instant) (ack : Packet) :
    Twins a a' (s.sendAck d now ack) (t.sendAck d now ack) := by
  unfold Session.sendAck
  rw [h.link]
  dsimp only
  split
  · exact ((h.setLink _).send ack.flow ack.uid ack.size now).startWire d now
  · exact (h.setLink _).note _ _

theorem acknowledge (h : Twins a a' s t) (d : Direction) (now : Instant) :
    Twins a a' (s.acknowledge d now) (t.acknowledge d now) := by
  unfold Session.acknowledge
  rw [h.generator? d, h.uids]
  cases t.generator? d with
  | none => exact h
  | some g =>
    dsimp only
    cases g.acks? with
    | none => exact h
    | some acks =>
      dsimp only
      have hcounted := (h.setUids (acks.onData t.uids).2.2).setGenerator d
        { g with acks? := some (acks.onData t.uids).2.1 }
      split
      · exact hcounted
      · exact hcounted.sendAck d.reverse now _

theorem receive (h : Twins a a' s t) (now : Instant) (p : Packet) :
    Twins a a' (s.receive now p) (t.receive now p) := by
  obtain ⟨hanswer, hmonitor⟩ := h.monitor.receive p.flow p.uid p.size now
  have htold : Twins a a' { s with monitor := (s.monitor.receive p.flow p.uid p.size now).2 }
      { t with monitor := (t.monitor.receive p.flow p.uid p.size now).2 } :=
    { h with monitor := hmonitor }
  unfold Session.receive
  dsimp only
  rw [hanswer]
  split
  · exact htold
  · exact htold.note _ _

theorem onArrival (h : Twins a a' s t) (d : Direction) (now : Instant) (p : Packet) :
    Twins a a' (s.onArrival d now p) (t.onArrival d now p) := by
  have hreceived := (h.see .receive d now p).receive now p
  unfold Session.onArrival
  cases p.kind with
  | data => exact hreceived.acknowledge d now
  | ack => exact hreceived

theorem onWireFree (h : Twins a a' s t) (d : Direction) (now : Instant) :
    Twins a a' (s.onWireFree d now) (t.onWireFree d now) := by
  unfold Session.onWireFree
  rw [h.link]
  exact (h.setLink _).fill d now

theorem stopGenerator (h : Twins a a' s t) (d : Direction) :
    Twins a a' (s.stopGenerator d) (t.stopGenerator d) := by
  unfold Session.stopGenerator
  rw [h.generator? d, h.events]
  cases t.generator? d with
  | none => exact h
  | some g =>
    dsimp only
    cases g.pacer? with
    | none => exact ((h.setEvents _).setGenerator d _).note _ _
    | some pacer => exact ((h.setEvents _).setGenerator d _).note _ _

theorem conclude (h : Twins a a' s t) (now : Instant) :
    Twins a a' (s.conclude now) (t.conclude now) := by
  obtain ⟨hlost, hmonitor⟩ := h.monitor.giveUp now
  have hsummary : (⟨now, s.processed, s.events.pending, (s.monitor.giveUp now).1⟩ : Summary) =
      ⟨now, t.processed, t.events.pending, (t.monitor.giveUp now).1⟩ := by
    rw [h.processed, h.events, hlost]
  unfold Session.conclude
  refine note ?_ _ _
  exact { h with
    events := congrArg EventQueue.clear h.events
    summary? := congrArg some hsummary
    monitor := hmonitor }

theorem onStop (h : Twins a a' s t) (now : Instant) : Twins a a' (s.onStop now) (t.onStop now) :=
  ((h.stopGenerator .uplink).stopGenerator .downlink).conclude now

section

variable [Draws γ Span]

theorem hand (h : Twins a a' s t) (d : Direction) (now : Instant) (g : Generator σ γ)
    (frame : Frame) : Twins a a' (s.hand d now g frame) (t.hand d now g frame) := by
  have hsizes : s.segmenter.sizes frame.size = t.segmenter.sizes frame.size := by rw [h.segmenter]
  unfold Session.hand
  rw [hsizes, h.events]
  dsimp only
  split
  · exact (h.setEvents _).setGenerator d _
  · exact h.recordDispatch d g _ _

theorem armPacer (h : Twins a a' s t) (d : Direction) (now : Instant) :
    Twins a a' (s.armPacer d now) (t.armPacer d now) := by
  unfold Session.armPacer
  rw [h.generator? d, h.events]
  cases t.generator? d with
  | none => exact h
  | some g =>
    dsimp only
    cases g.pacer? with
    | none => exact h
    | some pacer => exact (h.setEvents _).setGenerator d _

theorem onSegmentDue (h : Twins a a' s t) (d : Direction) (now : Instant) :
    Twins a a' (s.onSegmentDue d now) (t.onSegmentDue d now) := by
  unfold Session.onSegmentDue
  rw [h.generator? d]
  cases t.generator? d with
  | none => exact h
  | some g =>
    dsimp only
    cases g.pacer? with
    | none => exact h
    | some pacer =>
      refine fill (armPacer ?_ d now) d now
      cases pacer.take.1 with
      | none => exact h.setGenerator d _
      | some size => exact h.recordDispatch d _ _ _

variable [Draws σ Nat]

theorem onFrameTick (h : Twins a a' s t) (d : Direction) (now : Instant) :
    Twins a a' (s.onFrameTick d now) (t.onFrameTick d now) := by
  unfold Session.onFrameTick
  rw [h.generator? d]
  cases t.generator? d with
  | none => exact h
  | some g => exact (((h.note _ _).hand d now _ _).armSource d).fill d now

theorem handle (h : Twins a a' s t) (now : Instant) (e : Event) :
    Twins a a' (s.handle now e) (t.handle now e) := by
  cases e with
  | frameTick d => exact h.onFrameTick d now
  | segmentDue d => exact h.onSegmentDue d now
  | wireFree d => exact h.onWireFree d now
  | arrival d p => exact h.onArrival d now p
  | stop => exact h.onStop now

/-- Twins take the same event next, and are twins after it. -/
theorem step? (h : Twins a a' s t) : Option.Rel (Twins a a') s.step? t.step? := by
  have hover : s.summary?.isSome = t.summary?.isSome := by rw [h.summary?]
  unfold Session.step?
  rw [hover, h.events]
  split
  · exact .none
  · split
    · exact .none
    · rename_i now e events _
      have hnext : Twins a a' (s.advanced events) (t.advanced events) :=
        { h with events := rfl, processed := congrArg (· + 1) h.processed }
      exact .some (hnext.handle now e)

theorem runEvents (h : Twins a a' s t) : Twins a a' s.runEvents t.runEvents := by
  fun_induction Session.runEvents s generalizing t with
  | case1 s hend =>
    have hnext := h.step?
    rw [hend] at hnext
    rw [t.runEvents_eq]
    generalize t.step? = t'? at *
    cases hnext with
    | none => exact h
  | case2 s u hstep ih =>
    have hnext := h.step?
    rw [hstep] at hnext
    rw [t.runEvents_eq]
    generalize t.step? = t'? at *
    cases hnext with
    | some hstepped => exact ih hstepped

theorem run (h : Twins a a' s t) : s.run.1 = t.run.1 ∧ Twins a a' s.run.2 t.run.2 := by
  unfold Session.run
  rw [h.summary?]
  split
  · exact ⟨rfl, h⟩
  · have hend := (h.note (.started s.directions.length) (.started t.directions.length)).runEvents
    have hsummary : (s.note (.started s.directions.length)).runEvents.summary?.getD
          (s.note (.started s.directions.length)).runEvents.exhausted =
        (t.note (.started t.directions.length)).runEvents.summary?.getD
          (t.note (.started t.directions.length)).runEvents.exhausted := by
      unfold exhausted
      rw [hend.summary?, hend.events, hend.processed]
    exact ⟨hsummary, { hend with summary? := congrArg some hsummary }⟩

end

theorem bare {c c' : Config} (hc : c.SameTraffic c') {m m' : Monitor}
    (hm : Monitor.new? c.monitor = .ok m) (hm' : Monitor.new? c'.monitor = .ok m')
    (segmenter : Segmenter) :
    Twins c.monitor c'.monitor (bare c m segmenter : Session σ γ) (bare c' m' segmenter) := by
  refine ⟨hc, ?_, ?_, rfl, rfl, rfl, rfl, rfl, .of_new? hc.maxDelay hm hm'⟩
  · rw [Session.bare, Session.bare, hc.duration]
  · rw [Session.bare, Session.bare, hc.link]

theorem addGenerator (h : Twins a a' s t) (d : Direction) (feed : Feed σ γ) :
    Twins a a' (s.addGenerator d feed) (t.addGenerator d feed) := by
  unfold Session.addGenerator
  dsimp only
  rw [h.config.transport, h.config.duration, h.config.frameInterval, h.events]
  exact (h.setEvents _).setGenerator d _

theorem populated {c c' : Config} (hc : c.SameTraffic c') {m m' : Monitor}
    (hm : Monitor.new? c.monitor = .ok m) (hm' : Monitor.new? c'.monitor = .ok m')
    (segmenter : Segmenter) (feeds : Duplex (Option (Feed σ γ))) :
    Twins c.monitor c'.monitor (populated c m segmenter feeds)
      (populated c' m' segmenter feeds) := by
  have hadd : ∀ {s t : Session σ γ}, Twins c.monitor c'.monitor s t → ∀ d,
      Twins c.monitor c'.monitor ((feeds.get d).elim s (s.addGenerator d))
        ((feeds.get d).elim t (t.addGenerator d)) := by
    intro s t h d
    cases feeds.get d with
    | none => exact h
    | some feed => exact h.addGenerator d feed
  exact hadd (hadd (bare hc hm hm' segmenter) .uplink) .downlink

end Twins

theorem Begins.twins {c c' : Config} {feeds : Duplex (Option (Feed σ γ))} {s s' : Session σ γ}
    (hs : s.Begins c feeds) (hs' : s'.Begins c' feeds) (hc : c.SameTraffic c') :
    Twins c.monitor c'.monitor s s' := by
  obtain ⟨monitor, segmenter, journal, hm, hg, rfl⟩ := hs.state
  obtain ⟨monitor', segmenter', journal', hm', hg', rfl⟩ := hs'.state
  rw [← hc.maxSegment, hg] at hg'
  cases hg'
  obtain ⟨_, hstart⟩ := start_eq c monitor segmenter feeds
  obtain ⟨_, hstart'⟩ := start_eq c' monitor' segmenter feeds
  rw [hstart, hstart']
  exact { Twins.populated hc hm hm' segmenter feeds with }

/-- Whether packets are captured, and how the bins of the histograms lie, makes no difference to what a
run does or to anything else that it measures: the summary, the statistics of the video, of the sockets
and of the channels, the flows and their order, and their records but for the histograms. Those are
filled with the same samples. Both runs can be set up if the bins fit. -/
theorem observing_does_not_disturb {settings settings' : Settings} {c c' : Config}
    (hc : settings.check = .ok c) (hc' : settings'.check = .ok c') (hsame : c.SameTraffic c') :
    (settings.bins ≤ Histogram.mostBins → settings'.bins ≤ Histogram.mostBins →
      ∃ s s', build? c = .ok s ∧ build? c' = .ok s') ∧
    ∀ s s', build? c = .ok s → build? c' = .ok s' → s.run.1 = s'.run.1 ∧
      (∀ d, s.run.2.generatorReport? d = s'.run.2.generatorReport? d ∧
        s.run.2.link.stats d = s'.run.2.link.stats d) ∧
      s.run.2.monitor.snapshot.unattributed = s'.run.2.monitor.snapshot.unattributed ∧
      s.run.2.monitor.snapshot.inFlight = s'.run.2.monitor.snapshot.inFlight ∧
      List.Forall₂ (fun e e' => e.id = e'.id ∧ e.key = e'.key ∧ e.record.Agrees e'.record ∧
          ∃ sent arrived, e.record.Digests c.monitor sent arrived ∧
            e'.record.Digests c'.monitor sent arrived)
        s.run.2.monitor.snapshot.flows s'.run.2.monitor.snapshot.flows := by
  constructor
  · intro hbins hbins'
    obtain ⟨s, hs⟩ := Settings.exists_build?_of_check hc hbins
    obtain ⟨s', hs'⟩ := Settings.exists_build?_of_check hc' hbins'
    exact ⟨s, s', hs, hs'⟩
  · intro s s' hs hs'
    obtain ⟨feeds, hbegins, hfeeds⟩ := begins_of_build? (Settings.positive_of_check hc) hs
    obtain ⟨feeds', hbegins', hfeeds'⟩ := begins_of_build? (Settings.positive_of_check hc') hs'
    have hsupplies : feeds' = feeds :=
      Duplex.ext fun d => Except.ok.inj ((hfeeds' d).symm.trans ((hsame.feed? d).symm.trans (hfeeds d)))
    rw [hsupplies] at hbegins'
    obtain ⟨hsummary, hend⟩ := (hbegins.twins hbegins' hsame).run
    refine ⟨hsummary, ?_, hend.monitor.unattributed, ?_, ?_⟩
    · intro d
      exact ⟨congrArg (Option.map _) (hend.generator? d), congrArg (·.stats d) hend.link⟩
    · exact congrArg (·.size) hend.monitor.inFlight
    · refine hend.monitor.snapshot.imp ?_
      rintro e e' ⟨hid, hkey, hrecord⟩
      exact ⟨hid, hkey, hrecord.agrees, hrecord.digests⟩

/-- A brief run passes as it would with a capture and with few bins. -/
theorem captured_run_is_undisturbed : ∃ s s', build? (.brief .tcp) = .ok s ∧
    build? { Config.brief .tcp with
      capture := true
      monitor := { MonitorSettings.standard with bins := 10 } } = .ok s' ∧
    s.run.1 = s'.run.1 ∧ ∀ d, s.run.2.link.stats d = s'.run.2.link.stats d := by
  have hsame : Config.SameTraffic (.brief .tcp) { Config.brief .tcp with
      capture := true
      monitor := { MonitorSettings.standard with bins := 10 } } :=
    ⟨rfl, rfl, rfl, rfl, rfl, rfl, rfl, rfl, rfl, rfl, rfl, rfl⟩
  obtain ⟨hruns, hagree⟩ :=
    observing_does_not_disturb (Settings.check_brief .tcp) (Settings.check_captured .tcp) hsame
  obtain ⟨s, s', hs, hs'⟩ := hruns (by decide) (by decide)
  obtain ⟨hsummary, hstats, _⟩ := hagree s s' hs hs'
  exact ⟨s, s', hs, hs', hsummary, fun d => (hstats d).2⟩

end Session

end VideoLink
