import VideoLink.Session.Basic

/-! What each event does. Frames and due segments go into the socket; the socket fills the queue of its
direction as long as there is room; the head of the queue goes onto the wire as soon as the wire is free. -/
namespace VideoLink.Session

variable {σ γ : Type}

def see (s : Session σ γ) (point : CapturePoint) (d : Direction) (now : Instant) (p : Packet) :
    Session σ γ :=
  let (notice?, capture) := s.capture.see point d now p
  { s with capture }.noteAny notice?

/-- Puts the head of a queue onto the wire, if the wire is free, and schedules its end and arrival. -/
def startWire (s : Session σ γ) (d : Direction) (now : Instant) : Session σ γ :=
  match s.link.start? d now with
  | none => s
  | some (t, link) =>
    (({ s with link }.see .transmit d now t.packet).schedule t.finish (.wireFree d)).schedule
      t.arrival (.arrival d t.packet)

/-- Moves packets from the socket of a direction into its queue as long as there is room. A packet counts as
sent when it has entered the queue, and one that did not enter would end the loop. -/
def load (s : Session σ γ) (d : Direction) (now : Instant) : Session σ γ :=
  if s.link.hasRoom d then
    match s.generator? d with
    | none => s
    | some g =>
      match g.socket.next? s.uids with
      | none => s
      | some (p, socket, uids) =>
        let t := s.setGenerator d { g with socket }
        match _ : s.link.enqueue d p with
        | (true, link) => load { t with
            uids
            link
            monitor := s.monitor.send p.flow p.uid p.size now } d now
        | (false, link) => { t with uids, link }
  else s
termination_by s.link.room d
decreasing_by
  have := Link.room_of_enqueue ‹_›
  show link.room d < s.link.room d
  omega

def fill (s : Session σ γ) (d : Direction) (now : Instant) : Session σ γ :=
  (s.load d now).startWire d now

def failureNotice? (d : Direction) (o : DispatchOutcome) : Option Notice :=
  o.error?.map (.sendFailed d o.failed o.failedBytes)

def recordDispatch (s : Session σ γ) (d : Direction) (g : Generator σ γ) (o : DispatchOutcome)
    (socket : Socket) : Session σ γ :=
  (s.noteAny (failureNotice? d o)).setGenerator d
    { g with source := g.source.record o, socket }

/-- Hands a new frame on: to the pacer, or else to the socket at once. -/
def hand [Draws γ Span] (s : Session σ γ) (d : Direction) (now : Instant) (g : Generator σ γ)
    (frame : Frame) : Session σ γ :=
  let sizes := s.segmenter.sizes frame.size
  match g.pacer? with
  | some pacer =>
    let (_, pacer, events) := (pacer.push sizes).arm s.events now (.segmentDue d)
    { s with events }.setGenerator d { g with pacer? := some pacer }
  | none =>
    let (outcome, socket) := dispatch g.socket sizes
    s.recordDispatch d g outcome socket

def armSource (s : Session σ γ) (d : Direction) : Session σ γ :=
  match s.generator? d with
  | none => s
  | some g =>
    let (_, source, events) := g.source.arm s.events (.frameTick d)
    { s with events }.setGenerator d { g with source }

def onFrameTick [Draws σ Nat] [Draws γ Span] (s : Session σ γ) (d : Direction) (now : Instant) :
    Session σ γ :=
  match s.generator? d with
  | none => s
  | some g =>
    let (frame, source) := g.source.emit now
    let s := s.note (.frameGenerated frame.index frame.size now)
    ((s.hand d now { g with source } frame).armSource d).fill d now

def armPacer [Draws γ Span] (s : Session σ γ) (d : Direction) (now : Instant) : Session σ γ :=
  match s.generator? d with
  | none => s
  | some g =>
    match g.pacer? with
    | none => s
    | some pacer =>
      let (_, pacer, events) := pacer.arm s.events now (.segmentDue d)
      { s with events }.setGenerator d { g with pacer? := some pacer }

def onSegmentDue [Draws γ Span] (s : Session σ γ) (d : Direction) (now : Instant) : Session σ γ :=
  match s.generator? d with
  | none => s
  | some g =>
    match g.pacer? with
    | none => s
    | some pacer =>
      let (size?, pacer) := pacer.take
      let g := { g with pacer? := some pacer }
      let s := match size? with
        | some size =>
          let (outcome, socket) := dispatch g.socket [size]
          s.recordDispatch d g outcome socket
        | none => s.setGenerator d g
      (s.armPacer d now).fill d now

def onWireFree (s : Session σ γ) (d : Direction) (now : Instant) : Session σ γ :=
  { s with link := s.link.complete d }.fill d now

def sendAck (s : Session σ γ) (d : Direction) (now : Instant) (ack : Packet) : Session σ γ :=
  let (taken, link) := s.link.enqueue d ack
  if taken then
    { s with link, monitor := s.monitor.send ack.flow ack.uid ack.size now }.startWire d now
  else { s with link }.note (.ackDropped d ack.uid)

def acknowledge (s : Session σ γ) (d : Direction) (now : Instant) : Session σ γ :=
  match s.generator? d with
  | none => s
  | some g =>
    match g.acks? with
    | none => s
    | some acks =>
      let (ack?, acks, uids) := acks.onData s.uids
      let s := { s with uids }.setGenerator d { g with acks? := some acks }
      match ack? with
      | none => s
      | some ack => s.sendAck d.reverse now ack

def receive (s : Session σ γ) (now : Instant) (p : Packet) : Session σ γ :=
  let (delay?, monitor) := s.monitor.receive p.flow p.uid p.size now
  let s := { s with monitor }
  match delay? with
  | some _ => s
  | none => s.note (.unmatchedArrival p.flow)

def onArrival (s : Session σ γ) (d : Direction) (now : Instant) (p : Packet) : Session σ γ :=
  let s := (s.see .receive d now p).receive now p
  match p.kind with
  | .data => s.acknowledge d now
  | .ack => s

/-- Ends the video of a direction: no frame and no segment comes any more, and the socket is closed. -/
def stopGenerator (s : Session σ γ) (d : Direction) : Session σ γ :=
  match s.generator? d with
  | none => s
  | some g =>
    let (source, events) := g.source.halt s.events
    let (unpaced, pacer?, events) := match g.pacer? with
      | none => (0, none, events)
      | some pacer =>
        let (unpaced, pacer, events) := pacer.stop events
        (unpaced, some pacer, events)
    let socket := g.socket.close
    ({ s with events }.setGenerator d { g with source, pacer?, socket }).note
      (.generatorStopped d unpaced socket.unsent (s.link.queued d))

/-- Drops the pending events, gives up the overdue packets and sums up. -/
def conclude (s : Session σ γ) (now : Instant) : Session σ γ :=
  let discarded := s.events.pending
  let (lost, monitor) := s.monitor.giveUp now
  let s := { s with
    events := s.events.clear
    monitor
    summary? := some ⟨now, s.processed, discarded, lost⟩ }
  s.note (.stopped now s.processed discarded lost s.monitor.inFlightCount)

def onStop (s : Session σ γ) (now : Instant) : Session σ γ :=
  ((s.stopGenerator .uplink).stopGenerator .downlink).conclude now

def handle [Draws σ Nat] [Draws γ Span] (s : Session σ γ) (now : Instant) : Event → Session σ γ
  | .frameTick d => s.onFrameTick d now
  | .segmentDue d => s.onSegmentDue d now
  | .wireFree d => s.onWireFree d now
  | .arrival d p => s.onArrival d now p
  | .stop => s.onStop now

/-- Takes the next event and handles it, unless the run is over. -/
@[inline] def step? [Draws σ Nat] [Draws γ Span] (s : Session σ γ) : Option (Session σ γ) :=
  if s.summary?.isSome then none
  else
    match s.events.pop? with
    | none => none
    | some ((now, e), events) =>
      some ({ s with events, processed := s.processed + 1 }.handle now e)

end VideoLink.Session
