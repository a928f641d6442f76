import VideoLink.Proofs.Session.Apart

/-! Two sessions whose lanes agree. The lane decides what an event of the direction does, so the lanes agree
after the event as well. -/
namespace VideoLink

variable {σ γ : Type}

theorem Socket.next?_eq (s : Socket) (uids uids' : UidCounter) :
    s.next? uids' = (s.next? uids).map fun (p, socket, _) =>
      ({ p with uid := uids'.next }, socket, ⟨uids'.next + 1⟩) := by
  unfold next?
  cases s.pending.pop? <;> rfl

theorem Generator.unticketed_eq {g g' : Generator σ γ} : g.unticketed = g'.unticketed ↔
    g.source.unticketed = g'.source.unticketed ∧
      g.pacer?.map Pacer.unticketed = g'.pacer?.map Pacer.unticketed ∧ g.socket = g'.socket ∧
      g.acks? = g'.acks? := by
  simp only [unticketed, Generator.mk.injEq]

theorem Generator.pacers_of_unticketed {g g' : Generator σ γ} (h : g.unticketed = g'.unticketed) :
    g.pacer? = none ∧ g'.pacer? = none ∨ ∃ p p', g.pacer? = some p ∧ g'.pacer? = some p' ∧
      p.unticketed = p'.unticketed := by
  obtain ⟨_, hpacer, _⟩ := unticketed_eq.1 h
  cases hp : g.pacer? with
  | none =>
    rw [hp, Option.map_none, eq_comm, Option.map_eq_none_iff] at hpacer
    exact .inl ⟨rfl, hpacer⟩
  | some p =>
    rw [hp, Option.map_some, eq_comm, Option.map_eq_some_iff] at hpacer
    obtain ⟨p', hp', heq⟩ := hpacer
    exact .inr ⟨p, p', rfl, hp', heq.symm⟩

theorem Pacer.of_unticketed {p p' : Pacer γ} (h : p.unticketed = p'.unticketed) :
    p.gaps = p'.gaps ∧ p.queued = p'.queued ∧ p.pending?.isSome = p'.pending?.isSome := by
  have hpending := congrArg (fun p : Pacer γ => p.pending?.isSome) h
  unfold unticketed at hpending
  rw [Option.isSome_map, Option.isSome_map] at hpending
  exact ⟨(congrArg Pacer.gaps h :), (congrArg Pacer.queued h :), hpending⟩

theorem FrameSource.emit_of_unticketed [Draws σ Nat] {u u' : FrameSource σ}
    (h : u.unticketed = u'.unticketed) (now : Instant) : u.emit now = u'.emit now :=
  (congrArg (·.emit now) h :)

theorem Pacer.take_of_unticketed {p p' : Pacer γ} (h : p.unticketed = p'.unticketed) :
    p.take = p'.take := by
  obtain ⟨hgaps, hqueued, _⟩ := of_unticketed h
  unfold take
  rw [hqueued, hgaps]

namespace Session

/-- Two sessions that agree on the lane of a direction, at one instant. -/
structure Agree (c c' : Config) (d : Direction) (now : Instant) (s s' : Session σ γ) : Prop where
  left : s.Live c now
  right : s'.Live c' now
  lane : s.lane d = s'.lane d

theorem lane_schedule_agree {s s' : Session σ γ} {d : Direction} (h : s.lane d = s'.lane d)
    (hs : s.events.Orderly) (hs' : s'.events.Orderly) (hnow : s.events.now = s'.events.now)
    (time : Instant) (e e' : Event) (he : s.happening? d e = s'.happening? d e') :
    (s.schedule time e).lane d = (s'.schedule time e').lane d := by
  rw [lane_schedule hs, lane_schedule hs', h, he, hnow]

theorem lane_arm_agree {s s' : Session σ γ} {d : Direction} (h : s.lane d = s'.lane d)
    (hs : s.events.Orderly) (hs' : s'.events.Orderly) (hnow : s.events.now = s'.events.now)
    {u u' : FrameSource σ} (hu : u.unticketed = u'.unticketed) :
    ({ s with events := (u.arm s.events (.frameTick d)).2.2 } : Session σ γ).lane d =
      ({ s' with events := (u'.arm s'.events (.frameTick d)).2.2 } : Session σ γ).lane d ∧
    (u.arm s.events (.frameTick d)).2.1.unticketed =
      (u'.arm s'.events (.frameTick d)).2.1.unticketed := by
  have htick : u.nextTick? = u'.nextTick? := (congrArg FrameSource.nextTick? hu :)
  unfold FrameSource.arm
  rw [htick]
  split
  · refine ⟨?_, hu⟩
    exact lane_schedule_agree h hs hs' hnow _ (.frameTick d) (.frameTick d) rfl
  · exact ⟨h, hu⟩

section

variable {c c' : Config} {d : Direction} {now : Instant} {s s' t t' : Session σ γ}

theorem Agree.clock (h : Agree c c' d now s s') : s.events.now = s'.events.now :=
  h.left.time.trans h.right.time.symm

theorem Agree.generators (h : Agree c c' d now s s') :
    s.generator? d = none ∧ s'.generator? d = none ∨ ∃ g g', s.generator? d = some g ∧
      s'.generator? d = some g' ∧ g.unticketed = g'.unticketed := by
  have hvideo : (s.generator? d).map Generator.unticketed =
      (s'.generator? d).map Generator.unticketed := congrArg Lane.video? h.lane
  cases hg : s.generator? d with
  | none =>
    rw [hg, Option.map_none, eq_comm, Option.map_eq_none_iff] at hvideo
    exact .inl ⟨rfl, hvideo⟩
  | some g =>
    rw [hg, Option.map_some, eq_comm, Option.map_eq_some_iff] at hvideo
    obtain ⟨g', hg', heq⟩ := hvideo
    exact .inr ⟨g, g', rfl, hg', heq.symm⟩

theorem Agree.setGenerator (h : s.lane d = s'.lane d) {g g' : Generator σ γ}
    (hg : g.unticketed = g'.unticketed) :
    (s.setGenerator d g).lane d = (s'.setGenerator d g').lane d := by
  rw [lane_setGenerator, lane_setGenerator, h, hg]

variable [Draws σ Nat] [Draws γ Span]

theorem Agree.moves (h : Agree c c' d now s s') {e e' : Direction} (hm : Moves now e s t)
    (hm' : Moves now e' s' t') (hlane : t.lane d = t'.lane d) : Agree c c' d now t t' :=
  ⟨hm.live h.left, hm'.live h.right, hlane⟩

omit [Draws σ Nat] in
theorem Agree.arm_pacer (h : Agree c c' d now s s') {p p' : Pacer γ}
    (hp : p.unticketed = p'.unticketed) :
    ({ s with events := (p.arm s.events now (.segmentDue d)).2.2 } : Session σ γ).lane d =
      ({ s' with events := (p'.arm s'.events now (.segmentDue d)).2.2 } : Session σ γ).lane d ∧
    (p.arm s.events now (.segmentDue d)).2.1.unticketed =
      (p'.arm s'.events now (.segmentDue d)).2.1.unticketed := by
  obtain ⟨hgaps, hqueued, hpending⟩ := Pacer.of_unticketed hp
  unfold Pacer.arm
  rw [hgaps, hqueued, hpending]
  split
  · exact ⟨h.lane, hp⟩
  · constructor
    · exact lane_schedule_agree h.lane h.left.standing.orderly h.right.standing.orderly h.clock _
        (.segmentDue d) (.segmentDue d) rfl
    · simp only [Pacer.unticketed, Option.map_some]

omit [Draws σ Nat] [Draws γ Span] in
theorem Agree.recordDispatch (h : s.lane d = s'.lane d) {g g' : Generator σ γ}
    (hg : g.unticketed = g'.unticketed) (o : DispatchOutcome) (socket : Socket) :
    (s.recordDispatch d g o socket).lane d = (s'.recordDispatch d g' o socket).lane d := by
  have hnoted : ∀ (s : Session σ γ) (n? : Option Notice), (s.noteAny n?).lane d = s.lane d := by
    intro s n?
    cases n? <;> rfl
  obtain ⟨hsource, hpacer, _, hacks⟩ := Generator.unticketed_eq.1 hg
  refine Agree.setGenerator ?_ (Generator.unticketed_eq.2 ⟨?_, hpacer, rfl, hacks⟩)
  · rw [hnoted, hnoted, h]
  · exact (congrArg (·.record o) hsource :)

omit [Draws σ Nat] in
theorem hand_unpaced {g : Generator σ γ} (hp : g.pacer? = none) (frame : Frame) :
    s.hand d now g frame = s.recordDispatch d g
      (dispatch g.socket (s.segmenter.sizes frame.size)).1
      (dispatch g.socket (s.segmenter.sizes frame.size)).2 := by
  unfold hand
  rw [hp]

omit [Draws σ Nat] in
theorem hand_paced {g : Generator σ γ} {p : Pacer γ} (hp : g.pacer? = some p) (frame : Frame) :
    s.hand d now g frame = { s with
        events := ((p.push (s.segmenter.sizes frame.size)).arm s.events now
          (.segmentDue d)).2.2 }.setGenerator d
      { g with pacer? := some ((p.push (s.segmenter.sizes frame.size)).arm s.events now
          (.segmentDue d)).2.1 } := by
  unfold hand
  rw [hp]

omit [Draws σ Nat] in
theorem Agree.hand (h : Agree c c' d now s s') {g g' : Generator σ γ}
    (hg : g.unticketed = g'.unticketed) (frame : Frame) :
    (s.hand d now g frame).lane d = (s'.hand d now g' frame).lane d := by
  obtain ⟨hsource, _, hsocket, hacks⟩ := Generator.unticketed_eq.1 hg
  have hsegmenter : s.segmenter = s'.segmenter := congrArg Lane.segmenter h.lane
  rcases Generator.pacers_of_unticketed hg with ⟨hp, hp'⟩ | ⟨p, p', hp, hp', heq⟩
  · rw [hand_unpaced hp, hand_unpaced hp', hsegmenter, hsocket]
    exact Agree.recordDispatch h.lane hg _ _
  · have hpush : (p.push (s.segmenter.sizes frame.size)).unticketed =
        (p'.push (s'.segmenter.sizes frame.size)).unticketed := by
      rw [hsegmenter]
      exact (congrArg (·.push (s'.segmenter.sizes frame.size)) heq :)
    obtain ⟨hlane, harmed⟩ := h.arm_pacer hpush
    rw [hand_paced hp, hand_paced hp']
    refine Agree.setGenerator hlane (Generator.unticketed_eq.2 ⟨hsource, ?_, hsocket, hacks⟩)
    exact congrArg some harmed

omit [Draws σ Nat] [Draws γ Span] in
theorem Agree.armSource (h : Agree c c' d now s s') :
    (s.armSource d).lane d = (s'.armSource d).lane d := by
  unfold Session.armSource
  rcases h.generators with ⟨hg, hg'⟩ | ⟨g, g', hg, hg', heq⟩ <;> rw [hg, hg']
  · exact h.lane
  · obtain ⟨hsource, hpacer, hsocket, hacks⟩ := Generator.unticketed_eq.1 heq
    obtain ⟨hlane, harmed⟩ := lane_arm_agree h.lane h.left.standing.orderly
      h.right.standing.orderly h.clock hsource
    exact Agree.setGenerator hlane (Generator.unticketed_eq.2 ⟨harmed, hpacer, hsocket, hacks⟩)

omit [Draws σ Nat] in
theorem Agree.armPacer (h : Agree c c' d now s s') :
    (s.armPacer d now).lane d = (s'.armPacer d now).lane d := by
  unfold Session.armPacer
  rcases h.generators with ⟨hg, hg'⟩ | ⟨g, g', hg, hg', heq⟩ <;> rw [hg, hg']
  · exact h.lane
  · obtain ⟨hsource, _, hsocket, hacks⟩ := Generator.unticketed_eq.1 heq
    dsimp only
    rcases Generator.pacers_of_unticketed heq with ⟨hp, hp'⟩ | ⟨p, p', hp, hp', hticket⟩ <;>
      rw [hp, hp']
    · exact h.lane
    · obtain ⟨hlane, harmed⟩ := h.arm_pacer hticket
      refine Agree.setGenerator hlane (Generator.unticketed_eq.2 ⟨hsource, ?_, hsocket, hacks⟩)
      exact congrArg some harmed

/-! Filling the queue. -/

omit [Draws σ Nat] [Draws γ Span] in
theorem room_eq (s : Session σ γ) (d : Direction) :
    s.link.room d = (s.lane d).settings.capacity - (s.lane d).queue.length := by
  change s.link.settings.capacity - s.link.queued d =
    s.link.settings.capacity - ((s.link.channel d).queue.toList.map s.parcel).length
  rw [List.length_map, Fifo.length_toList]
  rfl

omit [Draws σ Nat] [Draws γ Span] in
theorem Live.lane_load (h : s.Live c now) {g : Generator σ γ} {p : Packet} {socket : Socket}
    {uids : UidCounter} (hfound : s.generator? d = some g)
    (hnext : g.socket.next? s.uids = some (p, socket, uids)) :
    ({ s.setGenerator d { g with socket } with
      uids
      link := s.link.push d p
      monitor := s.monitor.send p.flow p.uid p.size now } : Session σ γ).lane d =
    { (s.lane d).update d p.flow (·.addSent p.size now) with
      video? := some ({ g with socket } : Generator σ γ).unticketed
      queue := (s.lane d).queue ++ [⟨p.flow, p.payload, some ⟨p.flow, now⟩⟩] } := by
  obtain ⟨hnumber, _⟩ := h.standing.of_next? hfound hnext
  have hsent := h.lane_send hnumber d
  obtain ⟨u, hu⟩ : ∃ u : Session σ γ,
    u = { s with monitor := s.monitor.send p.flow p.uid p.size now } := ⟨_, rfl⟩
  have hparcel : u.parcel p = ⟨p.flow, p.payload, some ⟨p.flow, now⟩⟩ := by
    rw [hu, parcel_send]
  rw [← hu] at hsent
  have hqueue : (u.link.channel d).queue.toList.map u.parcel = (s.lane d).queue := by
    have hupdated : ((s.lane d).update d p.flow (·.addSent p.size now)).queue = (s.lane d).queue := by
      unfold Lane.update
      split <;> rfl
    rw [← hupdated, ← hsent]
    rfl
  have hloaded : ({ s.setGenerator d { g with socket } with
      uids
      link := s.link.push d p
      monitor := s.monitor.send p.flow p.uid p.size now } : Session σ γ).lane d =
      (({ u with link := u.link.setChannel d ((u.link.channel d).push p) } :
        Session σ γ).setGenerator d { g with socket }).lane d := by
    rw [hu]
    rfl
  rw [hloaded, lane_setGenerator, lane_setChannel, Channel.push, Fifo.toList_push, List.map_append,
    hqueue, List.map_singleton, hparcel, ← hsent]
  rfl

omit [Draws σ Nat] [Draws γ Span] in
theorem load?_of_found {g : Generator σ γ} (hfound : s.generator? d = some g) :
    s.load? d now = (g.socket.next? s.uids).map fun (p, socket, uids) =>
      { s.setGenerator d { g with socket } with
        uids
        link := s.link.push d p
        monitor := s.monitor.send p.flow p.uid p.size now } := by
  unfold load?
  rw [hfound, Option.bind_eq_bind, Option.bind_some, Option.bind_eq_bind]
  cases g.socket.next? s.uids <;> rfl

omit [Draws σ Nat] [Draws γ Span] in
theorem Agree.load? (h : Agree c c' d now s s') :
    s.load? d now = none ∧ s'.load? d now = none ∨ ∃ t t', s.load? d now = some t ∧
      s'.load? d now = some t' ∧ t.lane d = t'.lane d := by
  rcases h.generators with ⟨hg, hg'⟩ | ⟨g, g', hg, hg', heq⟩
  · left
    unfold Session.load?
    rw [hg, hg']
    exact ⟨rfl, rfl⟩
  · obtain ⟨hsource, hpacer, hsocket, hacks⟩ := Generator.unticketed_eq.1 heq
    have hrenumbered := g.socket.next?_eq s.uids s'.uids
    rw [hsocket] at hrenumbered
    cases hnext : g.socket.next? s.uids with
    | none =>
      left
      rw [load?_of_found hg, load?_of_found hg', hrenumbered, ← hsocket, hnext]
      exact ⟨rfl, rfl⟩
    | some r =>
      obtain ⟨p, socket, uids⟩ := r
      rw [← hsocket, hnext, hsocket] at hrenumbered
      right
      rw [load?_of_found hg, load?_of_found hg', hrenumbered, hnext]
      refine ⟨_, _, rfl, rfl, ?_⟩
      have hvideo : ({ g with socket } : Generator σ γ).unticketed =
          ({ g' with socket } : Generator σ γ).unticketed :=
        Generator.unticketed_eq.2 ⟨hsource, hpacer, rfl, hacks⟩
      rw [h.left.lane_load hg hnext, h.right.lane_load hg' hrenumbered, h.lane, hvideo]
      rfl

theorem Agree.loadUpTo (n : Nat) (h : Agree c c' d now s s') (hn : n ≤ s.link.room d) :
    (loadUpTo d now n s).lane d = (loadUpTo d now n s').lane d := by
  induction n generalizing s s' with
  | zero => exact h.lane
  | succ n ih =>
    rw [Session.loadUpTo, Session.loadUpTo]
    rcases h.load? with ⟨hnone, hnone'⟩ | ⟨t, t', hload, hload', hlane⟩
    · rw [hnone, hnone']
      exact h.lane
    · have hroom : n + 1 ≤ s'.link.room d := by
        rw [room_eq, ← h.lane, ← room_eq]
        exact hn
      obtain ⟨hmove, hleft⟩ := move_load? hload hn
      obtain ⟨hmove', _⟩ := move_load? hload' hroom
      rw [hload, hload']
      exact ih (h.moves (.single hmove) (.single hmove') hlane) hleft

/-! The wire. -/

omit [Draws σ Nat] [Draws γ Span] in
theorem start?_eq_none {l : Link} : l.start? d now = none ↔
    (l.channel d).busy = true ∨ (l.channel d).queue.toList = [] := by
  unfold Link.start? Link.isIdle
  cases (l.channel d).busy with
  | true => simp
  | false => simp [Link.dequeue?, Channel.dequeue?, Fifo.pop?_eq_none]

omit [Draws σ Nat] [Draws γ Span] in
theorem Agree.start?_eq_none (h : Agree c c' d now s s') :
    s.link.start? d now = none ↔ s'.link.start? d now = none := by
  have hbusy : (s.link.channel d).busy = (s'.link.channel d).busy := congrArg Lane.busy h.lane
  have hqueue : (s.link.channel d).queue.toList.map s.parcel =
      (s'.link.channel d).queue.toList.map s'.parcel := congrArg Lane.queue h.lane
  rw [Session.start?_eq_none, Session.start?_eq_none, hbusy, ← List.map_eq_nil_iff (f := s.parcel),
    hqueue, List.map_eq_nil_iff]

omit [Draws σ Nat] [Draws γ Span] in
theorem Agree.start (h : Agree c c' d now s s') {t t' : Transmission} {link link' : Link}
    (hstart : s.link.start? d now = some (t, link))
    (hstart' : s'.link.start? d now = some (t', link')) :
    (({ s with link } : Session σ γ).schedule t.finish (.wireFree d) |>.schedule t.arrival
      (.arrival d t.packet)).lane d =
    (({ s' with link := link' } : Session σ γ).schedule t'.finish (.wireFree d) |>.schedule
      t'.arrival (.arrival d t'.packet)).lane d := by
  have hstats : (s.link.channel d).stats = (s'.link.channel d).stats := congrArg Lane.stats h.lane
  have hsettings : s.link.settings = s'.link.settings := congrArg Lane.settings h.lane
  have hqueues : (s.link.channel d).queue.toList.map s.parcel =
      (s'.link.channel d).queue.toList.map s'.parcel := congrArg Lane.queue h.lane
  obtain ⟨_, queue, hpop, hfinish, harrival, rfl⟩ := start?_eq_some hstart
  obtain ⟨_, queue', hpop', hfinish', harrival', rfl⟩ := start?_eq_some hstart'
  rw [Fifo.toList_of_pop? hpop, Fifo.toList_of_pop? hpop', List.map_cons, List.map_cons,
    List.cons.injEq] at hqueues
  obtain ⟨hparcel, hqueue⟩ := hqueues
  have hsize : t.packet.size = t'.packet.size := by
    have hflow : t.packet.flow = t'.packet.flow := congrArg Parcel.flow hparcel
    have hpayload : t.packet.payload = t'.packet.payload := congrArg Parcel.payload hparcel
    rw [Packet.size, Packet.size, hflow, hpayload]
  have htimes : t.finish = t'.finish ∧ t.arrival = t'.arrival := by
    rw [harrival, harrival', hfinish, hfinish', hsettings, hsize]
    exact ⟨rfl, rfl⟩
  have hcarried : (({ s.link.channel d with queue } : Channel).carry t.packet).stats =
      (({ s'.link.channel d with queue := queue' } : Channel).carry t'.packet).stats := by
    simp only [Channel.carry, hstats, hsize]
  have hlink : ({ s with
        link := s.link.setChannel d (({ s.link.channel d with queue } : Channel).carry t.packet) } :
        Session σ γ).lane d =
      ({ s' with
        link := s'.link.setChannel d
          (({ s'.link.channel d with queue := queue' } : Channel).carry t'.packet) } :
        Session σ γ).lane d := by
    rw [lane_setChannel, lane_setChannel, hcarried, h.lane]
    simp only [Channel.carry, hqueue]
  have horderly := h.left.standing.orderly
  have horderly' := h.right.standing.orderly
  have hfreed := lane_schedule_agree hlink horderly horderly' h.clock t'.finish (.wireFree d)
    (.wireFree d) rfl
  have hcoming := congrArg (fun x => if d = d then some (Happening.arrival x) else none) hparcel
  rw [htimes.1, htimes.2]
  exact lane_schedule_agree hfreed (horderly.schedule _ _) (horderly'.schedule _ _) h.clock
    t'.arrival (.arrival d t.packet) (.arrival d t'.packet) hcoming

omit [Draws σ Nat] [Draws γ Span] in
theorem Agree.startWire (h : Agree c c' d now s s') :
    (s.startWire d now).lane d = (s'.startWire d now).lane d := by
  rcases s.startWire_cases d now with ⟨hnone, heq⟩ | ⟨t, link, _, _, hstart, heq⟩
  · have hnone' := h.start?_eq_none.1 hnone
    rcases s'.startWire_cases d now with ⟨_, heq'⟩ | ⟨_, _, _, _, hstart', _⟩
    · rw [heq, heq']
      exact h.lane
    · rw [hnone'] at hstart'
      cases hstart'
  · rcases s'.startWire_cases d now with ⟨hnone', _⟩ | ⟨t', link', _, _, hstart', heq'⟩
    · rw [h.start?_eq_none.2 hnone'] at hstart
      cases hstart
    · rw [heq, heq']
      exact h.start hstart hstart'

theorem Agree.fill (h : Agree c c' d now s s') :
    Agree c c' d now (s.fill d now) (s'.fill d now) := by
  have hroom : s.link.room d = s'.link.room d := by rw [room_eq, room_eq, h.lane]
  have hlane := Agree.loadUpTo _ h (Nat.le_refl (s.link.room d))
  have hloaded := h.moves (moves_loadUpTo d now _ s (Nat.le_refl _))
    (moves_loadUpTo d now _ s' (Nat.le_of_eq hroom)) hlane
  apply h.moves (moves_fill s d now) (moves_fill s' d now)
  rw [fill_eq, fill_eq, ← hroom]
  exact hloaded.startWire

/-! The events of the direction. -/

theorem Agree.onFrameTick (h : Agree c c' d now s s') :
    Agree c c' d now (s.onFrameTick d now) (s'.onFrameTick d now) := by
  apply h.moves (moves_onFrameTick s d now) (moves_onFrameTick s' d now)
  rcases h.generators with ⟨hg, hg'⟩ | ⟨g, g', hg, hg', heq⟩
  · unfold Session.onFrameTick
    rw [hg, hg']
    exact h.lane
  · obtain ⟨hsource, hpacer, hsocket, hacks⟩ := Generator.unticketed_eq.1 heq
    obtain ⟨⟨frame, source⟩, hemit⟩ : ∃ r, g.source.emit now = r := ⟨_, rfl⟩
    have hemit' : g'.source.emit now = (frame, source) := by
      rw [← FrameSource.emit_of_unticketed hsource, hemit]
    have hnoted : Agree c c' d now (s.note (.frameGenerated frame.index frame.size now))
        (s'.note (.frameGenerated frame.index frame.size now)) :=
      h.moves (.single (.note d s _ s.capture)) (.single (.note d s' _ s'.capture)) h.lane
    have hvideo : ({ g with source } : Generator σ γ).unticketed =
        ({ g' with source } : Generator σ γ).unticketed :=
      Generator.unticketed_eq.2 ⟨rfl, hpacer, hsocket, hacks⟩
    have hhanded := hnoted.moves (moves_hand hg hemit) (moves_hand hg' hemit')
      (hnoted.hand hvideo frame)
    have harmed := hhanded.moves (moves_armSource _ d now) (moves_armSource _ d now)
      hhanded.armSource
    rw [onFrameTick_of_found hg hemit, onFrameTick_of_found hg' hemit']
    exact harmed.fill.lane

theorem Agree.onSegmentDue (h : Agree c c' d now s s') :
    Agree c c' d now (s.onSegmentDue d now) (s'.onSegmentDue d now) := by
  apply h.moves (moves_onSegmentDue s d now) (moves_onSegmentDue s' d now)
  rcases h.generators with ⟨hg, hg'⟩ | ⟨g, g', hg, hg', heq⟩
  · unfold Session.onSegmentDue
    rw [hg, hg']
    exact h.lane
  · rcases Generator.pacers_of_unticketed heq with ⟨hp, hp'⟩ | ⟨p, p', hp, hp', hticket⟩
    · unfold Session.onSegmentDue
      rw [hg, hg']
      dsimp only
      rw [hp, hp']
      exact h.lane
    · obtain ⟨hsource, _, hsocket, hacks⟩ := Generator.unticketed_eq.1 heq
      obtain ⟨⟨size?, rest⟩, htake⟩ : ∃ r, p.take = r := ⟨_, rfl⟩
      have htake' : p'.take = (size?, rest) := by rw [← Pacer.take_of_unticketed hticket, htake]
      have hvideo : ({ g with pacer? := some rest } : Generator σ γ).unticketed =
          ({ g' with pacer? := some rest } : Generator σ γ).unticketed :=
        Generator.unticketed_eq.2 ⟨hsource, rfl, hsocket, hacks⟩
      have hlane : (s.afterSegment d { g with pacer? := some rest } size?).lane d =
          (s'.afterSegment d { g' with pacer? := some rest } size?).lane d := by
        cases size? with
        | none => exact Agree.setGenerator h.lane hvideo
        | some size =>
          unfold afterSegment
          dsimp only
          rw [hsocket]
          exact Agree.recordDispatch h.lane hvideo _ _
      have htaken := h.moves (moves_afterSegment hg hp htake) (moves_afterSegment hg' hp' htake')
        hlane
      have harmed := htaken.moves (moves_armPacer _ d now) (moves_armPacer _ d now)
        htaken.armPacer
      rw [onSegmentDue_of_found hg hp htake, onSegmentDue_of_found hg' hp' htake']
      exact harmed.fill.lane

omit [Draws σ Nat] [Draws γ Span] in
theorem of_happening? {e : Event} {x : Happening} (h : s.happening? d e = some x) :
    match x with
    | .tick => e = .frameTick d
    | .due => e = .segmentDue d
    | .free => e = .wireFree d
    | .arrival y => ∃ p, e = .arrival d p ∧ y = s.parcel p
    | .stop => e = .stop := by
  cases e with
  | stop =>
    cases h
    rfl
  | frameTick e | segmentDue e | wireFree e =>
    obtain ⟨rfl, hx⟩ := Option.ite_none_right_eq_some.1 h
    cases hx
    rfl
  | arrival e p =>
    obtain ⟨rfl, hx⟩ := Option.ite_none_right_eq_some.1 h
    cases hx
    exact ⟨p, rfl, rfl⟩

omit [Draws σ Nat] [Draws γ Span] in
/-- Lanes that agree begin their agendas with the same event at the same time. -/
theorem lane_advanced_agree {events events' : EventQueue Event} {now' : Instant} {e e' : Event}
    {x x' : Happening} (h : s.lane d = s'.lane d)
    (hpop : s.events.pop? = some ((now, e), events))
    (hpop' : s'.events.pop? = some ((now', e'), events')) (hx : s.happening? d e = some x)
    (hx' : s'.happening? d e' = some x') :
    now = now' ∧ x = x' ∧ (s.advanced events).lane d = (s'.advanced events').lane d := by
  rw [lane_of_pop? hpop, lane_of_pop? hpop', hx, hx'] at h
  have hagenda : (now, x) :: (s.advanced events).agenda d =
      (now', x') :: (s'.advanced events').agenda d := congrArg Lane.agenda h
  rw [List.cons.injEq, Prod.mk.injEq] at hagenda
  obtain ⟨⟨hnow, hxx⟩, hrest⟩ := hagenda
  have hlane : (s.advanced events).lane d =
      { (s'.advanced events').lane d with agenda := (s.advanced events).agenda d } :=
    (congrArg (fun l : Lane σ γ => { l with agenda := (s.advanced events).agenda d }) h :)
  rw [hrest] at hlane
  exact ⟨hnow, hxx, hlane⟩

/-- What is the same to a direction has the same effect on its lane. -/
theorem handle_agree {before before' : Instant} {events events' : EventQueue Event} {e e' : Event}
    {x : Happening} (hs : s.Live c before) (hs' : s'.Live c' before') (h : s.lane d = s'.lane d)
    (hpop : s.events.pop? = some ((now, e), events))
    (hpop' : s'.events.pop? = some ((now, e'), events')) (hx : s.happening? d e = some x)
    (hx' : s'.happening? d e' = some x) (hrunning : x ≠ .stop) :
    Agree c c' d now ((s.advanced events).handle now e) ((s'.advanced events').handle now e') := by
  obtain ⟨_, _, hadvanced⟩ := lane_advanced_agree h hpop hpop' hx hx'
  have he := of_happening? hx
  have he' := of_happening? hx'
  cases x with
  | stop => exact absurd rfl hrunning
  | tick =>
    obtain rfl : e = .frameTick d := he
    obtain rfl : e' = .frameTick d := he'
    have hopened : Agree c c' d now (s.advanced events) (s'.advanced events') :=
      ⟨Opening.live (.tick hpop) hs, Opening.live (.tick hpop') hs', hadvanced⟩
    exact hopened.onFrameTick
  | due =>
    obtain rfl : e = .segmentDue d := he
    obtain rfl : e' = .segmentDue d := he'
    have hopened : Agree c c' d now (s.advanced events) (s'.advanced events') :=
      ⟨Opening.live (.due hpop) hs, Opening.live (.due hpop') hs', hadvanced⟩
    exact hopened.onSegmentDue
  | free =>
    obtain rfl : e = .wireFree d := he
    obtain rfl : e' = .wireFree d := he'
    have hopened : Agree c c' d now { s.advanced events with link := s.link.complete d }
        { s'.advanced events' with link := s'.link.complete d } := by
      refine ⟨Opening.live (.free hpop) hs, Opening.live (.free hpop') hs', ?_⟩
      apply (lane_complete (s.advanced events) d).trans
      rw [hadvanced]
      exact (lane_complete (s'.advanced events') d).symm
    exact hopened.fill
  | arrival y =>
    obtain ⟨p, rfl, hy⟩ := he
    obtain ⟨p', rfl, hy'⟩ := he'
    obtain ⟨hlive, _, sentAt, hparcel, hlane⟩ := hs.handle_arrival hpop
    obtain ⟨hlive', _, sentAt', hparcel', hlane'⟩ := hs'.handle_arrival hpop'
    refine ⟨hlive, hlive', ?_⟩
    rw [hy, hparcel, hparcel'] at hy'
    simp only [Parcel.mk.injEq, Option.some.injEq, InFlight.mk.injEq] at hy'
    obtain ⟨hflow, hpayload, _, hsent⟩ := hy'
    have hsize : p.size = p'.size := by rw [Packet.size, Packet.size, hflow, hpayload]
    rw [hlane, hlane', hadvanced, hflow, hsize, hsent]

end

end Session

end VideoLink
