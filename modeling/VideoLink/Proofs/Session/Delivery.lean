import VideoLink.Proofs.Session.Deeds
import VideoLink.Proofs.Session.Frames

/-! The link loses no packet, doubles none and changes no order. What an event does in a direction is read
off the states before and after it: the packets that have entered the queue or taken the wire are those that
are there and were not, or have gone on since. So what the history of a run has begun and not finished is
what the state holds. -/
namespace VideoLink.Session

open Deed

variable {σ γ : Type}

/-! The deeds of an event, in their order. -/

def nextArrival? (s : Session σ γ) (d : Direction) : Option Packet :=
  s.events.pop?.bind fun a => a.1.2.comingTo? d

/-- The packets that have taken the wire of a direction by the next state. They arrive at once or are on their way, and
were not on their way before. -/
def carriedTo (s t : Session σ γ) (d : Direction) : List Packet :=
  ((s.nextArrival? d).toList ++ t.coming d).drop (s.coming d).length

/-- The packets that have entered the queue of a direction by the next state. They take the wire at once or wait, and
did not wait before. -/
def queuedTo (s t : Session σ γ) (d : Direction) : List Packet :=
  (s.carriedTo t d ++ (t.link.channel d).queue.toList).drop (s.link.channel d).queue.toList.length

def nextSends [Draws σ Nat] (s : Session σ γ) (d : Direction) : List Nat :=
  (s.generator? d).elim [] fun g => g.socket.takes (s.nextHanded d)

/-- What the next event does in a direction. -/
def nextDeeds [Draws σ Nat] [Draws γ Span] (s : Session σ γ) (d : Direction) : List Deed :=
  s.step?.elim [] fun t => (s.nextArrival? d).toList.map delivered ++ (s.nextSends d).map sent ++
    (s.queuedTo t d).map queued ++ (s.carriedTo t d).map carried

def history [Draws σ Nat] [Draws γ Span] (d : Direction) (n : Nat) (s : Session σ γ) : List Deed :=
  s.gather (·.nextDeeds d) n

/-! What changes in a direction. -/

/-- A socket takes some sends, and packets enter the queue from it or as answers and take the wire. -/
inductive Change (mss : Nat) (d : Direction) (sizes : List Nat) (s t : Session σ γ) : Prop
  | intro (queued carried : List Packet) (coming : t.coming d = s.coming d ++ carried)
    (queue : (s.link.channel d).queue.toList ++ queued = carried ++ (t.link.channel d).queue.toList)
    (stream : s.stream d ++ sizes.flatMap (pieces mss) = dataPayloads queued ++ t.stream d)

variable {c : Config} {now : Instant} {s t u : Session σ γ} {d : Direction} {mss : Nat} {h : List Deed}

theorem SameTraffic.change (hs : SameTraffic d s t) : Change mss d [] s t := by
  refine .intro [] [] ?_ ?_ ?_
  · rw [hs.coming, List.append_nil]
  · rw [hs.queue, List.append_nil, List.nil_append]
  · rw [hs.stream, List.flatMap_nil, List.append_nil]
    rfl

theorem Change.trans {sizes sizes' : List Nat} (st : Change mss d sizes s t) (tu : Change mss d sizes' t u) :
    Change mss d (sizes ++ sizes') s u := by
  obtain ⟨queued, carried, hcoming, hqueue, hstream⟩ := st
  obtain ⟨queued', carried', hcoming', hqueue', hstream'⟩ := tu
  refine .intro (queued ++ queued') (carried ++ carried') ?_ ?_ ?_
  · rw [hcoming', hcoming, List.append_assoc]
  · rw [← List.append_assoc, hqueue, List.append_assoc, hqueue', List.append_assoc]
  · rw [List.flatMap_append, ← List.append_assoc, hstream, List.append_assoc, hstream', dataPayloads_append,
      List.append_assoc]

theorem Change.then {sizes : List Nat} (st : Change mss d sizes s t) (tu : Change mss d [] t u) :
    Change mss d sizes s u := by
  have hsu := st.trans tu
  rwa [List.append_nil] at hsu

/-! The socket. -/

theorem Flowing.change_recordDispatch (hs : s.Flowing c now) {g g' : Generator σ γ} (hfound : s.generator? d = some g)
    (sizes : List Nat) : Change c.transport.mss d (g.socket.takes sizes) s
      (s.recordDispatch d g' (dispatch g.socket sizes).1 (dispatch g.socket sizes).2) := by
  have hmss := (hs.standing.fit d g hfound).socket.mss
  have hdispatch := g.socket.stream_dispatch sizes
  rw [hmss] at hdispatch
  generalize dispatch g.socket sizes = r at hdispatch ⊢
  obtain ⟨o, socket⟩ := r
  have hset := generator?_setGenerator (s.noteAny (failureNotice? d o)) d
    { g' with source := g'.source.record o, socket }
  have hkept : (s.noteAny (failureNotice? d o)).events = s.events ∧
      (s.noteAny (failureNotice? d o)).link = s.link := by
    cases failureNotice? d o <;> exact ⟨rfl, rfl⟩
  refine .intro [] [] ?_ ?_ ?_
  · rw [List.append_nil]
    exact congrArg (fun q : EventQueue Event => q.toList.filterMap (Event.comingTo? d ·.2)) hkept.1
  · rw [List.append_nil]
    exact congrArg (fun l : Link => (l.channel d).queue.toList) hkept.2.symm
  · rw [stream_of_generator? hfound]
    exact hdispatch.symm.trans (stream_of_generator? hset).symm

theorem Flowing.change_hand [Draws γ Span] (hs : s.Flowing c now) {g : Generator σ γ}
    (hfound : s.generator? d = some g) (source : FrameSource σ) (frame : Frame) :
    Change c.transport.mss d (g.socket.takes (g.pacer?.elim (s.segmenter.sizes frame.size) fun _ => [])) s
      (s.hand d now { g with source } frame) := by
  unfold Session.hand
  dsimp only
  cases hpaced : g.pacer? with
  | some pacer =>
    dsimp only
    generalize harm : (pacer.push (s.segmenter.sizes frame.size)).arm s.events now (.segmentDue d) = r
    obtain ⟨_, rest, events⟩ := r
    exact (SameTraffic.setGenerator hs.standing.orderly hfound (by rfl) (by rfl) (Pacer.events_of_arm harm)).change
  | none => exact hs.change_recordDispatch hfound _

theorem Flowing.armSource (hs : s.Flowing c now) (d : Direction) : SameTraffic d s (s.armSource d) := by
  unfold Session.armSource
  split
  · exact .refl d s
  · rename_i g hfound
    generalize harm : g.source.arm s.events (.frameTick d) = r
    obtain ⟨_, source, events⟩ := r
    obtain ⟨_, _, hevents⟩ := FrameSource.arm_cases harm
    exact .setGenerator hs.standing.orderly hfound (by rfl) (by rfl) hevents

theorem Flowing.armPacer [Draws γ Span] (hs : s.Flowing c now) (d : Direction) :
    SameTraffic d s (s.armPacer d now) := by
  unfold Session.armPacer
  split
  · exact .refl d s
  · rename_i g hfound
    split
    · exact .refl d s
    · rename_i pacer hpaced
      generalize harm : pacer.arm s.events now (.segmentDue d) = r
      obtain ⟨_, rest, events⟩ := r
      exact .setGenerator hs.standing.orderly hfound (by rfl) (by rfl) (Pacer.events_of_arm harm)

theorem Flowing.change_afterSegment (hs : s.Flowing c now) {g : Generator σ γ} (hfound : s.generator? d = some g)
    (pacer? : Option (Pacer γ)) (size? : Option Nat) : Change c.transport.mss d (g.socket.takes size?.toList) s
      (s.afterSegment d { g with pacer? } size?) := by
  cases size? with
  | some size => exact hs.change_recordDispatch hfound [size]
  | none =>
    exact SameTraffic.change (.of_scheduled hs.standing.orderly rfl (.inl rfl)
      (socket_setGenerator hfound (by rfl) d))

/-! The queue and the wire. -/

theorem Flowing.change_load? (hs : s.Flowing c now) (hload : s.load? d now = some t) :
    Change c.transport.mss d [] s t := by
  obtain ⟨g, p, socket, uids, hfound, hnext, rfl⟩ := load?_eq_some hload
  obtain ⟨_, hreleased, _⟩ := (hs.standing.fit d g hfound).sound.of_next? hnext
  have hqueue := queue_push s.link d p d
  rw [if_pos rfl] at hqueue
  have hdata : dataPayloads [p] = [p.payload] := by
    simp [dataPayloads, hreleased.kind]
  have hstream := stream_of_generator? (generator?_setGenerator s d { g with socket })
  refine .intro [p] [] (List.append_nil _).symm hqueue.symm ?_
  rw [List.flatMap_nil, List.append_nil, hdata, stream_of_generator? hfound, Socket.stream_of_next? hnext, ← hstream]
  rfl

variable [Draws σ Nat] [Draws γ Span]

theorem Flowing.noted (hs : s.Flowing c now) (journal : Array Notice) (capture : Capture) :
    ({ s with journal, capture } : Session σ γ).Flowing c now :=
  (Move.note .uplink s journal capture).flowing hs

theorem Flowing.change_startWire (hs : s.Flowing c now) (d : Direction) : Change mss d [] s (s.startWire d now) := by
  rcases s.startWire_cases d now with ⟨_, heq⟩ | ⟨x, link, journal, capture, hstart, heq⟩
  · rw [heq]
    exact (SameTraffic.refl d s).change
  · have hnoted := hs.noted journal capture
    have hcoming := hnoted.coming_started hnoted.spaced hstart d
    have hqueue := queue_start? hstart d
    rw [if_pos rfl] at hcoming hqueue
    rw [heq]
    exact .intro [] [x.packet] hcoming ((List.append_nil _).trans hqueue) (List.append_nil _)

theorem Flowing.change_loadUpTo (n : Nat) (hs : s.Flowing c now) (hn : n ≤ s.link.room d) :
    Change c.transport.mss d [] s (loadUpTo d now n s) := by
  induction n generalizing s with
  | zero => exact (SameTraffic.refl d s).change
  | succ n ih =>
    rw [Session.loadUpTo]
    cases hload : s.load? d now with
    | none => exact (SameTraffic.refl d s).change
    | some t =>
      obtain ⟨hmove, hleft⟩ := move_load? hload hn
      exact (hs.change_load? hload).then (ih (hmove.flowing hs) hleft)

theorem Flowing.change_fill (hs : s.Flowing c now) (d : Direction) :
    Change c.transport.mss d [] s (s.fill d now) := by
  have hmoves := moves_loadUpTo d now (s.link.room d) s (Nat.le_refl _)
  rw [fill_eq]
  exact (hs.change_loadUpTo _ (Nat.le_refl _)).then ((hmoves.flowing hs).change_startWire d)

theorem Flowing.change_acknowledge (hs : s.Flowing c now) (d : Direction) :
    Change c.transport.mss d [] s (s.acknowledge d.reverse now) := by
  have hcases := s.acknowledge_cases d.reverse now
  rw [d.reverse_reverse] at hcases
  rcases hcases with ⟨heq, _⟩ | ⟨g, acks, rest, uids, hfound, hacks, hcases⟩
  · rw [heq]
    exact (SameTraffic.refl d s).change
  · have hsocket := socket_setGenerator hfound
      (show ({ g with acks? := some rest } : Generator σ γ).socket = g.socket from rfl) d
    rcases hcases with ⟨_, heq⟩ | ⟨ack, hcount, ⟨hroom, heq⟩ | ⟨hfull, journal, heq⟩⟩ <;> rw [heq]
    · exact SameTraffic.change (.of_scheduled hs.standing.orderly rfl (.inl rfl) hsocket)
    · obtain ⟨rfl, _⟩ := AckCounter.of_onData hcount
      have hqueue := queue_push s.link d ⟨s.uids.next, acks.flow, 0, .ack⟩ d
      rw [if_pos rfl] at hqueue
      refine Change.then ?_ (((Move.answer hfound hacks hcount hroom).flowing hs).change_startWire d)
      exact .intro [⟨s.uids.next, acks.flow, 0, .ack⟩] [] (List.append_nil _).symm hqueue.symm
        ((List.append_nil _).trans (stream_of_socket hsocket).symm)
    · obtain ⟨_, hqueue⟩ := channel_of_full hfull ack d
      exact SameTraffic.change (.of_scheduled hs.standing.orderly hqueue (.inl rfl) hsocket)

/-! The events. -/

omit [Draws σ Nat] [Draws γ Span] in
theorem Opening.flowing {before : Instant} (h : s.Opening now t) (hs : s.Flowing c before) : t.Flowing c now :=
  ⟨h.steady hs.toSteady, h.spaced hs.standing hs.spaced⟩

/-- The moves of an event in one direction do what they do there and leave the other one alone. -/
theorem Flowing.change_moves {a : Direction} {sizes : List Nat} (hs : s.Flowing c now) (hmoves : Moves now a s t)
    (hown : d = a → Change mss d sizes s t) (hother : d ≠ a → sizes = []) : Change mss d sizes s t := by
  by_cases hd : d = a
  · exact hown hd
  -- Only an event of the direction itself hands segments to its socket.
  · rw [hother hd]
    exact (hmoves.sameTraffic hs hd).change

def takenAt (s : Session σ γ) (now : Instant) (e : Event) (d : Direction) : List Nat :=
  (s.generator? d).elim [] fun g => g.socket.takes (s.handed now e d)

omit [Draws γ Span] in
theorem takenAt_of_handed {e : Event} (h : s.handed now e d = []) : s.takenAt now e d = [] := by
  unfold takenAt
  rw [h]
  cases s.generator? d <;> rfl

theorem Flowing.change_onFrameTick (hs : s.Flowing c now) :
    Change c.transport.mss d (s.takenAt now (.frameTick d) d) s (s.onFrameTick d now) := by
  cases hfound : s.generator? d with
  | none =>
    unfold Session.onFrameTick takenAt
    rw [hfound]
    exact (SameTraffic.refl d s).change
  | some g =>
    obtain ⟨⟨frame, source⟩, hemit⟩ : ∃ r, g.source.emit now = r := ⟨_, rfl⟩
    rw [onFrameTick_of_found hfound hemit]
    have hnote := hs.noted (s.journal.push (.frameGenerated frame.index frame.size now)) s.capture
    have hhand := (moves_hand (s := s.note (.frameGenerated frame.index frame.size now)) hfound
      hemit).flowing hnote
    have harm := (moves_armSource _ d now).flowing hhand
    have hhanded := hnote.change_hand hfound source frame
    have hsame : SameTraffic d s (s.note (.frameGenerated frame.index frame.size now)) := ⟨rfl, rfl, rfl⟩
    have hchange := ((hsame.change.trans hhanded).then (hhand.armSource d).change).then (harm.change_fill d)
    have htaken : s.takenAt now (.frameTick d) d =
        g.socket.takes (g.pacer?.elim (s.segmenter.sizes frame.size) fun _ => []) := by
      cases hpaced : g.pacer? <;>
        simp only [takenAt, handed, hfound, hpaced, if_true, Option.elim_some, Option.elim_none, hemit]
    rw [htaken]
    exact hchange

theorem Flowing.change_onSegmentDue (hs : s.Flowing c now) :
    Change c.transport.mss d (s.takenAt now (.segmentDue d) d) s (s.onSegmentDue d now) := by
  cases hfound : s.generator? d with
  | none =>
    unfold Session.onSegmentDue takenAt
    rw [hfound]
    exact (SameTraffic.refl d s).change
  | some g =>
    cases hpaced : g.pacer? with
    | none =>
      have hhanded : s.handed now (.segmentDue d) d = [] := by
        simp only [handed, hfound, hpaced, if_true, Option.bind_some, Option.elim_none]
      rw [takenAt_of_handed hhanded]
      unfold Session.onSegmentDue
      rw [hfound]
      dsimp only
      rw [hpaced]
      exact (SameTraffic.refl d s).change
    | some pacer =>
      obtain ⟨⟨size?, rest⟩, htake⟩ : ∃ r, pacer.take = r := ⟨_, rfl⟩
      have htaken : s.takenAt now (.segmentDue d) d = g.socket.takes size?.toList := by
        simp only [takenAt, handed, hfound, hpaced, if_true, Option.bind_some, Option.elim_some, htake]
      rw [onSegmentDue_of_found hfound hpaced htake, htaken]
      have hmoves : Moves now d s _ := moves_afterSegment hfound hpaced htake
      have hafter := hmoves.flowing hs
      have harm := (moves_armPacer _ d now).flowing hafter
      exact ((hs.change_afterSegment hfound (some rest) size?).then (hafter.armPacer d).change).then
        (harm.change_fill d)

theorem Flowing.change_onArrival {t : Session σ γ} {a : Direction} {p : Packet} (hs : t.Flowing c now)
    (ht : t = { s with monitor := (s.monitor.receive p.flow p.uid p.size now).2 }) :
    Change c.transport.mss d [] s (s.onArrival a now p) := by
  have hsame : SameTraffic d s t := by
    rw [ht]
    exact ⟨rfl, rfl, rfl⟩
  refine hsame.change.trans (hs.change_moves (moves_onArrival ht) ?_ fun _ => rfl)
  rintro rfl
  obtain ⟨journal, capture, hreceive⟩ := receive_eq s a now p
  have hnoted := hs.noted journal capture
  have hnote : SameTraffic a.reverse t { t with journal, capture } := ⟨rfl, rfl, rfl⟩
  unfold Session.onArrival
  rw [hreceive]
  cases p.kind with
  | data =>
    have hanswered := hnoted.change_acknowledge a.reverse
    rw [a.reverse_reverse] at hanswered
    subst ht
    exact hnote.change.trans hanswered
  | ack =>
    subst ht
    exact hnote.change

theorem Flowing.change_handle {before : Instant} {e : Event} {events : EventQueue Event} (hs : s.Flowing c before)
    (hpop : s.events.pop? = some ((now, e), events)) (hgoing : e ≠ .stop) (d : Direction) :
    Change c.transport.mss d (s.takenAt now e d) (s.advanced events) ((s.advanced events).handle now e) := by
  cases e with
  | frameTick a =>
    have hu := (Opening.tick hpop).flowing hs
    refine hu.change_moves (moves_onFrameTick _ a now) ?_ fun hd => takenAt_of_handed (if_neg hd)
    rintro rfl
    exact hu.change_onFrameTick
  | segmentDue a =>
    have hu := (Opening.due hpop).flowing hs
    refine hu.change_moves (moves_onSegmentDue _ a now) ?_ fun hd => takenAt_of_handed (if_neg hd)
    rintro rfl
    exact hu.change_onSegmentDue
  | wireFree a =>
    have hu := (Opening.free hpop).flowing hs
    have hsame : SameTraffic d (s.advanced events) { s.advanced events with link := s.link.complete a } :=
      ⟨(Opening.free hpop).queue d, rfl, rfl⟩
    rw [takenAt_of_handed rfl]
    refine hsame.change.trans (hu.change_moves (moves_fill _ a now) ?_ fun _ => rfl)
    rintro rfl
    exact hu.change_fill d
  | arrival a p =>
    rw [takenAt_of_handed rfl]
    exact ((Opening.arrival hpop).flowing hs).change_onArrival rfl
  | stop => exact absurd rfl hgoing

/-! The run. -/

/-- The deeds of a direction up to a state of a run. They were in order all the time. Until the stop, what is
begun and not finished is what the state holds. -/
structure Delivers (mss : Nat) (d : Direction) (h : List Deed) (s : Session σ γ) : Prop where
  past : ∀ k, k <+: h → InOrder mss k
  now : s.summary? = none → s.Outstanding mss d h

omit [Draws σ Nat] [Draws γ Span] in
theorem Begins.delivers {feeds : Duplex (Option (Feed σ γ))} (hs : s.Begins c feeds) (d : Direction) :
    s.Delivers c.transport.mss d [] := by
  obtain ⟨_, _, _, _, hu, hgen⟩ := hs.untouched
  have hcoming : s.coming d = [] := by
    refine List.filterMap_eq_nil_iff.2 fun a ha => ?_
    rcases hu.events a ha with heq | ⟨e, heq⟩ <;> rw [heq] <;> rfl
  have hqueue : (s.link.channel d).queue.toList = [] := by
    rw [hu.link]
    cases d <;> rfl
  have hstream : s.stream d = [] := by
    obtain ⟨pending?, hd⟩ := hgen d
    rw [stream, hd]
    cases feeds.get d <;> rfl
  refine ⟨fun k hk => ?_, fun _ => ⟨hqueue.symm, hcoming.symm, hstream.symm⟩⟩
  rw [List.prefix_nil.1 hk]
  exact ⟨List.prefix_refl _, List.prefix_refl _, List.prefix_refl _⟩

omit [Draws σ Nat] [Draws γ Span] in
theorem nextArrival?_of_pop? {e : Event} {events : EventQueue Event}
    (hpop : s.events.pop? = some ((now, e), events)) (d : Direction) : s.nextArrival? d = e.comingTo? d := by
  rw [nextArrival?, hpop]
  rfl

/-- What the states before and after an event show is what has changed in between. -/
theorem Flowing.leaves {before : Instant} {e : Event} {events : EventQueue Event} (hs : s.Flowing c before)
    (hpop : s.events.pop? = some ((now, e), events)) (hgoing : e ≠ .stop) (hstep : s.step? = some t)
    (ht : t = (s.advanced events).handle now e)
    (hh : Leaves c.transport.mss h (s.link.channel d).queue.toList (s.coming d) (s.stream d)) :
    Leaves c.transport.mss (h ++ s.nextDeeds d) (t.link.channel d).queue.toList (t.coming d) (t.stream d) := by
  obtain ⟨entered, left, hcoming, hqueue, hstream⟩ := ht ▸ hs.change_handle hpop hgoing d
  have harrived := coming_of_pop? hpop d
  have hcarried : s.carriedTo t d = left := by
    rw [carriedTo, nextArrival?_of_pop? hpop, hcoming, harrived, ← List.append_assoc, List.drop_left]
  have hqueued : s.queuedTo t d = entered := by
    rw [queuedTo, hcarried, ← hqueue]
    exact List.drop_left ..
  have hsent : s.nextSends d = s.takenAt now e d := by
    rw [nextSends, nextHanded, hpop]
    rfl
  rw [harrived] at hh
  have hsends := hh.delivered.sent (s.takenAt now e d)
  change Leaves _ _ _ _ ((s.advanced events).stream d ++ _) at hsends
  rw [hstream] at hsends
  have hqueues := hsends.queued
  change Leaves _ _ (((s.advanced events).link.channel d).queue.toList ++ entered) _ _ at hqueues
  rw [hqueue] at hqueues
  have hall := hqueues.carried
  rw [← hcoming] at hall
  rw [nextDeeds, hstep, Option.elim_some, nextArrival?_of_pop? hpop, hsent, hqueued, hcarried]
  simpa only [List.append_assoc] using hall

theorem nextDeeds_of_stop {events : EventQueue Event} (hpop : s.events.pop? = some ((now, .stop), events))
    (hstep : s.step? = some t) (ht : t = (s.advanced events).onStop now) : s.nextDeeds d = [] := by
  obtain ⟨_, _, heq, _⟩ := onStop_eq (s.advanced events) now
  have harrival : s.nextArrival? d = none := nextArrival?_of_pop? hpop d
  have hcoming : t.coming d = [] := by
    rw [ht, heq]
    exact congrArg (List.filterMap (Event.comingTo? d ·.2)) (EventQueue.toList_clear events)
  have hcarried : s.carriedTo t d = [] := by
    rw [carriedTo, harrival, hcoming]
    exact List.drop_nil
  have hqueued : s.queuedTo t d = [] := by
    rw [queuedTo, hcarried, ht, heq]
    exact List.drop_length
  have hsent : s.nextSends d = [] := by
    rw [nextSends, nextHanded, hpop]
    exact takenAt_of_handed rfl
  rw [nextDeeds, hstep, Option.elim_some, harrival, hsent, hqueued, hcarried]
  rfl

theorem Reaches.delivers_of_step? {feeds : Duplex (Option (Feed σ γ))} {t u : Session σ γ}
    (ht : s.Reaches t) (hs : s.Begins c feeds) (hh : t.Delivers c.transport.mss d h)
    (hstep : t.step? = some u) : u.Delivers c.transport.mss d (h ++ t.nextDeeds d) := by
  obtain ⟨hrunning, now, e, events, hpop, hu⟩ := step?_eq_some hstep
  by_cases hstop : e = .stop
  · subst hstop
    obtain ⟨_, _, heq, _⟩ := onStop_eq (t.advanced events) now
    rw [nextDeeds_of_stop hpop hstep hu, List.append_nil, hu, handle, heq]
    exact ⟨hh.past, fun hgoing => by cases hgoing⟩
  · have hflowing : t.Flowing c t.events.now := ⟨ht.steady hs hrunning, ht.spaced hs hrunning⟩
    have hleft := hh.now hrunning
    have hleaves := hflowing.leaves hpop hstop hstep hu ⟨hleft.queue, hleft.wire, hleft.bytes, hh.past⟩
    exact ⟨hleaves.past, fun _ => ⟨hleaves.queue_eq, hleaves.coming_eq, hleaves.stream_eq⟩⟩

theorem Reaches.delivers {feeds : Duplex (Option (Feed σ γ))} {n : Nat} {t u : Session σ γ}
    (ht : s.Reaches t) (hs : s.Begins c feeds) (hh : t.Delivers c.transport.mss d h)
    (hafter : t.afterEvents n = some u) : u.Delivers c.transport.mss d (h ++ t.history d n) := by
  induction n generalizing t h with
  | zero =>
    cases hafter
    rwa [history, gather, List.append_nil]
  | succ n ih =>
    obtain ⟨v, hstep, hrest⟩ := Option.bind_eq_some_iff.1 hafter
    have hv := ht.delivers_of_step? hs hh hstep
    rw [history, gather_succ _ hstep, ← List.append_assoc]
    exact ih (.tail ht hstep) hv hrest

end VideoLink.Session
