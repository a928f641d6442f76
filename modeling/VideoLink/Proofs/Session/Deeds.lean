import VideoLink.Proofs.Session.Timing
import VideoLink.Proofs.Transport.Pipe

/-! What is done with the bytes and the packets of a direction. The socket takes a send, a packet enters the
queue, takes the wire and arrives. What has been begun and not finished is what the socket, the queue and
the pending arrivals hold, in their order. -/
namespace VideoLink

inductive Deed
  | sent (bytes : Nat)
  | queued (packet : Packet)
  | carried (packet : Packet)
  | delivered (packet : Packet)
deriving DecidableEq, Repr

namespace Deed

def sizesSent (h : List Deed) : List Nat := h.filterMap fun
  | .sent bytes => some bytes
  | _ => none

def packetsQueued (h : List Deed) : List Packet := h.filterMap fun
  | .queued p => some p
  | _ => none

def packetsCarried (h : List Deed) : List Packet := h.filterMap fun
  | .carried p => some p
  | _ => none

def packetsDelivered (h : List Deed) : List Packet := h.filterMap fun
  | .delivered p => some p
  | _ => none

@[simp] theorem sizesSent_append (h k : List Deed) : sizesSent (h ++ k) = sizesSent h ++ sizesSent k :=
  List.filterMap_append

@[simp] theorem packetsQueued_append (h k : List Deed) :
    packetsQueued (h ++ k) = packetsQueued h ++ packetsQueued k := List.filterMap_append

@[simp] theorem packetsCarried_append (h k : List Deed) :
    packetsCarried (h ++ k) = packetsCarried h ++ packetsCarried k := List.filterMap_append

@[simp] theorem packetsDelivered_append (h k : List Deed) :
    packetsDelivered (h ++ k) = packetsDelivered h ++ packetsDelivered k := List.filterMap_append

end Deed

def dataPayloads (l : List Packet) : List Nat := (l.filter (·.kind = .data)).map (·.payload)

theorem dataPayloads_append (l m : List Packet) :
    dataPayloads (l ++ m) = dataPayloads l ++ dataPayloads m := by
  rw [dataPayloads, List.filter_append, List.map_append]
  rfl

open Deed

/-- What arrives is what took the wire, in the same order, that is what entered the queue, and the data is
what was sent. -/
structure InOrder (mss : Nat) (h : List Deed) : Prop where
  wire : packetsDelivered h <+: packetsCarried h
  queue : packetsCarried h <+: packetsQueued h
  bytes : dataPayloads (packetsDelivered h) <+: (sizesSent h).flatMap (pieces mss)

/-- A history that was in order all the time. What it has begun and not finished are these packets in the queue and
on their way, and these payloads in the socket. -/
structure Leaves (mss : Nat) (h : List Deed) (queue coming : List Packet) (stream : List Nat) : Prop where
  queue_eq : packetsQueued h = packetsCarried h ++ queue
  coming_eq : packetsCarried h = packetsDelivered h ++ coming
  stream_eq : (sizesSent h).flatMap (pieces mss) = dataPayloads (packetsQueued h) ++ stream
  past : ∀ k, k <+: h → InOrder mss k

namespace Leaves

variable {mss : Nat} {h : List Deed} {queue queue' coming coming' ps : List Packet} {stream stream' : List Nat}

/-- What is left over shows that the history is in order. -/
theorem concat (hh : Leaves mss h queue coming stream) {x : Deed}
    (hqueue : packetsQueued (h ++ [x]) = packetsCarried (h ++ [x]) ++ queue')
    (hcoming : packetsCarried (h ++ [x]) = packetsDelivered (h ++ [x]) ++ coming')
    (hstream : (sizesSent (h ++ [x])).flatMap (pieces mss) = dataPayloads (packetsQueued (h ++ [x])) ++ stream') :
    Leaves mss (h ++ [x]) queue' coming' stream' := by
  refine ⟨hqueue, hcoming, hstream, fun k hk => ?_⟩
  rcases List.prefix_concat_iff.1 hk with rfl | hk
  · refine ⟨hcoming ▸ List.prefix_append _ _, hqueue ▸ List.prefix_append _ _, ?_⟩
    rw [hstream, hqueue, hcoming]
    simp only [dataPayloads_append, List.append_assoc]
    exact List.prefix_append _ _
  · exact hh.past k hk

theorem delivered (hh : Leaves mss h queue (ps ++ coming) stream) :
    Leaves mss (h ++ ps.map .delivered) queue coming stream := by
  induction ps generalizing h with
  | nil => simpa using hh
  | cons p ps ih =>
    have hone : packetsDelivered [.delivered p] = [p] := rfl
    have hnone : packetsQueued [.delivered p] = [] ∧ packetsCarried [.delivered p] = [] ∧
        sizesSent [.delivered p] = [] := ⟨rfl, rfl, rfl⟩
    rw [List.map_cons, List.append_cons]
    apply ih
    apply hh.concat
    · simp only [packetsQueued_append, packetsCarried_append, hnone, List.append_nil, hh.queue_eq]
    · simp only [packetsCarried_append, packetsDelivered_append, hone, hnone, hh.coming_eq, List.append_nil,
        List.append_assoc, List.cons_append, List.nil_append]
    · simp only [sizesSent_append, packetsQueued_append, hnone, List.append_nil, hh.stream_eq]

theorem sent (hh : Leaves mss h queue coming stream) (sizes : List Nat) :
    Leaves mss (h ++ sizes.map .sent) queue coming (stream ++ sizes.flatMap (pieces mss)) := by
  induction sizes generalizing h stream with
  | nil => simpa using hh
  | cons size sizes ih =>
    have hone : sizesSent [.sent size] = [size] := rfl
    have hnone : packetsQueued [.sent size] = [] ∧ packetsCarried [.sent size] = [] ∧
        packetsDelivered [.sent size] = [] := ⟨rfl, rfl, rfl⟩
    rw [List.map_cons, List.append_cons, List.flatMap_cons, ← List.append_assoc]
    apply ih
    apply hh.concat
    · simp only [packetsQueued_append, packetsCarried_append, hnone, List.append_nil, hh.queue_eq]
    · simp only [packetsCarried_append, packetsDelivered_append, hnone, List.append_nil, hh.coming_eq]
    · simp only [sizesSent_append, packetsQueued_append, hone, hnone, List.flatMap_append, List.flatMap_singleton,
        List.append_nil, hh.stream_eq, List.append_assoc]

theorem queued (hh : Leaves mss h queue coming (dataPayloads ps ++ stream)) :
    Leaves mss (h ++ ps.map .queued) (queue ++ ps) coming stream := by
  induction ps generalizing h queue with
  | nil => simpa [dataPayloads] using hh
  | cons p ps ih =>
    have hone : packetsQueued [.queued p] = [p] := rfl
    have hnone : packetsCarried [.queued p] = [] ∧ packetsDelivered [.queued p] = [] ∧
        sizesSent [.queued p] = [] := ⟨rfl, rfl, rfl⟩
    have hfirst : dataPayloads (p :: ps) = dataPayloads [p] ++ dataPayloads ps := dataPayloads_append [p] ps
    rw [List.map_cons, List.append_cons, List.append_cons queue]
    apply ih
    apply hh.concat
    · simp only [packetsQueued_append, packetsCarried_append, hone, hnone, hh.queue_eq, List.append_nil,
        List.append_assoc]
    · simp only [packetsCarried_append, packetsDelivered_append, hnone, List.append_nil, hh.coming_eq]
    · simp only [sizesSent_append, packetsQueued_append, hone, hnone, dataPayloads_append, List.append_nil,
        hh.stream_eq, hfirst, List.append_assoc]

theorem carried (hh : Leaves mss h (ps ++ queue) coming stream) :
    Leaves mss (h ++ ps.map .carried) queue (coming ++ ps) stream := by
  induction ps generalizing h coming with
  | nil => simpa using hh
  | cons p ps ih =>
    have hone : packetsCarried [.carried p] = [p] := rfl
    have hnone : packetsQueued [.carried p] = [] ∧ packetsDelivered [.carried p] = [] ∧
        sizesSent [.carried p] = [] := ⟨rfl, rfl, rfl⟩
    rw [List.map_cons, List.append_cons, List.append_cons coming]
    apply ih
    apply hh.concat
    · simp only [packetsQueued_append, packetsCarried_append, hone, hnone, hh.queue_eq, List.append_nil,
        List.append_assoc, List.cons_append, List.nil_append]
    · simp only [packetsCarried_append, packetsDelivered_append, hone, hnone, hh.coming_eq, List.append_nil,
        List.append_assoc]
    · simp only [sizesSent_append, packetsQueued_append, hnone, List.append_nil, hh.stream_eq]

end Leaves

def Event.comingTo? (d : Direction) : Event → Option Packet
  | .arrival e p => if e = d then some p else none
  | _ => none

namespace Session

variable {σ γ : Type}

/-- The packets on their way in a direction, in the order in which they will arrive. -/
def coming (s : Session σ γ) (d : Direction) : List Packet :=
  s.events.toList.filterMap (Event.comingTo? d ·.2)

def stream (s : Session σ γ) (d : Direction) : List Nat := (s.generator? d).elim [] (·.socket.stream)

/-- What a direction has begun and not finished is what its parts hold. -/
structure Outstanding (mss : Nat) (d : Direction) (h : List Deed) (s : Session σ γ) : Prop where
  queue : packetsQueued h = packetsCarried h ++ (s.link.channel d).queue.toList
  wire : packetsCarried h = packetsDelivered h ++ s.coming d
  bytes : (sizesSent h).flatMap (pieces mss) = dataPayloads (packetsQueued h) ++ s.stream d

section

variable {d : Direction} {s t : Session σ γ}

structure SameTraffic (d : Direction) (s t : Session σ γ) : Prop where
  queue : (t.link.channel d).queue = (s.link.channel d).queue
  coming : t.coming d = s.coming d
  stream : t.stream d = s.stream d

theorem SameTraffic.refl (d : Direction) (s : Session σ γ) : SameTraffic d s s := ⟨rfl, rfl, rfl⟩

theorem SameTraffic.trans {u : Session σ γ} (st : SameTraffic d s t) (tu : SameTraffic d t u) :
    SameTraffic d s u :=
  ⟨tu.queue.trans st.queue, tu.coming.trans st.coming, tu.stream.trans st.stream⟩

end

/-! The order of the arrivals. -/

theorem coming_of_pop? {s : Session σ γ} {now : Instant} {e : Event} {events : EventQueue Event}
    (h : s.events.pop? = some ((now, e), events)) (d : Direction) :
    s.coming d = (e.comingTo? d).toList ++ (s.advanced events).coming d := by
  obtain ⟨number, hl, _⟩ := EventQueue.toList_of_pop? h
  rw [coming, hl, List.filterMap_cons]
  cases e.comingTo? d <;> rfl

theorem eq_of_comingTo? {d : Direction} {e : Event} {p : Packet} (h : e.comingTo? d = some p) :
    e = .arrival d p := by
  cases e with
  | arrival side q =>
    by_cases hside : side = d
    · rw [Event.comingTo?, if_pos hside, Option.some.injEq] at h
      rw [hside, h]
    · rw [Event.comingTo?, if_neg hside] at h
      cases h
  | _ => cases h

/-- No packet on its way arrives later than one that takes the wire now. -/
theorem Steady.le_arrival {c : Config} {now : Instant} {s : Session σ γ} {d : Direction}
    {x : Transmission} {link : Link} (hs : s.Steady c now) (hspaced : s.Spaced)
    (hstart : s.link.start? d now = some (x, link)) {ticket : Ticket} {p : Packet}
    (h : (ticket, Event.arrival d p) ∈ s.events.toList) : ticket.time ≤ x.arrival := by
  obtain ⟨_, _, _, hfinish, harrival, _⟩ := start?_eq_some hstart
  -- It arrives at most a delay from now, since the wire is free now.
  have hbefore := hspaced d now ticket p (hs.freeAt_of_start? hstart) h
  rw [harrival, hfinish]
  exact Nat.le_trans hbefore (Instant.after_le_after (Instant.le_after _ _) _)

theorem Steady.coming_started {c : Config} {now : Instant} {s : Session σ γ} {d : Direction}
    {x : Transmission} {link : Link} (hs : s.Steady c now) (hspaced : s.Spaced)
    (hstart : s.link.start? d now = some (x, link)) (e : Direction) :
    (s.started d x link).coming e = s.coming e ++ if e = d then [x.packet] else [] := by
  obtain ⟨hstarted, hended⟩ := hs.le_finish hstart
  have horderly := hs.standing.orderly
  obtain ⟨q, hq⟩ : ∃ q, q = (s.events.schedule x.finish (.wireFree d)).2 := ⟨_, rfl⟩
  have hqueue : q.Orderly := hq ▸ horderly.schedule x.finish (.wireFree d)
  have hnow : q.now = s.events.now := by rw [hq]; rfl
  have hfree : q.toList.filterMap (Event.comingTo? e ·.2) = s.coming e := by
    rw [hq]
    exact horderly.filterMap_schedule x.finish rfl
  have hcoming : (s.started d x link).coming e =
      (q.schedule x.arrival (.arrival d x.packet)).2.toList.filterMap (Event.comingTo? e ·.2) := by
    rw [hq]
    rfl
  rw [hcoming]
  by_cases he : e = d
  · subst he
    have hlast : ∀ a ∈ q.toList, (Event.comingTo? e a.2).isSome →
        a.1.time ≤ x.arrival.latest q.now := by
      rintro ⟨ticket, ev⟩ ha hbrings
      obtain ⟨p, hp⟩ := Option.isSome_iff_exists.1 hbrings
      obtain rfl := eq_of_comingTo? hp
      rw [hq, (horderly.perm_schedule x.finish (.wireFree e)).mem_iff, List.mem_cons] at ha
      rw [hnow, Instant.latest_of_le (Nat.le_trans hstarted hended)]
      rcases ha with heq | hold
      · cases heq
      · exact hs.le_arrival hspaced hstart hold
    rw [hqueue.filterMap_schedule_last (if_pos rfl) hlast, hfree, if_pos rfl]
  · have hother : Event.comingTo? e (.arrival d x.packet) = none := if_neg (Ne.symm he)
    rw [hqueue.filterMap_schedule x.arrival hother, hfree, if_neg he, List.append_nil]

/-! What leaves the packets and the bytes of a direction alone. -/

theorem stream_of_generator? {s : Session σ γ} {d : Direction} {g : Generator σ γ}
    (hfound : s.generator? d = some g) : s.stream d = g.socket.stream := by
  rw [stream, hfound]
  rfl

theorem stream_of_socket {s t : Session σ γ} {d : Direction}
    (h : (t.generator? d).map Generator.socket = (s.generator? d).map Generator.socket) :
    t.stream d = s.stream d := by
  have hmap : ∀ u : Session σ γ,
      u.stream d = ((u.generator? d).map Generator.socket).elim [] Socket.stream := by
    intro u
    rw [stream]
    cases u.generator? d <;> rfl
  rw [hmap, hmap, h]

theorem SameTraffic.of_scheduled {s t : Session σ γ} {d : Direction} (hs : s.events.Orderly)
    (hqueue : (t.link.channel d).queue = (s.link.channel d).queue)
    (hevents : t.events = s.events ∨ ∃ time e, e.comingTo? d = none ∧
      t.events = (s.events.schedule time e).2)
    (hsocket : (t.generator? d).map Generator.socket = (s.generator? d).map Generator.socket) :
    SameTraffic d s t := by
  refine ⟨hqueue, ?_, stream_of_socket hsocket⟩
  unfold Session.coming
  rcases hevents with heq | ⟨time, e, he, heq⟩ <;> rw [heq]
  · exact hs.filterMap_schedule time he

theorem SameTraffic.setGenerator {s : Session σ γ} {d : Direction} (hs : s.events.Orderly)
    {g g' : Generator σ γ} (hfound : s.generator? d = some g) (hsocket : g'.socket = g.socket)
    {events : EventQueue Event} {e : Event} (he : e.comingTo? d = none)
    (hevents : events = s.events ∨ ∃ time, events = (s.events.schedule time e).2) :
    SameTraffic d s ({ s with events }.setGenerator d g') :=
  .of_scheduled hs rfl (hevents.imp id fun ⟨time, heq⟩ => ⟨time, e, he, heq⟩)
    (socket_setGenerator hfound hsocket d)

variable [Draws σ Nat] [Draws γ Span]

/-- What the order of the packets rests on at an instant of a run. -/
structure Flowing (c : Config) (now : Instant) (s : Session σ γ) : Prop extends Steady c now s where
  spaced : s.Spaced

theorem Move.flowing {c : Config} {now : Instant} {d : Direction} {s t : Session σ γ}
    (h : Move now d s t) (hs : s.Flowing c now) : t.Flowing c now :=
  ⟨h.steady hs.toSteady, h.spaced hs.toSteady hs.spaced⟩

theorem Moves.flowing {c : Config} {now : Instant} {d : Direction} {s t : Session σ γ}
    (h : Moves now d s t) (hs : s.Flowing c now) : t.Flowing c now :=
  h.induct hs fun hu hmove => hmove.flowing hu

theorem Move.sameTraffic {c : Config} {now : Instant} {d e : Direction} {s t : Session σ γ}
    (h : Move now d s t) (hs : s.Flowing c now) (he : e ≠ d) : SameTraffic e s t := by
  obtain ⟨hchannel, hsocket⟩ := h.other he
  have hqueue := congrArg Channel.queue hchannel
  have horderly := hs.standing.orderly
  cases h.route hs.standing with
  | kept _ _ _ hevents =>
    refine .of_scheduled horderly hqueue (hevents.imp id ?_) hsocket
    rintro ⟨time, a, rfl | rfl, heq⟩
    · exact ⟨time, _, rfl, heq⟩
    · exact ⟨time, _, rfl, heq⟩
  | entered _ _ _ _ _ _ hevents => exact .of_scheduled horderly hqueue (.inl hevents) hsocket
  | taken x link hstart heq =>
    refine ⟨hqueue, ?_, stream_of_socket hsocket⟩
    rw [heq, hs.coming_started hs.spaced hstart, if_neg he, List.append_nil]

theorem Moves.sameTraffic {c : Config} {now : Instant} {d e : Direction} {s t : Session σ γ}
    (h : Moves now d s t) (hs : s.Flowing c now) (he : e ≠ d) : SameTraffic e s t := by
  refine (h.induct (P := fun u => u.Flowing c now ∧ SameTraffic e s u) ⟨hs, .refl e s⟩ ?_).2
  rintro u v ⟨hu, hsame⟩ hmove
  exact ⟨hmove.flowing hu, hsame.trans (hmove.sameTraffic hu he)⟩

end Session

end VideoLink
