import VideoLink.Proofs.Session.Standing

/-! Which packets a direction carries: the data of its own video, and with TCP the answers to the video of
the other one. -/
namespace VideoLink

/-- The packets that belong into a direction. -/
def Config.Routes (c : Config) (d : Direction) (p : Packet) : Prop :=
  p.kind = .data ∧ p.flow = videoFlow c.transport.protocol d ∨
  p.kind = .ack ∧ c.transport.protocol = .tcp ∧
    p.flow = (videoFlow c.transport.protocol d.reverse).reversed

theorem Config.Routes.of_data {c : Config} {d : Direction} {p : Packet} (h : c.Routes d p)
    (hp : p.kind = .data) : p.flow = videoFlow c.transport.protocol d := by
  rcases h with ⟨_, hflow⟩ | ⟨hack, _⟩
  · exact hflow
  · rw [hp] at hack
    cases hack

theorem Config.Routes.of_ack {c : Config} {d : Direction} {p : Packet} (h : c.Routes d p)
    (hp : p.kind = .ack) : p.flow = (videoFlow c.transport.protocol d.reverse).reversed := by
  rcases h with ⟨hdata, _⟩ | ⟨_, _, hflow⟩
  · rw [hp] at hdata
    cases hdata
  · exact hflow

theorem Config.Routes.of_udp {c : Config} {d : Direction} {p : Packet} (h : c.Routes d p)
    (hudp : c.transport.protocol = .udp) : p.flow = videoFlow .udp d := by
  rcases h with ⟨_, hflow⟩ | ⟨_, htcp, _⟩
  · rwa [hudp] at hflow
  · rw [hudp] at htcp
    cases htcp

def Event.Routed (c : Config) : Event → Prop
  | .arrival d p => c.Routes d p
  | _ => True

namespace Session

variable {σ γ : Type}

/-- Every packet under way is in a direction that it belongs into. -/
structure Routed (c : Config) (s : Session σ γ) : Prop where
  queued : ∀ d, ∀ p ∈ (s.link.channel d).queue.toList, c.Routes d p
  coming : ∀ a ∈ s.events.toList, a.2.Routed c

theorem Begins.routed {c : Config} {feeds : Duplex (Option (Feed σ γ))} {s : Session σ γ}
    (h : s.Begins c feeds) : s.Routed c := by
  obtain ⟨_, _, _, _, hu, _⟩ := h.untouched
  constructor
  · intro d p hp
    rw [hu.link] at hp
    cases d <;> cases hp
  · intro a ha
    rcases hu.events a ha with heq | ⟨d, heq⟩ <;> rw [heq] <;> trivial

theorem Routed.setChannel {c : Config} {s : Session σ γ} (hs : s.Routed c) (d : Direction)
    {x : Channel} (hx : ∀ p ∈ x.queue.toList, c.Routes d p) :
    ({ s with link := s.link.setChannel d x } : Session σ γ).Routed c := by
  refine ⟨fun e p hp => ?_, hs.coming⟩
  by_cases he : e = d
  · subst he
    rw [Link.channel_setChannel_self] at hp
    exact hx p hp
  · rw [Link.channel_setChannel_of_ne _ he] at hp
    exact hs.queued e p hp

theorem Routed.push {c : Config} {s : Session σ γ} (hs : s.Routed c) {d : Direction} {p : Packet}
    (hp : c.Routes d p) : ({ s with link := s.link.push d p } : Session σ γ).Routed c := by
  apply hs.setChannel d
  intro q hq
  rw [Channel.push, Fifo.toList_push, List.mem_append, List.mem_singleton] at hq
  rcases hq with hq | rfl
  · exact hs.queued d q hq
  · exact hp

theorem Routed.schedule {c : Config} {s : Session σ γ} (hs : s.Routed c) (horderly : s.events.Orderly)
    (time : Instant) {e : Event} (he : e.Routed c) : (s.schedule time e).Routed c := by
  refine ⟨hs.queued, fun a ha => ?_⟩
  rcases List.mem_cons.1 ((horderly.perm_schedule time e).mem_iff.1 ha) with rfl | ha
  · exact he
  · exact hs.coming a ha

theorem Opening.routed {c : Config} {now : Instant} {s t : Session σ γ} (h : s.Opening now t)
    (hs : s.Routed c) : t.Routed c := by
  obtain ⟨e, _, hpop, _⟩ := h.popped
  obtain ⟨number, hl, _⟩ := EventQueue.toList_of_pop? hpop
  have hcoming : ∀ a ∈ t.events.toList, a.2.Routed c := by
    intro a ha
    exact hs.coming a (by rw [hl]; exact List.mem_cons_of_mem _ ha)
  cases h with
  | tick | due | arrival => exact ⟨hs.queued, hcoming⟩
  | @free d events hpop =>
    exact ⟨(hs.setChannel d (x := (s.link.channel d).release) (hs.queued d)).queued, hcoming⟩

theorem Routed.of_pop? {c : Config} {s : Session σ γ} (hs : s.Routed c) {now : Instant}
    {d : Direction} {p : Packet} {events : EventQueue Event}
    (hpop : s.events.pop? = some ((now, .arrival d p), events)) : c.Routes d p := by
  obtain ⟨number, hl, _⟩ := EventQueue.toList_of_pop? hpop
  exact hs.coming (⟨now, number⟩, .arrival d p) (by rw [hl]; exact List.mem_cons_self)

variable [Draws σ Nat] [Draws γ Span]

theorem Move.routed {now : Instant} {d : Direction} {c : Config} {s t : Session σ γ}
    (h : Move now d s t) (hstanding : s.Standing c) (hs : s.Routed c) : t.Routed c := by
  cases h with
  | note | frame | paced | segment | noSegment | count => exact ⟨hs.queued, hs.coming⟩
  | armPacer hfound hpaced harm =>
    rcases Pacer.events_of_arm harm with rfl | ⟨time, rfl⟩
    · exact ⟨hs.queued, hs.coming⟩
    · have hscheduled := hs.schedule hstanding.orderly time (e := .segmentDue d) trivial
      exact ⟨hscheduled.queued, hscheduled.coming⟩
  | armSource hfound harm =>
    obtain ⟨_, _, rfl | ⟨time, rfl⟩⟩ := FrameSource.arm_cases harm
    · exact ⟨hs.queued, hs.coming⟩
    · have hscheduled := hs.schedule hstanding.orderly time (e := .frameTick d) trivial
      exact ⟨hscheduled.queued, hscheduled.coming⟩
  | @load _ _ g p socket uids hroom hfound hnext =>
    obtain ⟨_, hreleased, _⟩ := (hstanding.fit d g hfound).sound.of_next? hnext
    obtain ⟨_, hflow⟩ := hstanding.of_next? hfound hnext
    have hpushed := hs.push (d := d) (p := p) (.inl ⟨hreleased.kind, hflow⟩)
    exact ⟨hpushed.queued, hpushed.coming⟩
  | @start _ _ t link hstart =>
    obtain ⟨_, queue, hpop, _, _, rfl⟩ := start?_eq_some hstart
    have hqueue := Fifo.toList_of_pop? hpop
    have htaken := hs.setChannel d (x := ({ s.link.channel d with queue } : Channel).carry t.packet) (by
      intro q hq
      exact hs.queued d q (by rw [hqueue]; exact List.mem_cons_of_mem _ hq))
    have hfreed := htaken.schedule hstanding.orderly t.finish (e := .wireFree d) trivial
    apply hfreed.schedule (hstanding.orderly.schedule _ _) t.arrival (e := .arrival d t.packet)
    exact hs.queued d t.packet (by rw [hqueue]; exact List.mem_cons_self)
  | @answer _ _ g acks rest uids ack hfound hacks hcount hroom =>
    obtain ⟨rfl, _⟩ := AckCounter.of_onData hcount
    obtain ⟨htcp, hflow⟩ := (hstanding.fit _ g hfound).acks acks hacks
    have hpushed := hs.push (d := d) (p := ⟨s.uids.next, acks.flow, 0, .ack⟩)
      (.inr ⟨rfl, htcp, hflow⟩)
    exact ⟨hpushed.queued, hpushed.coming⟩
  | @refuse _ _ g acks rest uids ack hfound hacks hcount hfull =>
    have hrefused := hs.setChannel d (x := { s.link.channel d with
      stats := { (s.link.channel d).stats with
        drops := (s.link.channel d).stats.drops + 1 } }) (hs.queued d)
    have hlink := congrArg Prod.snd (enqueue_of_full hfull ack)
    refine ⟨?_, hs.coming⟩
    show ∀ e, ∀ p ∈ ((s.link.enqueue d ack).2.channel e).queue.toList, c.Routes e p
    rw [hlink]
    exact hrefused.queued

theorem Reaches.routed {c : Config} {feeds : Duplex (Option (Feed σ γ))} {s t : Session σ γ}
    (h : s.Reaches t) (hs : s.Begins c feeds) (hrunning : t.summary? = none) : t.Routed c :=
  h.induct_moves hs hrunning (hs.note _).routed (fun _ hu hopen => hopen.routed hu)
    fun hstanding _ hu hmove => hmove.routed hstanding hu

end Session

end VideoLink
