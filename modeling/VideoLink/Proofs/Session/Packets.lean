import Mathlib.Data.List.Count
import VideoLink.Proofs.Session.Standing

/-! The packets under way: those in the two queues and those that an event will bring. A packet enters with
the next number, takes the wire and leaves when it arrives. -/
namespace VideoLink

def Event.packet? : Event → Option Packet
  | .arrival _ p => some p
  | _ => none

namespace EventQueue

def packets (q : EventQueue Event) : List Packet := q.toList.filterMap (·.2.packet?)

theorem Orderly.packets_schedule {q : EventQueue Event} (h : q.Orderly) (time : Instant)
    (e : Event) : (q.schedule time e).2.packets.Perm (e.packet?.toList ++ q.packets) := by
  have hperm := (h.perm_schedule time e).filterMap fun a : Ticket × Event => a.2.packet?
  rw [List.filterMap_cons] at hperm
  unfold packets
  cases he : e.packet? with
  | none => rwa [he] at hperm
  | some p => rwa [he] at hperm

theorem packets_of_pop? {q rest : EventQueue Event} {time : Instant} {e : Event}
    (h : q.pop? = some ((time, e), rest)) : q.packets = e.packet?.toList ++ rest.packets := by
  obtain ⟨number, hl, _⟩ := toList_of_pop? h
  rw [packets, hl, List.filterMap_cons]
  cases he : e.packet? with
  | none => rfl
  | some p => rfl

end EventQueue

namespace Link

def queues (l : Link) : List Packet :=
  (l.channel .uplink).queue.toList ++ (l.channel .downlink).queue.toList

def drops (l : Link) : Nat := (l.stats .uplink).drops + (l.stats .downlink).drops

theorem queues_setChannel (l : Link) (d : Direction) (c : Channel) :
    ((l.setChannel d c).queues ++ (l.channel d).queue.toList).Perm (l.queues ++ c.queue.toList) := by
  rw [List.perm_iff_count]
  intro p
  cases d <;> simp only [queues, setChannel, channel, Duplex.set, Duplex.get, List.count_append] <;>
    omega

theorem drops_setChannel (l : Link) (d : Direction) (c : Channel) :
    (l.setChannel d c).drops + (l.stats d).drops = l.drops + c.stats.drops := by
  cases d <;> simp only [drops, stats, setChannel, channel, Duplex.set, Duplex.get] <;> omega

theorem queues_complete (l : Link) (d : Direction) : (l.complete d).queues = l.queues := by
  cases d <;> rfl

theorem drops_complete (l : Link) (d : Direction) : (l.complete d).drops = l.drops := by
  cases d <;> rfl

theorem queues_push (l : Link) (d : Direction) (p : Packet) :
    (l.push d p).queues.Perm (p :: l.queues) := by
  have hset := l.queues_setChannel d ((l.channel d).push p)
  rw [Channel.push, Fifo.toList_push] at hset
  rw [List.perm_iff_count] at hset ⊢
  intro q
  have hq := hset q
  simp only [List.count_append, List.count_cons, List.count_nil] at hq ⊢
  rw [push, Channel.push]
  omega

theorem drops_push (l : Link) (d : Direction) (p : Packet) : (l.push d p).drops = l.drops := by
  cases d <;> rfl

end Link

namespace Session

variable {σ γ : Type}

/-- The packets under way. -/
def underWay (s : Session σ γ) : List Packet := s.events.packets ++ s.link.queues

theorem mem_underWay_of_queued {s : Session σ γ} {d : Direction} {p : Packet}
    (h : p ∈ (s.link.channel d).queue.toList) : p ∈ s.underWay := by
  apply List.mem_append_right
  cases d with
  | uplink => exact List.mem_append_left _ h
  | downlink => exact List.mem_append_right _ h

theorem mem_underWay_of_coming {s : Session σ γ} {a : Ticket × Event} (ha : a ∈ s.events.toList)
    {p : Packet} (h : a.2.packet? = some p) : p ∈ s.underWay :=
  List.mem_append_left _ (List.mem_filterMap.2 ⟨a, ha, h⟩)

theorem queues_of_start? {l link : Link} {d : Direction} {now : Instant} {t : Transmission}
    (h : l.start? d now = some (t, link)) :
    l.queues.Perm (t.packet :: link.queues) ∧ link.drops = l.drops := by
  obtain ⟨_, queue, hpop, _, _, rfl⟩ := start?_eq_some h
  have hset := l.queues_setChannel d (({ l.channel d with queue } : Channel).carry t.packet)
  have hdrops := l.drops_setChannel d (({ l.channel d with queue } : Channel).carry t.packet)
  rw [Fifo.toList_of_pop? hpop] at hset
  constructor
  · rw [List.perm_iff_count] at hset ⊢
    intro q
    have hq := hset q
    simp only [List.count_append, List.count_cons, Channel.carry] at hq ⊢
    omega
  · simp only [Channel.carry, Link.stats] at hdrops ⊢
    omega

end Session

/-- The flows that a run may have: that of the video of a direction, and that of its answers. -/
def Config.Carries (c : Config) (k : FlowKey) : Prop :=
  ∃ d, c.hasVideo d = true ∧ (k = videoFlow c.transport.protocol d ∨
    c.transport.protocol = .tcp ∧ k = (videoFlow c.transport.protocol d).reversed)

namespace Session

variable {σ γ : Type}

inductive Traced (c : Config) (now : Instant) (s t : Session σ γ) : Prop
  | kept (packets : t.underWay.Perm s.underWay) (monitor : t.monitor = s.monitor)
      (uids : t.uids = s.uids) (drops : t.link.drops = s.link.drops)
  | sent (p : Packet) (number : p.uid = s.uids.next) (flow : c.Carries p.flow)
      (packets : t.underWay.Perm (p :: s.underWay))
      (monitor : t.monitor = s.monitor.send p.flow p.uid p.size now)
      (uids : t.uids.next = s.uids.next + 1) (drops : t.link.drops = s.link.drops)
  | dropped (packets : t.underWay.Perm s.underWay) (monitor : t.monitor = s.monitor)
      (uids : t.uids.next = s.uids.next + 1) (drops : t.link.drops = s.link.drops + 1)

variable [Draws σ Nat] [Draws γ Span]

theorem Move.traced {now : Instant} {d : Direction} {c : Config} {s t : Session σ γ}
    (h : Move now d s t) (hs : s.Standing c) : Traced c now s t := by
  -- An event of the video brings no packet, so scheduling it adds none to those under way.
  have hscheduled : ∀ {events : EventQueue Event} {e : Event}, e.packet? = none →
      (events = s.events ∨ ∃ time, events = (s.events.schedule time e).2) →
      (events.packets ++ s.link.queues).Perm s.underWay := by
    intro events e he hevents
    rcases hevents with rfl | ⟨time, rfl⟩
    · exact .refl _
    · have hperm := hs.orderly.packets_schedule time e
      rw [he] at hperm
      exact hperm.append_right _
  have hvideo : ∀ {d : Direction} {g : Generator σ γ}, s.generator? d = some g →
      c.hasVideo d = true := by
    intro d g hfound
    rw [← hs.video d, hfound]
    rfl
  cases h with
  | note | frame | paced | segment | noSegment => exact .kept (.refl _) rfl rfl rfl
  | count hfound hacks hcount =>
    rcases AckCounter.onData_cases _ s.uids with ⟨_, heq⟩ | ⟨_, heq⟩
    · rw [heq] at hcount
      cases hcount
      exact .kept (.refl _) rfl rfl rfl
    · rw [heq] at hcount
      cases hcount
  | armPacer hfound hpaced harm =>
    exact .kept (hscheduled (e := .segmentDue d) rfl (Pacer.events_of_arm harm)) rfl rfl rfl
  | armSource hfound harm =>
    obtain ⟨_, _, hevents⟩ := FrameSource.arm_cases harm
    exact .kept (hscheduled (e := .frameTick d) rfl hevents) rfl rfl rfl
  | @load _ _ g p socket uids hroom hfound hnext =>
    obtain ⟨huid, hflow⟩ := hs.of_next? hfound hnext
    obtain ⟨_, _, _, huids⟩ := (hs.fit d g hfound).sound.of_next? hnext
    refine .sent p huid ⟨d, hvideo hfound, .inl hflow⟩ ?_ rfl huids (s.link.drops_push d p)
    exact ((s.link.queues_push d p).append_left _).trans List.perm_middle
  | @answer _ _ g acks rest uids ack hfound hacks hcount hroom =>
    obtain ⟨rfl, rfl⟩ := AckCounter.of_onData hcount
    obtain ⟨htcp, hflow⟩ := (hs.fit _ g hfound).acks acks hacks
    refine .sent _ rfl ⟨d.reverse, hvideo hfound, .inr ⟨htcp, hflow⟩⟩ ?_ rfl rfl
      (s.link.drops_push d _)
    exact ((s.link.queues_push d _).append_left _).trans List.perm_middle
  | @refuse _ _ g acks rest uids ack hfound hacks hcount hfull =>
    obtain ⟨rfl, rfl⟩ := AckCounter.of_onData hcount
    have hlink := congrArg Prod.snd (enqueue_of_full hfull ⟨s.uids.next, acks.flow, 0, .ack⟩)
    refine .dropped (List.Perm.append_left _ ?_) rfl rfl ?_
    · show (s.link.enqueue d _).2.queues.Perm _
      rw [hlink]
      exact (List.perm_append_right_iff _).1 (s.link.queues_setChannel d _)
    · have hdrops := s.link.drops_setChannel d { s.link.channel d with
          stats := { (s.link.channel d).stats with
            drops := (s.link.channel d).stats.drops + 1 } }
      unfold Link.stats at hdrops
      show (s.link.enqueue d _).2.drops = _
      rw [hlink]
      dsimp only at hdrops ⊢
      omega
  | @start _ _ t link hstart =>
    -- The head leaves its queue, and its arrival is entered instead.
    obtain ⟨hqueues, hdrops⟩ := queues_of_start? hstart
    have hfree := hs.orderly.packets_schedule t.finish (.wireFree d)
    have harrival := (hs.orderly.schedule t.finish (.wireFree d)).packets_schedule t.arrival
      (.arrival d t.packet)
    refine .kept ?_ rfl rfl hdrops
    refine ((harrival.trans (hfree.append_left _)).append_right link.queues).trans ?_
    exact (List.perm_middle.symm).trans (hqueues.symm.append_left _)

end Session

end VideoLink
