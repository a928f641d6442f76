import Mathlib.Data.List.Basic
import VideoLink.Proofs.Session.Accounts

/-! The lane of a direction: all that the events of the direction read and write, and the stop. Numbers of
packets and tickets are left out, since they tell how much the other direction has done. -/
namespace VideoLink

/-- A packet without its number, and what the monitor knows under that number. -/
structure Parcel where
  flow : FlowKey
  payload : Nat
  known? : Option InFlight

/-- An event of a direction. -/
inductive Happening
  | tick
  | due
  | free
  | arrival (parcel : Parcel)
  | stop

def Happening.parcel? : Happening → Option Parcel
  | .arrival x => some x
  | _ => none

structure Lane (σ γ : Type) where
  settings : LinkSettings
  segmenter : Segmenter
  maxDelay : Span
  fresh : FlowRecord
  video? : Option (Generator σ γ)
  busy : Bool
  stats : ChannelStats
  queue : List Parcel
  record? : Option FlowRecord
  agenda : List (Instant × Happening)

variable {σ γ : Type}

def FrameSource.unticketed (s : FrameSource σ) : FrameSource σ := { s with pending? := none }

/-- A pacer in which only the presence of a ticket counts. -/
def Pacer.unticketed (p : Pacer γ) : Pacer γ :=
  { p with pending? := p.pending?.map fun _ => ⟨.zero, 0⟩ }

def Generator.unticketed (g : Generator σ γ) : Generator σ γ :=
  { g with
    source := g.source.unticketed
    pacer? := g.pacer?.map Pacer.unticketed }

def Lane.schedule (l : Lane σ γ) (now time : Instant) (h : Happening) : Lane σ γ :=
  { l with agenda := l.agenda.filter (fun a => a.1 ≤ time.latest now) ++
      (time.latest now, h) :: l.agenda.filter (fun a => ¬ a.1 ≤ time.latest now) }

/-- Applies `f` to the record of the video in a direction, if `key` is its flow. -/
def Lane.update (l : Lane σ γ) (d : Direction) (key : FlowKey) (f : FlowRecord → FlowRecord) :
    Lane σ γ :=
  if key = videoFlow .udp d then { l with record? := some (f (l.record?.getD l.fresh)) } else l

def Lane.parcels (l : Lane σ γ) : List Parcel := l.agenda.filterMap (·.2.parcel?) ++ l.queue

namespace Session

def parcel (s : Session σ γ) (p : Packet) : Parcel := ⟨p.flow, p.payload, s.monitor.inFlight[p.uid]?⟩

/-- What an event is to a direction, if it is anything to it. -/
def happening? (s : Session σ γ) (d : Direction) : Event → Option Happening
  | .frameTick e => if e = d then some .tick else none
  | .segmentDue e => if e = d then some .due else none
  | .wireFree e => if e = d then some .free else none
  | .arrival e p => if e = d then some (.arrival (s.parcel p)) else none
  | .stop => some .stop

def item? (s : Session σ γ) (d : Direction) (a : Ticket × Event) : Option (Instant × Happening) :=
  (s.happening? d a.2).map fun h => (a.1.time, h)

/-- The events that are something to a direction, in their order. -/
def agenda (s : Session σ γ) (d : Direction) : List (Instant × Happening) :=
  s.events.toList.filterMap (s.item? d)

def lane (s : Session σ γ) (d : Direction) : Lane σ γ where
  settings := s.link.settings
  segmenter := s.segmenter
  maxDelay := s.monitor.maxDelay
  fresh := s.monitor.fresh
  video? := (s.generator? d).map .unticketed
  busy := (s.link.channel d).busy
  stats := s.link.stats d
  queue := (s.link.channel d).queue.toList.map s.parcel
  record? := s.monitor.flow? (videoFlow .udp d)
  agenda := s.agenda d

/-! What one change does to a lane. -/

theorem lane_setGenerator (s : Session σ γ) (d : Direction) (g : Generator σ γ) :
    (s.setGenerator d g).lane d = { s.lane d with video? := some g.unticketed } := by
  have hvideo : ((s.setGenerator d g).generator? d).map .unticketed = some g.unticketed := by
    rw [generator?_setGenerator, Option.map_some]
  unfold lane
  rw [hvideo]
  rfl

theorem lane_setGenerator_of_ne (s : Session σ γ) {d e : Direction} (h : e ≠ d)
    (g : Generator σ γ) : (s.setGenerator e g).lane d = s.lane d := by
  unfold lane
  rw [generator?_setGenerator_of_ne _ h.symm]
  rfl

theorem lane_setChannel (s : Session σ γ) (d : Direction) (c : Channel) :
    ({ s with link := s.link.setChannel d c } : Session σ γ).lane d =
      { s.lane d with busy := c.busy, stats := c.stats, queue := c.queue.toList.map s.parcel } := by
  unfold lane Link.stats
  dsimp only
  rw [Link.channel_setChannel_self]
  rfl

theorem lane_setChannel_of_ne (s : Session σ γ) {d e : Direction} (h : e ≠ d) (c : Channel) :
    ({ s with link := s.link.setChannel e c } : Session σ γ).lane d = s.lane d := by
  unfold lane Link.stats
  dsimp only
  rw [Link.channel_setChannel_of_ne _ h.symm]
  rfl

theorem lane_complete (s : Session σ γ) (d : Direction) :
    ({ s with link := s.link.complete d } : Session σ γ).lane d = { s.lane d with busy := false } :=
  lane_setChannel s d (s.link.channel d).release

private theorem filter_agenda (s : Session σ γ) (d : Direction) (P : Instant → Bool)
    (l : List (Ticket × Event)) : (l.filter fun a => P a.1.time).filterMap (s.item? d) =
      (l.filterMap (s.item? d)).filter fun a => P a.1 := by
  rw [List.filterMap_filter, List.filter_filterMap]
  congr 1
  funext a
  unfold item?
  cases s.happening? d a.2 with
  | none => cases P a.1.time <;> rfl
  | some h => rfl

theorem lane_schedule {s : Session σ γ} (hs : s.events.Orderly) (d : Direction) (time : Instant)
    (e : Event) : (s.schedule time e).lane d =
      (s.happening? d e).elim (s.lane d) ((s.lane d).schedule s.events.now time) := by
  have hagenda : (s.schedule time e).agenda d =
      (s.agenda d).filter (fun a => a.1 ≤ time.latest s.events.now) ++
        (((s.happening? d e).map fun h => (time.latest s.events.now, h)).toList ++
        (s.agenda d).filter (fun a => ¬ a.1 ≤ time.latest s.events.now)) := by
    change (s.events.schedule time e).2.toList.filterMap (s.item? d) = _
    rw [hs.toList_schedule_eq, List.filterMap_append,
      filter_agenda s d (fun t => decide (t ≤ time.latest s.events.now)), List.filterMap_cons,
      filter_agenda s d (fun t => decide ¬ t ≤ time.latest s.events.now), item?,
      EventQueue.ticket_schedule]
    cases s.happening? d e <;> rfl
  have hlane : (s.schedule time e).lane d =
      { s.lane d with agenda := (s.schedule time e).agenda d } := rfl
  rw [hlane, hagenda]
  cases s.happening? d e with
  | some h => rfl
  | none =>
    have hsplit := congrArg (List.filterMap (s.item? d))
      (s.events.toList_split (time.latest s.events.now))
    rw [List.filterMap_append,
      filter_agenda s d (fun t => decide (t ≤ time.latest s.events.now)),
      filter_agenda s d (fun t => decide ¬ t ≤ time.latest s.events.now)] at hsplit
    show ({ s.lane d with agenda := (s.agenda d).filter _ ++ (s.agenda d).filter _ } :
      Lane σ γ) = s.lane d
    rw [show (s.agenda d).filter _ ++ (s.agenda d).filter _ = s.agenda d from hsplit]
    rfl

theorem lane_monitor {s : Session σ γ} {m : Monitor} {key : FlowKey} {f : FlowRecord → FlowRecord}
    (hfresh : m.fresh = s.monitor.fresh) (hmax : m.maxDelay = s.monitor.maxDelay)
    (hflows : m.flows = (s.monitor.update key f).flows)
    (hknown : ∀ p ∈ s.underWay, m.inFlight[p.uid]? = s.monitor.inFlight[p.uid]?) (d : Direction) :
    ({ s with monitor := m } : Session σ γ).lane d = (s.lane d).update d key f := by
  have hparcel : ∀ p ∈ s.underWay, ({ s with monitor := m } : Session σ γ).parcel p = s.parcel p := by
    intro p hp
    unfold parcel
    rw [← hknown p hp]
  have hqueue : (s.link.channel d).queue.toList.map ({ s with monitor := m } : Session σ γ).parcel =
      (s.link.channel d).queue.toList.map s.parcel :=
    List.map_congr_left fun p hp => hparcel p (mem_underWay_of_queued hp)
  have hagenda : ({ s with monitor := m } : Session σ γ).agenda d = s.agenda d := by
    apply List.filterMap_congr
    intro a ha
    obtain ⟨ticket, e⟩ := a
    cases e with
    | arrival e p =>
      have hp := hparcel p (mem_underWay_of_coming ha rfl)
      simp only [item?, happening?, hp]
    | _ => rfl
  have hrecord : m.flow? (videoFlow .udp d) = (s.monitor.update key f).flow? (videoFlow .udp d) := by
    rw [Monitor.flow?, Monitor.flow?, hflows]
  have hlane : ({ s with monitor := m } : Session σ γ).lane d =
      { s.lane d with record? := m.flow? (videoFlow .udp d) } := by
    unfold lane
    dsimp only
    rw [hfresh, hmax, hqueue, hagenda]
    rfl
  rw [hlane, hrecord, Monitor.flow?_update, Lane.update]
  by_cases hkey : key = videoFlow .udp d
  · rw [if_pos hkey, if_pos hkey]
    rfl
  · rw [if_neg hkey, if_neg hkey]
    rfl

/-- What an event is to a direction stands first in its agenda, and leaves with the event. -/
theorem lane_of_pop? {s : Session σ γ} {now : Instant} {e : Event} {events : EventQueue Event}
    (h : s.events.pop? = some ((now, e), events)) (d : Direction) :
    s.lane d = { (s.advanced events).lane d with
      agenda := ((s.happening? d e).map fun h => (now, h)).toList ++ (s.advanced events).agenda d } := by
  have hagenda : s.agenda d = ((s.happening? d e).map fun h => (now, h)).toList ++
      (s.advanced events).agenda d := by
    obtain ⟨number, hl, _⟩ := EventQueue.toList_of_pop? h
    unfold agenda
    rw [hl, List.filterMap_cons, item?]
    cases s.happening? d e <;> rfl
  rw [← hagenda]
  rfl

end Session

end VideoLink
