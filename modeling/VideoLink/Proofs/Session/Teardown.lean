import VideoLink.Proofs.Session.Accounts
import VideoLink.Proofs.Session.Ending
import VideoLink.Proofs.Session.Plans

/-! What the stop leaves behind. It withdraws the frames and the paced segments to come, so that every event
it drops frees a wire or brings a packet, and the packets under way tell how many there are. No time on
record is that of the stop. -/
namespace VideoLink

/-! Times on record. -/

def Traffic.Until (now : Instant) (t : Traffic) : Prop :=
  ∀ time, t.first? = some time ∨ t.last? = some time → time ≤ now

theorem Traffic.Until.later {now now' : Instant} {t : Traffic} (h : t.Until now) (hle : now ≤ now') :
    t.Until now' := fun time htime => Nat.le_trans (h time htime) hle

theorem Traffic.Until.add {now : Instant} {t : Traffic} (h : t.Until now) (bytes : Nat) :
    (t.add bytes now).Until now := by
  rintro time (hfirst | hlast)
  · unfold Traffic.add at hfirst
    cases hold : t.first? with
    | none =>
      rw [hold] at hfirst
      cases hfirst
      exact Nat.le_refl _
    | some first =>
      rw [hold] at hfirst
      cases hfirst
      exact h _ (.inl hold)
  · cases hlast
    exact Nat.le_refl _

/-- No packet of a flow was counted after `now`, neither at its sender nor at its receiver. -/
def Monitor.Until (now : Instant) (m : Monitor) : Prop :=
  ∀ k, (m.record k).sent.Until now ∧ (m.record k).received.Until now

theorem Monitor.Until.later {now now' : Instant} {m : Monitor} (h : m.Until now) (hle : now ≤ now') :
    m.Until now' := fun k => ⟨(h k).1.later hle, (h k).2.later hle⟩

theorem Monitor.Until.giveUp {now : Instant} {m : Monitor} (h : m.Until now) (time : Instant) :
    (m.giveUp time).2.Until now := by
  intro k
  rw [m.record_giveUp]
  exact h k

theorem Monitor.length_giveUp (m : Monitor) (now : Instant) :
    m.underWay.length = (m.giveUp now).1 + (m.giveUp now).2.inFlightCount := by
  rw [underWay, List.length_map, inFlightCount, ← Std.TreeMap.length_toList, toList_giveUp]
  exact List.length_eq_length_filter_add fun a : Nat × InFlight => m.isOverdue now a.2

theorem Monitor.record_of_mem_snapshot {m : Monitor} (h : m.keys.Nodup) {flow : FlowEntry}
    (hflow : flow ∈ m.snapshot.flows) : m.record flow.key = flow.record := by
  obtain ⟨i, hi, rfl⟩ := List.mem_mapIdx.1 hflow
  exact record_of_mem h (List.getElem_mem hi)

def Event.isOfLink : Event → Bool
  | .wireFree _ | .arrival _ _ => true
  | _ => false

theorem Event.length_filter_isOfLink (l : List (Ticket × Event)) :
    (l.filter (·.2.isOfLink)).length =
      l.countP (·.2 = .wireFree .uplink) + l.countP (·.2 = .wireFree .downlink) +
        (l.filterMap (·.2.packet?)).length := by
  have hone : ∀ e : Event, (if e.isOfLink then 1 else 0) =
      (if decide (e = .wireFree .uplink) then 1 else 0) +
        (if decide (e = .wireFree .downlink) then 1 else 0) + if e.packet?.isSome then 1 else 0 := by
    intro e
    cases e with
    | wireFree d => cases d <;> rfl
    | _ => rfl
  rw [← List.countP_eq_length_filter, List.length_filterMap_eq_countP]
  induction l with
  | nil => rfl
  | cons a l ih =>
    have ha := hone a.2
    simp only [List.countP_cons]
    omega

namespace Session

variable {σ γ : Type} {c : Config} {feeds : Duplex (Option (Feed σ γ))} {s t : Session σ γ}
  {now : Instant} {events : EventQueue Event}

theorem Traced.until (h : Traced c now s t) (hs : s.monitor.Until now) : t.monitor.Until now := by
  cases h with
  | kept _ hmonitor | dropped _ hmonitor =>
    rw [hmonitor]
    exact hs
  | sent p _ _ _ hmonitor =>
    intro k
    rw [hmonitor, Monitor.record_send]
    split
    · exact ⟨(hs p.flow).1.add p.size, (hs p.flow).2⟩
    · exact hs k

theorem Opening.until (h : s.Opening now t) (hstanding : s.Standing c) (ha : s.Accounted c)
    (hs : s.monitor.Until s.events.now) : t.monitor.Until now := by
  obtain ⟨_, hle, _⟩ := h.standing hstanding
  have hlater := hs.later hle
  cases h with
  | tick | due | free => exact hlater
  | @arrival d p events hpop =>
    obtain ⟨sentAt, hknown, hpast⟩ := ha.known_of_pop? hstanding hpop
    intro k
    show ((s.monitor.receive p.flow p.uid p.size now).2.record k).sent.Until now ∧
      ((s.monitor.receive p.flow p.uid p.size now).2.record k).received.Until now
    rw [Monitor.record_receive_of_known hknown hpast]
    split
    · exact ⟨(hlater k).1, (hlater k).2.add p.size⟩
    · exact hlater k

variable [Draws σ Nat] [Draws γ Span]

/-- Nothing on record is later than the clock. -/
theorem Reaches.until (h : s.Reaches t) (hs : s.Begins c feeds) (hrunning : t.summary? = none) :
    t.monitor.Until t.events.now := by
  have hfirst : (s.note (.started s.directions.length)).monitor.Until
      (s.note (.started s.directions.length)).events.now := by
    obtain ⟨monitor, _, hm, _, hu, _⟩ := (hs.note (.started s.directions.length)).untouched
    obtain ⟨delays, jitters, _, _, rfl⟩ := Monitor.of_new? hm
    rw [hu.monitor]
    intro k
    constructor <;> rintro time (hnone | hnone) <;> cases hnone
  refine (h.induct_moves (P := fun t => t.Accounted c ∧ t.monitor.Until t.events.now) hs hrunning
    ⟨(hs.note _).accounted, hfirst⟩ ?_ ?_).2
  · rintro u v now hstanding ⟨ha, hu⟩ hopen
    obtain ⟨_, _, hnow⟩ := hopen.standing hstanding
    exact ⟨hopen.accounted ha hstanding, hnow ▸ hopen.until hstanding ha hu⟩
  · rintro u v now d hstanding hnow ⟨ha, hu⟩ hmove
    have htraced := hmove.traced hstanding
    obtain ⟨_, hclock⟩ := hmove.orderly hstanding.orderly
    refine ⟨htraced.accounted ha hstanding hnow hclock, ?_⟩
    rw [hclock, hnow]
    exact htraced.until (hnow ▸ hu)

theorem Reaches.now_lt (h : s.Reaches t) (hs : s.Begins c feeds) (hrunning : t.summary? = none) :
    t.events.now < Instant.zero.after c.duration := by
  -- The event that left last was not the stop, since the run goes on.
  rcases Relation.ReflTransGen.cases_tail h with rfl | ⟨u, hreach, hstep⟩
  · obtain ⟨_, _, _, _, hu, _⟩ := hs.untouched
    have hpos := hs.positive.duration
    show s.events.now < _
    rw [hu.now, Instant.lt_iff, Instant.nanos_after]
    show 0 < min (0 + c.duration.nanos) _
    omega
  · obtain ⟨now, d, v, hopen, hmoves⟩ := opening_of_step? hstep hrunning
    have hreach : s.Reaches u := hreach
    obtain ⟨hv, _, hnow⟩ := hopen.standing (hreach.standing hs)
    obtain ⟨_, hclock⟩ := hmoves.standing hv
    obtain ⟨a, hne, hpop, _⟩ := hopen.popped
    rcases hreach.time_of_pop? hs (step?_eq_some hstep).1 hpop with ⟨rfl, _⟩ | ⟨_, hlt⟩
    · exact absurd rfl hne
    · rw [hclock, hnow]
      exact hlt

/-! The events that are dropped. -/

section

omit [Draws σ Nat] [Draws γ Span]

def silenced (s : Session σ γ) : Session σ γ := (s.stopGenerator .uplink).stopGenerator .downlink

theorem silenced_eq (s : Session σ γ) : ∃ events journal, s.silenced = { s with
    events
    journal
    generators := s.generators.map (Option.map Generator.halted) } := by
  obtain ⟨events, journal, hup, _⟩ := s.stopGenerator_eq .uplink
  obtain ⟨events', journal', hdown, _⟩ := (s.stopGenerator .uplink).stopGenerator_eq .downlink
  refine ⟨events', journal', ?_⟩
  rw [silenced, hdown, hup]
  rfl

theorem summary?_onStop (s : Session σ γ) (now : Instant) : (s.onStop now).summary? =
    some ⟨now, s.processed, s.silenced.events.pending, (s.monitor.giveUp now).1⟩ := by
  obtain ⟨events, journal, heq⟩ := s.silenced_eq
  show (s.silenced.conclude now).summary? = _
  rw [heq]
  rfl

/-- The end of a direction's video withdraws its events and no others. -/
theorem toList_stopGenerator {d : Direction} (hs : s.Planned d) : (s.stopGenerator d).events.toList =
    (s.events.toList.filter (·.2 ≠ .frameTick d)).filter (·.2 ≠ .segmentDue d) := by
  unfold stopGenerator
  cases hfound : s.generator? d with
  | none =>
    obtain ⟨hticks, hdues⟩ := hs.absent hfound
    have hother : ∀ e, s.events.ticketsOf e = [] → ∀ a ∈ s.events.toList, a.2 ≠ e := by
      rintro e hnone ⟨ticket, _⟩ ha rfl
      exact List.ne_nil_of_mem (EventQueue.mem_ticketsOf.2 ha) hnone
    rw [List.filter_filter, List.filter_eq_self.2]
    intro a ha
    simpa using ⟨hother _ hdues a ha, hother _ hticks a ha⟩
  | some g =>
    have hg := hs.found g hfound
    obtain ⟨q, hq⟩ : ∃ q, q = g.source.pending?.elim s.events s.events.cancel := ⟨_, rfl⟩
    have htick : q.toList = s.events.toList.filter (·.2 ≠ .frameTick d) :=
      hq ▸ EventQueue.toList_withdraw hg.ticks
    -- The pacer withdraws its segment when the frame has left, which took no ticket of the pacer along.
    have hdues := (EventQueue.ticketsOf_withdraw htick (by simp)).trans hg.dues
    have hdue := EventQueue.toList_withdraw hdues
    rw [htick] at hdue
    rw [← hdue, hq]
    cases hpaced : g.pacer? <;> simp only [hpaced, FrameSource.halt, Pacer.stop] <;> rfl

theorem samePlan_stopGenerator {d e : Direction} (hs : s.Planned e) (hd : d ≠ e) :
    SamePlan d s (s.stopGenerator e) := by
  have hne : ∀ a : Event, a ≠ .frameTick e → a ≠ .segmentDue e →
      (s.stopGenerator e).events.ticketsOf a = s.events.ticketsOf a := by
    intro a htick hdue
    rw [EventQueue.ticketsOf, toList_stopGenerator hs, List.filter_filter, List.filter_filter,
      EventQueue.ticketsOf]
    refine congrArg _ (List.filter_congr fun b _ => ?_)
    by_cases hb : b.2 = a
    · simp [hb, htick, hdue]
    · simp [hb]
  refine ⟨?_, hne _ (by simpa using hd) (by simp), hne _ (by simp) (by simpa using hd)⟩
  obtain ⟨_, _, heq, _⟩ := s.stopGenerator_eq e
  rw [heq]
  show ((s.generators.set e _).get d).map _ = _
  rw [Duplex.get_set_of_ne _ hd]
  rfl

theorem toList_silenced (hs : ∀ d, s.Planned d) (hstop : ∀ a ∈ s.events.toList, a.2 ≠ .stop) :
    s.silenced.events.toList = s.events.toList.filter (·.2.isOfLink) := by
  have hdown : (s.stopGenerator .uplink).Planned .downlink :=
    (samePlan_stopGenerator (hs .uplink) (by decide)).planned (hs .downlink)
  rw [silenced, toList_stopGenerator hdown, toList_stopGenerator (hs .uplink), List.filter_filter,
    List.filter_filter, List.filter_filter]
  refine List.filter_congr ?_
  rintro ⟨ticket, e⟩ ha
  have hgoing := hstop _ ha
  cases e with
  | frameTick d | segmentDue d => cases d <;> rfl
  | wireFree | arrival => simp [Event.isOfLink]
  | stop => exact absurd rfl hgoing

end

/-- No event is pending twice under one ticket, so no stop is left when the stop comes. -/
theorem Reaches.ne_stop_of_pop? (h : s.Reaches t) (hs : s.Begins c feeds)
    (hrunning : t.summary? = none) (hpop : t.events.pop? = some ((now, .stop), events)) :
    ∀ a ∈ events.toList, a.2 ≠ .stop := by
  intro a ha hstop
  obtain ⟨number, hl, _⟩ := EventQueue.toList_of_pop? hpop
  have halone := h.stopAlone hs hrunning
  have hsorted := EventQueue.toList_pairwise t.events
  unfold StopAlone at halone
  rw [hl] at halone hsorted
  have hhead := halone _ List.mem_cons_self rfl
  have hrest := halone a (List.mem_cons_of_mem _ ha) hstop
  have hlt := List.rel_of_pairwise_cons hsorted ha
  rw [hhead.trans hrest.symm] at hlt
  exact Std.OrientedCmp.not_lt_of_lt hlt hlt

/-- The events that a stop drops are those of the busy wires and of the packets on their way. -/
theorem Reaches.length_dropped (h : s.Reaches t) (hs : s.Begins c feeds) (hrunning : t.summary? = none)
    (hpop : t.events.pop? = some ((now, .stop), events)) :
    (events.toList.filter (·.2.isOfLink)).length + t.link.queued .uplink + t.link.queued .downlink =
      (t.link.channel .uplink).busy.toNat + (t.link.channel .downlink).busy.toNat +
        (t.monitor.giveUp now).2.inFlightCount + (t.monitor.giveUp now).1 := by
  have hbusy : ∀ d, events.toList.countP (·.2 = .wireFree d) = (t.link.channel d).busy.toNat := by
    intro d
    have hcount := EventQueue.countP_of_pop? hpop fun e => decide (e = .wireFree d)
    rw [← (h.exclusive hs hrunning).busy d, pendingFrees, hcount]
    simp
  have hpackets : events.packets = t.events.packets := by
    rw [EventQueue.packets_of_pop? hpop]
    rfl
  have hunder := (h.accounted hs hrunning).tally.underWay.length_eq
  rw [List.length_map, underWay, List.length_append, Link.queues, List.length_append,
    Fifo.length_toList, Fifo.length_toList, Monitor.length_giveUp _ now] at hunder
  have hsplit := Event.length_filter_isOfLink events.toList
  rw [hbusy, hbusy, ← EventQueue.packets, hpackets] at hsplit
  unfold Link.queued
  omega

/-! The end. -/

/-- What is left of a run when it is over. -/
structure Over (s : Session σ γ) (summary : Summary) : Prop where
  events : s.events.toList = [] ∧ s.events.pending = 0
  /-- A dropped event freed a busy wire or brought a packet that was neither in a queue nor arrived. -/
  discarded : summary.discarded + s.link.queued .uplink + s.link.queued .downlink =
    (s.link.channel .uplink).busy.toNat + (s.link.channel .downlink).busy.toNat +
      s.monitor.snapshot.inFlight + summary.lost
  times : ∀ flow ∈ s.monitor.snapshot.flows, ∀ traffic ∈ [flow.record.sent, flow.record.received],
    ∀ time, traffic.first? = some time ∨ traffic.last? = some time → time < summary.endTime
  closed : ∀ d g, s.generator? d = some g → ∀ bytes, g.socket.send bytes =
    (.error .connectionClosed, g.socket)

theorem Reaches.over_of_pop? (h : s.Reaches t) (hs : s.Begins c feeds) (hrunning : t.summary? = none)
    (hpop : t.events.pop? = some ((now, .stop), events))
    (hdropped : (t.advanced events).silenced.events.toList = events.toList.filter (·.2.isOfLink)) :
    ((t.advanced events).onStop now).Over ⟨now, t.processed + 1,
      (t.advanced events).silenced.events.pending, (t.monitor.giveUp now).1⟩ := by
  obtain ⟨_, _, heq, _⟩ := onStop_eq (t.advanced events) now
  constructor
  · rw [heq]
    have hnone : events.clear.toList = [] := EventQueue.toList_clear events
    exact ⟨hnone, by rw [← EventQueue.length_toList]; exact congrArg List.length hnone⟩
  · rw [heq, ← EventQueue.length_toList, hdropped]
    exact h.length_dropped hs hrunning hpop
  · intro flow hflow traffic htraffic time htime
    rw [heq] at hflow
    have hkeys := Monitor.nodup_keys_giveUp (h.accounted hs hrunning).tally.keys now
    obtain ⟨hsent, hreceived⟩ := (h.until hs hrunning).giveUp now flow.key
    rw [Monitor.record_of_mem_snapshot hkeys hflow] at hsent hreceived
    have hle : time ≤ t.events.now := by
      rcases List.mem_pair.1 htraffic with rfl | rfl
      · exact hsent time htime
      · exact hreceived time htime
    rcases h.time_of_pop? hs hrunning hpop with ⟨_, hnow⟩ | ⟨hne, _⟩
    · rw [hnow]
      exact Nat.lt_of_le_of_lt hle (h.now_lt hs hrunning)
    · exact absurd rfl hne
  · intro d g hfound bytes
    rw [generator?_onStop, Option.map_eq_some_iff] at hfound
    obtain ⟨g', _, rfl⟩ := hfound
    exact if_pos rfl

/-- Nothing survives the stop. When it comes, the frames and the paced segments to come are withdrawn, and
every other event that it drops frees a wire or brings a packet. -/
theorem nothing_survives_the_stop (hs : s.Begins c feeds) :
    (∃ last now events, s.Reaches last ∧ last.events.pop? = some ((now, .stop), events) ∧
      s.run.2 = (last.advanced events).onStop now ∧
      s.run.1.discarded = (last.advanced events).silenced.events.toList.length ∧
      ∀ a ∈ (last.advanced events).silenced.events.toList,
        ∃ d, a.2 = .wireFree d ∨ ∃ p, a.2 = .arrival d p) ∧
    s.run.2.Over s.run.1 := by
  obtain ⟨last, hlast, hstops, hsummary⟩ := hs.run_stops
  obtain ⟨now, events, hpop, hstop⟩ := hstops.stop
  have hrunning := hstops.running
  have hplanned : ∀ d, (last.advanced events).Planned d := by
    intro d
    have hsame : SamePlan d last (last.advanced events) := .of_pop? hpop rfl (by simp) (by simp)
    exact hsame.planned (hlast.planned hs hrunning d)
  have hdropped := toList_silenced hplanned (hlast.ne_stop_of_pop? hs hrunning hpop)
  have hover := hlast.over_of_pop? hs hrunning hpop hdropped
  rw [hstop, summary?_onStop, Option.some.injEq] at hsummary
  rw [← hsummary]
  refine ⟨⟨last, now, events, hlast, hpop, hstop, (EventQueue.length_toList _).symm, ?_⟩, ?_⟩
  · intro a ha
    rw [hdropped] at ha
    obtain ⟨_, hlink⟩ := List.mem_filter.1 ha
    obtain ⟨ticket, e⟩ := a
    cases e with
    | wireFree d => exact ⟨d, .inl rfl⟩
    | arrival d p => exact ⟨d, .inr ⟨p, rfl⟩⟩
    | _ => cases hlink
  · rw [hstop]
    exact hover

theorem brief_run_is_over : ∃ s : Session (Constant Nat) (Constant Span),
    s.Begins (.brief .tcp) .brief ∧ s.run.2.Over s.run.1 := by
  obtain ⟨s, hs⟩ := exists_brief .tcp
  obtain ⟨_, hover⟩ := nothing_survives_the_stop hs
  exact ⟨s, hs, hover⟩

end Session

end VideoLink
