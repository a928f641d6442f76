import Mathlib.Tactic.Ring
import VideoLink.Proofs.Session.Delivery
import VideoLink.Proofs.Session.Teardown

/-! A wire never carries more than its rate. The transmissions of a direction do not overlap, so the times
that the packets take add up to no more than the time that has passed, and each packet has dropped less than
a nanosecond of its own. -/
namespace VideoLink

namespace LinkSettings

/-- The time that packets take on a wire, one after another. -/
def airtime (l : LinkSettings) (ps : List Packet) : Nat :=
  weight (fun p => (l.serialization p.size).nanos) ps

theorem airtime_concat (l : LinkSettings) (ps : List Packet) (p : Packet) :
    l.airtime (ps ++ [p]) = l.airtime ps + (l.serialization p.size).nanos := by
  rw [airtime, airtime, weight_append, weight_cons, weight_nil, Nat.add_zero]

theorem bits_le_of_serialization_lt {l : LinkSettings} (hrate : 0 < l.rate) {bytes : Nat}
    (h : (l.serialization bytes).nanos < 0xFFFF_FFFF_FFFF_FFFF) :
    bytes * 8 * nanosPerSecond ≤ l.rate * ((l.serialization bytes).nanos + 1) := by
  have hmax : max l.rate 1 = l.rate := Nat.max_eq_left hrate
  have hexact : (l.serialization bytes).nanos = bytes * 8 * nanosPerSecond / l.rate := by
    unfold serialization at h ⊢
    rw [hmax] at h ⊢
    dsimp only at h ⊢
    omega
  rw [hexact]
  exact (Nat.lt_mul_div_succ _ hrate).le

/-- Packets that took some time together have no more bits than the rate allows, up to a nanosecond each. -/
theorem bits_le_of_airtime_lt {l : LinkSettings} (hrate : 0 < l.rate) {ps : List Packet}
    (h : l.airtime ps < 0xFFFF_FFFF_FFFF_FFFF) :
    weight Packet.size ps * 8 * nanosPerSecond ≤ l.rate * (l.airtime ps + ps.length) := by
  induction ps with
  | nil => exact Nat.zero_le _
  | cons p ps ih =>
    have hsplit : l.airtime (p :: ps) = (l.serialization p.size).nanos + l.airtime ps := rfl
    have hfirst : p.size * 8 * nanosPerSecond ≤ l.rate * ((l.serialization p.size).nanos + 1) :=
      bits_le_of_serialization_lt hrate (by omega)
    have hrest := ih (by omega)
    calc weight Packet.size (p :: ps) * 8 * nanosPerSecond
        = p.size * 8 * nanosPerSecond + weight Packet.size ps * 8 * nanosPerSecond := by
          rw [weight_cons]
          ring
      _ ≤ l.rate * ((l.serialization p.size).nanos + 1) + l.rate * (l.airtime ps + ps.length) :=
          Nat.add_le_add hfirst hrest
      _ = l.rate * (l.airtime (p :: ps) + (p :: ps).length) := by
          rw [hsplit, List.length_cons]
          ring

end LinkSettings

namespace Session

open Deed

variable {σ γ : Type}

theorem packetsDelivered_nextDeeds [Draws σ Nat] [Draws γ Span] {s t : Session σ γ} (h : s.step? = some t)
    (d : Direction) : packetsDelivered (s.nextDeeds d) = (s.nextArrival? d).toList := by
  rw [nextDeeds, h, Option.elim_some]
  simp [packetsDelivered, List.filterMap_map]

/-! The clock of a wire. -/

/-- Of the packets that took a wire in a row, the first `k` have passed within the time so far, and one more is
on the wire if it is busy. Its end comes late enough for all of them, unless the clock cuts it off. -/
structure Clocked (c : Config) (d : Direction) (k : Nat) (ps : List Packet) (s : Session σ γ) :
    Prop where
  count : ps.length = k + (s.link.channel d).busy.toNat
  past : c.link.airtime (ps.take k) ≤ s.events.now.nanos
  last : ∀ ticket, (ticket, Event.wireFree d) ∈ s.events.toList →
    min (c.link.airtime ps) 0xFFFF_FFFF_FFFF_FFFF ≤ ticket.time.nanos

variable {c : Config} {feeds : Duplex (Option (Feed σ γ))} {s t : Session σ γ} {now : Instant}
  {d : Direction} {k : Nat} {ps : List Packet}

theorem Clocked.of_same (hs : Clocked c d k ps s)
    (hbusy : (t.link.channel d).busy = (s.link.channel d).busy)
    (hends : ∀ ticket, (ticket, Event.wireFree d) ∈ t.events.toList →
      (ticket, Event.wireFree d) ∈ s.events.toList) (hnow : s.events.now ≤ t.events.now) :
    Clocked c d k ps t :=
  ⟨by rw [hbusy]; exact hs.count, Nat.le_trans hs.past hnow, fun ticket h => hs.last ticket (hends ticket h)⟩

theorem Clocked.length_of_idle (hs : Clocked c d k ps s)
    (hidle : (s.link.channel d).busy = false) : ps.length = k := by
  have hcount := hs.count
  rwa [hidle] at hcount

/-- A packet takes the wire not before all others have passed. -/
theorem Clocked.started (hs : Clocked c d k ps s) (hsteady : s.Steady c now) {x : Transmission}
    {link : Link} (hstart : s.link.start? d now = some (x, link)) :
    Clocked c d k (ps ++ [x.packet]) (s.started d x link) := by
  obtain ⟨hidle, queue, _, hfinish, _, hlink⟩ := start?_eq_some hstart
  have hlength := hs.length_of_idle hidle
  have hpast := hs.past
  rw [List.take_of_length_le (Nat.le_of_eq hlength)] at hpast
  constructor
  · have hbusy : ((s.started d x link).link.channel d).busy = true := by
      show (link.channel d).busy = true
      rw [hlink, Link.channel_setChannel_self]
      rfl
    rw [List.length_append, hlength, hbusy]
    rfl
  · rw [List.take_left' hlength]
    exact hpast
  · intro ticket hmem
    rcases (hsteady.mem_started hstart).1 hmem with heq | heq | hold
    · cases heq
    · cases heq
      rw [hfinish, Instant.nanos_after, LinkSettings.airtime_concat, hsteady.standing.settings,
        ← hsteady.time]
      omega
    · exact absurd hold (hsteady.exclusive.not_pending hidle ticket)

theorem Clocked.started_of_ne (hs : Clocked c d k ps s) (hsteady : s.Steady c now) {e : Direction}
    (he : d ≠ e) {x : Transmission} {link : Link}
    (hstart : s.link.start? e now = some (x, link)) : Clocked c d k ps (s.started e x link) := by
  obtain ⟨_, queue, _, _, _, hlink⟩ := start?_eq_some hstart
  refine hs.of_same ?_ (fun ticket hmem => ?_) (Nat.le_refl _)
  · show (link.channel d).busy = _
    rw [hlink, Link.channel_setChannel_of_ne _ he]
  · rcases (hsteady.mem_started hstart).1 hmem with heq | heq | hold
    · cases heq
    · cases heq
      exact absurd rfl he
    · exact hold

def nextEnds (s : Session σ γ) (d : Direction) : Nat :=
  s.events.pop?.elim 0 fun a => if a.1.2 = .wireFree d then 1 else 0

theorem nextEnds_of_pop? {e : Event} {events : EventQueue Event}
    (h : s.events.pop? = some ((now, e), events)) (d : Direction) :
    s.nextEnds d = if e = .wireFree d then 1 else 0 := by
  rw [nextEnds, h]
  rfl

theorem Opening.clocked (h : s.Opening now t) {before : Instant} (hsteady : s.Steady c before)
    (hlt : now.nanos < 0xFFFF_FFFF_FFFF_FFFF) (hs : Clocked c d k ps s) :
    Clocked c d (k + s.nextEnds d) ps t := by
  obtain ⟨_, hle, hnow⟩ := h.standing hsteady.standing
  have hends : ∀ ticket, (ticket, Event.wireFree d) ∈ t.events.toList →
      (ticket, Event.wireFree d) ∈ s.events.toList := fun ticket hmem => h.mem_events hmem
  have hlater : s.events.now ≤ t.events.now := hnow ▸ hle
  cases h with
  | tick hpop | due hpop | arrival hpop =>
    rw [nextEnds_of_pop? hpop, if_neg (by simp)]
    exact hs.of_same rfl hends hlater
  | @free e events hpop =>
    rw [nextEnds_of_pop? hpop]
    by_cases he : d = e
    · subst he
      obtain ⟨number, hl, _⟩ := EventQueue.toList_of_pop? hpop
      have hmem : (⟨now, number⟩, Event.wireFree d) ∈ s.events.toList := hl ▸ List.mem_cons_self
      have hbusy : (s.link.channel d).busy = true := by
        by_contra hidle
        exact hsteady.exclusive.not_pending (Bool.eq_false_iff.2 hidle) _ hmem
      have hcount := hs.count
      rw [hbusy, Bool.toNat_true] at hcount
      have hfinish : min (c.link.airtime ps) 0xFFFF_FFFF_FFFF_FFFF ≤ now.nanos := hs.last _ hmem
      rw [if_pos rfl]
      constructor
      · show ps.length = k + 1 + (Link.channel (Link.setChannel ..) d).busy.toNat
        rw [Link.channel_setChannel_self, hcount]
        rfl
      · rw [List.take_of_length_le (Nat.le_of_eq hcount), hnow]
        omega
      · exact fun ticket hmem => hs.last ticket (hends ticket hmem)
    · rw [if_neg fun heq => he (Event.wireFree.inj heq).symm]
      exact hs.of_same (congrArg Channel.busy (Link.channel_setChannel_of_ne _ he _)) hends hlater

theorem coming_of_scheduled (hs : s.events.Orderly) {e : Direction}
    (hevents : t.events = s.events ∨ ∃ time a, (a = .frameTick e ∨ a = .segmentDue e) ∧
      t.events = (s.events.schedule time a).2) : t.coming d = s.coming d := by
  unfold coming
  rcases hevents with heq | ⟨time, a, rfl | rfl, heq⟩ <;> rw [heq]
  · exact hs.filterMap_schedule time rfl
  · exact hs.filterMap_schedule time rfl

variable [Draws σ Nat] [Draws γ Span]

theorem Move.clocked {e : Direction} (h : Move now e s t) (hflowing : s.Flowing c now)
    {arrived : List Packet} (hs : Clocked c d k (arrived ++ s.coming d) s) :
    Clocked c d k (arrived ++ t.coming d) t := by
  have hstanding := hflowing.standing
  have hquiet : s.Quiet t → t.coming d = s.coming d →
      Clocked c d k (arrived ++ t.coming d) t := by
    intro hquiet hcoming
    rw [hcoming]
    exact hs.of_same (hquiet.busy d) (fun ticket => hquiet.ends ticket d) (Nat.le_of_eq
      (congrArg Instant.nanos hquiet.time.symm))
  cases h.route hstanding with
  | kept hbusy _ _ hevents =>
    exact hquiet (hstanding.quiet hbusy hevents) (coming_of_scheduled hstanding.orderly hevents)
  | entered p _ _ _ hlink _ hevents =>
    refine hquiet (hstanding.quiet (d := e) (fun e => by rw [hlink, busy_push]) (.inl hevents)) ?_
    rw [coming, hevents, coming]
  | taken x link hstart heq =>
    rw [heq, hflowing.coming_started hflowing.spaced hstart]
    by_cases he : d = e
    · subst he
      rw [if_pos rfl, ← List.append_assoc]
      exact hs.started hflowing.toSteady hstart
    · rw [if_neg he, List.append_nil]
      exact hs.started_of_ne hflowing.toSteady he hstart

theorem Moves.clocked {e : Direction} (h : Moves now e s t) (hflowing : s.Flowing c now)
    {arrived : List Packet} (hs : Clocked c d k (arrived ++ s.coming d) s) :
    Clocked c d k (arrived ++ t.coming d) t := by
  refine (h.induct (P := fun u => u.Flowing c now ∧ Clocked c d k (arrived ++ u.coming d) u)
    ⟨hflowing, hs⟩ ?_).2
  rintro u v ⟨hu, hc⟩ hmove
  exact ⟨hmove.flowing hu, hmove.clocked hu hc⟩

/-! The run. -/

/-- The ends of transmissions in a direction by the first events. -/
def ends (d : Direction) : Nat → Session σ γ → Nat
  | 0, _ => 0
  | n + 1, s =>
    match s.step? with
    | none => 0
    | some t => s.nextEnds d + ends d n t

/-- The first `k` packets that took the wire of a direction have passed, and no faster than its rate. -/
structure Throttled (c : Config) (d : Direction) (k : Nat) (h : List Deed) (s : Session σ γ) :
    Prop where
  count : (packetsCarried h).length = k + (s.link.channel d).busy.toNat
  time : c.link.airtime ((packetsCarried h).take k) ≤ s.events.now.nanos
  bits : weight Packet.size ((packetsCarried h).take k) * 8 * nanosPerSecond ≤
    c.link.rate * (s.events.now.nanos + ((packetsCarried h).take k).length)
  clock : s.summary? = none → Clocked c d k (packetsCarried h) s

variable {h : List Deed}

omit [Draws σ Nat] [Draws γ Span] in
theorem Clocked.throttled (hs : Clocked c d k (packetsCarried h) s) (hrate : 0 < c.link.rate)
    (hnow : s.events.now.nanos < 0xFFFF_FFFF_FFFF_FFFF) : s.Throttled c d k h := by
  have hbits := LinkSettings.bits_le_of_airtime_lt hrate (Nat.lt_of_le_of_lt hs.past hnow)
  exact ⟨hs.count, hs.past,
    hbits.trans (Nat.mul_le_mul_left _ (Nat.add_le_add_right hs.past _)), fun _ => hs⟩

omit [Draws σ Nat] [Draws γ Span] in
theorem Begins.throttled (hs : s.Begins c feeds) (d : Direction) : s.Throttled c d 0 [] := by
  obtain ⟨_, _, _, _, hu, _⟩ := hs.untouched
  have hclock : Clocked c d 0 (packetsCarried []) s := by
    refine ⟨?_, Nat.zero_le _, fun ticket hmem => ?_⟩
    · rw [hu.link]
      cases d <;> rfl
    · rcases hu.events _ hmem with heq | ⟨_, heq⟩ <;> cases heq
  refine hclock.throttled hs.positive.rate ?_
  rw [hu.now]
  decide

omit [Draws σ Nat] [Draws γ Span] in
theorem Throttled.later (hs : s.Throttled c d k h) (hlink : t.link = s.link)
    (hnow : s.events.now ≤ t.events.now) (hstopped : t.summary? ≠ none) : t.Throttled c d k h :=
  ⟨by rw [hlink]; exact hs.count, Nat.le_trans hs.time hnow,
    hs.bits.trans (Nat.mul_le_mul_left _ (Nat.add_le_add_right hnow _)), fun hgoing => absurd hgoing hstopped⟩

/-- No event but the stop comes as late as the clock can count. -/
theorem Reaches.now_lt_of_pop? (ht : s.Reaches t) (hs : s.Begins c feeds)
    (hrunning : t.summary? = none) {e : Event} {events : EventQueue Event} (he : e ≠ .stop)
    (hpop : t.events.pop? = some ((now, e), events)) : now.nanos < 0xFFFF_FFFF_FFFF_FFFF := by
  rcases ht.time_of_pop? hs hrunning hpop with ⟨hstop, _⟩ | ⟨_, hlt⟩
  · exact absurd hstop he
  · rw [Instant.lt_iff, Instant.nanos_after] at hlt
    omega

theorem Reaches.throttled_of_step? {u : Session σ γ} (ht : s.Reaches t) (hs : s.Begins c feeds)
    (hd : t.Delivers c.transport.mss d h) (hk : t.Throttled c d k h) (hstep : t.step? = some u) :
    u.Throttled c d (k + t.nextEnds d) (h ++ t.nextDeeds d) := by
  obtain ⟨hrunning, now, ⟨a, v, hopen, hmoves⟩ | ⟨events, hpop, rfl⟩⟩ := step_cases hstep
  · obtain ⟨e, hne, hpop, _⟩ := hopen.popped
    have hflowing : t.Flowing c t.events.now := ⟨ht.steady hs hrunning, ht.spaced hs hrunning⟩
    have hlt := ht.now_lt_of_pop? hs hrunning hne hpop
    have hclock := hopen.clocked hflowing.toSteady hlt (hk.clock hrunning)
    -- The packet of an arrival was on its way and has arrived now.
    rw [(hd.now hrunning).wire, coming_of_pop? hpop, ← List.append_assoc] at hclock
    have hmoved := hmoves.clocked (hopen.flowing hflowing) hclock
    have hgoing : u.summary? = none := by
      rw [hmoves.sameSetup.summary?, hopen.sameSetup.summary?, hrunning]
    have hwire := ((ht.delivers_of_step? hs hd hstep).now hgoing).wire
    rw [packetsDelivered_append, packetsDelivered_nextDeeds hstep, nextArrival?_of_pop? hpop] at hwire
    rw [← hwire] at hmoved
    refine hmoved.throttled hs.positive.rate ?_
    obtain ⟨hstanding, _, hnow⟩ := hopen.standing hflowing.standing
    rw [(hmoves.standing hstanding).2, hnow]
    exact hlt
  · rw [nextDeeds_of_stop hpop hstep rfl, List.append_nil, nextEnds_of_pop? hpop, if_neg (by simp), Nat.add_zero]
    obtain ⟨_, _, heq, _⟩ := onStop_eq (t.advanced events) now
    obtain ⟨hle, hnow, _⟩ := (ht.standing hs).orderly.of_pop? hpop
    rw [heq]
    refine hk.later rfl ?_ (by simp)
    show t.events.now ≤ events.now
    rw [hnow]
    exact hle

theorem Reaches.throttled {n : Nat} {u : Session σ γ} (ht : s.Reaches t) (hs : s.Begins c feeds)
    (hd : t.Delivers c.transport.mss d h) (hk : t.Throttled c d k h)
    (hafter : t.afterEvents n = some u) :
    u.Throttled c d (k + t.ends d n) (h ++ t.history d n) := by
  induction n generalizing t h k with
  | zero =>
    cases hafter
    rwa [history, gather, List.append_nil]
  | succ n ih =>
    obtain ⟨v, hstep, hrest⟩ := Option.bind_eq_some_iff.1 hafter
    rw [history, gather_succ _ hstep, ends, hstep]
    dsimp only
    rw [← List.append_assoc, ← Nat.add_assoc]
    exact ih (.tail ht hstep) (ht.delivers_of_step? hs hd hstep)
      (ht.throttled_of_step? hs hd hk hstep) hrest

/-- In every state of a run, whatever is drawn, as many packets as transmissions have ended have passed the wire of
a direction, and only the one on the wire has not. The times that they take add up to no more than the time that
has passed, and so their bits are no more than the rate allows, up to a nanosecond for each packet. -/
theorem wire_carries_at_most_its_rate (hs : s.Begins c feeds) :
    (∀ t, s.Reaches t → ∃ n, (s.note (.started s.directions.length)).afterEvents n = some t) ∧
    ∀ n t, (s.note (.started s.directions.length)).afterEvents n = some t → ∀ d,
      let carried := packetsCarried ((s.note (.started s.directions.length)).history d n)
      let passed := carried.take ((s.note (.started s.directions.length)).ends d n)
      carried.length = (s.note (.started s.directions.length)).ends d n +
        (t.link.channel d).busy.toNat ∧
      weight (fun p => (c.link.serialization p.size).nanos) passed ≤ t.events.now.nanos ∧
      weight Packet.size passed * 8 * nanosPerSecond ≤
        c.link.rate * (t.events.now.nanos + passed.length) := by
  constructor
  · intro t hreach
    obtain ⟨n, hafter, _⟩ := Leads.exists_afterEvents hreach
    exact ⟨n, hafter⟩
  · intro n t hafter d
    have hbegins := hs.note (.started s.directions.length)
    have hfirst : s.Reaches (s.note (.started s.directions.length)) := .refl
    have hthrottled := hfirst.throttled hs (hbegins.delivers d) (hbegins.throttled d) hafter
    rw [List.nil_append, Nat.zero_add] at hthrottled
    exact ⟨hthrottled.count, hthrottled.time, hthrottled.bits⟩

/-- The rate holds as well on a link on which a packet takes most of a second. -/
theorem slow_wire_keeps_its_rate :
    let c := { Config.brief .tcp with duration := .ofSeconds 60, link := ⟨20_000, .ofMillis 1, 3⟩ }
    ∃ s : Session (Constant Nat) (Constant Span), s.Begins c .brief ∧
      ∀ n t, (s.note (.started s.directions.length)).afterEvents n = some t → ∀ d,
        let passed := (packetsCarried ((s.note (.started s.directions.length)).history d n)).take
          ((s.note (.started s.directions.length)).ends d n)
        weight Packet.size passed * 8 * nanosPerSecond ≤
          20_000 * (t.events.now.nanos + passed.length) := by
  intro c
  have hpositive : c.Positive := by constructor <;> decide
  obtain ⟨s, hs⟩ := exists_begins hpositive (by decide) Duplex.brief fun d => by cases d <;> rfl
  obtain ⟨_, hall⟩ := wire_carries_at_most_its_rate hs
  exact ⟨s, hs, fun n t hafter d => (hall n t hafter d).2.2⟩

end Session

end VideoLink
