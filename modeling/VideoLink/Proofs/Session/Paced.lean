import VideoLink.Proofs.Session.Frames
import VideoLink.Proofs.Session.Ledger

/-! Paced segments. In every state of a run the segments that were handed to a socket and those that wait in
its pacer are the segments of the frames so far, in their order. As long as one waits exactly one is
scheduled, less than the time between two frames from when it was scheduled. -/
namespace VideoLink

theorem Draws.mem_take_succ {σ α : Type} [Draws σ α] {n : Nat} {s : σ} {a : α} :
    a ∈ (take (n + 1) s).1 ↔ a = (draw s).1 ∨ a ∈ (take n (draw s).2).1 := List.mem_cons

def GapsBelow {γ : Type} [Draws γ Span] (limit : Span) (gaps : γ) : Prop :=
  ∀ n, ∀ gap ∈ (Draws.take n gaps).1, gap < limit

theorem GapsBelow.draw {γ : Type} [Draws γ Span] {limit : Span} {gaps : γ} (h : GapsBelow limit gaps) :
    (Draws.draw gaps : Span × γ).1 < limit ∧ GapsBelow limit (Draws.draw gaps : Span × γ).2 :=
  ⟨h 1 _ (Draws.mem_take_succ.2 (.inl rfl)),
    fun n gap hgap => h (n + 1) gap (Draws.mem_take_succ.2 (.inr hgap))⟩

theorem GapTimes.limit_draw (g : GapTimes) : g.draw.2.limit = g.limit := by
  unfold draw
  generalize Draws.retry _ _ _ _ = r
  rfl

theorem GapTimes.gapsBelow (g : GapTimes) (pos : 0 < g.limit.nanos) : GapsBelow g.limit g := by
  intro n
  induction n generalizing g with
  | zero =>
    intro gap hgap
    cases hgap
  | succ n ih =>
    intro gap hgap
    rcases Draws.mem_take_succ.1 hgap with rfl | hrest
    · exact g.draw_lt pos
    · rw [← g.limit_draw] at pos ⊢
      exact ih g.draw.2 pos gap hrest

namespace Session

variable {σ γ : Type} {c : Config} {feeds : Duplex (Option (Feed σ γ))} {s t u : Session σ γ}
  {d : Direction}

/-- The segments of every direction are paced, by gaps below the time between two frames. -/
def AllPaced [Draws γ Span] (limit : Span) (s : Session σ γ) : Prop :=
  ∀ d g, s.generator? d = some g → ∃ pacer, g.pacer? = some pacer ∧ GapsBelow limit pacer.gaps

theorem Begins.allPaced [Draws γ Span] {limit : Span} (hs : s.Begins c feeds)
    (hgaps : ∀ d feed, feeds.get d = some feed → ∃ gaps, feed.gaps? = some gaps ∧ GapsBelow limit gaps) :
    s.AllPaced limit := by
  obtain ⟨_, _, _, _, _, hgen⟩ := hs.untouched
  intro d g hfound
  obtain ⟨pending?, hd⟩ := hgen d
  rw [hfound] at hd
  obtain ⟨feed, hfeed, rfl⟩ := Option.map_eq_some_iff.1 hd.symm
  obtain ⟨gaps, hsome, hbelow⟩ := hgaps d feed hfeed
  exact ⟨_, by rw [Generator.idle, hsome]; rfl, hbelow⟩

variable [Draws σ Nat] [Draws γ Span] {now : Instant}

theorem Move.allPaced {limit : Span} (h : Move now d s t) (hs : s.AllPaced limit) :
    t.AllPaced limit := by
  cases h with
  | note | start => exact hs
  | frame hfound hunpaced =>
    obtain ⟨pacer, hpaced, _⟩ := hs _ _ hfound
    rw [hunpaced] at hpaced
    cases hpaced
  | paced hfound hpaced =>
    obtain ⟨_, hsome, hbelow⟩ := hs _ _ hfound
    rw [hpaced, Option.some.injEq] at hsome
    exact forall_setGenerator hs ⟨_, rfl, hsome ▸ hbelow⟩
  | @segment _ _ g pacer rest _ _ _ hfound hpaced htake | @noSegment _ _ g pacer rest hfound hpaced htake =>
    obtain ⟨_, hsome, hbelow⟩ := hs _ _ hfound
    rw [hpaced, Option.some.injEq] at hsome
    obtain ⟨hgaps, _⟩ := Pacer.of_take htake
    exact forall_setGenerator hs ⟨_, rfl, by rw [hgaps, hsome]; exact hbelow⟩
  | @armPacer _ _ g pacer rest time? events hfound hpaced harm =>
    obtain ⟨_, hsome, hbelow⟩ := hs _ _ hfound
    rw [hpaced, Option.some.injEq] at hsome
    refine forall_setGenerator hs ⟨rest, rfl, ?_⟩
    rcases pacer.arm_eq s.events now (.segmentDue d) with ⟨_, heq⟩ | ⟨_, _, heq⟩ <;>
      rw [heq] at harm <;> cases harm
    · exact hsome ▸ hbelow
    · exact (hsome ▸ hbelow).draw.2
  | armSource hfound | load _ hfound | count hfound | answer hfound | refuse hfound =>
    have hg := hs _ _ hfound
    exact forall_setGenerator hs hg

theorem Reaches.allPaced {limit : Span} (h : s.Reaches t) (hs : s.Begins c feeds)
    (hgaps : ∀ d feed, feeds.get d = some feed → ∃ gaps, feed.gaps? = some gaps ∧ GapsBelow limit gaps)
    (hrunning : t.summary? = none) : t.AllPaced limit := by
  refine h.induct_moves hs hrunning ((hs.note _).allPaced hgaps) ?_ fun _ _ hu hmove => hmove.allPaced hu
  intro u v now _ hu hopen d g hfound
  obtain ⟨_, _, _, hgen⟩ := hopen.popped
  rw [generator?, hgen] at hfound
  exact hu d g hfound

/-! When a segment is due. -/

def DueSoon (limit : Span) (now : Instant) (d : Direction) (s t : Session σ γ) : Prop :=
  ∀ ticket ∈ t.events.ticketsOf (.segmentDue d), ticket ∈ s.events.ticketsOf (.segmentDue d) ∨
    now ≤ ticket.time ∧ ticket.time.nanos < now.nanos + limit.nanos

theorem Move.dueSoon {limit : Span} {e : Direction} (h : Move now e s t) (hs : s.Standing c)
    (hnow : s.events.now = now) (hpaced : s.AllPaced limit) : DueSoon limit now d s t := by
  intro ticket hticket
  have horderly := hs.orderly
  cases h with
  | @armPacer _ _ g pacer rest time? events hfound hsome harm =>
    rcases pacer.arm_eq s.events now (.segmentDue e) with ⟨_, heq⟩ | ⟨_, _, heq⟩ <;>
      rw [heq] at harm <;> cases harm
    · exact .inl hticket
    · obtain ⟨_, hpacer, hbelow⟩ := hpaced _ _ hfound
      rw [hsome, Option.some.injEq] at hpacer
      have hgap := Span.lt_iff.1 (hpacer ▸ hbelow).draw.1
      refine (horderly.mem_ticketsOf_schedule hticket).imp id ?_
      rintro ⟨_, rfl⟩
      rw [hnow, Instant.latest_of_le (Instant.le_after now _), Instant.nanos_after]
      exact ⟨Instant.le_after now _, by omega⟩
  | armSource _ harm =>
    obtain ⟨_, _, rfl | ⟨time, rfl⟩⟩ := FrameSource.arm_cases harm
    · exact .inl hticket
    · refine (horderly.mem_ticketsOf_schedule hticket).imp id ?_
      rintro ⟨htick, _⟩
      cases htick
  | @start _ _ x link =>
    rcases (horderly.schedule x.finish (.wireFree e)).mem_ticketsOf_schedule hticket with hfree | ⟨h, _⟩
    · refine (horderly.mem_ticketsOf_schedule hfree).imp id ?_
      rintro ⟨hwire, _⟩
      cases hwire
    · cases h
  | _ => exact .inl hticket

/-- Each segment that an event schedules is due before the limit has passed. -/
theorem dueSoon_of_step? {limit : Span} (hs : s.Standing c) (hpaced : s.AllPaced limit)
    (hstep : s.step? = some t) (hrunning : t.summary? = none) : DueSoon limit t.events.now d s t := by
  obtain ⟨now, e, v, hopen, hmoves⟩ := opening_of_step? hstep hrunning
  obtain ⟨a, _, hpop, hgen⟩ := hopen.popped
  obtain ⟨hv, _, hnow⟩ := hopen.standing hs
  have hopened : DueSoon limit now d s v := by
    intro ticket hticket
    obtain ⟨_, htickets⟩ := EventQueue.ticketsOf_of_pop? hpop
    rw [htickets]
    exact .inl (List.mem_append_right _ hticket)
  have hvpaced : v.AllPaced limit := by
    intro d g hfound
    rw [generator?, hgen] at hfound
    exact hpaced d g hfound
  obtain ⟨⟨_, hsoon⟩, _, hclock⟩ := hmoves.induct_standing (P := fun w => w.AllPaced limit ∧
    DueSoon limit now d s w) hv hnow ⟨hvpaced, hopened⟩ (by
      rintro w x hw hwnow ⟨hwpaced, hwsoon⟩ hmove
      refine ⟨hmove.allPaced hwpaced, fun ticket hticket => ?_⟩
      rcases hmove.dueSoon hw hwnow hwpaced ticket hticket with hold | hnew
      · exact hwsoon ticket hold
      · exact .inr hnew)
  rw [hclock]
  exact hsoon

/-! What is handed to the socket. -/

def handedAfter (s : Session σ γ) (d : Direction) (n : Nat) : List Nat :=
  s.gather (fun s => s.nextHanded d) n

/-- The segments that the first events of a run hand to the socket of a direction. -/
def handedBy (s : Session σ γ) (d : Direction) (n : Nat) : List Nat :=
  (s.note (.started s.directions.length)).handedAfter d n

theorem handedAfter_succ {n : Nat} (h : s.step? = some t) :
    s.handedAfter d (n + 1) = s.nextHanded d ++ t.handedAfter d n := gather_succ _ h

omit [Draws γ Span] in
theorem Turn.segments_eq (h : Turn d s t) (hs : s.Standing c) {g : Generator σ γ}
    (hfound : s.generator? d = some g) : ∃ g', t.generator? d = some g' ∧
      s.nextHanded d ++ g'.waiting =
        g.waiting ++ (s.nextFrame? d).toList.flatMap fun f => pieces c.maxSegment f.size := by
  have hsizes : ∀ n, s.segmenter.sizes n = pieces c.maxSegment n := fun n => by
    rw [Segmenter.sizes, hs.limit]
  cases h with
  | rest hnone hhanded hsame =>
    obtain ⟨g', hfound', hplan⟩ := hsame.exists_generator hfound
    refine ⟨g', hfound', ?_⟩
    rw [hnone, hhanded, Generator.waiting_of_plan hplan]
    exact (List.append_nil _).symm
  | @frame _ g₁ g' hg hfound' _ hmade _ hsegments =>
    rw [hfound, Option.some.injEq] at hg
    subst hg
    refine ⟨g', hfound', ?_⟩
    rw [hsegments, hmade, hsizes, Option.toList_some, List.flatMap_singleton]
  | @segment g₁ g' hg hfound' hnone _ hsegments =>
    rw [hfound, Option.some.injEq] at hg
    subst hg
    refine ⟨g', hfound', ?_⟩
    rw [hsegments, hnone]
    exact (List.append_nil _).symm

/-- Up to a state of a run no segment is lost, doubled or overtaken. -/
theorem Reaches.segments_eq (h : s.Reaches t) (hs : s.Begins c feeds) {n : Nat}
    (hafter : t.afterEvents n = some u) (hrunning : u.summary? = none) {g : Generator σ γ}
    (hfound : t.generator? d = some g) : ∃ g', u.generator? d = some g' ∧
      t.handedAfter d n ++ g'.waiting =
        g.waiting ++ (t.framesAfter d n).flatMap fun f => pieces c.maxSegment f.size := by
  induction n generalizing t g with
  | zero =>
    cases hafter
    exact ⟨g, hfound, (List.append_nil _).symm⟩
  | succ n ih =>
    obtain ⟨v, hstep, hrest⟩ := Option.bind_eq_some_iff.1 hafter
    have hgoing : v.summary? = none := by
      cases n with
      | zero =>
        cases hrest
        exact hrunning
      | succ n =>
        obtain ⟨_, hnext, _⟩ := Option.bind_eq_some_iff.1 hrest
        exact (step?_eq_some hnext).1
    have hplanned := h.planned hs (step?_eq_some hstep).1 d
    have hturn := (h.standing hs).turn_of_step? hplanned hstep hgoing
    obtain ⟨g₁, hfound₁, hfirst⟩ := hturn.segments_eq (h.standing hs) hfound
    obtain ⟨g₂, hfound₂, hothers⟩ := ih (.tail h hstep) hrest hfound₁
    refine ⟨g₂, hfound₂, ?_⟩
    rw [handedAfter_succ hstep, framesAfter_succ hstep, List.flatMap_append, List.append_assoc, hothers,
      ← List.append_assoc, hfirst, List.append_assoc]

/-- The counters of a video count its frames so far and the segments that went to its socket. -/
theorem Begins.counted (hs : s.Begins c feeds) {n : Nat}
    (hafter : (s.note (.started s.directions.length)).afterEvents n = some t)
    (hrunning : t.summary? = none) {g : Generator σ γ} (hfound : t.generator? d = some g) :
    s.handedBy d n ++ g.waiting = (s.framesBy d n).flatMap (fun f => pieces c.maxSegment f.size) ∧
    g.source.stats.frames = (s.framesBy d n).length ∧
    g.source.stats.bytes = weight Frame.size (s.framesBy d n) ∧
    g.source.stats.segments + g.source.stats.failed = (s.handedBy d n).length ∧
    g.source.stats.failedBytes + g.socket.unsent +
      ((t.monitor.record (videoFlow c.transport.protocol d)).sent.bytes -
        c.transport.protocol.overhead *
          (t.monitor.record (videoFlow c.transport.protocol d)).sent.packets) =
      weight id (s.handedBy d n) := by
  -- The two histories are named to keep the terms small.
  obtain ⟨made, hmade⟩ : ∃ made, made = s.framesBy d n := ⟨_, rfl⟩
  obtain ⟨handed, hhanded⟩ : ∃ handed, handed = s.handedBy d n := ⟨_, rfl⟩
  rw [← hmade, ← hhanded]
  obtain ⟨_, _, _, _, _, hgen⟩ := hs.untouched
  have hreach : s.Reaches t := leads_of_afterEvents hafter
  obtain ⟨feed, hfeed, hl⟩ := hreach.balanced hs hrunning d g hfound
  obtain ⟨pending?, hfirst⟩ := hgen d
  rw [hfeed, Option.map_some] at hfirst
  have hstart : s.Reaches (s.note (.started s.directions.length)) := .refl
  obtain ⟨_, hg, hgenerates⟩ := hstart.generates hs hafter hfirst rfl
  rw [← framesBy, ← hmade] at hgenerates
  rw [hfound, Option.some.injEq] at hg
  subst hg
  obtain ⟨_, hg, hsegments⟩ := hstart.segments_eq hs hafter hrunning hfirst
  rw [hfound, Option.some.injEq] at hg
  subst hg
  have hwaiting : (Generator.idle c d feed pending?).waiting = [] := by
    rw [Generator.waiting, Generator.idle]
    cases feed.gaps? <;> rfl
  rw [hwaiting, List.nil_append, ← framesBy, ← handedBy, ← hmade, ← hhanded] at hsegments
  have hcount : g.source.stats.frames = made.length := hgenerates.count.trans (Nat.zero_add _)
  have hbytes : g.source.stats.bytes = weight Frame.size made := hgenerates.bytes.trans (Nat.zero_add _)
  have hdrawn : (Draws.take g.source.stats.frames feed.sizes).1 = made.map (·.size) := by
    rw [hcount]
    exact congrArg Prod.fst hgenerates.sizes
  have hlength := congrArg List.length hsegments
  have hweight := congrArg (weight id) hsegments
  rw [List.length_append, length_flatMap_pieces hs.positive.maxSegment] at hlength
  rw [weight_append, weight_flatMap_pieces] at hweight
  have hsum := hl.segments
  have hbalance := hl.bytes
  rw [hdrawn, weight_map] at hsum
  exact ⟨hsegments, hcount, hbytes, by omega, by omega⟩

/-! Checked configurations. -/

theorem gaps_of_feed? {c : Config} (hc : c.Positive) (hjitter : c.jitter?.isSome) {d : Direction}
    {feed : Feed FrameSizes GapTimes} (h : c.feed? d = .ok (some feed)) :
    ∃ gaps, feed.gaps? = some gaps ∧ GapsBelow c.frameInterval gaps := by
  obtain ⟨jitter, hjitter⟩ := Option.isSome_iff_exists.1 hjitter
  unfold Config.feed? at h
  split at h
  · obtain ⟨sizes, _, h⟩ := ok_of_bind h
    rw [hjitter] at h
    obtain ⟨gaps?, hgaps, h⟩ := ok_of_bind h
    cases h
    cases hnew : GapTimes.new? jitter c.frameInterval (c.directionSeed d) with
    | error e =>
      rw [hnew] at hgaps
      cases hgaps
    | ok gaps =>
      rw [hnew] at hgaps
      cases hgaps
      have hlimit : gaps.limit = c.frameInterval := by
        unfold GapTimes.new? at hnew
        dsimp only at hnew
        split at hnew <;> cases hnew
        rfl
      have hbelow := gaps.gapsBelow (by rw [hlimit]; exact hc.frameInterval)
      rw [hlimit] at hbelow
      exact ⟨gaps, rfl, hbelow⟩
  · cases h

/-- Paced segments neither get stuck nor lost, doubled or reordered. Between any two events before the stop a
segment is scheduled, once and under the ticket of the pacer, if and only if one waits there. What an event has
scheduled is due before the time between two frames has passed. The segments that went to the socket, followed
by those that wait, are those of the frames so far. -/
theorem paced_segments_go_on_in_order {settings : Settings} {c : Config} (hc : settings.check = .ok c)
    (hjitter : c.jitter?.isSome = true) {s : Session FrameSizes GapTimes} (hs : build? c = .ok s)
    {n : Nat} {t : Session FrameSizes GapTimes}
    (hafter : (s.note (.started s.directions.length)).afterEvents n = some t)
    (hrunning : t.summary? = none) {d : Direction} (hvideo : c.hasVideo d = true) :
    ∃ g pacer, t.generator? d = some g ∧ g.pacer? = some pacer ∧
      t.events.ticketsOf (.segmentDue d) = pacer.pending?.toList ∧
      (pacer.pending?.isSome ↔ pacer.queued.toList ≠ []) ∧
      (∀ u, t.step? = some u → u.summary? = none → ∀ ticket ∈ u.events.ticketsOf (.segmentDue d),
        ticket ∈ t.events.ticketsOf (.segmentDue d) ∨
        u.events.now ≤ ticket.time ∧
          ticket.time.nanos < u.events.now.nanos + c.frameInterval.nanos) ∧
      s.handedBy d n ++ pacer.queued.toList =
        (s.framesBy d n).flatMap (fun f => pieces c.maxSegment f.size) ∧
      g.source.stats.frames = (s.framesBy d n).length ∧
      g.source.stats.bytes = weight Frame.size (s.framesBy d n) ∧
      g.source.stats.segments + g.source.stats.failed = (s.handedBy d n).length ∧
      g.source.stats.failedBytes + g.socket.unsent +
        ((t.monitor.record (videoFlow c.transport.protocol d)).sent.bytes -
          c.transport.protocol.overhead *
            (t.monitor.record (videoFlow c.transport.protocol d)).sent.packets) =
        weight id (s.handedBy d n) := by
  have hpositive := Settings.positive_of_check hc
  obtain ⟨feeds, hbegins, hfeeds⟩ := begins_of_build? hpositive hs
  have hgaps : ∀ d feed, feeds.get d = some feed →
      ∃ gaps, feed.gaps? = some gaps ∧ GapsBelow c.frameInterval gaps := fun d feed hfeed =>
    gaps_of_feed? hpositive hjitter ((hfeeds d).trans (congrArg Except.ok hfeed))
  have hreach : s.Reaches t := leads_of_afterEvents hafter
  have hstanding := hreach.standing hbegins
  have hallPaced := hreach.allPaced hbegins hgaps hrunning
  rw [← hstanding.video d, Option.isSome_iff_exists] at hvideo
  obtain ⟨g, hfound⟩ := hvideo
  obtain ⟨pacer, hpaced, _⟩ := hallPaced d g hfound
  have hg := (hreach.planned hbegins hrunning d).found g hfound
  have htickets := hg.dues
  rw [hpaced, Option.bind_some] at htickets
  have hdue : pacer.pending?.isSome ↔ pacer.queued.toList ≠ [] := by
    rw [← Option.ne_none_iff_isSome]
    exact not_congr (hg.due pacer hpaced)
  have hcounted := hbegins.counted hafter hrunning hfound
  rw [Generator.waiting, hpaced, Option.elim_some] at hcounted
  exact ⟨g, pacer, hfound, hpaced, htickets, hdue,
    fun u hstep hgoing => dueSoon_of_step? hstanding hallPaced hstep hgoing, hcounted⟩

/-- A brief run over TCP has handed on or still holds all segments of its frames when it stops. -/
theorem paced_run_keeps_its_segments : ∃ s n t g pacer, build? (.paced .tcp) = .ok s ∧
    (s.note (.started s.directions.length)).afterEvents n = some t ∧ t.Stops s.run.2 ∧
    t.generator? .downlink = some g ∧ g.pacer? = some pacer ∧
    s.handedBy .downlink n ++ pacer.queued.toList =
      (s.framesBy .downlink n).flatMap (fun f => pieces standardMaxSegment f.size) := by
  obtain ⟨s, hs⟩ : ∃ s, build? (.paced .tcp) = .ok s := ⟨_, rfl⟩
  have hc := Settings.check_paced .tcp
  obtain ⟨_, hbegins, _⟩ := begins_of_build? (Settings.positive_of_check hc) hs
  obtain ⟨last, hlast, hstops, _⟩ := hbegins.run_stops
  obtain ⟨n, hafter, _⟩ := Leads.exists_afterEvents hlast
  obtain ⟨g, pacer, hfound, hpaced, _, _, _, hsegments, _⟩ :=
    paced_segments_go_on_in_order hc rfl hs hafter hstops.running (d := .downlink) rfl
  exact ⟨s, n, last, g, pacer, hs, hafter, hstops, hfound, hpaced, hsegments⟩

end Session

end VideoLink
