import VideoLink.Proofs.Session.Ending
import VideoLink.Proofs.Session.Plans

/-! The frames of a run. Whatever the rest of a run does, a direction generates the frames of the timetable
of its source, one after another. So runs whose sources agree generate the same frames, however their
segments fare. -/
namespace VideoLink

variable {σ γ : Type}

/-- From one state of a video to a later one these frames are generated and counted, and no others. -/
structure Generator.Generates [Draws σ Nat] (g : Generator σ γ) (made : List Frame)
    (g' : Generator σ γ) : Prop where
  frames : g.source.frames = made ++ g'.source.frames
  count : g'.source.stats.frames = g.source.stats.frames + made.length
  bytes : g'.source.stats.bytes = g.source.stats.bytes + weight Frame.size made
  stop : g'.source.stop = g.source.stop
  sizes : Draws.take made.length g.source.sizes = (made.map (·.size), g'.source.sizes)

theorem Draws.take_add {α : Type} [Draws σ α] (m n : Nat) (s : σ) : take (m + n) s =
    ((take m s).1 ++ (take n (take m s).2).1, (take n (take m s).2).2) := by
  induction m generalizing s with
  | zero => rw [Nat.zero_add]; rfl
  | succ m ih =>
    rw [Nat.add_right_comm, take]
    dsimp only
    rw [ih]
    rfl

section

variable [Draws σ Nat] {g g' g'' : Generator σ γ}

theorem Generator.Generates.refl (g : Generator σ γ) : g.Generates [] g := ⟨rfl, rfl, rfl, rfl, rfl⟩

theorem Generator.Generates.trans {made made' : List Frame} (h : g.Generates made g')
    (h' : g'.Generates made' g'') : g.Generates (made ++ made') g'' := by
  refine ⟨?_, ?_, ?_, h'.stop.trans h.stop, ?_⟩
  · rw [h.frames, h'.frames, List.append_assoc]
  · rw [h'.count, h.count, List.length_append, Nat.add_assoc]
  · rw [h'.bytes, h.bytes, weight_append, Nat.add_assoc]
  · rw [List.length_append, Draws.take_add, h.sizes, h'.sizes, List.map_append]

/-- Neither a ticket nor what becomes of the segments changes the frames to come. -/
theorem FrameSource.frames_of_unrecorded {s s' : FrameSource σ} {pending? : Option Ticket}
    (h : s'.unrecorded = { s.unrecorded with pending? }) : s'.frames = s.frames :=
  frames_congr (congrArg (·.sizes) h :) (congrArg (·.interval) h :) (congrArg (·.start) h :)
    (congrArg (·.stop) h :) (congrArg (·.nextIndex) h :) (congrArg (·.stopped) h :)

theorem Generator.generates_of_unrecorded
    (h : g'.source.unrecorded = g.source.unrecorded) : g.Generates [] g' :=
  ⟨(FrameSource.frames_of_unrecorded h).symm, (congrArg (·.stats.frames) h :),
    (congrArg (·.stats.bytes) h :), (congrArg (·.stop) h :),
    congrArg (Prod.mk []) (congrArg (·.sizes) h :).symm⟩

theorem Generator.generates_of_emit {now : Instant} (htick : g.source.nextTick? = some now)
    {pending? : Option Ticket}
    (h : g'.source.unrecorded = { (g.source.emit now).2.unrecorded with pending? }) :
    g.Generates [(g.source.emit now).1] g' := by
  refine ⟨?_, (congrArg (·.stats.frames) h :), ?_, (congrArg (·.stop) h :), ?_⟩
  · rw [FrameSource.frames_of_some htick, FrameSource.frames_of_unrecorded h]
    rfl
  · rw [weight_cons, weight_nil]
    exact (congrArg (·.stats.bytes) h :)
  · exact congrArg (Prod.mk _) (congrArg (·.sizes) h :).symm

end

namespace Session

/-- What the first events of a run bring, one after another. -/
def gather [Draws σ Nat] [Draws γ Span] {β : Type} (brings : Session σ γ → List β) :
    Nat → Session σ γ → List β
  | 0, _ => []
  | n + 1, s =>
    match s.step? with
    | none => []
    | some t => brings s ++ gather brings n t

variable [Draws σ Nat] [Draws γ Span] {c : Config} {feeds : Duplex (Option (Feed σ γ))}
  {s t u : Session σ γ} {d : Direction}

theorem gather_succ {β : Type} (brings : Session σ γ → List β) {n : Nat} (h : s.step? = some t) :
    s.gather brings (n + 1) = brings s ++ t.gather brings n := by
  rw [gather, h]

def framesAfter (s : Session σ γ) (d : Direction) (n : Nat) : List Frame :=
  s.gather (fun s => (s.nextFrame? d).toList) n

/-- The frames that the first events of a run generate in a direction. -/
def framesBy (s : Session σ γ) (d : Direction) (n : Nat) : List Frame :=
  (s.note (.started s.directions.length)).framesAfter d n

def framesGenerated (s : Session σ γ) (d : Direction) : List Frame := s.framesBy d s.run.1.processed

theorem framesAfter_succ {n : Nat} (h : s.step? = some t) :
    s.framesAfter d (n + 1) = (s.nextFrame? d).toList ++ t.framesAfter d n := gather_succ _ h

/-! What an event generates. -/

omit [Draws γ Span] in
theorem frames_halted (g : Generator σ γ) : g.halted.source.frames = [] := by
  apply FrameSource.frames_of_none
  cases htick : g.halted.source.nextTick? with
  | none => rfl
  | some time => cases (FrameSource.nextTick?_eq_some.1 htick).1

omit [Draws γ Span] in
theorem Turn.generates (h : Turn d s t) {g : Generator σ γ} (hfound : s.generator? d = some g) :
    ∃ g', t.generator? d = some g' ∧ g.Generates (s.nextFrame? d).toList g' := by
  cases h with
  | rest hnone _ hsame =>
    obtain ⟨g', hfound', hplan⟩ := hsame.exists_generator hfound
    rw [hnone]
    exact ⟨g', hfound', Generator.generates_of_unrecorded (congrArg Prod.fst hplan)⟩
  | @frame _ g₁ g' hg hfound' htick hmade hsource =>
    obtain ⟨_, hunrecorded⟩ := hsource
    rw [hfound, Option.some.injEq] at hg
    subst hg
    rw [hmade]
    exact ⟨g', hfound', Generator.generates_of_emit htick hunrecorded⟩
  | @segment g₁ g' hg hfound' hnone hsource =>
    rw [hfound, Option.some.injEq] at hg
    subst hg
    rw [hnone]
    exact ⟨g', hfound', Generator.generates_of_unrecorded hsource⟩

theorem Reaches.generates_halted (h : s.Reaches t) (hs : s.Begins c feeds)
    (hrunning : t.summary? = none) {now : Instant} {events : EventQueue Event}
    (hpop : t.events.pop? = some ((now, .stop), events)) {g : Generator σ γ}
    (hfound : t.generator? d = some g) (hstop : g.source.stop = Instant.zero.after c.duration) :
    g.Generates [] g.halted := by
  have hnone : g.source.nextTick? = none := by
    cases htick : g.source.nextTick? with
    | none => rfl
    | some time =>
      have hg := (h.planned hs hrunning d).found g hfound
      have hpending := hg.tick
      rw [htick, Option.map_eq_some_iff] at hpending
      obtain ⟨ticket, hticket, rfl⟩ := hpending
      have hmem : (ticket, Event.frameTick d) ∈ t.events.toList := by
        rw [← EventQueue.mem_ticketsOf, hg.ticks, hticket]
        exact List.mem_cons_self
      -- The frame would be before the stop, and the stop is the first of the events.
      obtain ⟨_, hl, _⟩ := EventQueue.toList_of_pop? hpop
      obtain ⟨_, hnow, horderly⟩ := (h.standing hs).orderly.of_pop? hpop
      rw [hl] at hmem
      have hlate : now ≤ ticket.time := by
        rcases List.mem_cons.1 hmem with heq | hrest
        · cases heq
        · exact hnow ▸ horderly.timely _ hrest
      have hbefore := (FrameSource.nextTick?_eq_some.1 htick).2.2.2
      rw [hstop] at hbefore
      rcases h.time_of_pop? hs hrunning hpop with ⟨_, heq⟩ | ⟨hne, _⟩
      · exact absurd (heq ▸ hlate) (Nat.not_le_of_lt hbefore)
      · exact absurd rfl hne
  exact ⟨by rw [FrameSource.frames_of_none hnone, frames_halted]; rfl, rfl, rfl, rfl, rfl⟩

theorem Reaches.generates_of_step? (h : s.Reaches t) (hs : s.Begins c feeds)
    (hstep : t.step? = some u) {g : Generator σ γ} (hfound : t.generator? d = some g)
    (hstop : g.source.stop = Instant.zero.after c.duration) :
    ∃ g', u.generator? d = some g' ∧ g.Generates (t.nextFrame? d).toList g' := by
  obtain ⟨hrunning, now, ⟨e, v, hopen, hmoves⟩ | ⟨events, hpop, rfl⟩⟩ := step_cases hstep
  · have hgoing : u.summary? = none := by
      rw [hmoves.sameSetup.summary?, hopen.sameSetup.summary?]
      exact hrunning
    exact ((h.standing hs).turn_of_step? (h.planned hs hrunning d) hstep hgoing).generates hfound
  · have hnone : t.nextFrame? d = none := by
      rw [nextFrame?, hpop]
      rfl
    refine ⟨g.halted, ?_, ?_⟩
    · rw [generator?_onStop, show (t.advanced events).generator? d = some g from hfound,
        Option.map_some]
    · rw [hnone]
      exact h.generates_halted hs hrunning hpop hfound hstop

/-- What a run has generated is what it had to generate at first without what it has to generate still. -/
theorem Reaches.generates (h : s.Reaches t) (hs : s.Begins c feeds) {n : Nat}
    (hafter : t.afterEvents n = some u) {g : Generator σ γ} (hfound : t.generator? d = some g)
    (hstop : g.source.stop = Instant.zero.after c.duration) :
    ∃ g', u.generator? d = some g' ∧ g.Generates (t.framesAfter d n) g' := by
  induction n generalizing t g with
  | zero =>
    cases hafter
    exact ⟨g, hfound, .refl g⟩
  | succ n ih =>
    obtain ⟨v, hstep, hrest⟩ := Option.bind_eq_some_iff.1 hafter
    obtain ⟨g₁, hfound₁, hfirst⟩ := h.generates_of_step? hs hstep hfound hstop
    obtain ⟨g₂, hfound₂, hothers⟩ := ih (.tail h hstep) hrest hfound₁ (hfirst.stop.trans hstop)
    rw [framesAfter_succ hstep]
    exact ⟨g₂, hfound₂, hfirst.trans hothers⟩

/-! The run. -/

theorem Begins.afterEvents_processed (hs : s.Begins c feeds) :
    (s.note (.started s.directions.length)).afterEvents s.run.1.processed = some s.run.2 := by
  obtain ⟨last, hlast, hstops, hsummary⟩ := hs.run_stops
  obtain ⟨n, hafter, hcount⟩ := Leads.exists_afterEvents (.tail hlast hstops.step)
  obtain ⟨now, events, _, hstop⟩ := hstops.stop
  obtain ⟨_, _, heq, _⟩ := onStop_eq (last.advanced events) now
  have hzero : (s.note (.started s.directions.length)).processed = 0 := hs.stopAlone.2
  have hprocessed : s.run.1.processed = s.run.2.processed := by
    rw [hstop, heq, Option.some.injEq] at hsummary
    rw [← hsummary, hstop, heq]
  rw [hprocessed, hcount, hzero, Nat.zero_add]
  exact hafter

/-- A run generates in each direction the frames of the timetable of its source, and counts them. -/
theorem Begins.framesGenerated_eq (hs : s.Begins c feeds) {feed : Feed σ γ}
    (hfeed : feeds.get d = some feed) :
    s.framesGenerated d = (Generator.idle c d feed none).source.frames ∧
    ∃ g, s.run.2.generator? d = some g ∧
      g.source.stats.frames = (s.framesGenerated d).length ∧
      g.source.stats.bytes = weight Frame.size (s.framesGenerated d) := by
  obtain ⟨_, _, _, _, _, hgen⟩ := hs.untouched
  obtain ⟨pending?, hfound⟩ := hgen d
  rw [hfeed, Option.map_some] at hfound
  have hfirst : s.Reaches (s.note (.started s.directions.length)) := .refl
  obtain ⟨g, hg, hgenerates⟩ := hfirst.generates hs hs.afterEvents_processed hfound rfl
  have hover : g.source.frames = [] := by
    obtain ⟨last, _, hstops, _⟩ := hs.run_stops
    obtain ⟨now, events, _, hstop⟩ := hstops.stop
    rw [hstop, generator?_onStop, Option.map_eq_some_iff] at hg
    obtain ⟨g', _, rfl⟩ := hg
    exact frames_halted g'
  have hframes := hgenerates.frames
  have hcount := hgenerates.count
  have hbytes := hgenerates.bytes
  rw [hover, List.append_nil] at hframes
  refine ⟨?_, g, hg, ?_, ?_⟩
  · exact hframes.symm.trans (FrameSource.frames_congr rfl rfl rfl rfl rfl rfl)
  · exact hcount.trans (Nat.zero_add _)
  · exact hbytes.trans (Nat.zero_add _)

theorem Begins.indices_framesGenerated (hs : s.Begins c feeds) {feed : Feed σ γ}
    (hfeed : feeds.get d = some feed) :
    (s.framesGenerated d).map (·.index) = List.range
      (min UInt32.size ((Instant.zero.after c.duration).nanos ⌈/⌉ c.frameInterval.nanos)) ∧
    ∀ f ∈ s.framesGenerated d, f.time.nanos = f.index * c.frameInterval.nanos := by
  obtain ⟨hframes, _⟩ := hs.framesGenerated_eq hfeed
  obtain ⟨hindex, _, htime⟩ := FrameSource.frames_spec (s := (Generator.idle c d feed none).source)
    hs.positive.frameInterval rfl
  rw [hframes]
  refine ⟨?_, fun f hf => (htime f hf).trans (Nat.zero_add _)⟩
  rw [hindex, List.range_eq_range']
  rfl

/-! Two runs. -/

theorem sizes_of_feed? {c : Config} {d : Direction} {feed : Feed FrameSizes GapTimes}
    (h : c.feed? d = .ok (some feed)) :
    FrameSizes.new? c.quality.scale c.quality.shape c.maxFrame (c.directionSeed d) = .ok feed.sizes := by
  unfold Config.feed? at h
  split at h
  · obtain ⟨sizes, hsizes, h⟩ := ok_of_bind h
    dsimp only at h
    split at h <;> obtain ⟨gaps?, _, h⟩ := ok_of_bind h <;> cases h <;> exact hsizes
  · cases h

/-- What a direction generates depends on the seed, the quality, the greatest frame, the interval and the
duration, and on nothing else that a run is told. As far as there are indices, a frame comes at each multiple of
the interval before the end. -/
theorem frames_depend_on_the_video_alone {settings settings' : Settings} {c c' : Config}
    (hc : settings.check = .ok c) (hc' : settings'.check = .ok c')
    {s s' : Session FrameSizes GapTimes} (hs : build? c = .ok s) (hs' : build? c' = .ok s')
    {d : Direction} (hvideo : c.hasVideo d = true) (hvideo' : c'.hasVideo d = true)
    (hseed : c'.seed = c.seed) (hquality : c'.quality = c.quality) (hmaxFrame : c'.maxFrame = c.maxFrame)
    (hinterval : c'.frameInterval = c.frameInterval) (hduration : c'.duration = c.duration) :
    s'.framesGenerated d = s.framesGenerated d ∧
    (s.framesGenerated d).map (·.index) = List.range
      (min UInt32.size ((Instant.zero.after c.duration).nanos ⌈/⌉ c.frameInterval.nanos)) ∧
    (∀ f ∈ s.framesGenerated d, f.time.nanos = f.index * c.frameInterval.nanos) ∧
    ∃ g g', s.run.2.generator? d = some g ∧ s'.run.2.generator? d = some g' ∧
      g.source.stats.frames = (s.framesGenerated d).length ∧
      g.source.stats.bytes = weight Frame.size (s.framesGenerated d) ∧
      g'.source.stats.frames = g.source.stats.frames ∧
      g'.source.stats.bytes = g.source.stats.bytes := by
  obtain ⟨feeds, hbegins, hfeeds⟩ := begins_of_build? (Settings.positive_of_check hc) hs
  obtain ⟨feeds', hbegins', hfeeds'⟩ := begins_of_build? (Settings.positive_of_check hc') hs'
  rw [← hbegins.video d, Option.isSome_iff_exists] at hvideo
  rw [← hbegins'.video d, Option.isSome_iff_exists] at hvideo'
  obtain ⟨feed, hfeed⟩ := hvideo
  obtain ⟨feed', hfeed'⟩ := hvideo'
  have hsizes : feed'.sizes = feed.sizes := by
    have hnew := sizes_of_feed? ((hfeeds d).trans (congrArg Except.ok hfeed))
    have hnew' := sizes_of_feed? ((hfeeds' d).trans (congrArg Except.ok hfeed'))
    have hdirection : c'.directionSeed d = c.directionSeed d := by
      cases d <;> simp only [Config.directionSeed, hseed]
    rw [hquality, hmaxFrame, hdirection, hnew] at hnew'
    exact (Except.ok.inj hnew').symm
  obtain ⟨hindex, htime⟩ := hbegins.indices_framesGenerated hfeed
  obtain ⟨hframes, g, hg, hcount, hbytes⟩ := hbegins.framesGenerated_eq hfeed
  obtain ⟨hframes', g', hg', hcount', hbytes'⟩ := hbegins'.framesGenerated_eq hfeed'
  have hsame : s'.framesGenerated d = s.framesGenerated d := by
    rw [hframes, hframes']
    exact FrameSource.frames_congr hsizes hinterval rfl (congrArg Instant.zero.after hduration) rfl rfl
  rw [hsame] at hcount' hbytes'
  exact ⟨hsame, hindex, htime, g, g', hg, hg', hcount, hbytes, hcount'.trans hcount.symm, hbytes'.trans hbytes.symm⟩

/-- A run over TCP with paced segments generates the three frames of one over UDP without. -/
theorem pacing_changes_no_frame : ∃ s s', build? (.brief .udp) = .ok s ∧ build? (.paced .tcp) = .ok s' ∧
    ∀ d, s'.framesGenerated d = s.framesGenerated d ∧ (s.framesGenerated d).map (·.index) = [0, 1, 2] := by
  obtain ⟨s, hs⟩ : ∃ s, build? (.brief .udp) = .ok s := ⟨_, rfl⟩
  obtain ⟨s', hs'⟩ : ∃ s, build? (.paced .tcp) = .ok s := ⟨_, rfl⟩
  refine ⟨s, s', hs, hs', fun d => ?_⟩
  have hvideo : (Config.brief .udp).hasVideo d = true ∧ (Config.paced .tcp).hasVideo d = true := by
    cases d <;> exact ⟨rfl, rfl⟩
  have hthree : (Instant.zero.after (Config.brief .udp).duration).nanos ⌈/⌉
      (Config.brief .udp).frameInterval.nanos = 3 := by
    rw [Nat.ceilDiv_eq_add_pred_div]
    rfl
  obtain ⟨hsame, hindex, _⟩ := frames_depend_on_the_video_alone (Settings.check_brief .udp)
    (Settings.check_paced .tcp) hs hs' hvideo.1 hvideo.2 rfl rfl rfl rfl rfl
  rw [hthree] at hindex
  exact ⟨hsame, hindex⟩

end Session

end VideoLink
