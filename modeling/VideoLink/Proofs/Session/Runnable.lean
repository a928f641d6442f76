import VideoLink.CommandLine
import VideoLink.Proofs.Numeric.Normal
import VideoLink.Proofs.Report.Document
import VideoLink.Proofs.Session.Begins

/-! What a check lets pass can be run. The parts of a run look at their own settings again, after these have
been converted, and none of them finds fault with settings that passed. Only the histograms may have more
bins than there can be counters. -/
namespace VideoLink

theorem Span.le_longest_of_ofFloatSeconds? {seconds : Float} {d : Span}
    (h : ofFloatSeconds? seconds = some d) : d.nanos ≤ longest.nanos := by
  unfold ofFloatSeconds? at h
  split at h
  · dsimp only at h
    split at h
    · cases h
    · rename_i hlimit
      cases h
      exact Nat.le_of_not_lt fun hlt => hlimit (.inr hlt)
  · cases h

/-- Gaps of a positive length, with a shape that their distribution takes. -/
structure JitterSettings.Positive (j : JitterSettings) : Prop where
  shape : isPositive j.shape = true
  scale : 0 < j.scale.nanos
  scale_le : j.scale.nanos ≤ Span.longest.nanos

namespace Settings

theorem positive_of_jitter? {s : Settings} {j : JitterSettings} (h : s.jitter? = .ok (some j)) :
    j.Positive := by
  unfold jitter? at h
  split at h
  · dsimp only at h
    split at h
    · rename_i span hspan
      split at h
      · rename_i hvalid
        rw [Bool.and_eq_true, decide_eq_true_eq] at hvalid
        cases h
        exact ⟨hvalid.1, hvalid.2, Span.le_longest_of_ofFloatSeconds? hspan⟩
      · cases h
    · cases h
  · cases h

end Settings

/-- The parameters of the distributions are positive and finite. -/
structure Feed.Lawful (feed : Feed FrameSizes GapTimes) : Prop where
  sizeScale : isPositive feed.sizes.law.scale = true
  sizeShape : isPositive feed.sizes.law.shape = true
  gapScale : ∀ gaps, feed.gaps? = some gaps → isPositive gaps.law.scale = true
  gapShape : ∀ gaps, feed.gaps? = some gaps → isPositive gaps.law.shape = true

theorem Quality.isPositive_scale (q : Quality) : isPositive q.scale = true := by
  cases q <;> decide +kernel

theorem Quality.isPositive_shape (q : Quality) : isPositive q.shape = true := by
  cases q <;> decide +kernel

theorem GapTimes.exists_of_positive {j : JitterSettings} (h : j.Positive) (limit : Span)
    (seed : UInt64) : ∃ gaps, new? j limit seed = .ok gaps ∧
      isPositive gaps.law.scale = true ∧ isPositive gaps.law.shape = true := by
  have hscale := Span.isPositive_inSeconds h.scale h.scale_le
  unfold new?
  dsimp only
  rw [if_pos (by rw [h.shape, (Bool.and_eq_true_iff.1 hscale).2]; rfl)]
  exact ⟨_, rfl, hscale, h.shape⟩

theorem FrameSizes.exists_of_positive (q : Quality) {limit : Nat} (h : 0 < limit) (seed : UInt64) :
    ∃ sizes, new? q.scale q.shape limit seed = .ok sizes ∧
      isPositive sizes.law.scale = true ∧ isPositive sizes.law.shape = true := by
  unfold new?
  rw [if_pos (by rw [q.isPositive_scale, q.isPositive_shape]; rfl), dif_pos h]
  exact ⟨_, rfl, q.isPositive_scale, q.isPositive_shape⟩

namespace Config

variable {c : Config}

theorem exists_feed? (hc : c.Positive) (hjitter : ∀ j, c.jitter? = some j → j.Positive)
    (d : Direction) :
    ∃ feed?, c.feed? d = .ok feed? ∧ ∀ feed, feed? = some feed → feed.Lawful := by
  unfold feed?
  split
  · obtain ⟨sizes, hsizes, hscale, hshape⟩ :=
      FrameSizes.exists_of_positive c.quality hc.maxFrame (c.directionSeed d)
    dsimp only
    rw [hsizes]
    cases hj : c.jitter? with
    | none =>
      refine ⟨_, rfl, ?_⟩
      rintro _ ⟨⟩
      exact ⟨hscale, hshape, by rintro _ ⟨⟩, by rintro _ ⟨⟩⟩
    | some j =>
      obtain ⟨gaps, hgaps, hgapScale, hgapShape⟩ :=
        GapTimes.exists_of_positive (hjitter j hj) c.frameInterval (c.directionSeed d)
      dsimp only
      rw [hgaps]
      refine ⟨_, rfl, ?_⟩
      rintro _ ⟨⟩
      exact ⟨hscale, hshape, by rintro _ ⟨⟩; exact hgapScale, by rintro _ ⟨⟩; exact hgapShape⟩
  · exact ⟨none, rfl, by rintro _ ⟨⟩⟩

theorem lawful_of_feed? (hc : c.Positive) (hjitter : ∀ j, c.jitter? = some j → j.Positive)
    {d : Direction} {feed : Feed FrameSizes GapTimes} (h : c.feed? d = .ok (some feed)) :
    feed.Lawful := by
  obtain ⟨feed?, hfeed, hlawful⟩ := exists_feed? hc hjitter d
  rw [h] at hfeed
  cases hfeed
  exact hlawful feed rfl

theorem exists_build? (hc : c.Positive) (hbins : c.monitor.bins ≤ Histogram.mostBins)
    (hjitter : ∀ j, c.jitter? = some j → j.Positive) : ∃ s, Session.build? c = .ok s := by
  obtain ⟨monitor, hm⟩ := Session.exists_monitor hc hbins
  obtain ⟨segmenter, hg⟩ := Session.exists_segmenter hc
  obtain ⟨up, hup, -⟩ := exists_feed? hc hjitter .uplink
  obtain ⟨down, hdown, -⟩ := exists_feed? hc hjitter .downlink
  unfold Session.build?
  rw [hm, hg, hup, hdown]
  exact ⟨_, rfl⟩

theorem build?_of_mostBins_lt (hc : c.Positive) (hbins : Histogram.mostBins < c.monitor.bins) :
    Session.build? c = .error (.histogram .capacityOverflow) := by
  have hdelays : Histogram.new? c.monitor.delayBinWidth c.monitor.bins = .error .capacityOverflow := by
    unfold Histogram.new?
    rw [dif_pos hc.delayBinWidth, dif_pos hc.bins, if_neg (Nat.not_le.2 hbins)]
  unfold Session.build? Monitor.new?
  rw [hdelays]
  rfl

end Config

namespace Settings

variable {settings : Settings} {c : Config}

theorem jitter_positive_of_check (h : settings.check = .ok c) (j : JitterSettings)
    (hj : c.jitter? = some j) : j.Positive := by
  apply positive_of_jitter? (s := settings)
  rw [jitter?_of_check h, hj]

theorem exists_build?_of_check (h : settings.check = .ok c) (hbins : settings.bins ≤ Histogram.mostBins) :
    ∃ s, Session.build? c = .ok s := by
  rw [← bins_of_check h] at hbins
  exact Config.exists_build? (positive_of_check h) hbins (jitter_positive_of_check h)

theorem build?_of_check_of_mostBins_lt (h : settings.check = .ok c) (hbins : Histogram.mostBins < settings.bins) :
    Session.build? c = .error (.histogram .capacityOverflow) := by
  rw [← bins_of_check h] at hbins
  exact Config.build?_of_mostBins_lt (positive_of_check h) hbins

end Settings

/-! Reports. -/

/-- The numbers that the report of a run has to tell: those of each flow in the order in which the flows were first
seen, those of the video in each direction, and the counters of the whole run. -/
def Session.figures {σ γ : Type} (s : Session σ γ) : List (List Nat) :=
  (s.monitor.flows.mapIdx fun i (key, record) => FlowEntry.figures ⟨i + 1, key, record⟩).flatten ++
    Direction.all.flatMap (fun d => (s.generator? d).elim [] fun g =>
      [g.source.stats.figures, g.socket.stats.figures]) ++
    [[s.monitor.unattributed, (s.link.stats .uplink).drops + (s.link.stats .downlink).drops, s.monitor.inFlight.size,
      s.summary?.elim 0 Summary.discarded, s.capture.count]]

theorem Session.figures_report {σ γ : Type} (s : Session σ γ) : s.report.figures = s.figures := by
  have hgenerators : (Direction.all.filterMap s.generatorReport?).flatMap GeneratorReport.figures =
      Direction.all.flatMap fun d =>
        (s.generator? d).elim [] fun g => [g.source.stats.figures, g.socket.stats.figures] := by
    rw [List.filterMap_eq_flatMap_toList, List.flatMap_assoc]
    congr 1
    funext d
    unfold generatorReport?
    cases s.generator? d <;> simp [GeneratorReport.figures]
  unfold Report.figures figures report
  rw [hgenerators]
  congr 2
  rw [List.flatMap_def]
  congr 1
  apply List.ext_getElem
  · simp [Monitor.snapshot]
  · simp [Monitor.snapshot]

/-! Calls. -/

namespace Options

theorem bins_set? {o o' : Options} {name value : String} (h : o.set? name value = some o') :
    o'.settings.bins = o.settings.bins := by
  unfold set? at h
  dsimp only at h
  split at h
  all_goals first
    | cases h
    | obtain ⟨x, -, rfl⟩ := Option.map_eq_some_iff.1 h
      rfl

theorem bins_setFlag? {o o' : Options} {name : String} (h : o.setFlag? name = some o') :
    o'.settings.bins = o.settings.bins := by
  unfold setFlag? at h
  split at h <;> cases h <;> rfl

end Options

namespace Command

theorem bins_of_readFrom {o o' : Options} {seen arguments : List String}
    (h : readFrom o seen arguments = some (.run o')) : o'.settings.bins = o.settings.bins := by
  fun_induction readFrom o seen arguments
  case case1 =>
    cases h
    rfl
  case case2 =>
    cases h
    rfl
  case case7 ih =>
    obtain ⟨next, hnext, hrest⟩ := Option.bind_eq_some_iff.1 h
    rw [ih next hrest, Options.bins_set? hnext]
  case case8 hnext _ ih => rw [ih h, Options.bins_setFlag? hnext]
  case case10 ih =>
    obtain ⟨next, hnext, hrest⟩ := Option.bind_eq_some_iff.1 h
    rw [ih next hrest, Options.bins_set? hnext]
  all_goals cases h

theorem bins_of_read? {o : Options} {arguments : List String} (h : read? arguments = some (.run o)) :
    o.settings.bins = MonitorSettings.standard.bins :=
  bins_of_readFrom h

end Command

namespace Options

def shown (o : Options) (c : Config) : String := if o.printConfig then c.text ++ "\n" else ""

def readReport? (o : Options) (written : String) : Option (List (List Nat)) :=
  if o.json then readJson? written else some (readText written)

theorem readReport?_render (o : Options) (r : Report) : o.readReport? (o.render r) = some r.figures := by
  unfold readReport? render
  split
  · exact r.readJson?_pretty
  · exact congrArg some r.readText_text

theorem execute_of_error {o : Options} {e : ConfigError} (h : o.settings.check = .error e) :
    o.execute = ⟨Outcome.configStatus, "", some s!"error: {e.message}"⟩ := by
  unfold execute
  rw [h]

theorem execute_of_build? {o : Options} {c : Config} {s : Session FrameSizes GapTimes}
    (h : o.settings.check = .ok c) (hs : Session.build? c = .ok s) :
    o.execute = ⟨0, o.shown c ++ o.render s.run.2.report, none⟩ := by
  unfold execute
  rw [h]
  dsimp only
  rw [hs]
  rfl

/-- Settings that pass their check can be run if their histograms have at most `Histogram.mostBins` bins, with
distributions whose parameters are positive and finite. With more bins there is no run, but the command line cannot
ask for that. A call says whether its settings passed: it fails without output if they did not, and succeeds if they
did. What it has written is then read back as the numbers at the end of the run. -/
theorem passing_settings_run_if_bins_fit (settings : Settings) (o : Options) :
    (∀ c, settings.check = .ok c →
      ((∃ s, Session.build? c = .ok s) ↔ settings.bins ≤ Histogram.mostBins) ∧
      (Histogram.mostBins < settings.bins → Session.build? c = .error (.histogram .capacityOverflow)) ∧
      ∀ d feed, c.feed? d = .ok (some feed) → feed.Lawful) ∧
    (∀ arguments, Command.read? arguments = some (.run o) → o.settings.bins ≤ Histogram.mostBins) ∧
    (o.settings.bins ≤ Histogram.mostBins →
      (o.execute.status = 2 ∧ o.execute.output = "" ↔ ∃ e, o.settings.check = .error e) ∧
      (∀ e, o.settings.check = .error e → o.execute = ⟨2, "", some s!"error: {e.message}"⟩) ∧
      ∀ c, o.settings.check = .ok c → ∃ s written, Session.build? c = .ok s ∧
        o.execute = ⟨0, o.shown c ++ written, none⟩ ∧ o.readReport? written = some s.run.2.figures) := by
  refine ⟨?_, ?_, ?_⟩
  · intro c h
    refine ⟨⟨?_, Settings.exists_build?_of_check h⟩, Settings.build?_of_check_of_mostBins_lt h,
      fun d feed hfeed => Config.lawful_of_feed? (Settings.positive_of_check h) (Settings.jitter_positive_of_check h)
        hfeed⟩
    rintro ⟨s, hs⟩
    by_contra hbins
    rw [Settings.build?_of_check_of_mostBins_lt h (Nat.not_le.1 hbins)] at hs
    cases hs
  · intro arguments h
    rw [Command.bins_of_read? h]
    decide
  · intro hbins
    have hok : ∀ c, o.settings.check = .ok c → ∃ s written, Session.build? c = .ok s ∧
        o.execute = ⟨0, o.shown c ++ written, none⟩ ∧ o.readReport? written = some s.run.2.figures := by
      intro c h
      obtain ⟨s, hs⟩ := Settings.exists_build?_of_check h hbins
      refine ⟨s, o.render s.run.2.report, hs, execute_of_build? h hs, ?_⟩
      rw [readReport?_render, Session.figures_report]
    refine ⟨⟨?_, ?_⟩, fun e => execute_of_error, hok⟩
    · rintro ⟨hstatus, -⟩
      cases h : o.settings.check with
      | error e => exact ⟨e, rfl⟩
      | ok c =>
        -- Settings that passed give status zero.
        obtain ⟨s, written, -, hexecute, -⟩ := hok c h
        rw [hexecute] at hstatus
        cases hstatus
    · rintro ⟨e, h⟩
      rw [execute_of_error h]
      exact ⟨rfl, rfl⟩

/-- A call without arguments writes a report, there is no video of quality zero, and paced video can be run. -/
theorem standard_call_runs :
    (∃ c s written, Command.read? [] = some (.run standard) ∧ standard.settings.check = .ok c ∧
      Session.build? c = .ok s ∧ standard.execute = ⟨0, written, none⟩ ∧ readText written = s.run.2.figures) ∧
    (∃ s, Session.build? (.paced .tcp) = .ok s) ∧
    ({ standard with settings := { quality := 0 } } : Options).execute =
      ⟨2, "", some "error: video quality 0 is invalid, expected 1 through 6"⟩ := by
  have harguments : Command.read? [] = some (.run standard) := by rw [Command.read?, Command.readFrom]
  obtain ⟨hbuild, hbins, hcalls⟩ := passing_settings_run_if_bins_fit (.paced .tcp) standard
  obtain ⟨-, -, hok⟩ := hcalls (hbins [] harguments)
  obtain ⟨-, -, hwrong⟩ := passing_settings_run_if_bins_fit {} { standard with settings := { quality := 0 } }
  obtain ⟨-, herror, -⟩ := hwrong (by decide)
  obtain ⟨hpaced, -, -⟩ := hbuild _ (Settings.check_paced .tcp)
  refine ⟨?_, hpaced.2 (by decide), herror (.invalidQuality 0) rfl⟩
  have hpasses : standard.settings.check.toBool = true := by decide +kernel
  cases h : standard.settings.check with
  | error e =>
    rw [h] at hpasses
    cases hpasses
  | ok c =>
    obtain ⟨s, written, hs, hexecute, hread⟩ := hok c h
    have hshown : standard.shown c = "" := rfl
    rw [hshown, String.empty_append] at hexecute
    have hjson : standard.json = false := rfl
    simp only [readReport?, hjson, Bool.false_eq_true, if_false, Option.some_inj] at hread
    exact ⟨c, s, written, harguments, rfl, hs, hexecute, hread⟩

/-- Settings with the greatest number of bins pass their check and cannot be run. -/
theorem settings_of_most_bins_do_not_run : ∃ c,
    ({ Settings.brief .tcp with bins := UInt64.size - 1 } : Settings).check = .ok c ∧
      ¬ ∃ s, Session.build? c = .ok s := by
  have hpos : 0 < UInt64.size - 1 := by decide
  have hcheck := Settings.check_bins .tcp hpos
  refine ⟨_, hcheck, ?_⟩
  rintro ⟨s, hs⟩
  rw [Settings.build?_of_check_of_mostBins_lt hcheck (by decide)] at hs
  cases hs

end Options

end VideoLink
