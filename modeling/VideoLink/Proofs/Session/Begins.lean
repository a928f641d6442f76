import Mathlib.Logic.Relation
import VideoLink.Proofs.Measure.Records
import VideoLink.Session.Build

/-! Runs from their beginning. A run begins with a configuration that a check has let pass and with supplies
of any kind, so what is proved of all such runs is proved of all draws. -/
namespace VideoLink

structure Constant (α : Type) where
  value : α

instance {α : Type} : Draws (Constant α) α := ⟨fun s => (s.value, s)⟩

/-- Ten milliseconds of video in both directions. -/
def Config.brief (protocol : Protocol) : Config where
  duration := .ofMillis 10
  link := .standard
  uplink := true
  downlink := true
  capture := false
  quality := .bv1
  frameInterval := .ofMillis 4
  maxSegment := standardMaxSegment
  maxFrame := standardMaxFrame
  jitter? := none
  transport := { TransportSettings.standard with protocol }
  monitor := .standard
  seed := 1

def Settings.brief (protocol : Protocol) : Settings where
  durationSeconds := 0.01
  frameIntervalSeconds := 0.004
  uplink := true
  protocol

def Config.paced (protocol : Protocol) : Config := { Config.brief protocol with jitter? := some .standard }

def Settings.paced (protocol : Protocol) : Settings := { Settings.brief protocol with hasJitter := true }

def Duplex.brief : Duplex (Option (Feed (Constant Nat) (Constant Span))) :=
  ⟨some ⟨⟨7808⟩, some ⟨.ofMillis 1⟩⟩, some ⟨⟨7808⟩, some ⟨.ofMillis 1⟩⟩⟩

structure Config.Positive (c : Config) : Prop where
  duration : 0 < c.duration.nanos
  frameInterval : 0 < c.frameInterval.nanos
  rate : 0 < c.link.rate
  capacity : 0 < c.link.capacity
  maxSegment : 0 < c.maxSegment
  maxFrame : 0 < c.maxFrame
  mss : 0 < c.transport.mss
  bufferBytes : 0 < c.transport.bufferBytes
  ackEvery : 0 < c.transport.ackEvery
  bins : 0 < c.monitor.bins
  delayBinWidth : 0 < c.monitor.delayBinWidth.nanos
  jitterBinWidth : 0 < c.monitor.jitterBinWidth.nanos

theorem Config.positive_brief (protocol : Protocol) : (Config.brief protocol).Positive := by
  cases protocol <;> constructor <;> decide

theorem Config.bins_brief_le (protocol : Protocol) :
    (Config.brief protocol).monitor.bins ≤ Histogram.mostBins := by
  cases protocol <;> decide

theorem ok_of_mapError {ε ε' α : Type} {x : Except ε α} {f : ε → ε'} {a : α}
    (h : x.mapError f = .ok a) : x = .ok a := by
  cases x with
  | error e => cases h
  | ok b => cases h; rfl

namespace Settings

theorem pos_of_positiveSpan {setting : Setting} {seconds : Float} {d : Span}
    (h : positiveSpan setting seconds = .ok d) : 0 < d.nanos := by
  unfold positiveSpan at h
  split at h
  · split at h
    · cases h
      assumption
    · cases h
  · cases h

theorem pos_of_positive {setting : Setting} {value : Nat} {u : Unit}
    (h : positive setting value = .ok u) : 0 < value := by
  unfold positive at h
  split at h
  · cases h
  · omega

/-- What a check has let pass is positive, and has the gaps and the number of bins that the settings ask for. -/
private theorem parts_of_check {s : Settings} {c : Config} (h : s.check = .ok c) :
    c.Positive ∧ s.jitter? = .ok c.jitter? ∧ c.monitor.bins = s.bins := by
  unfold check at h
  obtain ⟨quality, _, h⟩ := ok_of_bind h
  obtain ⟨duration, hduration, h⟩ := ok_of_bind h
  obtain ⟨frameInterval, hinterval, h⟩ := ok_of_bind h
  dsimp only at h
  split at h
  case h_2 => cases h
  obtain ⟨delay, _, h⟩ := ok_of_bind h
  obtain ⟨delayBinWidth, hdelayBin, h⟩ := ok_of_bind h
  obtain ⟨jitterBinWidth, hjitterBin, h⟩ := ok_of_bind h
  obtain ⟨jitter?, hjitter, h⟩ := ok_of_bind h
  obtain ⟨_, hrate, h⟩ := ok_of_bind h
  obtain ⟨_, hcapacity, h⟩ := ok_of_bind h
  obtain ⟨_, hsegment, h⟩ := ok_of_bind h
  obtain ⟨_, hframe, h⟩ := ok_of_bind h
  obtain ⟨_, hmss, h⟩ := ok_of_bind h
  obtain ⟨_, hbuffer, h⟩ := ok_of_bind h
  obtain ⟨_, hack, h⟩ := ok_of_bind h
  obtain ⟨_, hbins, h⟩ := ok_of_bind h
  cases h
  exact ⟨⟨pos_of_positiveSpan hduration, pos_of_positiveSpan hinterval, pos_of_positive hrate,
    pos_of_positive hcapacity, pos_of_positive hsegment, pos_of_positive hframe,
    pos_of_positive hmss, pos_of_positive hbuffer, pos_of_positive hack, pos_of_positive hbins,
    pos_of_positiveSpan hdelayBin, pos_of_positiveSpan hjitterBin⟩, hjitter, rfl⟩

theorem positive_of_check {s : Settings} {c : Config} (h : s.check = .ok c) : c.Positive :=
  (parts_of_check h).1

theorem jitter?_of_check {s : Settings} {c : Config} (h : s.check = .ok c) :
    s.jitter? = .ok c.jitter? :=
  (parts_of_check h).2.1

theorem bins_of_check {s : Settings} {c : Config} (h : s.check = .ok c) : c.monitor.bins = s.bins :=
  (parts_of_check h).2.2

private theorem check_brief_of_jitter (protocol : Protocol) (capture : Bool) {bins : Nat}
    (hbins : positive .binCount bins = .ok ()) {hasJitter : Bool} {jitter? : Option JitterSettings}
    (hjitter : ({ Settings.brief protocol with capture, hasJitter, bins } : Settings).jitter? =
      .ok jitter?) :
    ({ Settings.brief protocol with capture, hasJitter, bins } : Settings).check =
      .ok { Config.brief protocol with
        capture
        jitter?
        monitor := { MonitorSettings.standard with bins } } := by
  have hduration : Span.ofFloatSeconds? 0.01 = some (.ofMillis 10) := by decide +kernel
  have hinterval : Span.ofFloatSeconds? 0.004 = some (.ofMillis 4) := by decide +kernel
  have hdelay : Span.ofFloatSeconds? (10.0 / 1000.0) = some (.ofMillis 10) := by decide +kernel
  have hdelays : Span.ofFloatSeconds? MonitorSettings.standard.delayBinWidth.inSeconds =
      some (.ofMillis 1) := by decide +kernel
  have hjitters : Span.ofFloatSeconds? MonitorSettings.standard.jitterBinWidth.inSeconds =
      some (.ofMillis 1) := by decide +kernel
  unfold check
  rw [hjitter]
  simp only [Settings.brief, positiveSpan, hduration, hinterval, hdelay, hdelays, hjitters, hbins]
  rfl

theorem check_brief (protocol : Protocol) : (Settings.brief protocol).check = .ok (.brief protocol) :=
  check_brief_of_jitter protocol false rfl rfl

theorem check_bins (protocol : Protocol) {bins : Nat} (pos : 0 < bins) :
    ({ Settings.brief protocol with bins } : Settings).check =
      .ok { Config.brief protocol with monitor := { MonitorSettings.standard with bins } } :=
  check_brief_of_jitter protocol false (if_neg (Nat.ne_of_gt pos)) rfl

theorem check_captured (protocol : Protocol) :
    ({ Settings.brief protocol with capture := true, bins := 10 } : Settings).check =
      .ok { Config.brief protocol with
        capture := true
        monitor := { MonitorSettings.standard with bins := 10 } } :=
  check_brief_of_jitter protocol true rfl rfl

theorem check_paced (protocol : Protocol) : (Settings.paced protocol).check = .ok (.paced protocol) := by
  have hscale : Span.ofFloatSeconds? (JitterSettings.standard.scale.inMillis / 1000.0) =
      some ⟨60_227_000⟩ := by decide +kernel
  have hshape : isPositive JitterSettings.standard.shape = true := by decide +kernel
  apply check_brief_of_jitter protocol false rfl
  simp only [jitter?, Settings.brief, if_true, hscale, hshape]
  rfl

end Settings

namespace Session

variable {σ γ : Type}

/-- A run of a configuration before its first event, with one feed for each direction with video. The
journal holds whatever was noted while the run was set up. -/
structure Begins (c : Config) (feeds : Duplex (Option (Feed σ γ))) (s : Session σ γ) : Prop where
  positive : c.Positive
  video : ∀ d, (feeds.get d).isSome = c.hasVideo d
  state : ∃ monitor segmenter journal, Monitor.new? c.monitor = .ok monitor ∧
    Segmenter.new? c.maxSegment = .ok segmenter ∧
    s = { start c monitor segmenter feeds with journal }

theorem Begins.note {c : Config} {feeds : Duplex (Option (Feed σ γ))} {s : Session σ γ}
    (h : s.Begins c feeds) (n : Notice) : (s.note n).Begins c feeds := by
  obtain ⟨monitor, segmenter, journal, hm, hg, rfl⟩ := h.state
  exact ⟨h.positive, h.video, monitor, segmenter, journal.push n, hm, hg, rfl⟩

theorem exists_monitor {c : Config} (hc : c.Positive) (hbins : c.monitor.bins ≤ Histogram.mostBins) :
    ∃ monitor, Monitor.new? c.monitor = .ok monitor := by
  have hhistogram : ∀ width, 0 < width.nanos →
      ∃ h, Histogram.new? width c.monitor.bins = .ok h := by
    intro width hwidth
    unfold Histogram.new?
    rw [dif_pos hwidth, dif_pos hc.bins, if_pos hbins]
    exact ⟨_, rfl⟩
  obtain ⟨delays, hdelays⟩ := hhistogram _ hc.delayBinWidth
  obtain ⟨jitters, hjitters⟩ := hhistogram _ hc.jitterBinWidth
  unfold Monitor.new?
  rw [hdelays, hjitters]
  exact ⟨_, rfl⟩

theorem exists_segmenter {c : Config} (hc : c.Positive) :
    ∃ segmenter, Segmenter.new? c.maxSegment = .ok segmenter := by
  unfold Segmenter.new?
  rw [dif_pos hc.maxSegment]
  exact ⟨_, rfl⟩

/-- Every configuration that may run has a run with any supplies. -/
theorem exists_begins {c : Config} (hc : c.Positive) (hbins : c.monitor.bins ≤ Histogram.mostBins)
    (feeds : Duplex (Option (Feed σ γ))) (hvideo : ∀ d, (feeds.get d).isSome = c.hasVideo d) :
    ∃ s : Session σ γ, s.Begins c feeds := by
  obtain ⟨monitor, hm⟩ := exists_monitor hc hbins
  obtain ⟨segmenter, hg⟩ := exists_segmenter hc
  exact ⟨start c monitor segmenter feeds, hc, hvideo, monitor, segmenter, _, hm, hg, rfl⟩

theorem exists_brief (protocol : Protocol) : ∃ s : Session (Constant Nat) (Constant Span),
    s.Begins (.brief protocol) .brief :=
  exists_begins (Config.positive_brief protocol) (Config.bins_brief_le protocol) _ fun d => by cases d <;> rfl

theorem isSome_of_feed? {c : Config} {d : Direction} {feed? : Option (Feed FrameSizes GapTimes)}
    (h : c.feed? d = .ok feed?) : feed?.isSome = c.hasVideo d := by
  unfold Config.feed? at h
  split at h
  · rename_i hvideo
    obtain ⟨sizes, _, h⟩ := ok_of_bind h
    dsimp only at h
    split at h <;> obtain ⟨gaps?, _, h⟩ := ok_of_bind h <;> cases h <;> exact hvideo.symm
  · rename_i hvideo
    cases h
    exact (Bool.eq_false_iff.2 hvideo).symm

/-- A run that was set up from a checked configuration begins with the feeds of its directions. -/
theorem begins_of_build? {c : Config} (hc : c.Positive) {s : Session FrameSizes GapTimes}
    (h : build? c = .ok s) :
    ∃ feeds, s.Begins c feeds ∧ ∀ d, c.feed? d = .ok (feeds.get d) := by
  unfold build? at h
  obtain ⟨monitor, hm, h⟩ := ok_of_bind h
  obtain ⟨segmenter, hg, h⟩ := ok_of_bind h
  obtain ⟨up, hup, h⟩ := ok_of_bind h
  obtain ⟨down, hdown, h⟩ := ok_of_bind h
  cases h
  have hfeeds : ∀ d, c.feed? d = .ok ((⟨up, down⟩ : Duplex _).get d) := by
    intro d
    cases d with
    | uplink => exact ok_of_mapError hup
    | downlink => exact ok_of_mapError hdown
  exact ⟨⟨up, down⟩, ⟨hc, fun d => isSome_of_feed? (hfeeds d), monitor, segmenter, _,
    ok_of_mapError hm, ok_of_mapError hg, rfl⟩, hfeeds⟩

variable [Draws σ Nat] [Draws γ Span]

/-- Some number of events leads from one state to the other. -/
def Leads : Session σ γ → Session σ γ → Prop :=
  Relation.ReflTransGen fun s t => s.step? = some t

theorem leads_runEvents (s : Session σ γ) : s.Leads s.runEvents ∧ s.runEvents.step? = none := by
  fun_induction runEvents s with
  | case1 s h => exact ⟨.refl, h⟩
  | case2 s t h ih => exact ⟨.head h ih.1, ih.2⟩

/-- A property of the first state that every event preserves is a property of all states. -/
theorem Leads.induct {P : Session σ γ → Prop} {s t : Session σ γ} (h : s.Leads t) (hs : P s)
    (step : ∀ {u v}, P u → u.step? = some v → P v) : P t := by
  induction h with
  | refl => exact hs
  | tail _ hv ih => exact step ih hv

end Session

end VideoLink
