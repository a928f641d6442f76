import VideoLink.Proofs.Session.Begins

/-! Configurations in which only one direction has video. The feed of that direction stays the same. -/
namespace VideoLink

namespace Config

/-- The configuration with no video but that of one direction. -/
def only (c : Config) (d : Direction) : Config :=
  { c with
    uplink := c.uplink && d = .uplink
    downlink := c.downlink && d = .downlink }

theorem hasVideo_only (c : Config) (d : Direction) : (c.only d).hasVideo d = c.hasVideo d := by
  cases d <;> simp [only, hasVideo]

theorem hasVideo_only_of_ne (c : Config) {d e : Direction} (h : e ≠ d) :
    (c.only d).hasVideo e = false := by
  cases d <;> cases e <;> first | exact absurd rfl h | simp [only, hasVideo]

theorem feed?_only (c : Config) (d : Direction) : (c.only d).feed? d = c.feed? d := by
  unfold feed?
  rw [hasVideo_only]
  rfl

theorem feed?_only_of_ne (c : Config) {d e : Direction} (h : e ≠ d) :
    (c.only d).feed? e = .ok none := by
  unfold feed?
  rw [hasVideo_only_of_ne c h]
  rfl

theorem Positive.only {c : Config} (h : c.Positive) (d : Direction) : (c.only d).Positive :=
  ⟨h.duration, h.frameInterval, h.rate, h.capacity, h.maxSegment, h.maxFrame, h.mss, h.bufferBytes,
    h.ackEvery, h.bins, h.delayBinWidth, h.jitterBinWidth⟩

end Config

theorem Session.exists_build?_only {c : Config} (hc : c.Positive)
    {s : Session FrameSizes GapTimes} (h : build? c = .ok s) (d : Direction) :
    ∃ s', build? (c.only d) = .ok s' := by
  obtain ⟨feeds, hbegins, hfeeds⟩ := begins_of_build? hc h
  obtain ⟨monitor, segmenter, _, hm, hg, _⟩ := hbegins.state
  have hfeeds' : ∀ e, ∃ feed?, (c.only d).feed? e = .ok feed? := by
    intro e
    by_cases he : e = d
    · subst he
      exact ⟨feeds.get e, (c.feed?_only e).trans (hfeeds e)⟩
    · exact ⟨none, c.feed?_only_of_ne he⟩
  obtain ⟨up, hup⟩ := hfeeds' .uplink
  obtain ⟨down, hdown⟩ := hfeeds' .downlink
  have hm' : Monitor.new? (c.only d).monitor = .ok monitor := hm
  have hg' : Segmenter.new? (c.only d).maxSegment = .ok segmenter := hg
  unfold build?
  rw [hm', hg', hup, hdown]
  exact ⟨_, rfl⟩

end VideoLink
