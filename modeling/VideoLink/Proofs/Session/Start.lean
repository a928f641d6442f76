import VideoLink.Proofs.EventQueue.Orderly
import VideoLink.Proofs.Session.Begins
import VideoLink.Proofs.Session.Moves
import VideoLink.Proofs.Session.Video

/-! A run before its first event: nothing is under way, no flow was seen, and the queue holds the stop and
the first frame tick of each direction with video. -/
namespace VideoLink.Session

variable {σ γ : Type}

theorem forall_setGenerator_of_ne {P : Direction → Generator σ γ → Prop} {s : Session σ γ}
    {d : Direction} {g : Generator σ γ} (hs : ∀ e g, e ≠ d → s.generator? e = some g → P e g)
    (hd : P d g) : ∀ e g', (s.setGenerator d g).generator? e = some g' → P e g' := by
  intro e g' h
  by_cases he : e = d
  · rw [he, generator?_setGenerator] at h
    cases h
    exact he ▸ hd
  · rw [generator?_setGenerator_of_ne _ he] at h
    exact hs e g' he h

theorem forall_setGenerator {P : Direction → Generator σ γ → Prop} {s : Session σ γ}
    {d : Direction} {g : Generator σ γ} (hs : ∀ e g, s.generator? e = some g → P e g)
    (hd : P d g) : ∀ e g', (s.setGenerator d g).generator? e = some g' → P e g' :=
  forall_setGenerator_of_ne (fun e g _ => hs e g) hd

/-- The queue of a run holds its stop under the first number. -/
def StopPending (s : Session σ γ) : Prop :=
  (⟨Instant.zero.after s.config.duration, 0⟩, Event.stop) ∈ s.events.toList

/-- A run in which nothing has happened. -/
structure Untouched (c : Config) (monitor : Monitor) (segmenter : Segmenter) (s : Session σ γ) :
    Prop where
  config : s.config = c
  link : s.link = .idle c.link
  segmenter : s.segmenter = segmenter
  monitor : s.monitor = monitor
  uids : s.uids = .start
  summary? : s.summary? = none
  orderly : s.events.Orderly
  now : s.events.now = .zero
  stop : s.StopPending
  events : ∀ a ∈ s.events.toList, a.2 = .stop ∨ ∃ d, a.2 = .frameTick d

theorem addGenerator_cases (s : Session σ γ) (d : Direction) (feed : Feed σ γ) :
    s.addGenerator d feed = s.setGenerator d (.idle s.config d feed none) ∨
    ∃ time ticket, s.addGenerator d feed =
      (s.schedule time (.frameTick d)).setGenerator d (.idle s.config d feed (some ticket)) := by
  unfold addGenerator
  dsimp only
  unfold FrameSource.arm
  split
  · exact .inr ⟨_, _, rfl⟩
  · exact .inl rfl

theorem Untouched.addGenerator {c : Config} {monitor : Monitor} {segmenter : Segmenter}
    {s : Session σ γ} (h : s.Untouched c monitor segmenter) (d : Direction) (feed : Feed σ γ) :
    (s.addGenerator d feed).Untouched c monitor segmenter := by
  rcases addGenerator_cases s d feed with heq | ⟨time, ticket, heq⟩
  · rw [heq]
    exact ⟨h.config, h.link, h.segmenter, h.monitor, h.uids, h.summary?, h.orderly, h.now, h.stop,
      h.events⟩
  · have hperm := h.orderly.perm_schedule time (.frameTick d)
    rw [heq]
    refine ⟨h.config, h.link, h.segmenter, h.monitor, h.uids, h.summary?, h.orderly.schedule time _,
      h.now, ?_, ?_⟩
    · exact hperm.mem_iff.2 (List.mem_cons_of_mem _ h.stop)
    · intro a ha
      rcases List.mem_cons.1 (hperm.mem_iff.1 ha) with rfl | ha
      · exact .inr ⟨d, rfl⟩
      · exact h.events a ha

def bare (c : Config) (monitor : Monitor) (segmenter : Segmenter) : Session σ γ where
  config := c
  events := (EventQueue.empty.schedule (Instant.zero.after c.duration) .stop).2
  link := .idle c.link
  segmenter
  generators := ⟨none, none⟩
  monitor
  uids := .start
  capture := { enabled := c.capture }
  processed := 0
  journal := #[]
  summary? := none

def populated (c : Config) (monitor : Monitor) (segmenter : Segmenter)
    (feeds : Duplex (Option (Feed σ γ))) : Session σ γ :=
  Direction.all.foldl (fun s d => (feeds.get d).elim s (s.addGenerator d)) (bare c monitor segmenter)

theorem start_eq (c : Config) (monitor : Monitor) (segmenter : Segmenter)
    (feeds : Duplex (Option (Feed σ γ))) : ∃ journal,
      start c monitor segmenter feeds = { populated c monitor segmenter feeds with journal } := by
  have hnoted : ∀ (s : Session σ γ) (b : Bool) (m n : Notice), ∃ journal,
      (if b then s.note m else s).note n = { s with journal } := by
    intro s b m n
    cases b <;> exact ⟨_, rfl⟩
  exact hnoted (populated c monitor segmenter feeds) _ _ _

theorem untouched_bare (c : Config) (monitor : Monitor) (segmenter : Segmenter) :
    (bare c monitor segmenter : Session σ γ).Untouched c monitor segmenter := by
  have hperm := EventQueue.orderly_empty.perm_schedule (Instant.zero.after c.duration) Event.stop
  rw [EventQueue.toList_empty] at hperm
  have hlatest : (Instant.zero.after c.duration).latest Instant.zero =
      Instant.zero.after c.duration := by
    apply Instant.ext
    rw [Instant.nanos_latest]
    exact Nat.max_eq_left (Nat.zero_le _)
  refine ⟨rfl, rfl, rfl, rfl, rfl, rfl, EventQueue.orderly_empty.schedule _ _, rfl, ?_, ?_⟩
  · refine hperm.mem_iff.2 (List.mem_singleton.2 ?_)
    rw [EventQueue.ticket_schedule]
    exact Prod.ext (by rw [show EventQueue.empty.now = Instant.zero from rfl, hlatest]; rfl) rfl
  · intro a ha
    rw [bare, hperm.mem_iff, List.mem_singleton] at ha
    exact .inl (congrArg Prod.snd ha)

theorem untouched_populated (c : Config) (monitor : Monitor) (segmenter : Segmenter)
    (feeds : Duplex (Option (Feed σ γ))) :
    (populated c monitor segmenter feeds).Untouched c monitor segmenter := by
  have hadd : ∀ {s : Session σ γ}, s.Untouched c monitor segmenter → ∀ d,
      ((feeds.get d).elim s (s.addGenerator d)).Untouched c monitor segmenter := by
    intro s hs d
    cases feeds.get d with
    | none => exact hs
    | some feed => exact hs.addGenerator d feed
  exact hadd (hadd (untouched_bare c monitor segmenter) .uplink) .downlink

theorem generator?_addGenerator_self (s : Session σ γ) (d : Direction) (feed : Feed σ γ) :
    ∃ pending?, (s.addGenerator d feed).generator? d = some (.idle s.config d feed pending?) := by
  rcases addGenerator_cases s d feed with heq | ⟨_, ticket, heq⟩ <;> rw [heq] <;>
    exact ⟨_, generator?_setGenerator _ _ _⟩

theorem generator?_addGenerator_of_ne (s : Session σ γ) {d e : Direction} (h : e ≠ d)
    (feed : Feed σ γ) : (s.addGenerator d feed).generator? e = s.generator? e := by
  rcases addGenerator_cases s d feed with heq | ⟨_, _, heq⟩ <;> rw [heq] <;>
    exact generator?_setGenerator_of_ne _ h _

theorem generator?_populated (c : Config) (monitor : Monitor) (segmenter : Segmenter)
    (feeds : Duplex (Option (Feed σ γ))) (d : Direction) : ∃ pending?,
      (populated c monitor segmenter feeds).generator? d =
        (feeds.get d).map fun feed => .idle c d feed pending? := by
  have hconfig : ∀ (s : Session σ γ) d feed, (s.addGenerator d feed).config = s.config := by
    intro s d feed
    rcases addGenerator_cases s d feed with heq | ⟨_, _, heq⟩ <;> rw [heq] <;> rfl
  unfold populated
  rw [Direction.all, List.foldl_cons, List.foldl_cons, List.foldl_nil]
  generalize hbare : bare c monitor segmenter = s
  have hs : s.config = c := by rw [← hbare]; rfl
  have hnone : ∀ d, s.generator? d = none := by
    intro d
    rw [← hbare]
    cases d <;> rfl
  cases hup : feeds.get .uplink with
  | none =>
    cases d with
    | uplink =>
      refine ⟨none, ?_⟩
      rw [hup]
      cases feeds.get .downlink with
      | none => exact hnone _
      | some feed => exact (generator?_addGenerator_of_ne s (by decide) feed).trans (hnone _)
    | downlink =>
      cases hdown : feeds.get .downlink with
      | none => exact ⟨none, hnone _⟩
      | some feed => exact hs ▸ generator?_addGenerator_self s .downlink feed
  | some up =>
    cases d with
    | uplink =>
      obtain ⟨pending?, hself⟩ := generator?_addGenerator_self s .uplink up
      refine ⟨pending?, ?_⟩
      rw [hup, Option.map_some, ← hs, ← hself]
      cases feeds.get .downlink with
      | none => rfl
      | some feed => exact generator?_addGenerator_of_ne _ (by decide) feed
    | downlink =>
      cases hdown : feeds.get .downlink with
      | none => exact ⟨none, (generator?_addGenerator_of_ne s (by decide) up).trans (hnone _)⟩
      | some feed =>
        have hself := generator?_addGenerator_self (s.addGenerator .uplink up) .downlink feed
        rw [hconfig, hs] at hself
        exact hself

theorem Begins.untouched {c : Config} {feeds : Duplex (Option (Feed σ γ))} {s : Session σ γ}
    (h : s.Begins c feeds) : ∃ monitor segmenter, Monitor.new? c.monitor = .ok monitor ∧
      Segmenter.new? c.maxSegment = .ok segmenter ∧ s.Untouched c monitor segmenter ∧
      ∀ d, ∃ pending?, s.generator? d = (feeds.get d).map fun feed => .idle c d feed pending? := by
  obtain ⟨monitor, segmenter, journal, hm, hg, rfl⟩ := h.state
  obtain ⟨journal', heq⟩ := start_eq c monitor segmenter feeds
  rw [heq]
  have hu := untouched_populated c monitor segmenter feeds
  exact ⟨monitor, segmenter, hm, hg, ⟨hu.config, hu.link, hu.segmenter, hu.monitor, hu.uids,
    hu.summary?, hu.orderly, hu.now, hu.stop, hu.events⟩, generator?_populated c monitor segmenter feeds⟩

end VideoLink.Session
