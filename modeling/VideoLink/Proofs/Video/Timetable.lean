import Mathlib.Algebra.Order.Floor.Div
import VideoLink.Proofs.EventQueue.Orderly
import VideoLink.Proofs.Session.Begins

/-! The timetable of a source: a frame at every multiple of the interval before the stop, as long as the
indices last. A source that is alone on a queue keeps to it. -/
namespace VideoLink.FrameSource

variable {σ α : Type}

/-! The next frame. -/

theorem nextTick?_eq_some {s : FrameSource σ} {time : Instant} : s.nextTick? = some time ↔
    s.stopped = false ∧ s.nextIndex < UInt32.size ∧
      time.nanos = s.start.nanos + s.nextIndex * s.interval.nanos ∧ time < s.stop := by
  have hguard : ∀ (p : Prop) [Decidable p] (u : Unit), (guard p : Option Unit) = some u ↔ p := by
    intro p _ u
    by_cases hp : p <;> simp [guard, hp]
  have hstop := s.stop.nanos_lt
  have hlongest : 0x1_0000_0000_0000_0000 ≤ Span.longest.nanos := by decide
  simp only [nextTick?, Option.bind_eq_bind, Option.bind_eq_some_iff, hguard, Option.pure_def,
    Option.some.injEq, Bool.and_eq_true, Bool.not_eq_true', decide_eq_true_eq, Span.times?]
  have hsum : (s.start.after ⟨s.interval.nanos * s.nextIndex⟩).nanos =
      min (s.start.nanos + s.interval.nanos * s.nextIndex) 0xFFFF_FFFF_FFFF_FFFF := rfl
  rw [Nat.mul_comm s.nextIndex]
  constructor
  · rintro ⟨_, ⟨hgoing, hindex⟩, offset, hoffset, _, hbefore, rfl⟩
    split at hoffset <;> cases hoffset
    -- The latest instant is not before any stop, so the sum was not cut.
    have hlt := Instant.lt_iff.1 hbefore
    exact ⟨hgoing, hindex, by omega, hbefore⟩
  · rintro ⟨hgoing, hindex, htime, hbefore⟩
    have hlt := Instant.lt_iff.1 hbefore
    have hafter : s.start.after ⟨s.interval.nanos * s.nextIndex⟩ = time := Instant.ext (by omega)
    refine ⟨(), ⟨hgoing, hindex⟩, ⟨s.interval.nanos * s.nextIndex⟩, if_pos (by omega), (), ?_, hafter⟩
    rw [hafter]
    exact hbefore

theorem nextTick?_congr {s t : FrameSource σ} (hinterval : t.interval = s.interval)
    (hstart : t.start = s.start) (hstop : t.stop = s.stop) (hindex : t.nextIndex = s.nextIndex)
    (hstopped : t.stopped = s.stopped) : t.nextTick? = s.nextTick? := by
  rw [nextTick?, hinterval, hstart, hstop, hindex, hstopped]
  rfl

theorem arm_eq (s : FrameSource σ) (q : EventQueue α) (event : α) :
    (s.nextTick? = none ∧ s.arm q event = (none, { s with pending? := none }, q)) ∨
    ∃ time, s.nextTick? = some time ∧ s.arm q event = (some time,
      { s with pending? := some (q.schedule time event).1 }, (q.schedule time event).2) := by
  unfold arm
  cases s.nextTick? with
  | none => exact .inl ⟨rfl, rfl⟩
  | some time => exact .inr ⟨time, rfl, rfl⟩

theorem le_nextTick?_emit [Draws σ Nat] {s : FrameSource σ} {now time : Instant}
    (h : s.nextTick? = some now) (hnext : (s.emit now).2.nextTick? = some time) : now ≤ time := by
  obtain ⟨_, _, hnow, _⟩ := nextTick?_eq_some.1 h
  obtain ⟨_, _, htime, _⟩ := nextTick?_eq_some.1 hnext
  have hlater : (s.nextIndex + 1) * s.interval.nanos =
      s.nextIndex * s.interval.nanos + s.interval.nanos := Nat.succ_mul _ _
  change time.nanos = s.start.nanos + (s.nextIndex + 1) * s.interval.nanos at htime
  rw [Instant.le_iff]
  omega

/-- The frames that are to come before the stop, as far as there are indices for them. -/
def framesToCome (s : FrameSource σ) : Nat :=
  min UInt32.size ((s.stop.nanos - s.start.nanos) ⌈/⌉ s.interval.nanos) - s.nextIndex

theorem lt_ceilDiv_iff {start stop interval : Nat} (pos : 0 < interval) (k : Nat) :
    k < (stop - start) ⌈/⌉ interval ↔ start + k * interval < stop := by
  rw [← Nat.not_le, ceilDiv_le_iff_le_mul pos, Nat.not_le, Nat.mul_comm]
  omega

theorem framesToCome_pos_iff {s : FrameSource σ} (pos : 0 < s.interval.nanos)
    (going : s.stopped = false) : 0 < s.framesToCome ↔ ∃ time, s.nextTick? = some time := by
  have hbound := @lt_ceilDiv_iff s.start.nanos s.stop.nanos _ pos s.nextIndex
  rw [framesToCome, Nat.sub_pos_iff_lt, lt_min_iff, hbound]
  constructor
  · rintro ⟨hindex, hbefore⟩
    have hstop := s.stop.nanos_lt
    exact ⟨⟨s.start.nanos + s.nextIndex * s.interval.nanos, by omega⟩,
      nextTick?_eq_some.2 ⟨going, hindex, rfl, hbefore⟩⟩
  · rintro ⟨time, htick⟩
    obtain ⟨_, hindex, htime, hbefore⟩ := nextTick?_eq_some.1 htick
    exact ⟨hindex, htime ▸ hbefore⟩

/-! The frames that a source has yet to emit. -/

variable [Draws σ Nat]

theorem nextIndex_emit (s : FrameSource σ) (now : Instant) :
    (s.emit now).2.nextIndex = s.nextIndex + 1 := rfl

def frames (s : FrameSource σ) : List Frame :=
  match _ : s.nextTick? with
  | none => []
  | some now => (s.emit now).1 :: (s.emit now).2.frames
termination_by UInt32.size - s.nextIndex
decreasing_by
  have := nextIndex_lt_of_nextTick? ‹_›
  rw [nextIndex_emit]
  omega

theorem frames_of_none {s : FrameSource σ} (h : s.nextTick? = none) : s.frames = [] := by
  rw [frames]
  split
  · rfl
  · rename_i htick
    rw [h] at htick
    cases htick

theorem frames_of_some {s : FrameSource σ} {now : Instant} (h : s.nextTick? = some now) :
    s.frames = (s.emit now).1 :: (s.emit now).2.frames := by
  rw [frames]
  split
  · rename_i htick
    rw [h] at htick
    cases htick
  · rename_i htick
    rw [h] at htick
    cases htick
    rfl

theorem framesToCome_emit {s : FrameSource σ} (now : Instant) :
    (s.emit now).2.framesToCome = s.framesToCome - 1 :=
  Nat.sub_add_eq _ _ _

/-- The frames to come have the next indices, the next sizes, and the times of their indices. -/
theorem frames_spec {s : FrameSource σ} (pos : 0 < s.interval.nanos) (going : s.stopped = false) :
    s.frames.map (·.index) = List.range' s.nextIndex s.framesToCome ∧
      s.frames.map (·.size) = (Draws.take s.framesToCome s.sizes).1 ∧
      ∀ f ∈ s.frames, f.time.nanos = s.start.nanos + f.index * s.interval.nanos := by
  fun_induction frames s with
  | case1 s hnone =>
    have hzero : s.framesToCome = 0 := by
      apply Nat.eq_zero_of_not_pos
      rw [framesToCome_pos_iff pos going, hnone]
      rintro ⟨_, htick⟩
      cases htick
    rw [hzero]
    exact ⟨rfl, rfl, fun f hf => by cases hf⟩
  | case2 s now htick ih =>
    obtain ⟨hindex, hsize, htime⟩ := ih pos going
    obtain ⟨n, hn⟩ : ∃ n, s.framesToCome = n + 1 :=
      Nat.exists_eq_add_one.2 ((framesToCome_pos_iff pos going).2 ⟨now, htick⟩)
    rw [framesToCome_emit, hn, Nat.add_sub_cancel] at hindex hsize
    rw [hn]
    refine ⟨?_, ?_, ?_⟩
    · rw [List.map_cons, hindex]
      rfl
    · rw [List.map_cons, hsize]
      rfl
    · intro f hf
      rcases List.mem_cons.1 hf with rfl | hf
      · exact (nextTick?_eq_some.1 htick).2.2.1
      · exact htime f hf

/-- Sources of one timetable that draw from one supply emit the same frames. -/
theorem frames_congr {s t : FrameSource σ} (hsizes : t.sizes = s.sizes)
    (hinterval : t.interval = s.interval) (hstart : t.start = s.start) (hstop : t.stop = s.stop)
    (hindex : t.nextIndex = s.nextIndex) (hstopped : t.stopped = s.stopped) :
    t.frames = s.frames := by
  have htick := nextTick?_congr hinterval hstart hstop hindex hstopped
  fun_induction frames s generalizing t with
  | case1 s hnone => exact frames_of_none (htick.trans hnone)
  | case2 s now hsome ih =>
    have hframe : (t.emit now).1 = (s.emit now).1 := by
      unfold emit
      rw [hsizes, hindex]
    have hrest : (t.emit now).2.sizes = (s.emit now).2.sizes := by
      unfold emit
      rw [hsizes]
    have hnext : (t.emit now).2.nextIndex = (s.emit now).2.nextIndex := congrArg (· + 1) hindex
    rw [frames_of_some (htick.trans hsome), hframe]
    congr 1
    exact ih hrest hinterval hstart hstop hnext hstopped
      (nextTick?_congr hinterval hstart hstop hnext hstopped)

/-! A source alone on a queue. -/

omit [Draws σ Nat] in
theorem length_arm_le (s : FrameSource σ) (q : EventQueue α) (event : α) :
    (s.arm q event).2.2.toList.length ≤
      q.toList.length + if s.nextIndex < UInt32.size then 1 else 0 := by
  rcases s.arm_eq q event with ⟨_, heq⟩ | ⟨time, htick, heq⟩ <;> rw [heq]
  · exact Nat.le_add_right _ _
  · have hlength := (EventQueue.toList_schedule q time event).length_eq
    rw [List.length_cons] at hlength
    rw [if_pos (nextIndex_lt_of_nextTick? htick)]
    exact hlength.trans_le (Nat.succ_le_succ (List.length_filter_le _ _))

omit [Draws σ Nat] in
theorem length_of_pop? {q rest : EventQueue α} {now : Instant} {event : α}
    (h : q.pop? = some ((now, event), rest)) : q.toList.length = rest.toList.length + 1 := by
  obtain ⟨_, hl, _⟩ := EventQueue.toList_of_pop? h
  rw [hl, List.length_cons]

/-- What a source emits that is alone on a queue. With each event that leaves it emits a frame and schedules
the next one under the same name. -/
def emitAll (s : FrameSource σ) (q : EventQueue α) : List Frame :=
  match _ : q.pop? with
  | none => []
  | some ((now, event), rest) =>
    let armed := (s.emit now).2.arm rest event
    (s.emit now).1 :: armed.2.1.emitAll armed.2.2
termination_by UInt32.size - s.nextIndex + q.toList.length
decreasing_by
  have hlength := length_of_pop? ‹_›
  have harm := length_arm_le (s.emit now).2 rest event
  have hindex : ((s.emit now).2.arm rest event).2.1.nextIndex = s.nextIndex + 1 := by
    unfold arm
    split <;> rfl
  rw [nextIndex_emit] at harm
  rw [hindex]
  split at harm <;> omega

/-- All frames of a source that starts on an empty queue. -/
def alone (s : FrameSource σ) : List Frame :=
  let armed := s.arm EventQueue.empty ()
  armed.2.1.emitAll armed.2.2

omit [Draws σ Nat] in
theorem toList_arm {s : FrameSource σ} {q : EventQueue α} (horderly : q.Orderly)
    (hempty : q.toList = []) (hlate : ∀ time, s.nextTick? = some time → q.now ≤ time) (event : α) :
    (s.arm q event).2.2.Orderly ∧ (s.arm q event).2.2.toList =
      s.nextTick?.toList.map fun time => (⟨time, q.nextNumber⟩, event) := by
  rcases s.arm_eq q event with ⟨htick, heq⟩ | ⟨time, htick, heq⟩ <;> rw [heq, htick]
  · exact ⟨horderly, hempty⟩
  · have hperm := horderly.perm_schedule_of_le (hlate time htick) event
    rw [hempty] at hperm
    exact ⟨horderly.schedule time event, List.perm_singleton.1 hperm⟩

omit [Draws σ Nat] in
theorem exists_pending_arm (s : FrameSource σ) (q : EventQueue α) (event : α) :
    ∃ pending?, (s.arm q event).2.1 = { s with pending? } := by
  rcases s.arm_eq q event with ⟨_, heq⟩ | ⟨_, _, heq⟩ <;> rw [heq] <;> exact ⟨_, rfl⟩

theorem frames_arm (s : FrameSource σ) (q : EventQueue α) (event : α) :
    (s.arm q event).2.1.frames = s.frames := by
  obtain ⟨pending?, heq⟩ := s.exists_pending_arm q event
  rw [heq]
  exact frames_congr rfl rfl rfl rfl rfl rfl

/-- A queue that holds the next frame and nothing else brings all frames to come. -/
theorem emitAll_eq_frames {s : FrameSource σ} {q : EventQueue α} (horderly : q.Orderly) {event : α}
    {number : Nat} (h : q.toList = s.nextTick?.toList.map fun time => (⟨time, number⟩, event)) :
    s.emitAll q = s.frames := by
  fun_induction emitAll s q generalizing number with
  | case1 s q hpop =>
    rw [EventQueue.pop?_eq_none.1 hpop] at h
    cases htick : s.nextTick? with
    | none => exact (frames_of_none htick).symm
    | some time =>
      rw [htick] at h
      cases h
  | case2 s q now event' rest hpop armed ih =>
    obtain ⟨_, hl, hnow, _⟩ := EventQueue.toList_of_pop? hpop
    obtain ⟨_, _, hrest⟩ := horderly.of_pop? hpop
    rw [hl] at h
    cases htick : s.nextTick? with
    | none =>
      rw [htick] at h
      cases h
    | some time =>
      rw [htick] at h
      obtain ⟨hhead, hempty⟩ := List.cons.inj h
      obtain ⟨hticket, rfl⟩ := Prod.mk.inj hhead
      obtain ⟨rfl, _⟩ := Ticket.mk.inj hticket
      -- The tick was alone, so the source arms an empty queue again.
      obtain ⟨hqueue, htoList⟩ := toList_arm hrest hempty
        (fun time hnext => hnow ▸ le_nextTick?_emit htick hnext) event'
      obtain ⟨pending?, hsource⟩ := (s.emit now).2.exists_pending_arm rest event'
      have hsame : armed.2.1.nextTick? = (s.emit now).2.nextTick? := by
        show ((s.emit now).2.arm rest event').2.1.nextTick? = _
        rw [hsource]
        exact nextTick?_congr rfl rfl rfl rfl rfl
      have hframes : armed.2.1.frames = (s.emit now).2.frames := frames_arm ..
      rw [frames_of_some htick, ← hframes]
      congr 1
      exact ih hqueue (hsame ▸ htoList)

theorem alone_eq_frames (s : FrameSource σ) : s.alone = s.frames := by
  obtain ⟨hqueue, htoList⟩ := toList_arm (s := s) EventQueue.orderly_empty EventQueue.toList_empty
    (fun time _ => Nat.zero_le _) ()
  obtain ⟨pending?, hsource⟩ := s.exists_pending_arm EventQueue.empty ()
  have hsame : (s.arm EventQueue.empty ()).2.1.nextTick? = s.nextTick? := by
    rw [hsource]
    exact nextTick?_congr rfl rfl rfl rfl rfl
  rw [← frames_arm s EventQueue.empty ()]
  exact emitAll_eq_frames hqueue (hsame ▸ htoList)

/-- A new source alone on a queue emits its frames at the multiples of the interval before the stop, in their
order and with the sizes as they are drawn, as far as its 32-bit indices last. It emits a frame at every
such time if and only if there are no more of them than indices. -/
theorem frames_come_at_multiples_of_the_interval (sizes : σ) {interval : Span}
    (pos : 0 < interval.nanos) (start stop : Instant) :
    let source : FrameSource σ := { sizes, interval, start, stop }
    let due := (stop.nanos - start.nanos) ⌈/⌉ interval.nanos
    (∀ n, n < due ↔ start.nanos + n * interval.nanos < stop.nanos) ∧
    source.alone.map (·.index) = List.range (min UInt32.size due) ∧
    (∀ f ∈ source.alone, f.time.nanos = start.nanos + f.index * interval.nanos) ∧
    source.alone.map (·.size) = (Draws.take (min UInt32.size due) sizes).1 ∧
    ((∀ n, start.nanos + n * interval.nanos < stop.nanos → ∃ f ∈ source.alone, f.index = n) ↔
      due ≤ UInt32.size) := by
  intro source due
  have hdue : ∀ n, n < due ↔ start.nanos + n * interval.nanos < stop.nanos := lt_ceilDiv_iff pos
  obtain ⟨hindex, hsize, htime⟩ := frames_spec (s := source) pos rfl
  rw [← alone_eq_frames] at hindex hsize htime
  have hrange : source.alone.map (·.index) = List.range (min UInt32.size due) :=
    hindex.trans List.range_eq_range'.symm
  refine ⟨hdue, hrange, htime, hsize, ?_⟩
  have hemitted : ∀ n, (∃ f ∈ source.alone, f.index = n) ↔ n < UInt32.size ∧ n < due := by
    intro n
    rw [← List.mem_map (f := Frame.index), hrange, List.mem_range, lt_min_iff]
  constructor
  · intro hall
    by_contra hmore
    have hlast := (hemitted _).1 (hall UInt32.size ((hdue _).1 (Nat.lt_of_not_le hmore)))
    exact Nat.lt_irrefl _ hlast.1
  · intro hfew n hbefore
    have hlt := (hdue n).2 hbefore
    exact (hemitted n).2 ⟨Nat.lt_of_lt_of_le hlt hfew, hlt⟩

/-- Thirty seconds of a frame every 33.3 milliseconds are 901 frames. -/
theorem frames_of_thirty_seconds :
    0 < (⟨33_300_000⟩ : Span).nanos ∧
    let source : FrameSource (Constant Nat) :=
      { sizes := ⟨7808⟩, interval := ⟨33_300_000⟩, start := .zero, stop := .ofNanos 30_000_000_000 }
    source.alone.map (·.index) = List.range 901 ∧
    (∀ f ∈ source.alone, f.time.nanos = f.index * 33_300_000) := by
  have hpos : 0 < (⟨33_300_000⟩ : Span).nanos := by decide
  obtain ⟨_, hindex, htime, _⟩ := frames_come_at_multiples_of_the_interval (⟨7808⟩ : Constant Nat) hpos
    .zero (.ofNanos 30_000_000_000)
  have hcount : ((Instant.ofNanos 30_000_000_000).nanos - Instant.zero.nanos) ⌈/⌉ 33_300_000 = 901 := by
    rw [Nat.ceilDiv_eq_add_pred_div]
    decide
  rw [hcount] at hindex
  exact ⟨hpos, hindex, fun f hf => (htime f hf).trans (Nat.zero_add _)⟩

/-- A frame every nanosecond for 2^32 + 1 nanoseconds: the last one has no index and is not emitted. -/
theorem last_frame_has_no_index :
    let source : FrameSource (Constant Nat) :=
      { sizes := ⟨0⟩, interval := ⟨1⟩, start := .zero, stop := .ofNanos 4_294_967_297 }
    source.start.nanos + 4_294_967_296 * source.interval.nanos < source.stop.nanos ∧
    source.alone.length = 4_294_967_296 ∧ ∀ f ∈ source.alone, f.index ≠ 4_294_967_296 := by
  intro source
  have hcount : source.framesToCome = 4_294_967_296 := by
    rw [framesToCome, Nat.ceilDiv_eq_add_pred_div]
    decide
  obtain ⟨hindex, _⟩ := frames_spec (s := source) (by decide) rfl
  rw [← alone_eq_frames, hcount] at hindex
  refine ⟨by decide, ?_, fun f hf heq => ?_⟩
  · rw [← List.length_map (f := Frame.index), hindex, List.length_range']
  · have hmem := List.mem_map_of_mem (f := Frame.index) hf
    rw [hindex, heq, List.mem_range'_1] at hmem
    exact absurd hmem.2 (by decide)

end VideoLink.FrameSource
