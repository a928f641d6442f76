import VideoLink.Proofs.Transport.Sound
import VideoLink.Session.Handlers

/-! The video of a direction: how it begins, what it keeps, and what is left of it at the end. Arming a
source or a pacer schedules at most one event. -/
namespace VideoLink

theorem videoFlow_inj {p : Protocol} {d e : Direction} (h : videoFlow p d = videoFlow p e) :
    d = e := by
  revert h
  cases p <;> cases d <;> cases e <;> decide

theorem reversed_videoFlow_ne (p : Protocol) (d e : Direction) :
    (videoFlow p d).reversed ≠ videoFlow p e := by
  cases p <;> cases d <;> cases e <;> decide

theorem protocol_videoFlow (p : Protocol) (d : Direction) : (videoFlow p d).protocol = p := by
  cases d <;> rfl

variable {σ γ : Type}

def Generator.idle (c : Config) (d : Direction) (feed : Feed σ γ) (pending? : Option Ticket) :
    Generator σ γ where
  source :=
    { sizes := feed.sizes
      interval := c.frameInterval
      start := .zero
      stop := Instant.zero.after c.duration
      pending? }
  pacer? := feed.gaps?.map fun gaps => { gaps }
  socket := .idle (videoFlow c.transport.protocol d) c.transport
  acks? := match c.transport.protocol with
    | .tcp => some (.answering (videoFlow c.transport.protocol d) c.transport.ackEvery)
    | .udp => none

/-- The video of a direction has the flows and the settings of the direction. -/
structure Generator.Fit (c : Config) (d : Direction) (g : Generator σ γ) : Prop where
  socket : (Socket.idle (videoFlow c.transport.protocol d) c.transport).Continues g.socket
  sound : g.socket.Sound
  acks : ∀ acks, g.acks? = some acks → c.transport.protocol = .tcp ∧
    acks.flow = (videoFlow c.transport.protocol d).reversed
  answered : c.transport.protocol = .tcp → g.acks?.isSome

theorem Generator.fit_idle (c : Config) (d : Direction) (feed : Feed σ γ)
    (pending? : Option Ticket) : (Generator.idle c d feed pending?).Fit c d := by
  refine ⟨.refl _, Socket.sound_idle _ _, fun acks h => ?_, fun htcp => ?_⟩
  · unfold Generator.idle at h
    cases hp : c.transport.protocol with
    | tcp =>
      simp only [hp, Option.some.injEq] at h
      exact ⟨rfl, by rw [← h]; rfl⟩
    | udp => simp [hp] at h
  · simp [Generator.idle, htcp]

theorem AckCounter.onData_cases (c : AckCounter) (uids : UidCounter) :
    c.unanswered + 1 < c.every ∧
      c.onData uids = (none, { c with unanswered := c.unanswered + 1 }, uids) ∨
    c.every ≤ c.unanswered + 1 ∧ c.onData uids =
      (some ⟨uids.next, c.flow, 0, .ack⟩, { c with unanswered := 0 }, ⟨uids.next + 1⟩) := by
  unfold onData
  split
  · rename_i hfew
    exact .inl ⟨hfew, rfl⟩
  · rename_i hdue
    exact .inr ⟨Nat.le_of_not_lt hdue, rfl⟩

theorem AckCounter.flow_of_onData {c rest : AckCounter} {uids uids' : UidCounter}
    {ack? : Option Packet} (h : c.onData uids = (ack?, rest, uids')) : rest.flow = c.flow := by
  rcases c.onData_cases uids with ⟨_, heq⟩ | ⟨_, heq⟩ <;> rw [heq] at h <;> cases h <;> rfl

theorem AckCounter.of_onData {c rest : AckCounter} {uids uids' : UidCounter} {ack : Packet}
    (h : c.onData uids = (some ack, rest, uids')) :
    ack = ⟨uids.next, c.flow, 0, .ack⟩ ∧ uids' = ⟨uids.next + 1⟩ := by
  rcases c.onData_cases uids with ⟨_, heq⟩ | ⟨_, heq⟩ <;> rw [heq] at h <;> cases h
  exact ⟨rfl, rfl⟩

theorem Pacer.toList_of_take {p rest : Pacer γ} {size? : Option Nat} (h : p.take = (size?, rest)) :
    p.queued.toList = size?.toList ++ rest.queued.toList := by
  unfold take at h
  split at h
  · rename_i hpop
    cases h
    exact Fifo.toList_of_pop? hpop
  · cases h
    rfl

theorem Pacer.arm_cases [Draws γ Span] {p rest : Pacer γ} {α : Type} {q events : EventQueue α}
    {now : Instant} {event : α} {time? : Option Instant} (h : p.arm q now event = (time?, rest, events)) :
    (rest = p ∧ events = q) ∨ (p.pending? = none ∧
      ∃ ticket gaps, rest = { p with gaps, pending? := some ticket } ∧
        ∃ time, events = (q.schedule time event).2) := by
  unfold arm at h
  split at h
  · cases h
    exact .inl ⟨rfl, rfl⟩
  · rename_i hwaiting
    cases h
    refine .inr ⟨?_, _, _, rfl, _, rfl⟩
    simp only [Bool.or_eq_true, not_or, Bool.not_eq_true] at hwaiting
    simpa using hwaiting.1

theorem Pacer.events_of_arm [Draws γ Span] {p rest : Pacer γ} {α : Type} {q events : EventQueue α}
    {now : Instant} {event : α} {time? : Option Instant} (h : p.arm q now event = (time?, rest, events)) :
    events = q ∨ ∃ time, events = (q.schedule time event).2 := by
  rcases Pacer.arm_cases h with ⟨_, hevents⟩ | ⟨_, _, _, _, hevents⟩
  · exact .inl hevents
  · exact .inr hevents

theorem FrameSource.arm_cases {s source : FrameSource σ} {α : Type} {q events : EventQueue α}
    {event : α} {time? : Option Instant} (h : s.arm q event = (time?, source, events)) :
    ∃ pending?, source = { s with pending? } ∧
      (events = q ∨ ∃ time, events = (q.schedule time event).2) := by
  unfold arm at h
  split at h <;> cases h
  · exact ⟨_, rfl, .inr ⟨_, rfl⟩⟩
  · exact ⟨_, rfl, .inl rfl⟩

def Generator.waiting (g : Generator σ γ) : List Nat := g.pacer?.elim [] (·.queued.toList)

def Generator.halted (g : Generator σ γ) : Generator σ γ :=
  { g with
    source := { g.source with stopped := true, pending? := none }
    pacer? := g.pacer?.map fun pacer => { pacer with queued := .empty, pending? := none }
    socket := g.socket.close }

theorem Generator.Fit.halted {c : Config} {d : Direction} {g : Generator σ γ} (h : g.Fit c d) :
    g.halted.Fit c d :=
  ⟨⟨h.socket.flow, h.socket.mss, h.socket.capacity, h.socket.maxBacklog⟩, h.sound.close, h.acks,
    h.answered⟩

end VideoLink
