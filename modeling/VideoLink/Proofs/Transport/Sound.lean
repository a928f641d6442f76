import VideoLink.Proofs.Transport.Pieces
import VideoLink.Transport.Socket
import VideoLink.Video.Segments

/-! The sums that a socket keeps agree with its two queues, and the first waiting send is one that does not
fit. So a socket with nothing in its buffer has nothing in its backlog either. -/
namespace VideoLink

namespace Socket

/-- The sums are those of the queues, and every waiting send fits an empty buffer. -/
structure Counted (s : Socket) : Prop where
  buffered : s.buffered = weight id s.pending.toList
  backlogged : s.backlogged = weight id s.backlog.toList
  fits : ∀ b ∈ s.backlog.toList, b ≤ s.capacity

structure Sound (s : Socket) : Prop extends Counted s where
  blocked : ∀ b, s.backlog.toList.head? = some b → s.capacity < s.buffered + b

/-- The sends that were taken, into the buffer or into the backlog. -/
def taken (s : Socket) : Nat := s.stats.accepted + s.backlog.toList.length

structure Continues (s t : Socket) : Prop where
  flow : t.flow = s.flow
  mss : t.mss = s.mss
  capacity : t.capacity = s.capacity
  maxBacklog : t.maxBacklog = s.maxBacklog

theorem Continues.refl (s : Socket) : s.Continues s := ⟨rfl, rfl, rfl, rfl⟩

theorem Continues.trans {s t u : Socket} (st : s.Continues t) (tu : t.Continues u) :
    s.Continues u :=
  ⟨tu.flow.trans st.flow, tu.mss.trans st.mss, tu.capacity.trans st.capacity,
    tu.maxBacklog.trans st.maxBacklog⟩

theorem sound_idle (flow : FlowKey) (settings : TransportSettings) :
    (idle flow settings).Sound := by
  refine ⟨⟨rfl, rfl, ?_⟩, ?_⟩ <;> intro b hb <;> cases hb

theorem Sound.close {s : Socket} (h : s.Sound) : s.close.Sound :=
  ⟨⟨h.buffered, h.backlogged, h.fits⟩, h.blocked⟩

/-- A socket that has no packet has no bytes at all. -/
theorem Sound.unsent_eq_zero {s : Socket} (h : s.Sound) (hp : s.pending.toList = []) :
    s.unsent = 0 := by
  have hb := h.buffered
  rw [hp, weight_nil] at hb
  have hl := h.backlogged
  cases hq : s.backlog.toList with
  | nil =>
    rw [hq, weight_nil] at hl
    rw [unsent, hb, hl]
  | cons b rest =>
    have hfit := h.fits b (by rw [hq]; exact List.mem_cons_self)
    have hblocked := h.blocked b (by rw [hq]; rfl)
    omega

theorem Counted.accept {s : Socket} (h : s.Counted) (bytes : Nat) : (s.accept bytes).Counted := by
  refine ⟨?_, h.backlogged, h.fits⟩
  simp only [Socket.accept, Fifo.toList_pushAll, weight_append, weight_pieces, h.buffered]

theorem unsent_accept (s : Socket) (bytes : Nat) : (s.accept bytes).unsent = s.unsent + bytes := by
  simp only [unsent, accept]
  omega

theorem unsent_defer (s : Socket) (bytes : Nat) : (s.defer bytes).unsent = s.unsent + bytes := by
  simp only [unsent, defer]
  omega

theorem taken_accept (s : Socket) (bytes : Nat) : (s.accept bytes).taken = s.taken + 1 := by
  simp only [taken, accept]
  omega

theorem taken_defer (s : Socket) (bytes : Nat) : (s.defer bytes).taken = s.taken + 1 := by
  simp only [taken, defer, Fifo.toList_push, List.length_append, List.length_singleton]
  omega

/-- What a send does: it enters the buffer, or the backlog, or is at most counted as refused. -/
theorem send_cases (s : Socket) (bytes : Nat) :
    (s.send bytes = (.ok .queued, s.accept bytes) ∧ s.backlog.toList = []) ∨
    (s.send bytes = (.ok .deferred, s.defer bytes) ∧ bytes ≤ s.capacity ∧
      (s.backlog.toList = [] → s.capacity < s.buffered + bytes)) ∨
    ∃ error refused, s.send bytes = (.error error, { s with stats := { s.stats with refused } }) := by
  unfold send
  split
  · exact .inr (.inr ⟨_, s.stats.refused, rfl⟩)
  · split
    · exact .inr (.inr ⟨_, s.stats.refused, rfl⟩)
    · rename_i hlarge
      split
      · rename_i hfits
        exact .inl ⟨rfl, Fifo.isEmpty_iff.1 hfits.1⟩
      · rename_i hfull
        split
        · exact .inr (.inr ⟨_, _, rfl⟩)
        · refine .inr (.inl ⟨rfl, Nat.le_of_not_lt hlarge, fun hempty => ?_⟩)
          have hnofit : ¬ s.buffered + bytes ≤ s.capacity := fun hle =>
            hfull ⟨Fifo.isEmpty_iff.2 hempty, decide_eq_true hle⟩
          omega

theorem Sound.send {s : Socket} (h : s.Sound) (bytes : Nat) : (s.send bytes).2.Sound := by
  rcases s.send_cases bytes with ⟨heq, hempty⟩ | ⟨heq, hle, hfull⟩ | ⟨error, refused, heq⟩
  · rw [heq]
    refine ⟨h.toCounted.accept bytes, fun b hb => ?_⟩
    change s.backlog.toList.head? = some b at hb
    rw [hempty] at hb
    cases hb
  · rw [heq]
    refine ⟨⟨h.buffered, ?_, ?_⟩, ?_⟩
    · simp only [defer, Fifo.toList_push, weight_append, weight_cons, weight_nil, id, h.backlogged]
      omega
    · intro b hb
      simp only [defer, Fifo.toList_push, List.mem_append, List.mem_singleton] at hb
      rcases hb with hb | rfl
      · exact h.fits b hb
      · exact hle
    · intro b hb
      simp only [defer, Fifo.toList_push] at hb ⊢
      cases hq : s.backlog.toList with
      | nil =>
        rw [hq] at hb
        cases hb
        exact hfull hq
      | cons c rest =>
        rw [hq] at hb
        exact h.blocked b (by rw [hq]; exact hb)
  · rw [heq]
    exact ⟨⟨h.buffered, h.backlogged, h.fits⟩, h.blocked⟩

theorem continues_send (s : Socket) (bytes : Nat) : s.Continues (s.send bytes).2 := by
  rcases s.send_cases bytes with ⟨heq, _⟩ | ⟨heq, _⟩ | ⟨_, _, heq⟩ <;> rw [heq] <;>
    exact ⟨rfl, rfl, rfl, rfl⟩

/-! Draining the backlog moves bytes and sends from one queue into the other. -/

theorem acceptBacklog_step {s : Socket} (h : s.Counted) {bytes : Nat} {backlog : Fifo Nat}
    (hp : s.backlog.pop? = some (bytes, backlog)) :
    (({ s with backlog, backlogged := s.backlogged - bytes } : Socket).accept bytes).Counted ∧
      (({ s with backlog, backlogged := s.backlogged - bytes } : Socket).accept bytes).unsent =
        s.unsent ∧
      (({ s with backlog, backlogged := s.backlogged - bytes } : Socket).accept bytes).taken =
        s.taken := by
  have hl := Fifo.toList_of_pop? hp
  have hsum := h.backlogged
  rw [hl, weight_cons, id] at hsum
  have hcounted : ({ s with backlog, backlogged := s.backlogged - bytes } : Socket).Counted := by
    refine ⟨h.buffered, ?_, ?_⟩
    · simp only [hsum]
      omega
    · intro b hb
      exact h.fits b (by rw [hl]; exact List.mem_cons_of_mem _ hb)
  refine ⟨hcounted.accept bytes, ?_, ?_⟩
  · rw [unsent_accept]
    simp only [unsent]
    omega
  · rw [taken_accept]
    simp only [taken, hl, List.length_cons]
    omega

theorem sound_acceptBacklog {s : Socket} (h : s.Counted) :
    s.acceptBacklog.Sound ∧ s.acceptBacklog.unsent = s.unsent ∧ s.acceptBacklog.taken = s.taken := by
  fun_induction acceptBacklog s with
  | case1 s hp =>
    refine ⟨⟨h, fun b hb => ?_⟩, rfl, rfl⟩
    rw [Fifo.pop?_eq_none.1 hp] at hb
    cases hb
  | case2 s bytes backlog hp hfits ih =>
    obtain ⟨hcounted, hunsent, htaken⟩ := acceptBacklog_step h hp
    obtain ⟨hsound, hu, ht⟩ := ih hcounted
    exact ⟨hsound, hu.trans hunsent, ht.trans htaken⟩
  | case3 s bytes backlog hp hfits =>
    refine ⟨⟨h, fun b hb => ?_⟩, rfl, rfl⟩
    rw [Fifo.toList_of_pop? hp] at hb
    cases hb
    simp only [fits, decide_eq_true_eq] at hfits
    omega

theorem acceptBacklog_stats (s : Socket) :
    s.acceptBacklog.stats.packets = s.stats.packets ∧
      s.acceptBacklog.stats.deferred = s.stats.deferred ∧ s.Continues s.acceptBacklog := by
  fun_induction acceptBacklog s with
  | case1 => exact ⟨rfl, rfl, .refl _⟩
  | case2 s bytes backlog hp hfits ih =>
    obtain ⟨hpackets, hdeferred, hcontinues⟩ := ih
    exact ⟨hpackets, hdeferred,
      ⟨hcontinues.flow, hcontinues.mss, hcontinues.capacity, hcontinues.maxBacklog⟩⟩
  | case3 => exact ⟨rfl, rfl, .refl _⟩

structure Released (s t : Socket) (p : Packet) : Prop where
  flow : p.flow = s.flow
  kind : p.kind = .data
  unsent : s.unsent = t.unsent + p.payload
  packets : t.stats.packets = s.stats.packets + 1
  taken : t.taken = s.taken
  deferred : t.stats.deferred = s.stats.deferred
  continues : s.Continues t

theorem Sound.of_next? {s t : Socket} (h : s.Sound) {uids uids' : UidCounter} {p : Packet}
    (hn : s.next? uids = some (p, t, uids')) :
    t.Sound ∧ s.Released t p ∧ p.uid = uids.next ∧ uids'.next = uids.next + 1 := by
  simp only [next?, UidCounter.take, Option.map_eq_some_iff, Prod.exists, Prod.mk.injEq] at hn
  obtain ⟨payload, pending, hp, rfl, rfl, rfl⟩ := hn
  have hl := Fifo.toList_of_pop? hp
  have hsum := h.buffered
  rw [hl, weight_cons, id] at hsum
  have hcounted : ({ s with pending, buffered := s.buffered - payload } : Socket).Counted :=
    ⟨by simp only [hsum]; omega, h.backlogged, h.fits⟩
  obtain ⟨hsound, hunsent, htaken⟩ := sound_acceptBacklog hcounted
  obtain ⟨hpackets, hdeferred, hcontinues⟩ :=
    acceptBacklog_stats { s with pending, buffered := s.buffered - payload }
  refine ⟨⟨⟨hsound.buffered, hsound.backlogged, hsound.fits⟩, hsound.blocked⟩,
    ⟨hcontinues.flow, rfl, ?_, congrArg (· + 1) hpackets, htaken, hdeferred,
      ⟨hcontinues.flow, hcontinues.mss, hcontinues.capacity, hcontinues.maxBacklog⟩⟩, rfl, rfl⟩
  change s.unsent = (acceptBacklog _).unsent + payload
  rw [hunsent]
  simp only [unsent]
  omega

theorem next?_eq_none {s : Socket} {uids : UidCounter} (hn : s.next? uids = none) :
    s.pending.toList = [] := by
  rw [next?, Option.map_eq_none_iff] at hn
  exact Fifo.pop?_eq_none.1 hn

/-! Handing over a frame. -/

/-- What the outcome of a dispatch says of the socket before and after it. -/
structure Dispatched (s t : Socket) (o : DispatchOutcome) (sizes : List Nat) : Prop where
  unsent : t.unsent = s.unsent + o.bytes
  taken : t.taken = s.taken + o.segments
  deferred : t.stats.deferred = s.stats.deferred + o.deferred
  packets : t.stats.packets = s.stats.packets
  segments : o.segments + o.failed = sizes.length
  bytes : o.bytes + o.failedBytes = weight id sizes
  continues : s.Continues t

/-- Each turn of the loop adds to the outcome what it does to the socket. -/
private theorem of_dispatch_go {s t : Socket} (h : s.Sound) {o o' : DispatchOutcome}
    {sizes : List Nat} (hf : o.failed = 0) (hb : o.failedBytes = 0)
    (hd : dispatch.go o s sizes = (o', t)) :
    t.Sound ∧ t.unsent + o.bytes = s.unsent + o'.bytes ∧
      t.taken + o.segments = s.taken + o'.segments ∧
      t.stats.deferred + o.deferred = s.stats.deferred + o'.deferred ∧
      t.stats.packets = s.stats.packets ∧
      o'.segments + o'.failed = o.segments + sizes.length ∧
      o'.bytes + o'.failedBytes = o.bytes + weight id sizes ∧ s.Continues t := by
  induction sizes generalizing s o with
  | nil =>
    cases hd
    rw [hf, hb, List.length_nil, weight_nil]
    exact ⟨h, rfl, rfl, rfl, rfl, rfl, rfl, .refl _⟩
  | cons size rest ih =>
    have hsound := h.send size
    have hcont := s.continues_send size
    have heq : SegmentSink.send s size = s.send size := rfl
    rw [dispatch.go, heq] at hd
    rw [List.length_cons, weight_cons, id]
    rcases s.send_cases size with ⟨hsend, _⟩ | ⟨hsend, _⟩ | ⟨error, refused, hsend⟩
    · rw [hsend] at hsound hcont hd
      have hu := s.unsent_accept size
      have ht := s.taken_accept size
      obtain ⟨hs, h₁, h₂, h₃, h₄, h₅, h₆, h₇⟩ := ih (o := o.addTaken size .queued) hsound hf hb hd
      simp only [DispatchOutcome.addTaken, accept] at h₁ h₂ h₃ h₄ h₅ h₆ hu ht
      exact ⟨hs, by omega, by omega, h₃, h₄, by omega, by omega, hcont.trans h₇⟩
    · rw [hsend] at hsound hcont hd
      have hu := s.unsent_defer size
      have ht := s.taken_defer size
      obtain ⟨hs, h₁, h₂, h₃, h₄, h₅, h₆, h₇⟩ := ih (o := o.addTaken size .deferred) hsound hf hb hd
      -- A deferred segment is counted by the outcome and by the socket.
      simp only [DispatchOutcome.addTaken, defer] at h₁ h₂ h₃ h₄ h₅ h₆ hu ht
      exact ⟨hs, by omega, by omega, by omega, h₄, by omega, by omega, hcont.trans h₇⟩
    · rw [hsend] at hsound hcont hd
      cases hd
      refine ⟨hsound, rfl, rfl, rfl, rfl, ?_, ?_, hcont⟩
      · simp only [DispatchOutcome.addRefused]
      · simp only [DispatchOutcome.addRefused, foldl_add]

theorem Sound.of_dispatch {s t : Socket} (h : s.Sound) {o : DispatchOutcome} {sizes : List Nat}
    (hd : dispatch s sizes = (o, t)) : t.Sound ∧ s.Dispatched t o sizes := by
  obtain ⟨hs, h₁, h₂, h₃, h₄, h₅, h₆, h₇⟩ := of_dispatch_go (o := {}) h rfl rfl hd
  simp only [Nat.add_zero, Nat.zero_add] at h₁ h₂ h₃ h₅ h₆
  exact ⟨hs, h₁, h₂, h₃, h₄, h₅, h₆, h₇⟩

end Socket

end VideoLink
