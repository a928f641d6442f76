import VideoLink.Proofs.Session.Standing

/-! The wire carries one packet at a time and is never idle for nothing. It is busy exactly as long as the
event is pending that frees it, and when it is idle neither the queue nor the socket has a packet for it. -/
namespace VideoLink.Session

variable {σ γ : Type}

def pendingFrees (s : Session σ γ) (d : Direction) : Nat :=
  s.events.toList.countP (·.2 = .wireFree d)

/-- A wire is busy as long as one event is pending that frees it, and no queue is too long. -/
structure Exclusive (s : Session σ γ) : Prop where
  busy : ∀ d, s.pendingFrees d = (s.link.channel d).busy.toNat
  room : ∀ d, s.link.queued d ≤ s.link.settings.capacity

theorem busy_push (l : Link) (d e : Direction) (p : Packet) :
    ((l.push d p).channel e).busy = (l.channel e).busy := by
  cases d <;> cases e <;> rfl

theorem queue_push (l : Link) (d : Direction) (p : Packet) (e : Direction) :
    ((l.push d p).channel e).queue.toList =
      (l.channel e).queue.toList ++ if e = d then [p] else [] := by
  by_cases he : e = d
  · rw [if_pos he, he, Link.push, Link.channel_setChannel_self, Channel.push, Fifo.toList_push]
  · rw [if_neg he, Link.push, Link.channel_setChannel_of_ne _ he, List.append_nil]

theorem queue_start? {l link : Link} {d : Direction} {now : Instant} {x : Transmission}
    (h : l.start? d now = some (x, link)) (e : Direction) : (l.channel e).queue.toList =
      (if e = d then [x.packet] else []) ++ (link.channel e).queue.toList := by
  obtain ⟨_, queue, hpop, _, _, rfl⟩ := start?_eq_some h
  by_cases he : e = d
  · rw [if_pos he, he, Link.channel_setChannel_self]
    exact Fifo.toList_of_pop? hpop
  · rw [if_neg he, Link.channel_setChannel_of_ne _ he, List.nil_append]

/-- A packet that finds a queue full is dropped and leaves the channels as they are. -/
theorem channel_of_full {l : Link} {d : Direction} (h : ¬ l.queued d < l.settings.capacity)
    (p : Packet) (e : Direction) : ((l.enqueue d p).2.channel e).busy = (l.channel e).busy ∧
      ((l.enqueue d p).2.channel e).queue = (l.channel e).queue := by
  rw [enqueue_of_full h p]
  cases d <;> cases e <;> exact ⟨rfl, rfl⟩

theorem room_of_push {l : Link} {d : Direction} (hroom : l.queued d < l.settings.capacity)
    (h : ∀ e, l.queued e ≤ l.settings.capacity) (p : Packet) (e : Direction) :
    (l.push d p).queued e ≤ l.settings.capacity := by
  by_cases he : e = d
  · rw [he, queued_push]
    exact hroom
  · rw [Link.queued, Link.push, Link.channel_setChannel_of_ne _ he]
    exact h e

theorem Untouched.exclusive {c : Config} {monitor : Monitor} {segmenter : Segmenter}
    {s : Session σ γ} (h : s.Untouched c monitor segmenter) : s.Exclusive := by
  constructor
  · intro d
    have hnone : s.pendingFrees d = 0 := by
      rw [pendingFrees, List.countP_eq_zero]
      intro a ha
      rcases h.events a ha with heq | ⟨e, heq⟩ <;> rw [heq] <;> simp
    rw [hnone, h.link]
    cases d <;> rfl
  · intro d
    rw [h.link]
    cases d <;> exact Nat.zero_le _

theorem Opening.exclusive {now : Instant} {s t : Session σ γ} (h : s.Opening now t)
    (hs : s.Exclusive) : t.Exclusive := by
  have hpopped : ∀ {e : Event}, (∀ d, e ≠ .wireFree d) →
      s.events.pop? = some ((now, e), t.events) → ∀ d, t.pendingFrees d = s.pendingFrees d := by
    intro e he hpop d
    have hcount := EventQueue.countP_of_pop? hpop (fun e => decide (e = .wireFree d))
    rw [if_neg (by simpa using he d)] at hcount
    exact hcount.symm
  cases h with
  | tick hpop | due hpop | arrival hpop =>
    exact ⟨fun d => (hpopped (by simp) hpop d).trans (hs.busy d), hs.room⟩
  | @free d events hpop =>
    constructor
    · intro e
      have hcount := EventQueue.countP_of_pop? hpop (fun a => decide (a = .wireFree e))
      have hbusy := hs.busy e
      rw [pendingFrees, hcount] at hbusy
      show events.toList.countP (fun a => decide (a.2 = .wireFree e)) =
        ((s.link.setChannel d (s.link.channel d).release).channel e).busy.toNat
      by_cases he : e = d
      · subst he
        rw [Link.channel_setChannel_self]
        rw [if_pos (decide_eq_true rfl)] at hbusy
        have hle := Bool.toNat_le (s.link.channel e).busy
        show _ = 0
        omega
      · rw [Link.channel_setChannel_of_ne _ he]
        rw [if_neg (by simpa using Ne.symm he)] at hbusy
        exact hbusy
    · intro e
      have hsame : (s.link.complete d).queued e = s.link.queued e := by
        cases d <;> cases e <;> rfl
      rw [hsame]
      exact hs.room e

theorem Exclusive.start {s : Session σ γ} {d : Direction} {now : Instant} {t : Transmission}
    {link : Link} (hs : s.Exclusive) (horderly : s.events.Orderly)
    (hstart : s.link.start? d now = some (t, link)) :
    ((({ s with link } : Session σ γ).schedule t.finish (.wireFree d)).schedule t.arrival
      (.arrival d t.packet)).Exclusive := by
  obtain ⟨hidle, queue, hpop, _, _, rfl⟩ := start?_eq_some hstart
  have hfree := horderly.schedule t.finish (.wireFree d)
  constructor
  · intro e
    have hcount := hfree.countP_schedule t.arrival (.arrival d t.packet)
      (fun a => decide (a = .wireFree e))
    have hfirst := horderly.countP_schedule t.finish (.wireFree d)
      (fun a => decide (a = .wireFree e))
    have hother : ¬ decide (Event.arrival d t.packet = .wireFree e) = true := by simp
    rw [hfirst, if_neg hother] at hcount
    have hbusy := hs.busy e
    apply hcount.trans
    show s.pendingFrees e + _ + 0 = (Link.channel (Link.setChannel ..) e).busy.toNat
    by_cases he : e = d
    · subst he
      rw [Link.channel_setChannel_self, if_pos (decide_eq_true rfl), hbusy, hidle]
      rfl
    · rw [Link.channel_setChannel_of_ne _ he, if_neg (by simpa using Ne.symm he), hbusy]
      rfl
  · intro e
    show (Link.setChannel ..).queued e ≤ s.link.settings.capacity
    by_cases he : e = d
    · subst he
      have hsize := Fifo.size_of_pop? hpop
      have hroom := hs.room e
      rw [Link.queued, Link.channel_setChannel_self]
      unfold Link.queued at hroom
      show queue.size ≤ _
      omega
    · rw [Link.queued, Link.channel_setChannel_of_ne _ he]
      exact hs.room e

def started (s : Session σ γ) (d : Direction) (x : Transmission) (link : Link) : Session σ γ :=
  ({ s with link }.schedule x.finish (.wireFree d)).schedule x.arrival (.arrival d x.packet)

/-- What a move does to the channels, to the monitor and to the pending events. -/
inductive Route (now : Instant) (d : Direction) (s t : Session σ γ) : Prop
  /-- No packet moves. At most the next frame or segment of the direction is scheduled. -/
  | kept (busy : ∀ e, (t.link.channel e).busy = (s.link.channel e).busy)
      (queue : ∀ e, (t.link.channel e).queue = (s.link.channel e).queue)
      (monitor : t.monitor = s.monitor)
      (events : t.events = s.events ∨ ∃ time e, (e = .frameTick d ∨ e = .segmentDue d) ∧
        t.events = (s.events.schedule time e).2)
  /-- A packet with the next number enters the queue, from the socket or as an answer. -/
  | entered (p : Packet) (number : p.uid = s.uids.next)
      (source : p.payload = 0 ∨ ∃ g socket uids, s.generator? d = some g ∧
        g.socket.next? s.uids = some (p, socket, uids))
      (room : s.link.queued d < s.link.settings.capacity) (link : t.link = s.link.push d p)
      (monitor : t.monitor = s.monitor.send p.flow p.uid p.size now)
      (events : t.events = s.events)
  /-- The head of the queue takes the wire. -/
  | taken (x : Transmission) (link : Link) (start : s.link.start? d now = some (x, link))
      (eq : t = s.started d x link)

variable [Draws σ Nat] [Draws γ Span]

theorem Move.route {now : Instant} {d : Direction} {c : Config} {s t : Session σ γ}
    (h : Move now d s t) (hs : s.Standing c) : Route now d s t := by
  cases h with
  | note | frame | paced | segment | noSegment | count =>
    exact .kept (fun _ => rfl) (fun _ => rfl) rfl (.inl rfl)
  | armPacer _ _ harm =>
    refine .kept (fun _ => rfl) (fun _ => rfl) rfl ?_
    rcases Pacer.events_of_arm harm with heq | ⟨time, heq⟩
    · exact .inl heq
    · exact .inr ⟨time, _, .inr rfl, heq⟩
  | armSource _ harm =>
    refine .kept (fun _ => rfl) (fun _ => rfl) rfl ?_
    obtain ⟨_, _, heq | ⟨time, heq⟩⟩ := FrameSource.arm_cases harm
    · exact .inl heq
    · exact .inr ⟨time, _, .inl rfl, heq⟩
  | @load _ _ g p socket uids hroom hfound hnext =>
    obtain ⟨hnumber, _⟩ := hs.of_next? hfound hnext
    exact .entered p hnumber (.inr ⟨g, socket, uids, hfound, hnext⟩) hroom rfl rfl rfl
  | answer hfound hacks hcount hroom =>
    obtain ⟨rfl, rfl⟩ := AckCounter.of_onData hcount
    exact .entered _ rfl (.inl rfl) hroom rfl rfl rfl
  | @refuse _ _ _ _ _ _ ack _ _ _ hfull =>
    exact .kept (fun e => (channel_of_full hfull ack e).1) (fun e => (channel_of_full hfull ack e).2) rfl
      (.inl rfl)
  | start hstart => exact .taken _ _ hstart rfl

theorem Move.exclusive {now : Instant} {d : Direction} {c : Config} {s t : Session σ γ}
    (h : Move now d s t) (hstanding : s.Standing c) (hs : s.Exclusive) : t.Exclusive := by
  have hsettings := h.sameSetup.settings
  cases h.route hstanding with
  | kept hbusy hqueue _ hevents =>
    constructor
    · intro e
      rw [hbusy e, ← hs.busy e]
      rcases hevents with heq | ⟨time, a, ha, heq⟩ <;> rw [pendingFrees, heq]
      · rfl
      · have hother : ¬ decide (a = .wireFree e) = true := by rcases ha with rfl | rfl <;> simp
        rw [hstanding.orderly.countP_schedule time a (fun a => decide (a = .wireFree e)), if_neg hother]
        rfl
    · intro e
      rw [Link.queued, hqueue e, hsettings]
      exact hs.room e
  | entered p _ _ hroom hlink _ hevents =>
    constructor
    · intro e
      rw [pendingFrees, hevents, hlink, busy_push]
      exact hs.busy e
    · intro e
      rw [hsettings, hlink]
      exact room_of_push hroom hs.room p e
  | taken x link hstart heq =>
    rw [heq]
    exact hs.start hstanding.orderly hstart

theorem Reaches.exclusive {c : Config} {feeds : Duplex (Option (Feed σ γ))} {s t : Session σ γ}
    (h : s.Reaches t) (hs : s.Begins c feeds) (hrunning : t.summary? = none) : t.Exclusive := by
  obtain ⟨_, _, _, _, hu, _⟩ := (hs.note (.started s.directions.length)).untouched
  exact h.induct_moves hs hrunning hu.exclusive (fun _ hx hopen => hopen.exclusive hx)
    fun hstanding _ hx hmove => hmove.exclusive hstanding hx

/-! Work. -/

/-- Nothing waits for a wire that is free. -/
def Conserves (s : Session σ γ) (d : Direction) : Prop :=
  (s.link.channel d).busy = false → (s.link.channel d).queue.toList = [] ∧
    ∀ g, s.generator? d = some g → g.socket.unsent = 0

omit [Draws σ Nat] [Draws γ Span] in
theorem Conserves.of_same {s t : Session σ γ} {d : Direction} (h : s.Conserves d)
    (hbusy : (t.link.channel d).busy = (s.link.channel d).busy)
    (hqueue : (t.link.channel d).queue = (s.link.channel d).queue)
    (hsocket : (t.generator? d).map Generator.socket = (s.generator? d).map Generator.socket) :
    t.Conserves d := by
  intro hidle
  rw [hbusy] at hidle
  obtain ⟨hempty, hunsent⟩ := h hidle
  rw [hqueue]
  refine ⟨hempty, fun g hg => ?_⟩
  rw [hg, Option.map_some, eq_comm, Option.map_eq_some_iff] at hsocket
  obtain ⟨g', hg', heq⟩ := hsocket
  rw [← heq]
  exact hunsent g' hg'

omit [Draws σ Nat] [Draws γ Span] in
theorem socket_setGenerator {s : Session σ γ} {d : Direction} {g g' : Generator σ γ}
    (hfound : s.generator? d = some g) (hsocket : g'.socket = g.socket) (e : Direction) :
    ((s.setGenerator d g').generator? e).map Generator.socket =
      (s.generator? e).map Generator.socket := by
  by_cases he : e = d
  · rw [he, generator?_setGenerator, hfound, Option.map_some, Option.map_some, hsocket]
  · rw [generator?_setGenerator_of_ne _ he]

theorem Move.other {now : Instant} {d e : Direction} {s t : Session σ γ} (h : Move now d s t)
    (he : e ≠ d) : t.link.channel e = s.link.channel e ∧
      (t.generator? e).map Generator.socket = (s.generator? e).map Generator.socket := by
  have hset : ∀ g : Generator σ γ, ((s.setGenerator d g).generator? e).map Generator.socket =
      (s.generator? e).map Generator.socket := by
    intro g
    rw [generator?_setGenerator_of_ne _ he]
  have hanswer : ∀ {g : Generator σ γ}, s.generator? d.reverse = some g → ∀ acks?,
      ((s.setGenerator d.reverse { g with acks? }).generator? e).map Generator.socket =
        (s.generator? e).map Generator.socket := by
    intro g hfound acks?
    have hsocket : ({ g with acks? } : Generator σ γ).socket = g.socket := rfl
    exact socket_setGenerator hfound hsocket e
  cases h with
  | note => exact ⟨rfl, rfl⟩
  | frame | paced | segment | noSegment | armPacer | armSource => exact ⟨rfl, hset _⟩
  | load => exact ⟨Link.channel_setChannel_of_ne _ he _, hset _⟩
  | start hstart =>
    obtain ⟨_, queue, _, _, _, rfl⟩ := start?_eq_some hstart
    exact ⟨Link.channel_setChannel_of_ne _ he _, rfl⟩
  | count hfound => exact ⟨rfl, hanswer hfound _⟩
  | answer hfound | refuse hfound =>
    exact ⟨Link.channel_setChannel_of_ne _ he _, hanswer hfound _⟩

theorem Moves.conserves_of_ne {now : Instant} {d e : Direction} {s t : Session σ γ}
    (h : Moves now d s t) (he : e ≠ d) (hs : s.Conserves e) : t.Conserves e := by
  apply h.induct (P := fun u => u.Conserves e) hs
  intro u v hu hmove
  obtain ⟨hchannel, hsocket⟩ := hmove.other he
  exact hu.of_same (by rw [hchannel]) (by rw [hchannel]) hsocket

omit [Draws σ Nat] [Draws γ Span] in
theorem conserves_startWire {s : Session σ γ} {d : Direction} {now : Instant}
    (h : (s.link.channel d).queue.toList = [] → s.Conserves d) : (s.startWire d now).Conserves d := by
  rcases s.startWire_cases d now with ⟨hstart, heq⟩ | ⟨t, link, _, _, hstart, heq⟩ <;>
    intro hidle <;> rw [heq] at hidle ⊢
  · apply h _ hidle
    have hfree : s.link.isIdle d = true := by rw [Link.isIdle, hidle]; rfl
    rw [Link.start?, if_pos hfree, Option.map_eq_none_iff, Link.dequeue?, Option.map_eq_none_iff,
      Channel.dequeue?, Option.map_eq_none_iff] at hstart
    exact Fifo.pop?_eq_none.1 hstart
  · obtain ⟨_, _, _, _, _, rfl⟩ := start?_eq_some hstart
    change ((Link.setChannel ..).channel d).busy = false at hidle
    rw [Link.channel_setChannel_self] at hidle
    cases hidle

omit [Draws σ Nat] [Draws γ Span] in
/-- Loading goes on until the queue is full or the socket has no packet. -/
theorem load?_loadUpTo (d : Direction) (now : Instant) (n : Nat) (s : Session σ γ) :
    (loadUpTo d now n s).link.room d = s.link.room d - n ∨ (loadUpTo d now n s).load? d now = none := by
  induction n generalizing s with
  | zero => exact .inl rfl
  | succ n ih =>
    rw [loadUpTo]
    cases hload : s.load? d now with
    | none => exact .inr hload
    | some t =>
      refine (ih t).imp (fun hroom => ?_) id
      obtain ⟨g, p, socket, uids, _, _, rfl⟩ := load?_eq_some hload
      have hpush : Link.room _ d = _ := room_push s.link d p
      dsimp only at hroom ⊢
      rw [hroom, hpush]
      omega

omit [Draws σ Nat] [Draws γ Span] in
theorem load?_eq_none {s : Session σ γ} {d : Direction} {now : Instant}
    (h : s.load? d now = none) : ∀ g, s.generator? d = some g → g.socket.next? s.uids = none := by
  intro g hfound
  cases hnext : g.socket.next? s.uids with
  | none => rfl
  | some r =>
    obtain ⟨p, socket, uids⟩ := r
    simp only [load?, hfound, hnext, Option.bind_eq_bind, Option.bind_some, Option.pure_def] at h
    cases h

theorem conserves_fill {c : Config} {s : Session σ γ} (hs : s.Standing c) (hc : 0 < c.link.capacity)
    (d : Direction) (now : Instant) : (s.fill d now).Conserves d := by
  rw [fill_eq]
  obtain ⟨hloaded, _⟩ := (moves_loadUpTo d now (s.link.room d) s (Nat.le_refl _)).standing hs
  have hend := load?_loadUpTo d now (s.link.room d) s
  generalize loadUpTo d now (s.link.room d) s = t at hloaded hend
  refine conserves_startWire fun hempty _ => ⟨hempty, fun g hfound => ?_⟩
  have hroom : 0 < t.link.room d := by
    have hsize := (t.link.channel d).queue.length_toList
    rw [hempty, List.length_nil] at hsize
    rw [Link.room, Link.queued, hloaded.settings, ← hsize]
    omega
  rcases hend with hfull | hnone
  · omega
  · exact (hloaded.fit d g hfound).sound.unsent_eq_zero
      (Socket.next?_eq_none (load?_eq_none hnone g hfound))

theorem Moves.conserves_fill {c : Config} {now : Instant} {d : Direction} {s u : Session σ γ}
    (h : Moves now d s u) (hs : s.Standing c) (hc : 0 < c.link.capacity)
    (hother : ∀ e, e ≠ d → s.Conserves e) : ∀ e, (u.fill d now).Conserves e := by
  intro e
  by_cases he : e = d
  · rw [he]
    exact Session.conserves_fill (h.standing hs).1 hc d now
  · exact (h.trans (moves_fill u d now)).conserves_of_ne he (hother e he)

theorem conserves_acknowledge {s : Session σ γ} (h : ∀ e, s.Conserves e) (d : Direction)
    (now : Instant) : ∀ e, (s.acknowledge d.reverse now).Conserves e := by
  intro e
  by_cases he : e = d
  · have hcases := s.acknowledge_cases d.reverse now
    rw [d.reverse_reverse] at hcases
    rw [he]
    rcases hcases with ⟨heq, _⟩ | ⟨g, acks, rest, uids, hfound, hacks, hcases⟩
    · rw [heq]
      exact h d
    · have hsocket : ({ g with acks? := some rest } : Generator σ γ).socket = g.socket := rfl
      have hsame := socket_setGenerator hfound hsocket d
      rcases hcases with ⟨_, heq⟩ | ⟨ack, _, ⟨_, heq⟩ | ⟨hfull, journal, heq⟩⟩ <;> rw [heq]
      · exact (h d).of_same rfl rfl hsame
      · apply conserves_startWire
        intro hempty
        change ((Link.setChannel ..).channel d).queue.toList = [] at hempty
        rw [Link.channel_setChannel_self, Channel.push, Fifo.toList_push] at hempty
        exact absurd hempty (List.append_ne_nil_of_right_ne_nil _ (List.cons_ne_nil _ _))
      · obtain ⟨hbusy, hqueue⟩ := channel_of_full hfull ack d
        exact (h d).of_same hbusy hqueue hsame
  · exact (moves_acknowledge s d now).conserves_of_ne he (h e)

theorem Standing.conserves_of_step? {c : Config} {s t : Session σ γ} (hs : s.Standing c)
    (hc : 0 < c.link.capacity) (hall : ∀ d, s.Conserves d) (h : s.step? = some t)
    (hrunning : t.summary? = none) : ∀ d, t.Conserves d := by
  obtain ⟨_, now, e, events, hpop, rfl⟩ := step?_eq_some h
  have hall' : ∀ d, (s.advanced events).Conserves d := hall
  cases e with
  | frameTick d =>
    obtain ⟨hu, _⟩ := (Opening.tick hpop).standing hs
    rcases onFrameTick_cases (s.advanced events) d now with heq | ⟨u, hmoves, heq⟩ <;>
      rw [handle, heq]
    · exact hall'
    · exact hmoves.conserves_fill hu hc fun e _ => hall' e
  | segmentDue d =>
    obtain ⟨hu, _⟩ := (Opening.due hpop).standing hs
    rcases onSegmentDue_cases (s.advanced events) d now with heq | ⟨u, hmoves, heq⟩ <;>
      rw [handle, heq]
    · exact hall'
    · exact hmoves.conserves_fill hu hc fun e _ => hall' e
  | wireFree d =>
    obtain ⟨hu, _⟩ := (Opening.free hpop).standing hs
    -- A wire that was freed may find packets waiting until it is filled again.
    refine Moves.conserves_fill .refl hu hc fun e he => ?_
    have hchannel := s.link.channel_setChannel_of_ne he (s.link.channel d).release
    exact (hall e).of_same (congrArg Channel.busy hchannel) (congrArg Channel.queue hchannel) rfl
  | arrival d p =>
    obtain ⟨journal, capture, hreceive⟩ := receive_eq (s.advanced events) d now p
    rw [handle, onArrival, hreceive]
    cases p.kind with
    | data =>
      have hacknowledge := conserves_acknowledge (s := { s.advanced events with
        journal
        capture
        monitor := ((s.advanced events).monitor.receive p.flow p.uid p.size now).2 }) hall
        d.reverse now
      rw [d.reverse_reverse] at hacknowledge
      exact hacknowledge
    | ack => exact hall
  | stop =>
    obtain ⟨_, _, heq, _⟩ := onStop_eq (s.advanced events) now
    rw [handle, heq] at hrunning
    cases hrunning

omit [Draws σ Nat] [Draws γ Span] in
theorem Begins.conserves {c : Config} {feeds : Duplex (Option (Feed σ γ))} {s : Session σ γ}
    (h : s.Begins c feeds) (d : Direction) : s.Conserves d := by
  obtain ⟨_, _, _, _, hu, hgen⟩ := h.untouched
  intro _
  rw [hu.link]
  refine ⟨by cases d <;> rfl, fun g hfound => ?_⟩
  obtain ⟨pending?, hd⟩ := hgen d
  rw [hfound] at hd
  obtain ⟨feed, _, rfl⟩ := Option.map_eq_some_iff.1 hd.symm
  rfl

theorem Reaches.conserves {c : Config} {feeds : Duplex (Option (Feed σ γ))} {s t : Session σ γ}
    (h : s.Reaches t) (hs : s.Begins c feeds) (hrunning : t.summary? = none) :
    ∀ d, t.Conserves d :=
  h.induct_running (P := fun t => ∀ d, t.Conserves d) hs hrunning (hs.note _).conserves
    fun hu hall hstep hv => hu.conserves_of_step? hs.positive.capacity hall hstep hv

/-! Transmissions. -/

/-- A busy wire stays busy and takes no packet. -/
structure Holds (d : Direction) (s t : Session σ γ) : Prop where
  busy : (t.link.channel d).busy = true
  packets : (t.link.stats d).packets = (s.link.stats d).packets
  bytes : (t.link.stats d).bytes = (s.link.stats d).bytes

theorem Move.holds {now : Instant} {d e : Direction} {s t : Session σ γ} (h : Move now d s t)
    (hbusy : (s.link.channel e).busy = true) : Holds e s t := by
  have hpush : ∀ p, (s.link.push d p).stats e = s.link.stats e := by
    intro p
    cases d <;> cases e <;> rfl
  cases h with
  | note | frame | paced | segment | noSegment | armPacer | armSource | count =>
    exact ⟨hbusy, rfl, rfl⟩
  | load | answer =>
    refine ⟨(busy_push ..).trans hbusy, ?_, ?_⟩
    · exact congrArg ChannelStats.packets (hpush _)
    · exact congrArg ChannelStats.bytes (hpush _)
  | @refuse _ _ g acks rest uids ack hfound hacks hcount hfull =>
    have hlink := congrArg Prod.snd (enqueue_of_full hfull ack)
    refine ⟨(channel_of_full hfull ack e).1.trans hbusy, ?_, ?_⟩
    · show ((s.link.enqueue d ack).2.stats e).packets = _
      rw [hlink]
      cases d <;> cases e <;> rfl
    · show ((s.link.enqueue d ack).2.stats e).bytes = _
      rw [hlink]
      cases d <;> cases e <;> rfl
  | start hstart =>
    obtain ⟨hidle, queue, _, _, _, rfl⟩ := start?_eq_some hstart
    have he : e ≠ d := by
      intro heq
      rw [heq, hidle] at hbusy
      cases hbusy
    have hchannel := s.link.channel_setChannel_of_ne he
    exact ⟨(congrArg Channel.busy (hchannel _)).trans hbusy,
      congrArg (·.stats.packets) (hchannel _), congrArg (·.stats.bytes) (hchannel _)⟩

theorem holds_of_step? {s t : Session σ γ} (h : s.step? = some t) (hrunning : t.summary? = none)
    {d : Direction} (hbusy : (s.link.channel d).busy = true)
    (hother : ∀ now events, s.events.pop? ≠ some ((now, .wireFree d), events)) : Holds d s t := by
  obtain ⟨now, e, u, hopen, hmoves⟩ := opening_of_step? h hrunning
  have hu : Holds d s u := by
    cases hopen with
    | tick | due | arrival => exact ⟨hbusy, rfl, rfl⟩
    | @free d' events hpop =>
      have hne : d ≠ d' := by
        intro heq
        exact hother now events (heq ▸ hpop)
      have hchannel := s.link.channel_setChannel_of_ne hne (s.link.channel d').release
      exact ⟨(congrArg Channel.busy hchannel).trans hbusy,
        congrArg (·.stats.packets) hchannel, congrArg (·.stats.bytes) hchannel⟩
  apply hmoves.induct (P := Holds d s) hu
  intro v w hv hmove
  have hw := hmove.holds hv.busy
  exact ⟨hw.busy, hw.packets.trans hv.packets, hw.bytes.trans hv.bytes⟩

/-- The wire of each direction carries one packet at a time and is never idle for nothing, whatever is
drawn. -/
theorem wire_is_exclusive_and_conserves_work {c : Config} {feeds : Duplex (Option (Feed σ γ))}
    {s : Session σ γ} (hs : s.Begins c feeds) :
    (∀ t, s.Reaches t → t.summary? = none → ∀ d,
      ((t.link.channel d).busy = true ↔ t.pendingFrees d = 1) ∧ t.pendingFrees d ≤ 1 ∧
      t.link.queued d ≤ c.link.capacity ∧ t.Conserves d) ∧
    ∀ t u, s.Reaches t → t.step? = some u → u.summary? = none → ∀ d,
      (t.link.channel d).busy = true →
      (∀ now events, t.events.pop? ≠ some ((now, .wireFree d), events)) → Holds d t u := by
  refine ⟨fun t hreach hrunning d => ?_, fun t u _ hstep hrunning d hbusy hother =>
    holds_of_step? hstep hrunning hbusy hother⟩
  have hexclusive := hreach.exclusive hs hrunning
  have hpending := hexclusive.busy d
  have hroom := hexclusive.room d
  rw [(hreach.standing hs).settings] at hroom
  refine ⟨?_, ?_, hroom, hreach.conserves hs hrunning d⟩
  · rw [hpending]
    cases (t.link.channel d).busy <;> decide
  · rw [hpending]
    exact Bool.toNat_le _

theorem brief_wire : ∃ s : Session (Constant Nat) (Constant Span),
    s.Begins (.brief .tcp) .brief ∧ ∀ t, s.Reaches t → t.summary? = none → ∀ d,
      ((t.link.channel d).busy = true ↔ t.pendingFrees d = 1) ∧ t.pendingFrees d ≤ 1 ∧
      t.link.queued d ≤ 100 ∧ t.Conserves d := by
  obtain ⟨s, hs⟩ := exists_brief .tcp
  exact ⟨s, hs, (wire_is_exclusive_and_conserves_work hs).1⟩

end VideoLink.Session
