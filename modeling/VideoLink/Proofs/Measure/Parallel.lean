import VideoLink.Proofs.Measure.Digest

/-! Two monitors that are told the same. They may have bins of their own; everything else that they measure
is the same, and both fill their bins with the same samples. -/
namespace VideoLink

structure FlowRecord.Agrees (r r' : FlowRecord) : Prop where
  sent : r.sent = r'.sent
  received : r.received = r'.received
  lost : r.lost = r'.lost
  unattributed : r.unattributed = r'.unattributed
  delaySum : r.delays.sum = r'.delays.sum
  jitterSum : r.jitters.sum = r'.jitters.sum
  lastDelay? : r.lastDelay? = r'.lastDelay?

/-- Two records of the same packets, each with its own bins. -/
structure FlowRecord.Parallel (a a' : MonitorSettings) (r r' : FlowRecord) : Prop where
  agrees : r.Agrees r'
  digests : ∃ sent arrived, r.Digests a sent arrived ∧ r'.Digests a' sent arrived

namespace FlowRecord.Parallel

variable {a a' : MonitorSettings} {r r' : FlowRecord}

theorem addSent (h : Parallel a a' r r') (bytes : Nat) (now : Instant) (key : FlowKey) :
    Parallel a a' (r.addSent bytes now) (r'.addSent bytes now) := by
  obtain ⟨sent, arrived, hr, hr'⟩ := h.digests
  exact ⟨{ h.agrees with sent := congrArg (·.add bytes now) h.agrees.sent }, _, _,
    hr.addSent ⟨key, bytes, now⟩, hr'.addSent ⟨key, bytes, now⟩⟩

theorem addLost (h : Parallel a a' r r') : Parallel a a' r.addLost r'.addLost := by
  obtain ⟨sent, arrived, hr, hr'⟩ := h.digests
  exact ⟨{ h.agrees with lost := congrArg (· + 1) h.agrees.lost }, sent, arrived,
    hr.of_same rfl ⟨rfl, rfl, rfl, rfl⟩, hr'.of_same rfl ⟨rfl, rfl, rfl, rfl⟩⟩

theorem addUnattributed (h : Parallel a a' r r') :
    Parallel a a' r.addUnattributed r'.addUnattributed := by
  obtain ⟨sent, arrived, hr, hr'⟩ := h.digests
  exact ⟨{ h.agrees with unattributed := congrArg (· + 1) h.agrees.unattributed }, sent, arrived,
    hr.of_same rfl ⟨rfl, rfl, rfl, rfl⟩, hr'.of_same rfl ⟨rfl, rfl, rfl, rfl⟩⟩

theorem addReceived (h : Parallel a a' r r') (bytes : Nat) (now : Instant) (delay : Span)
    (key : FlowKey) : Parallel a a' (r.addReceived bytes now delay)
      (r'.addReceived bytes now delay) := by
  obtain ⟨sent, arrived, hr, hr'⟩ := h.digests
  have hjitter : (r.addReceived bytes now delay).jitters.sum =
      (r'.addReceived bytes now delay).jitters.sum := by
    unfold FlowRecord.addReceived
    rw [← h.agrees.lastDelay?, ← h.agrees.received]
    cases r.lastDelay? with
    | none => exact h.agrees.jitterSum
    | some last =>
      dsimp only
      split
      · exact congrArg (· + delay.distance last) h.agrees.jitterSum
      · exact h.agrees.jitterSum
  have hagrees : (r.addReceived bytes now delay).Agrees (r'.addReceived bytes now delay) :=
    { h.agrees with
      received := congrArg (·.add bytes now) h.agrees.received
      delaySum := congrArg (· + delay) h.agrees.delaySum
      jitterSum := hjitter
      lastDelay? := rfl }
  exact ⟨hagrees, _, _, hr.addReceived ⟨⟨key, bytes, now⟩, delay⟩,
    hr'.addReceived ⟨⟨key, bytes, now⟩, delay⟩⟩

end FlowRecord.Parallel

abbrev FlowsParallel (a a' : MonitorSettings) :
    List (FlowKey × FlowRecord) → List (FlowKey × FlowRecord) → Prop :=
  List.Forall₂ fun x x' => x.1 = x'.1 ∧ x.2.Parallel a a' x'.2

namespace Monitor

/-- Two monitors that have been told the same, each with its own bins. -/
structure Parallel (a a' : MonitorSettings) (m m' : Monitor) : Prop where
  maxDelay : m.maxDelay = m'.maxDelay
  fresh : m.fresh.Parallel a a' m'.fresh
  flows : FlowsParallel a a' m.flows m'.flows
  inFlight : m.inFlight = m'.inFlight
  unattributed : m.unattributed = m'.unattributed

namespace Parallel

variable {a a' : MonitorSettings} {m m' : Monitor} {f : FlowRecord → FlowRecord}

theorem of_new? (hmax : a.maxDelay = a'.maxDelay) (hm : new? a = .ok m) (hm' : new? a' = .ok m') :
    Parallel a a' m m' := by
  obtain ⟨_, _, hdelays, hjitters, rfl⟩ := Monitor.of_new? hm
  obtain ⟨_, _, hdelays', hjitters', rfl⟩ := Monitor.of_new? hm'
  exact ⟨hmax, ⟨⟨rfl, rfl, rfl, rfl, rfl, rfl, rfl⟩, [], [], .empty hdelays hjitters,
    .empty hdelays' hjitters'⟩, .nil, rfl, rfl⟩

theorem update (h : Parallel a a' m m')
    (hf : ∀ {r r' : FlowRecord}, r.Parallel a a' r' → (f r).Parallel a a' (f r')) (key : FlowKey) :
    Parallel a a' (m.update key f) (m'.update key f) := by
  suffices hflows : ∀ {l l'}, FlowsParallel a a' l l' → FlowsParallel a a'
      (updateRecords m.fresh key f l) (updateRecords m'.fresh key f l') from
    { h with flows := hflows h.flows }
  intro l l' hl
  induction hl with
  | nil => exact .cons ⟨rfl, hf h.fresh⟩ .nil
  | cons hx hl ih =>
    obtain ⟨hkey, hrecord⟩ := hx
    rw [updateRecords, updateRecords, ← hkey]
    split
    · exact .cons ⟨rfl, hf hrecord⟩ hl
    · exact .cons ⟨rfl, hrecord⟩ ih

theorem countUnattributed (h : Parallel a a' m m') (key : FlowKey) :
    Parallel a a' (m.countUnattributed key) (m'.countUnattributed key) := by
  have hcounted : Parallel a a' { m with unattributed := m.unattributed + 1 }
      { m' with unattributed := m'.unattributed + 1 } :=
    { h with unattributed := congrArg (· + 1) h.unattributed }
  exact hcounted.update (·.addUnattributed) key

theorem send (h : Parallel a a' m m') (key : FlowKey) (uid bytes : Nat) (now : Instant) :
    Parallel a a' (m.send key uid bytes now) (m'.send key uid bytes now) :=
  { h.update (·.addSent bytes now key) key with
    inFlight := congrArg (·.insert uid ⟨key, now⟩) h.inFlight }

theorem receive (h : Parallel a a' m m') (key : FlowKey) (uid bytes : Nat) (now : Instant) :
    (m.receive key uid bytes now).1 = (m'.receive key uid bytes now).1 ∧
      Parallel a a' (m.receive key uid bytes now).2 (m'.receive key uid bytes now).2 := by
  have herased : Parallel a a' { m with inFlight := m.inFlight.erase uid }
      { m' with inFlight := m'.inFlight.erase uid } :=
    { h with inFlight := congrArg (·.erase uid) h.inFlight }
  have hknown : m'.inFlight[uid]? = m.inFlight[uid]? := by rw [h.inFlight]
  unfold Monitor.receive Monitor.countReceived
  rw [hknown]
  split
  · dsimp only
    split
    · split
      · exact ⟨rfl, herased.update (·.addReceived bytes now _ key) key⟩
      · exact ⟨rfl, herased.countUnattributed key⟩
    · exact ⟨rfl, (herased.update (·.addLost) _).countUnattributed key⟩
  · exact ⟨rfl, h.countUnattributed key⟩

theorem giveUp (h : Parallel a a' m m') (now : Instant) :
    (m.giveUp now).1 = (m'.giveUp now).1 ∧
      Parallel a a' (m.giveUp now).2 (m'.giveUp now).2 := by
  have hlate : m.isOverdue now = m'.isOverdue now := by
    unfold isOverdue
    rw [h.maxDelay]
  have hoverdue : m.overdue now = m'.overdue now := by
    unfold overdue
    rw [h.inFlight, hlate]
  have hkept : Parallel a a'
      { m with inFlight := m.inFlight.filter fun _ packet => !m.isOverdue now packet }
      { m' with inFlight := m'.inFlight.filter fun _ packet => !m'.isOverdue now packet } :=
    { h with inFlight := by rw [h.inFlight, hlate] }
  have hlost : ∀ (l : List (Nat × InFlight)) {m m' : Monitor}, Parallel a a' m m' →
      Parallel a a' (l.foldl addLost m) (l.foldl addLost m') := by
    intro l
    induction l with
    | nil => exact id
    | cons x l ih => exact fun h => ih (h.update (·.addLost) x.2.flow)
  rw [giveUp_eq, giveUp_eq, hoverdue]
  exact ⟨rfl, hlost _ hkept⟩

theorem snapshot (h : Parallel a a' m m') :
    List.Forall₂ (fun e e' => e.id = e'.id ∧ e.key = e'.key ∧ e.record.Parallel a a' e'.record)
      m.snapshot.flows m'.snapshot.flows := by
  suffices hentries : ∀ {l l'} (n : Nat), FlowsParallel a a' l l' →
      List.Forall₂ (fun e e' => e.id = e'.id ∧ e.key = e'.key ∧ e.record.Parallel a a' e'.record)
        (l.mapIdx fun i x => (⟨i + n, x.1, x.2⟩ : FlowEntry))
        (l'.mapIdx fun i x => (⟨i + n, x.1, x.2⟩ : FlowEntry)) from hentries 1 h.flows
  intro l l' n hl
  induction hl generalizing n with
  | nil => exact .nil
  | cons hx hl ih =>
    rw [List.mapIdx_cons, List.mapIdx_cons]
    refine .cons ⟨rfl, hx⟩ ?_
    simp only [Nat.add_right_comm _ 1 n, Nat.add_assoc]
    exact ih (n + 1)

end Parallel

end Monitor

end VideoLink
