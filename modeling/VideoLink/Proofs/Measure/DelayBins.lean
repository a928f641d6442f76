import VideoLink.Proofs.Measure.Records

/-! The first bins of the delays. As long as no delay is shorter than some span, every bin before that of
the span is empty in the histogram of every flow. -/
namespace VideoLink

namespace Histogram

def EmptyBelow (h : Histogram) (least : Span) : Prop := ∀ i < h.indexOf least, h.count i = 0

theorem indexOf_le_indexOf (h : Histogram) {a b : Span} (hab : a ≤ b) :
    h.indexOf a ≤ h.indexOf b := by
  have hdiv : a.nanos / h.width.nanos ≤ b.nanos / h.width.nanos := Nat.div_le_div_right hab
  unfold indexOf
  omega

theorem indexOf_add (h : Histogram) (value a : Span) : (h.add value).indexOf a = h.indexOf a := by
  have hsize : (h.add value).counts.size = h.counts.size := Array.size_modify
  unfold indexOf binCount
  rw [hsize]
  rfl

theorem count_of_new? {width : Span} {bins : Nat} {h : Histogram} (hnew : new? width bins = .ok h)
    (i : Nat) : h.count i = 0 := by
  obtain ⟨_, hcounts, _⟩ := of_new? hnew
  rw [count, hcounts, Array.getElem?_replicate]
  split <;> rfl

theorem EmptyBelow.add {h : Histogram} {least value : Span} (hh : h.EmptyBelow least)
    (hle : least ≤ value) : (h.add value).EmptyBelow least := by
  intro i hi
  rw [indexOf_add] at hi
  have hlater := h.indexOf_le_indexOf hle
  have hsame : (h.add value).counts[i]? = h.counts[i]? := by
    show (h.counts.modify (h.indexOf value) (· + 1))[i]? = _
    rw [Array.getElem?_modify, if_neg (by omega)]
  rw [count, hsame]
  exact hh i hi

end Histogram

namespace Monitor

structure DelaysFrom (least : Span) (m : Monitor) : Prop where
  fresh : m.fresh.delays.histogram.EmptyBelow least
  flows : ∀ a ∈ m.flows, a.2.delays.histogram.EmptyBelow least

namespace DelaysFrom

variable {least : Span} {m : Monitor}

theorem update (h : m.DelaysFrom least) (key : FlowKey) {f : FlowRecord → FlowRecord}
    (hf : ∀ r, r.delays.histogram.EmptyBelow least → (f r).delays.histogram.EmptyBelow least) :
    (m.update key f).DelaysFrom least := by
  suffices hall : ∀ l : List (FlowKey × FlowRecord),
      (∀ a ∈ l, a.2.delays.histogram.EmptyBelow least) →
      ∀ a ∈ updateRecords m.fresh key f l, a.2.delays.histogram.EmptyBelow least from
    ⟨h.fresh, hall m.flows h.flows⟩
  intro l hl
  induction l with
  | nil =>
    intro a ha
    rw [updateRecords, List.mem_singleton] at ha
    rw [ha]
    exact hf _ h.fresh
  | cons b l ih =>
    obtain ⟨k, r⟩ := b
    have hr := hl (k, r) List.mem_cons_self
    have hrest := fun a ha => hl a (List.mem_cons_of_mem _ ha)
    intro a ha
    rw [updateRecords] at ha
    split at ha
    · rcases List.mem_cons.1 ha with rfl | ha
      · exact hf r hr
      · exact hrest a ha
    · rcases List.mem_cons.1 ha with rfl | ha
      · exact hr
      · exact ih hrest a ha

theorem send (h : m.DelaysFrom least) (key : FlowKey) (uid bytes : Nat) (now : Instant) :
    (m.send key uid bytes now).DelaysFrom least := by
  have hcounted := h.update key (f := (·.addSent bytes now)) fun _ hr => hr
  exact ⟨hcounted.fresh, hcounted.flows⟩

theorem receive (h : m.DelaysFrom least) {key : FlowKey} {uid : Nat} {sentAt now : Instant}
    (hknown : m.inFlight[uid]? = some ⟨key, sentAt⟩) (hle : sentAt ≤ now)
    (hdelay : least ≤ now.elapsed sentAt) (bytes : Nat) :
    (m.receive key uid bytes now).2.DelaysFrom least := by
  rw [receive_of_known hknown hle bytes]
  have hforgotten : { m with inFlight := m.inFlight.erase uid }.DelaysFrom least := ⟨h.fresh, h.flows⟩
  exact hforgotten.update key fun _ hr => hr.add hdelay

theorem giveUp (h : m.DelaysFrom least) (now : Instant) : (m.giveUp now).2.DelaysFrom least := by
  suffices hall : ∀ (l : List (Nat × InFlight)) (m : Monitor), m.DelaysFrom least →
      (l.foldl addLost m).DelaysFrom least by
    rw [giveUp_eq]
    exact hall _ _ ⟨h.fresh, h.flows⟩
  intro l
  induction l with
  | nil => exact fun _ hm => hm
  | cons a l ih => exact fun m hm => ih _ (hm.update a.2.flow fun _ hr => hr)

end DelaysFrom

end Monitor

end VideoLink
