import VideoLink.Proofs.Calls
import VideoLink.Proofs.Transport.Pieces
import VideoLink.Video.Segments

/-! What a sink is offered of a frame. Segments go to the sink one after another, and the first that it
refuses is the last that it sees; what became of the frame can be read off the answers of the sink. -/
namespace VideoLink

abbrev Reply := Except TransportError SendStatus

namespace Reply

def error? : Reply → Option TransportError
  | .error error => some error
  | .ok _ => none

def isRefusal (r : Reply) : Bool := (error? r).isSome

def isDeferred : Reply → Bool
  | .ok .deferred => true
  | _ => false

end Reply

namespace DispatchOutcome

/-- What becomes of segments by the answers to them: those before the first refusal are taken, and that one
and all after it are lost. -/
def ofReplies (sizes : List Nat) (replies : List Reply) : DispatchOutcome :=
  let taken := replies.findIdx Reply.isRefusal
  { segments := (sizes.take taken).length
    bytes := weight id (sizes.take taken)
    deferred := (replies.take taken).countP Reply.isDeferred
    failed := (sizes.drop taken).length
    failedBytes := weight id (sizes.drop taken)
    error? := replies.findSome? Reply.error? }

def followedBy (o p : DispatchOutcome) : DispatchOutcome :=
  { p with
    segments := o.segments + p.segments
    bytes := o.bytes + p.bytes
    deferred := o.deferred + p.deferred }

theorem ofReplies_taken (size : Nat) (sizes : List Nat) (status : SendStatus) (replies : List Reply) :
    ofReplies (size :: sizes) (.ok status :: replies) =
      (({} : DispatchOutcome).addTaken size status).followedBy (ofReplies sizes replies) := by
  have hfirst : Reply.isRefusal (.ok status) = false := rfl
  have herror : Reply.error? (.ok status) = none := rfl
  cases status <;>
    simp [ofReplies, followedBy, addTaken, List.findIdx_cons, hfirst, herror, List.countP_cons,
      Reply.isDeferred, Nat.add_comm]

theorem ofReplies_refused (size : Nat) (sizes : List Nat) (error : TransportError)
    (replies : List Reply) : ofReplies (size :: sizes) (.error error :: replies) =
      ({} : DispatchOutcome).addRefused size sizes error := by
  have hfirst : Reply.isRefusal (.error error) = true := rfl
  have herror : Reply.error? (.error error) = some error := rfl
  simp [ofReplies, addRefused, List.findIdx_cons, hfirst, herror, foldl_add]

theorem followedBy_taken (o p : DispatchOutcome) (size : Nat) (status : SendStatus) :
    o.followedBy ((({} : DispatchOutcome).addTaken size status).followedBy p) =
      (o.addTaken size status).followedBy p := by
  cases status <;> simp [followedBy, addTaken, Nat.add_assoc]

theorem ofReplies_total (sizes : List Nat) (replies : List Reply) :
    (ofReplies sizes replies).segments + (ofReplies sizes replies).failed = sizes.length ∧
      (ofReplies sizes replies).bytes + (ofReplies sizes replies).failedBytes = weight id sizes := by
  have hsplit := List.take_append_drop (replies.findIdx Reply.isRefusal) sizes
  constructor
  · exact (List.length_append ..).symm.trans (congrArg List.length hsplit)
  · exact (weight_append ..).symm.trans (congrArg (weight id) hsplit)

theorem ofReplies_of_no_error {sizes : List Nat} {replies : List Reply}
    (hlength : replies.length = sizes.length) (hnone : (ofReplies sizes replies).error? = none) :
    (ofReplies sizes replies).failed = 0 ∧ (ofReplies sizes replies).failedBytes = 0 := by
  have hfind : ∀ r ∈ replies, Reply.error? r = none := List.findSome?_eq_none_iff.1 hnone
  have hall : replies.findIdx Reply.isRefusal = sizes.length := by
    rw [← hlength]
    exact List.findIdx_eq_length.2 fun r hr => by simp [Reply.isRefusal, hfind r hr]
  have hdrop : sizes.drop (replies.findIdx Reply.isRefusal) = [] := by rw [hall, List.drop_length]
  exact ⟨congrArg List.length hdrop, congrArg (weight id) hdrop⟩

end DispatchOutcome

/-- A sink together with the segments that were offered to it. -/
structure Watched (τ : Type) where
  sink : τ
  offers : List Nat := []

variable {τ : Type} [SegmentSink τ]

instance : SegmentSink (Watched τ) where
  send w size :=
    let (reply, sink) := SegmentSink.send w.sink size
    (reply, ⟨sink, w.offers ++ [size]⟩)

/-- The answers of a sink to segments that are all offered to it. -/
def repliesTo (sink : τ) (sizes : List Nat) : List Reply := answers SegmentSink.send sink sizes

/-- The segments up to the first that a sink refuses, with that one. -/
def offered (sink : τ) (sizes : List Nat) : List Nat :=
  sizes.take ((repliesTo sink sizes).findIdx Reply.isRefusal + 1)

section

variable {sink next : τ} {size : Nat} {status : SendStatus} {error : TransportError} (rest : List Nat)

theorem repliesTo_cons (sink : τ) (size : Nat) : repliesTo sink (size :: rest) =
    (SegmentSink.send sink size).1 :: repliesTo (SegmentSink.send sink size).2 rest := rfl

theorem offered_of_taken (h : SegmentSink.send sink size = (.ok status, next)) :
    offered sink (size :: rest) = size :: offered next rest := by
  simp [offered, repliesTo_cons, h, List.findIdx_cons, Reply.isRefusal, Reply.error?]

theorem offered_of_refused (h : SegmentSink.send sink size = (.error error, next)) :
    offered sink (size :: rest) = [size] := by
  simp [offered, repliesTo_cons, h, List.findIdx_cons, Reply.isRefusal, Reply.error?]

end

/-- The loop goes on as if it had just begun, and counts from what it has counted so far. -/
theorem dispatch_go_eq (sink : τ) (sizes : List Nat) {o : DispatchOutcome} (hfailed : o.failed = 0)
    (hbytes : o.failedBytes = 0) (herror : o.error? = none) : dispatch.go o sink sizes =
      (o.followedBy (.ofReplies sizes (repliesTo sink sizes)),
        after SegmentSink.send sink (offered sink sizes)) := by
  induction sizes generalizing sink o with
  | nil =>
    cases o
    subst hfailed hbytes herror
    rfl
  | cons size rest ih =>
    rw [dispatch.go, repliesTo_cons]
    rcases hsend : SegmentSink.send sink size with ⟨error | status, next⟩
    · rw [offered_of_refused rest hsend, DispatchOutcome.ofReplies_refused, after, List.foldl_cons, hsend]
      rfl
    · have hrest := ih next (o := o.addTaken size status) hfailed hbytes herror
      have hafter : after SegmentSink.send sink (size :: offered next rest) =
          after SegmentSink.send next (offered next rest) := by
        rw [after, List.foldl_cons, hsend]
        rfl
      rw [offered_of_taken rest hsend, DispatchOutcome.ofReplies_taken, DispatchOutcome.followedBy_taken,
        hafter]
      exact hrest

/-- A dispatch does with segments what the answers to them say, and leaves the sink as the offers leave it. -/
theorem dispatch_eq (sink : τ) (sizes : List Nat) : dispatch sink sizes =
    (.ofReplies sizes (repliesTo sink sizes), after SegmentSink.send sink (offered sink sizes)) := by
  have hgo := dispatch_go_eq sink sizes (o := {}) rfl rfl rfl
  simpa [DispatchOutcome.followedBy, dispatch] using hgo

/-! A sink that is watched answers as it does unwatched. -/

theorem repliesTo_watched (w : Watched τ) (sizes : List Nat) : repliesTo w sizes = repliesTo w.sink sizes := by
  induction sizes generalizing w with
  | nil => rfl
  | cons size rest ih =>
    rw [repliesTo_cons, repliesTo_cons, ih]
    rfl

theorem after_watched (w : Watched τ) (sizes : List Nat) : after SegmentSink.send w sizes =
    ⟨after SegmentSink.send w.sink sizes, w.offers ++ sizes⟩ := by
  induction sizes generalizing w with
  | nil => simp [after]
  | cons size rest ih =>
    have hrest := ih (SegmentSink.send w size).2
    simpa [after, SegmentSink.send] using hrest

theorem dispatch_watched (sink : τ) (sizes : List Nat) : dispatch (⟨sink, []⟩ : Watched τ) sizes =
    ((dispatch sink sizes).1, ⟨(dispatch sink sizes).2, offered sink sizes⟩) := by
  have hoffered : offered (⟨sink, []⟩ : Watched τ) sizes = offered sink sizes := by
    rw [offered, repliesTo_watched, offered]
  rw [dispatch_eq, dispatch_eq, repliesTo_watched, hoffered, after_watched, List.nil_append]

theorem after_dispatch_one (sink : τ) (sizes : List Nat) :
    after (fun t size => dispatch t [size]) sink sizes = after SegmentSink.send sink sizes := by
  have hone : ∀ (t : τ) (size : Nat), (dispatch t [size]).2 = (SegmentSink.send t size).2 := by
    intro t size
    rw [dispatch, dispatch.go]
    rcases SegmentSink.send t size with ⟨_ | _, _⟩ <;> rfl
  simp only [after, hone]

namespace Segmenter

variable (g : Segmenter) (frame : Nat)

theorem next?_eq_none {g : Segmenter} {frame : Nat} (h : g.next? frame = none) : frame = 0 := by
  by_contra hne
  simp [next?, hne] at h

theorem next?_eq_some {g : Segmenter} {frame size rest : Nat} (h : g.next? frame = some (size, rest)) :
    rest < frame ∧ g.sizes frame = size :: g.sizes rest := by
  have hlimit := g.limit_pos
  have hne : frame ≠ 0 := by
    rintro rfl
    simp [next?] at h
  simp only [next?, if_neg hne, Option.some.injEq, Prod.mk.injEq] at h
  obtain ⟨rfl, rfl⟩ := h
  exact ⟨by omega, pieces_of_pos hlimit (Nat.pos_of_ne_zero hne)⟩

/-- The segments of a frame as they are cut off one after another. -/
def cut (g : Segmenter) (frame : Nat) : List Nat :=
  match _ : g.next? frame with
  | none => []
  | some (size, rest) => size :: g.cut rest
termination_by frame
decreasing_by exact (next?_eq_some ‹_›).1

theorem cut_eq_sizes : g.cut frame = g.sizes frame := by
  fun_induction cut g frame with
  | case1 frame h => rw [next?_eq_none h, sizes, pieces_zero]
  | case2 frame size rest h ih => rw [ih, (next?_eq_some h).2]

/-- Cuts a frame and hands over each segment before the next is cut. After a refusal, what is left of the frame
tells how many segments were not offered, and they are cut for their sum. -/
def cutAndSend (g : Segmenter) (o : DispatchOutcome) (sink : τ) (frame : Nat) : DispatchOutcome × τ :=
  match _ : g.next? frame with
  | none => (o, sink)
  | some (size, rest) =>
    match SegmentSink.send sink size with
    | (.ok status, sink) => g.cutAndSend (o.addTaken size status) sink rest
    | (.error error, sink) =>
      ({ o with
        failed := 1 + g.count rest
        failedBytes := size + weight id (g.cut rest)
        error? := some error }, sink)
termination_by frame
decreasing_by exact (next?_eq_some ‹_›).1

theorem cutAndSend_eq (o : DispatchOutcome) (sink : τ) :
    g.cutAndSend o sink frame = dispatch.go o sink (g.sizes frame) := by
  fun_induction cutAndSend g o sink frame with
  | case1 o sink frame h =>
    rw [next?_eq_none h, sizes, pieces_zero]
    rfl
  | case2 o sink frame size rest h status next hsend ih =>
    rw [ih, (next?_eq_some h).2, dispatch.go, hsend]
  | case3 o sink frame size rest h error next hsend =>
    have hcount : (g.sizes rest).length = g.count rest := length_pieces g.limit rest
    rw [(next?_eq_some h).2, dispatch.go, hsend]
    simp only [DispatchOutcome.addRefused, foldl_add, hcount, cut_eq_sizes, Nat.add_comm]

/-- Whatever a sink answers to the segments of a frame, it is offered them in order up to the first that it
refuses, with that one and with none after it, and is left as if they had come one at a time. The outcome
tells what it took and deferred, and what was lost with the refusal; no segment and no byte is missing. A
frame that is cut while it is sent has the same outcome. -/
theorem frame_is_offered_up_to_a_refusal (sink : τ) :
    let sizes := g.sizes frame
    let replies := repliesTo sink sizes
    let taken := replies.findIdx Reply.isRefusal
    let outcome := (g.send sink frame).1
    g.send (⟨sink, []⟩ : Watched τ) frame =
      (outcome, ⟨(g.send sink frame).2, sizes.take (taken + 1)⟩) ∧
    (g.send sink frame).2 = after (fun t size => dispatch t [size]) sink (sizes.take (taken + 1)) ∧
    outcome = .ofReplies sizes replies ∧
    outcome.segments + outcome.failed = frame ⌈/⌉ g.limit ∧
    outcome.bytes + outcome.failedBytes = frame ∧
    (outcome.error? = none → outcome.failed = 0 ∧ outcome.failedBytes = 0) ∧
    g.cutAndSend {} sink frame = g.send sink frame := by
  intro sizes replies taken outcome
  have houtcome : outcome = .ofReplies sizes replies := congrArg Prod.fst (dispatch_eq sink sizes)
  have hlength : replies.length = sizes.length := length_answers _ sink sizes
  have hcount : sizes.length = frame ⌈/⌉ g.limit :=
    (length_pieces g.limit frame).trans (pieceCount_eq_ceilDiv g.limit_pos frame)
  have hsum : weight id sizes = frame := weight_pieces g.limit frame
  obtain ⟨hsegments, hbytes⟩ := DispatchOutcome.ofReplies_total sizes replies
  refine ⟨dispatch_watched sink sizes, ?_, houtcome, ?_, ?_, ?_, g.cutAndSend_eq frame {} sink⟩
  · rw [after_dispatch_one]
    exact congrArg Prod.snd (dispatch_eq sink sizes)
  · rw [houtcome, hsegments, hcount]
  · rw [houtcome, hbytes, hsum]
  · intro hnone
    rw [houtcome] at hnone ⊢
    exact DispatchOutcome.ofReplies_of_no_error hlength hnone

end Segmenter

end VideoLink
