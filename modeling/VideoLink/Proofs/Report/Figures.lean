import VideoLink.Proofs.Report.Tables

/-! The numbers of a report, read back from its text. They are the words of digits in the lines that begin
with one of a few labels. Amounts with a point are no such words, and no line of a table begins with a
label. -/
namespace VideoLink

open Numeric

/-! The numbers that a report has to tell, row by row. -/

def FlowEntry.figures (f : FlowEntry) : List (List Nat) :=
  let r := f.record
  [[f.id], [f.key.sourcePort.toNat, f.key.destinationPort.toNat], [r.sent.packets], [r.sent.bytes],
    [r.received.packets], [r.received.bytes], [r.lost]]

def GeneratorStats.figures (s : GeneratorStats) : List Nat :=
  [s.frames, s.bytes, s.segments, s.deferred, s.failed, s.failedBytes]

def SocketStats.figures (s : SocketStats) : List Nat := [s.accepted, s.bytes, s.deferred, s.refused, s.packets]

def GeneratorReport.figures (g : GeneratorReport) : List (List Nat) := [g.stats.figures, g.socket.figures]

def Diagnostics.figures (d : Diagnostics) (inFlight : Nat) : List Nat :=
  [d.unattributed, d.ackDrops, inFlight, d.discarded, d.captured]

def Report.figures (r : Report) : List (List Nat) :=
  r.flows.flows.flatMap FlowEntry.figures ++ r.generators.flatMap GeneratorReport.figures ++
    [r.diagnostics.figures r.flows.inFlight]

/-! The numbers of a line. -/

def isSeparator (c : Char) : Bool := c ∈ [' ', ',', '(', ')']

/-- The number that a word is, if it has digits only. -/
def readNumber? (word : List Char) : Option Nat :=
  if !word.isEmpty && word.all Char.isDigit then some (Nat.ofDigitChars 10 word 0) else none

def numbers (line : List Char) : List Nat := (line.splitOnP isSeparator).filterMap readNumber?

theorem readNumber?_toDigits (n : Nat) : readNumber? (Nat.toDigits 10 n) = some n := by
  have hdigits : (Nat.toDigits 10 n).all Char.isDigit = true :=
    List.all_eq_true.2 fun _ => Nat.isDigit_of_mem_toDigits (by decide) (by decide)
  have hempty : (Nat.toDigits 10 n).isEmpty = false := List.isEmpty_eq_false_iff.2 Nat.toDigits_ne_nil
  rw [readNumber?, hempty, hdigits]
  exact congrArg some Nat.ofDigitChars_ten_toDigits

theorem numbers_of_opens {a b : List Char} (h : b.head?.any isSeparator) :
    numbers (a ++ b) = numbers a ++ numbers b := by
  cases b with
  | nil => cases h
  | cons c b =>
    have hsplit (xs : List Char) : numbers (xs ++ c :: b) = numbers xs ++ numbers b := by
      rw [numbers, List.splitOnP_append_cons xs b h, List.filterMap_append]
      rfl
    have hhead := hsplit []
    rw [List.nil_append] at hhead
    rw [hsplit, hhead]
    rfl

theorem numbers_of_closes {a b : List Char} (h : a.getLast?.any isSeparator) :
    numbers (a ++ b) = numbers a ++ numbers b := by
  rcases List.eq_nil_or_concat' a with rfl | ⟨a, c, rfl⟩
  · cases h
  · have hc : isSeparator c = true := by simpa using h
    have hsplit (ys : List Char) : numbers (a ++ c :: ys) = numbers a ++ numbers ys := by
      rw [numbers, List.splitOnP_append_cons a ys hc, List.filterMap_append]
      rfl
    have hlast : numbers (a ++ [c]) = numbers a := (hsplit []).trans (List.append_nil _)
    rw [hlast, List.append_assoc]
    exact hsplit b

@[simp] theorem numbers_nat (n : Nat) : numbers (toString n).toList = [n] := by
  have hword : ∀ c ∈ Nat.toDigits 10 n, isSeparator c = false := by
    intro c hc
    have hdigit := Nat.isDigit_of_mem_toDigits (by decide) (by decide) hc
    by_contra hseparator
    have hother : ∀ c, isSeparator c = true → c.isDigit = false := by simp [isSeparator, Char.isDigit]
    rw [hother c (Bool.eq_true_of_not_eq_false hseparator)] at hdigit
    cases hdigit
  rw [Nat.toString_eq_ofList_toDigits, String.toList_ofList, numbers, List.splitOnP_eq_singleton hword]
  simp [readNumber?_toDigits]

theorem numbers_eq_nil {word : List Char} (hword : ∀ c ∈ word, isSeparator c = false)
    (hother : ∃ c ∈ word, c.isDigit = false) : numbers word = [] := by
  obtain ⟨c, hc, hdigit⟩ := hother
  have hall : word.all Char.isDigit = false := List.all_eq_false.2 ⟨c, hc, by rw [hdigit]; exact Bool.false_ne_true⟩
  have hnone : readNumber? word = none := by
    rw [readNumber?, hall, Bool.and_false]
    rfl
  rw [numbers, List.splitOnP_eq_singleton hword]
  simp [hnone]

/-! Texts of amounts. -/

/-- Whether a character occurs in a decimal or in what stands for a number that has none. -/
def isFloatChar (c : Char) : Bool := c.isDigit || c ∈ ['.', '-', 'e', 'N', 'a', 'i', 'n', 'f']

def IsFloatText (text : String) : Prop := text.toList.all isFloatChar = true

theorem IsFloatText.append {a b : String} (ha : IsFloatText a) (hb : IsFloatText b) : IsFloatText (a ++ b) := by
  unfold IsFloatText at *
  rw [String.toList_append, List.all_append, ha, hb]
  rfl

theorem IsFloatText.sign (negative : Bool) : IsFloatText (if negative then "-" else "") := by
  cases negative <;> rfl

theorem IsFloatText.newline {text : String} (h : IsFloatText text) : '\n' ∉ text.toList := fun hc =>
  absurd (List.all_eq_true.1 h _ hc) (by decide)

theorem isFloatText_nat (n : Nat) : IsFloatText (toString n) := by
  rw [IsFloatText, Nat.toString_eq_ofList_toDigits, String.toList_ofList, List.all_eq_true]
  intro c hc
  rw [isFloatChar, Nat.isDigit_of_mem_toDigits (by decide) (by decide) hc, Bool.true_or]

theorem isFloatText_withPlaces (places n : Nat) : IsFloatText (withPlaces places n) := by
  rcases Nat.eq_zero_or_pos places with rfl | pos
  · exact isFloatText_nat n
  · rw [IsFloatText, ← Numeral.text_ofPlaces pos, Numeral.toList_text, List.all_eq_true]
    intro c hc
    rcases Numeral.mem_chars _ hc with hdigit | rfl
    · rw [isFloatChar, hdigit, Bool.true_or]
    · rfl

theorem isFloatText_fixedText (places : Nat) (x : Float) : IsFloatText (fixedText places x) := by
  unfold fixedText
  split
  · rfl
  · rename_i negative _
    cases negative <;> rfl
  · rename_i negative v _
    cases negative with
    | false => exact isFloatText_withPlaces ..
    | true => exact .append (a := "-") rfl (isFloatText_withPlaces ..)

theorem isFloatText_shortestText (x : Float) : IsFloatText (shortestText x) := by
  unfold shortestText
  split
  · rfl
  · rename_i negative _
    cases negative <;> rfl
  · refine .append (.sign _) ?_
    split
    · rfl
    · exact isFloatText_withPlaces ..

/-! Lines. -/

/-- The beginnings of the lines with numbers. -/
def reportLabels : List String :=
  ["Flow ", "  Protocol:", "  Tx ", "  Rx ", "  Lost ", "uplink: ", "downlink: ", "  socket: ", "Unattributed "]

def isLabelled (line : List Char) : Bool := reportLabels.any (·.toList.isPrefixOf line)

/-- The numbers of a report, row by row. -/
def readText (text : String) : List (List Nat) := ((text.toList.splitOn '\n').filter isLabelled).map numbers

/-- A text without numbers that ends a word. -/
structure IsLead (text : String) : Prop where
  newline : '\n' ∉ text.toList
  closes : text.toList.getLast?.any isSeparator
  numbers_eq : numbers text.toList = []

/-- A text without numbers that ends a word and begins another one. -/
structure IsGap (text : String) : Prop extends IsLead text where
  opens : text.toList.head?.any isSeparator

instance (text : String) : Decidable (IsLead text) :=
  decidable_of_iff (_ ∧ _ ∧ _)
    ⟨fun ⟨hnewline, hcloses, hnone⟩ => ⟨hnewline, hcloses, hnone⟩, fun h => ⟨h.newline, h.closes, h.numbers_eq⟩⟩

instance (text : String) : Decidable (IsGap text) :=
  decidable_of_iff (_ ∧ _) ⟨fun ⟨hlead, hopens⟩ => ⟨hlead, hopens⟩, fun h => ⟨h.toIsLead, h.opens⟩⟩

/-- The beginning of a line with numbers. -/
structure IsLabel (text : String) : Prop extends IsLead text where
  labelled : isLabelled text.toList = true

instance (text : String) : Decidable (IsLabel text) :=
  decidable_of_iff (_ ∧ _) ⟨fun ⟨hlead, hlabelled⟩ => ⟨hlead, hlabelled⟩, fun h => ⟨h.toIsLead, h.labelled⟩⟩

/-- A line that is not looked through for numbers. -/
structure IsOther (line : String) : Prop where
  newline : '\n' ∉ line.toList
  unlabelled : isLabelled line.toList = false

instance (line : String) : Decidable (IsOther line) :=
  decidable_of_iff (_ ∧ _) ⟨fun ⟨hnewline, hother⟩ => ⟨hnewline, hother⟩, fun h => ⟨h.newline, h.unlabelled⟩⟩

/-- A text that begins such lines only, since it differs from each label. -/
structure IsOpening (text : String) : Prop where
  newline : '\n' ∉ text.toList
  apart : ∀ label ∈ reportLabels, ¬ label.toList <+: text.toList ∧ ¬ text.toList <+: label.toList

instance (text : String) : Decidable (IsOpening text) :=
  decidable_of_iff (_ ∧ _) ⟨fun ⟨hnewline, hapart⟩ => ⟨hnewline, hapart⟩, fun h => ⟨h.newline, h.apart⟩⟩

theorem IsOpening.append {a b : String} (h : IsOpening a) (hnewline : '\n' ∉ b.toList) : IsOpening (a ++ b) := by
  refine ⟨by simp [h.newline, hnewline], fun label hlabel => ?_⟩
  obtain ⟨hlong, hshort⟩ := h.apart label hlabel
  have hbegins : a.toList <+: (a ++ b).toList := by
    rw [String.toList_append]
    exact List.prefix_append _ _
  constructor
  · intro hlabelled
    exact (List.prefix_or_prefix_of_prefix hlabelled hbegins).elim hlong hshort
  · intro hends
    exact hshort (hbegins.trans hends)

theorem IsOpening.isOther {text : String} (h : IsOpening text) : IsOther text := by
  refine ⟨h.newline, List.any_eq_false.2 fun label hlabel hprefix => ?_⟩
  exact (h.apart label hlabel).1 (List.isPrefixOf_iff_prefix.1 hprefix)

/-- A line from which a row is read. -/
structure IsRow (line : String) (row : List Nat) : Prop where
  newline : '\n' ∉ line.toList
  label : isLabelled line.toList = true
  numbers_eq : numbers line.toList = row

theorem isLabelled_append {a b : List Char} (h : isLabelled a = true) : isLabelled (a ++ b) = true := by
  obtain ⟨label, hlabel, hprefix⟩ := List.any_eq_true.1 h
  refine List.any_eq_true.2 ⟨label, hlabel, ?_⟩
  rw [List.isPrefixOf_iff_prefix] at hprefix ⊢
  exact hprefix.trans (List.prefix_append a b)

namespace IsRow

variable {line text : String} {row row' : List Nat}

theorem begin (label : String) (hlabel : IsLabel label) (hnewline : '\n' ∉ text.toList)
    (hrow : numbers text.toList = row) : IsRow (label ++ text) row := by
  refine ⟨?_, ?_, ?_⟩
  · simp [hlabel.newline, hnewline]
  · rw [String.toList_append]
    exact isLabelled_append hlabel.labelled
  · rw [String.toList_append, numbers_of_closes hlabel.closes, hlabel.numbers_eq, hrow, List.nil_append]

theorem concat (h : IsRow line row) (gap : String) (hgap : IsGap gap) (hnewline : '\n' ∉ text.toList)
    (hrow : numbers text.toList = row') : IsRow (line ++ gap ++ text) (row ++ row') := by
  have hopens : (gap ++ text).toList.head?.any isSeparator := by
    have hhead := hgap.opens
    rw [String.toList_append, List.head?_append]
    cases hc : gap.toList.head? with
    | none =>
      rw [hc] at hhead
      cases hhead
    | some c =>
      rw [hc] at hhead
      exact hhead
  refine ⟨?_, ?_, ?_⟩
  · simp [h.newline, hgap.newline, hnewline]
  · rw [String.append_assoc, String.toList_append]
    exact isLabelled_append h.label
  · rw [String.append_assoc, String.toList_append, numbers_of_opens hopens, h.numbers_eq, String.toList_append,
      numbers_of_closes hgap.closes, hgap.numbers_eq, hrow, List.nil_append]

theorem first (label : String) (n : Nat) (hlabel : IsLabel label) : IsRow (label ++ toString n) [n] :=
  .begin label hlabel (isFloatText_nat n).newline (numbers_nat n)

theorem next (h : IsRow line row) (gap : String) (n : Nat) (hgap : IsGap gap) :
    IsRow (line ++ gap ++ toString n) (row ++ [n]) :=
  h.concat gap hgap (isFloatText_nat n).newline (numbers_nat n)

theorem skip (h : IsRow line row) (gap : String) (hgap : IsGap gap) (hnewline : '\n' ∉ text.toList)
    (hnone : numbers text.toList = []) : IsRow (line ++ gap ++ text) row := by
  simpa using h.concat gap hgap hnewline hnone

theorem close (h : IsRow line row) (gap : String) (hgap : IsGap gap) : IsRow (line ++ gap) row := by
  have hend : IsRow (line ++ gap ++ "") row := h.skip gap hgap (by simp) rfl
  rwa [String.append_empty] at hend

end IsRow

/-- Lines from which some rows are read. -/
structure Reads (lines : List String) (rows : List (List Nat)) : Prop where
  newline : ∀ line ∈ lines, '\n' ∉ line.toList
  rows_eq : ((lines.map String.toList).filter isLabelled).map numbers = rows

namespace Reads

variable {line : String} {lines lines' : List String} {row : List Nat} {rows rows' : List (List Nat)}

theorem readText_unlines (h : Reads lines rows) : readText (unlines lines) = rows := by
  rw [readText, splitOn_unlines h.newline, List.filter_append, List.map_append, h.rows_eq]
  exact List.append_nil _

theorem nil : Reads [] [] := ⟨by simp, rfl⟩

theorem cons (hline : IsRow line row) (h : Reads lines rows) : Reads (line :: lines) (row :: rows) := by
  refine ⟨List.forall_mem_cons.2 ⟨hline.newline, h.newline⟩, ?_⟩
  rw [List.map_cons, List.filter_cons_of_pos hline.label, List.map_cons, hline.numbers_eq, h.rows_eq]

theorem other (hline : IsOther line) (h : Reads lines rows) : Reads (line :: lines) rows := by
  refine ⟨List.forall_mem_cons.2 ⟨hline.newline, h.newline⟩, ?_⟩
  rw [List.map_cons, List.filter_cons_of_neg (by simp [hline.unlabelled]), h.rows_eq]

theorem append (h : Reads lines rows) (h' : Reads lines' rows') : Reads (lines ++ lines') (rows ++ rows') := by
  refine ⟨fun line hline => (List.mem_append.1 hline).elim (h.newline line) (h'.newline line), ?_⟩
  rw [List.map_append, List.filter_append, List.map_append, h.rows_eq, h'.rows_eq]

theorem append_silent (h : Reads lines rows) (h' : Reads lines' []) : Reads (lines ++ lines') rows := by
  simpa only [List.append_nil] using h.append h'

theorem flatMap {α : Type} {as : List α} {lines : α → List String} {rows : α → List (List Nat)}
    (h : ∀ a ∈ as, Reads (lines a) (rows a)) : Reads (as.flatMap lines) (as.flatMap rows) := by
  induction as with
  | nil => exact nil
  | cons a as ih =>
    rw [List.flatMap_cons, List.flatMap_cons]
    exact (h a List.mem_cons_self).append (ih fun b hb => h b (List.mem_cons_of_mem _ hb))

end Reads

/-! The lines of a report. -/

@[simp] theorem newline_not_mem_fixedText (places : Nat) (x : Float) : '\n' ∉ (fixedText places x).toList :=
  (isFloatText_fixedText places x).newline

@[simp] theorem newline_not_mem_shortestText (x : Float) : '\n' ∉ (shortestText x).toList :=
  (isFloatText_shortestText x).newline

@[simp] theorem toString_text (text : String) : toString text = text := rfl

theorem newline_not_mem_bitRateIn (value : Float) (unit : String) (units : List String)
    (h : ∀ u ∈ unit :: units, '\n' ∉ u.toList) : '\n' ∉ (bitRateIn value unit units).toList := by
  induction units generalizing value unit with
  | nil => simp [bitRateIn, h unit]
  | cons next units ih =>
    rw [bitRateIn]
    split
    · exact ih _ _ fun u hu => h u (List.mem_cons_of_mem _ hu)
    · simp [h unit]

@[simp] theorem newline_not_mem_bitRateText (rate : Float) : '\n' ∉ (bitRateText rate).toList :=
  newline_not_mem_bitRateIn _ _ _ (by simp)

@[simp] theorem newline_not_mem_millisText (span? : Option Span) : '\n' ∉ (millisText span?).toList := by
  cases span? <;> simp [millisText]

theorem IsFloatText.numbers_eq_nil {text : String} (h : IsFloatText text)
    (hother : ∃ c ∈ text.toList, c.isDigit = false) : numbers text.toList = [] := by
  refine VideoLink.numbers_eq_nil (fun c hc => ?_) hother
  have hfloat := List.all_eq_true.1 h c hc
  by_contra hseparator
  have hapart : ∀ c, isSeparator c = true → isFloatChar c = false := by
    simp [isSeparator, isFloatChar, Char.isDigit]
  rw [hapart c (Bool.eq_true_of_not_eq_false hseparator)] at hfloat
  cases hfloat

theorem isFloatText_address (a : Address) : IsFloatText a.text :=
  ((((((isFloatText_nat _).append (b := ".") rfl).append (isFloatText_nat _)).append (b := ".") rfl).append
    (isFloatText_nat _)).append (b := ".") rfl).append (isFloatText_nat _)

theorem numbers_address (a : Address) : numbers a.text.toList = [] := by
  refine (isFloatText_address a).numbers_eq_nil ⟨'.', ?_, rfl⟩
  simp [Address.text]

theorem numbers_fixedText {places : Nat} (pos : 0 < places) (x : Float) :
    numbers (fixedText places x).toList = [] := by
  have hpoint (n : Nat) : '.' ∈ (withPlaces places n).toList := by
    simp [withPlaces, pos.ne']
  refine (isFloatText_fixedText places x).numbers_eq_nil ?_
  unfold fixedText
  split
  · exact ⟨'N', by decide +kernel⟩
  · rename_i negative _
    exact ⟨'i', by cases negative <;> decide +kernel⟩
  · rename_i negative v _
    refine ⟨'.', ?_, rfl⟩
    cases negative with
    | false => exact hpoint _
    | true =>
      change '.' ∈ ("-" ++ withPlaces _ _).toList
      rw [String.toList_append, List.mem_append]
      exact .inr (hpoint _)

theorem isLabelled_of_isDigit {c : Char} (h : c.isDigit = true) (rest : List Char) :
    isLabelled (c :: rest) = false := by
  have hlabels : ∀ label ∈ reportLabels, label.toList.head?.any (fun c => !c.isDigit) = true := by
    decide +kernel
  refine List.any_eq_false.2 fun label hlabel hprefix => ?_
  have hhead := hlabels label hlabel
  cases htext : label.toList with
  | nil =>
    rw [htext] at hhead
    cases hhead
  | cons first text =>
    rw [htext] at hhead hprefix
    obtain rfl := (List.cons_prefix_cons.1 (List.isPrefixOf_iff_prefix.1 hprefix)).1
    simp [h] at hhead

theorem isLabelled_binRow (b : Bin) : isLabelled (Histogram.binRow b).toList = false := by
  cases hwhole : b.start.exactNumeral.whole with
  | nil => exact absurd hwhole b.start.exactNumeral.whole_ne_nil
  | cons c whole =>
    have hdigit : c.isDigit = true :=
      b.start.exactNumeral.isDigit c (List.mem_append_left _ (hwhole ▸ List.mem_cons_self))
    rw [Histogram.binRow, Histogram.toList_tableRow, toList_leftAligned, ← b.start.text_exactNumeral,
      Numeral.toList_text, Numeral.chars, hwhole]
    exact isLabelled_of_isDigit hdigit _

namespace Histogram

theorem reads_tableLines (h : Histogram) : Reads h.tableLines [] := by
  refine ⟨h.newline_not_mem_tableLines, ?_⟩
  have hheading : isLabelled (tableRow "Bin Start (s)" "Bin End (s)" "Packet Count").toList = false := by
    decide +kernel
  have hrows (bins : List Bin) : ((bins.map binRow).map String.toList).filter isLabelled = [] := by
    simp [isLabelled_binRow]
  rw [tableLines, List.map_append, List.filter_append, List.map_cons, List.filter_cons_of_neg (by simp [hheading]),
    hrows]
  decide +kernel

end Histogram

theorem FlowEntry.reads_lines (f : FlowEntry) (seconds : Float) : Reads (f.lines seconds) f.figures := by
  have hdelays := f.record.delays.histogram.reads_tableLines
  have hjitters := f.record.jitters.histogram.reads_tableLines
  have hflow : IsRow s!"Flow {f.id} ({f.key.source.text} -> {f.key.destination.text})" [f.id] :=
    IsRow.first "Flow " f.id (by decide +kernel)
      |>.skip " (" (by decide +kernel) (isFloatText_address _).newline (numbers_address _)
      |>.skip " -> " (by decide +kernel) (isFloatText_address _).newline (numbers_address _)
      |>.close ")" (by decide +kernel)
  have hports : IsRow s!"  Protocol:   {f.key.protocol.text} {f.key.sourcePort} -> {f.key.destinationPort}"
      [f.key.sourcePort.toNat, f.key.destinationPort.toNat] := by
    have hname : '\n' ∉ f.key.protocol.text.toList ∧ numbers f.key.protocol.text.toList = [] := by
      cases f.key.protocol <;> decide +kernel
    exact IsRow.begin "  Protocol:   " (by decide +kernel) hname.1 hname.2
      |>.next " " f.key.sourcePort.toNat (by decide +kernel)
      |>.next " -> " f.key.destinationPort.toNat (by decide +kernel)
  have hoffered : IsOpening "  TxOffered:  " := by decide +kernel
  have hthroughput : IsOpening "  Throughput: " := by decide +kernel
  have hmeanDelay : IsOpening "  Mean Delay:  " := by decide +kernel
  have hmeanJitter : IsOpening "  Mean Jitter: " := by decide +kernel
  have hstray : IsOpening "  Unattributed: " := by decide +kernel
  have hamounts : Reads
      [s!"Flow {f.id} ({f.key.source.text} -> {f.key.destination.text})",
        s!"  Protocol:   {f.key.protocol.text} {f.key.sourcePort} -> {f.key.destinationPort}",
        s!"  Tx Packets: {f.record.sent.packets}",
        s!"  Tx Bytes:   {f.record.sent.bytes}",
        s!"  TxOffered:  {bitRateText (bitsPerSecond f.record.sent.bytes seconds)}",
        s!"  Rx Packets: {f.record.received.packets}",
        s!"  Rx Bytes:   {f.record.received.bytes}",
        s!"  Throughput: {bitRateText (bitsPerSecond f.record.received.bytes seconds)}",
        s!"  Lost Packets: {f.record.lost}",
        s!"  Mean Delay:  {millisText f.record.meanDelay?}",
        s!"  Mean Jitter: {millisText f.record.meanJitter?}"] f.figures :=
    .cons hflow <| .cons hports <|
      .cons (.first "  Tx Packets: " _ (by decide +kernel)) <|
      .cons (.first "  Tx Bytes:   " _ (by decide +kernel)) <|
      .other (hoffered.append (newline_not_mem_bitRateText _)).isOther <|
      .cons (.first "  Rx Packets: " _ (by decide +kernel)) <|
      .cons (.first "  Rx Bytes:   " _ (by decide +kernel)) <|
      .other (hthroughput.append (newline_not_mem_bitRateText _)).isOther <|
      .cons (.first "  Lost Packets: " _ (by decide +kernel)) <|
      .other (hmeanDelay.append (newline_not_mem_millisText _)).isOther <|
      .other (hmeanJitter.append (newline_not_mem_millisText _)).isOther .nil
  have hunattributed : Reads (if 0 < f.record.unattributed then [s!"  Unattributed: {f.record.unattributed}"] else [])
      [] := by
    split
    · exact .other (hstray.append (isFloatText_nat _).newline).isOther .nil
    · exact .nil
  have hdelay : Reads ["Delay Histogram"] [] := .other (by decide +kernel) .nil
  have hjitter : Reads ["Jitter Histogram"] [] := .other (by decide +kernel) .nil
  unfold FlowEntry.lines
  dsimp only
  exact hamounts.append_silent hunattributed |>.append_silent hdelay |>.append_silent hdelays
    |>.append_silent hjitter |>.append_silent hjitters

theorem GeneratorReport.reads_lines (g : GeneratorReport) : Reads g.lines g.figures := by
  unfold figures GeneratorStats.figures SocketStats.figures
  refine .cons ?_ (.cons ?_ .nil)
  · have hrow (label : String) (hlabel : IsLabel label) :=
      IsRow.first label g.stats.frames hlabel
        |>.next ", bytes " g.stats.bytes (by decide +kernel)
        |>.skip (", " ++ "mean frame ") (by decide +kernel) (newline_not_mem_fixedText 1 _)
          (numbers_fixedText (by decide) g.stats.meanFrame)
        |>.next " bytes, segments " g.stats.segments (by decide +kernel)
        |>.next (", " ++ "deferred ") g.stats.deferred (by decide +kernel)
        |>.next ", failed " g.stats.failed (by decide +kernel)
        |>.next " (" g.stats.failedBytes (by decide +kernel)
        |>.close " bytes)" (by decide +kernel)
    cases hd : g.direction with
    | uplink =>
      simpa only [hd, Direction.text, toString_text, String.append_assoc, List.cons_append, List.nil_append] using
        hrow ("uplink" ++ ": frames ") (by decide +kernel)
    | downlink =>
      simpa only [hd, Direction.text, toString_text, String.append_assoc, List.cons_append, List.nil_append] using
        hrow ("downlink" ++ ": frames ") (by decide +kernel)
  · have hrow := IsRow.first "  socket: accepted " g.socket.accepted (by decide +kernel)
      |>.next " (" g.socket.bytes (by decide +kernel)
      |>.next (" bytes), " ++ "deferred ") g.socket.deferred (by decide +kernel)
      |>.next ", refused " g.socket.refused (by decide +kernel)
      |>.next ", packets " g.socket.packets (by decide +kernel)
    simpa only [toString_text, String.append_assoc, List.cons_append, List.nil_append] using hrow

theorem RunParameters.reads_lines (p : RunParameters) : Reads p.lines [] := by
  have honOff (enabled : Bool) : '\n' ∉ (onOff enabled).toList := by cases enabled <;> decide +kernel
  have hquality : '\n' ∉ p.quality.text.toList := by cases p.quality <;> decide +kernel
  have hprotocol : '\n' ∉ p.protocol.text.toList := by cases p.protocol <;> decide +kernel
  have hseed : '\n' ∉ (toString p.seed).toList := (isFloatText_nat p.seed.toNat).newline
  unfold RunParameters.lines
  refine .append_silent ?_ ?_
  · refine .other (by decide +kernel) (.other ⟨?_, ?_⟩ (.other ⟨?_, ?_⟩ .nil))
    · simp [honOff, hquality]
    · simp [isLabelled, reportLabels, List.isPrefixOf]
    · simp [honOff, hprotocol, hseed]
    · simp [isLabelled, reportLabels, List.isPrefixOf]
  · cases p.protocol with
    | tcp => exact .other (by decide +kernel) (.other (by decide +kernel) .nil)
    | udp => exact .other (by decide +kernel) .nil

theorem FlowSnapshot.reads_tableLines (s : FlowSnapshot) (duration : Span) :
    Reads (s.tableLines duration) (s.flows.flatMap FlowEntry.figures) := by
  rw [tableLines]
  split
  · rename_i hempty
    rw [List.isEmpty_iff.1 hempty]
    exact .other (by decide +kernel) (.other (by decide +kernel) .nil)
  · exact .flatMap fun f _ => f.reads_lines _

theorem Diagnostics.isRow_line (d : Diagnostics) (inFlight : Nat) :
    IsRow (s!"Unattributed samples: {d.unattributed} | ACK drops: {d.ackDrops} | " ++
      s!"In flight at end: {inFlight} | Discarded events: {d.discarded} | " ++
      s!"Captured events: {d.captured}") (d.figures inFlight) := by
  have hrow := IsRow.first "Unattributed samples: " d.unattributed (by decide +kernel)
    |>.next " | ACK drops: " d.ackDrops (by decide +kernel)
    |>.next (" | " ++ "In flight at end: ") inFlight (by decide +kernel)
    |>.next " | Discarded events: " d.discarded (by decide +kernel)
    |>.next (" | " ++ "Captured events: ") d.captured (by decide +kernel)
  simpa only [Diagnostics.figures, toString_text, String.append_assoc, List.cons_append, List.nil_append] using hrow

/-- The text of a report gives back its numbers. -/
theorem Report.readText_text (r : Report) : readText r.text = r.figures := by
  have hgenerators : Reads (if r.generators.isEmpty then ["(none enabled)"] else r.generators.flatMap (·.lines))
      (r.generators.flatMap GeneratorReport.figures) := by
    split
    · rename_i hempty
      rw [List.isEmpty_iff.1 hempty]
      exact .other (by decide +kernel) .nil
    · exact .flatMap fun g _ => g.reads_lines
  have hheading : Reads ["=== Generators ==="] [] := .other (by decide +kernel) .nil
  have hend : Reads (["", "=== Diagnostics ==="] ++ [_]) _ :=
    .other (by decide +kernel) (.other (by decide +kernel)
      (.cons (r.diagnostics.isRow_line r.flows.inFlight) .nil))
  have hall := r.parameters.reads_lines.append (r.flows.reads_tableLines r.parameters.duration)
    |>.append_silent hheading |>.append hgenerators |>.append hend
  rw [List.nil_append] at hall
  exact hall.readText_unlines

end VideoLink
