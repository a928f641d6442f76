import VideoLink.Proofs.Report.Figures
import VideoLink.Report.Json

/-! JSON texts, read back. A text is read from left to right with the lists and objects that are still open
on a stack, so the reading of a value ends in the stack with this value put on top. -/
namespace VideoLink

/-- A JSON document as it is read. Numbers, truth values and null are words. -/
inductive Document
  | word (text : String)
  | text (value : String)
  | list (items : List Document)
  | object (fields : List (String × Document))

namespace Json

mutual

def document : Json → Document
  | null => .word "null"
  | bool value => .word (toString value)
  | nat value => .word (toString value)
  | float value => .word (floatText value)
  | text value => .text value
  | list items => .list (itemDocuments items)
  | object fields => .object (fieldDocuments fields)

def itemDocuments : List Json → List Document
  | [] => []
  | item :: items => document item :: itemDocuments items

def fieldDocuments : List (String × Json) → List (String × Document)
  | [] => []
  | (name, value) :: fields => (name, document value) :: fieldDocuments fields

end

end Json

namespace Document

/-- A list or an object whose end has not been read. -/
inductive Frame
  | list (items : List Document)
  | object (fields : List (String × Document)) (name? : Option String)

/-- What the last character belongs to. -/
inductive Lexeme
  | between
  | word (chars : List Char)
  | quoted (chars : List Char)
  | escape (chars : List Char)
  | code (chars digits : List Char)

structure Reading where
  lexeme : Lexeme
  frames : List Frame

/-- In an object, a text without a name before it is a name. -/
def put (value : Document) : List Frame → Option (List Frame)
  | .list items :: frames => some (.list (items ++ [value]) :: frames)
  | .object fields (some name) :: frames => some (.object (fields ++ [(name, value)]) none :: frames)
  | .object fields none :: frames =>
    match value with
    | .text name => some (.object fields (some name) :: frames)
    | _ => none
  | [] => none

def endList : List Frame → Option (List Frame)
  | .list items :: frames => put (.list items) frames
  | _ => none

def endObject : List Frame → Option (List Frame)
  | .object fields none :: frames => put (.object fields) frames
  | _ => none

def isWordChar (c : Char) : Bool := c.isAlphanum || c ∈ ['-', '+', '.']

/-- A character between words and texts. Commas and colons separate as blanks do. -/
def stepBetween (frames : List Frame) (c : Char) : Option Reading :=
  if isWordChar c then some ⟨.word [c], frames⟩
  else
    match c with
    | '"' => some ⟨.quoted [], frames⟩
    | '[' => some ⟨.between, .list [] :: frames⟩
    | '\x7b' => some ⟨.between, .object [] none :: frames⟩
    | ']' => (endList frames).map (⟨.between, ·⟩)
    | '\x7d' => (endObject frames).map (⟨.between, ·⟩)
    | ' ' | '\n' | ',' | ':' => some ⟨.between, frames⟩
    | _ => none

def unescape? : Char → Option Char
  | '"' => some '"'
  | '\\' => some '\\'
  | '/' => some '/'
  | 'n' => some '\n'
  | 'r' => some '\r'
  | 't' => some '\t'
  | 'b' => some '\x08'
  | 'f' => some '\x0c'
  | _ => none

def hexNumber (digits : List Char) : Nat :=
  digits.foldl (fun n c => 16 * n + "0123456789abcdef".toList.idxOf c) 0

def step : Reading → Char → Option Reading
  | ⟨.between, frames⟩, c => stepBetween frames c
  | ⟨.word chars, frames⟩, c =>
    if isWordChar c then some ⟨.word (chars ++ [c]), frames⟩
    else (put (.word (.ofList chars)) frames).bind (stepBetween · c)
  | ⟨.quoted chars, frames⟩, c =>
    if c = '"' then (put (.text (.ofList chars)) frames).map (⟨.between, ·⟩)
    else if c = '\\' then some ⟨.escape chars, frames⟩
    else some ⟨.quoted (chars ++ [c]), frames⟩
  | ⟨.escape chars, frames⟩, c =>
    if c = 'u' then some ⟨.code chars [], frames⟩
    else (unescape? c).map fun e => ⟨.quoted (chars ++ [e]), frames⟩
  | ⟨.code chars digits, frames⟩, c =>
    if digits.length < 3 then some ⟨.code chars (digits ++ [c]), frames⟩
    else some ⟨.quoted (chars ++ [Char.ofNat (hexNumber (digits ++ [c]))]), frames⟩

/-- The document that a text holds. -/
def read? (text : String) : Option Document :=
  match text.toList.foldlM step ⟨.between, [.list []]⟩ with
  | some ⟨.between, [.list [document]]⟩ => some document
  | _ => none

/-- A text turns one stack into another one. -/
def Passes (frames : List Frame) (text : String) (frames' : List Frame) : Prop :=
  text.toList.foldlM step ⟨.between, frames⟩ = some ⟨.between, frames'⟩

/-- A text does so in front of a character that is in no word. A word at its end is complete only then. -/
def Takes (frames : List Frame) (text : String) (frames' : List Frame) : Prop :=
  ∀ c rest, isWordChar c = false → (text.toList ++ c :: rest).foldlM step ⟨.between, frames⟩ =
    (c :: rest).foldlM step ⟨.between, frames'⟩

/-- Texts do so one after the other. -/
inductive TakesAll : List Frame → List String → List Frame → Prop
  | nil (frames) : TakesAll frames [] frames
  | cons {frames frames' frames'' text texts} : Takes frames text frames' → TakesAll frames' texts frames'' →
    TakesAll frames (text :: texts) frames''

variable {frames frames' frames'' : List Frame} {a b : String}

theorem Passes.append (ha : Passes frames a frames') (hb : Passes frames' b frames'') :
    Passes frames (a ++ b) frames'' := by
  unfold Passes at *
  rw [String.toList_append, List.foldlM_append, ha]
  exact hb

theorem Passes.takes (h : Passes frames a frames') : Takes frames a frames' := by
  intro c rest _
  rw [List.foldlM_append, h]
  rfl

theorem Takes.precede (ha : Passes frames a frames') (hb : Takes frames' b frames'') :
    Takes frames (a ++ b) frames'' := by
  intro c rest hc
  rw [String.toList_append, List.append_assoc, List.foldlM_append, ha]
  exact hb c rest hc

theorem Takes.append (ha : Takes frames a frames') (hb : Passes frames' b frames'')
    (hopens : b.toList.head?.any (!isWordChar ·) = true) : Passes frames (a ++ b) frames'' := by
  unfold Passes at *
  cases hchars : b.toList with
  | nil =>
    rw [hchars] at hopens
    cases hopens
  | cons c chars =>
    have hc : isWordChar c = false := by simpa [hchars] using hopens
    rw [hchars] at hb
    rw [String.toList_append, hchars, ha c chars hc, hb]

/-! Words. -/

structure IsWord (text : String) : Prop where
  ne_nil : text.toList ≠ []
  all : text.toList.all isWordChar = true

theorem IsWord.append (ha : IsWord a) (hb : IsWord b) : IsWord (a ++ b) :=
  ⟨by simp [ha.ne_nil], by rw [String.toList_append, List.all_append, ha.all, hb.all]; rfl⟩

theorem IsWord.signed (negative : Bool) (h : IsWord a) : IsWord ((if negative then "-" else "") ++ a) := by
  cases negative with
  | false => exact h
  | true => exact .append ⟨by simp, rfl⟩ h

theorem isWord_of_isFloatText (h : IsFloatText a) (hne : a.toList ≠ []) : IsWord a := by
  have hchar : ∀ c, isFloatChar c = true → isWordChar c = true := by
    intro c hc
    simp only [isFloatChar, Bool.or_eq_true, decide_eq_true_eq, List.mem_cons, List.not_mem_nil, or_false] at hc
    rcases hc with hdigit | rfl | rfl | rfl | rfl | rfl | rfl | rfl | rfl
    · rw [isWordChar, Char.isAlphanum, hdigit, Bool.or_true, Bool.true_or]
    all_goals decide
  exact ⟨hne, List.all_eq_true.2 fun c hc => hchar c (List.all_eq_true.1 h c hc)⟩

theorem isWord_nat (n : Nat) : IsWord (toString n) := by
  refine isWord_of_isFloatText (isFloatText_nat n) ?_
  simp

theorem isWord_withPlaces (places n : Nat) : IsWord (Numeric.withPlaces places n) := by
  refine isWord_of_isFloatText (isFloatText_withPlaces places n) ?_
  unfold Numeric.withPlaces
  split <;> simp

theorem isWord_int (z : Int) : IsWord (toString z) := by
  cases z with
  | ofNat n => exact isWord_nat n
  | negSucc n => exact .append (a := "-") ⟨by simp, rfl⟩ (isWord_nat (n + 1))

theorem isWord_positional (d : Numeric.Decimal) : IsWord d.positional := by
  exact isWord_withPlaces _ _

theorem isWord_magnitudeText (v : Numeric.Magnitude) : IsWord (Json.magnitudeText v) := by
  have hexponent (z : Int) : IsWord s!"e{z}" := .append (a := "e") ⟨by simp, rfl⟩ (isWord_int z)
  unfold Json.magnitudeText
  dsimp only
  split
  · exact ⟨by simp, rfl⟩
  · split
    · split
      · exact .append (isWord_positional _) ⟨by simp, rfl⟩
      · exact isWord_positional _
    · split
      · exact .append (isWord_nat _) (hexponent _)
      · exact .append (isWord_withPlaces ..) (hexponent _)

theorem isWord_floatText (x : Float) : IsWord (Json.floatText x) := by
  unfold Json.floatText
  split
  · exact .signed _ (isWord_magnitudeText _)
  · exact ⟨by simp, rfl⟩

theorem takes_word (h : IsWord a) (hput : put (.word a) frames = some frames') : Takes frames a frames' := by
  have hrun (before after : List Char) (hafter : after.all isWordChar = true) :
      after.foldlM step ⟨.word before, frames⟩ = some ⟨.word (before ++ after), frames⟩ := by
    induction after generalizing before with
    | nil => simp
    | cons c after ih =>
      rw [List.all_cons, Bool.and_eq_true] at hafter
      rw [List.foldlM_cons, step, if_pos hafter.1]
      simpa using ih (before ++ [c]) hafter.2
  obtain ⟨hne, hword⟩ := h
  rw [← String.ofList_toList (s := a)] at hput
  intro c rest hc
  cases hchars : a.toList with
  | nil => exact absurd hchars hne
  | cons first chars =>
    rw [hchars] at hword hput
    rw [List.all_cons, Bool.and_eq_true] at hword
    have hstart : step ⟨.between, frames⟩ first = some ⟨.word [first], frames⟩ := by
      unfold step stepBetween
      exact if_pos hword.1
    have hstop : step ⟨.word ([first] ++ chars), frames⟩ c = step ⟨.between, frames'⟩ c := by
      simp only [step, List.cons_append, List.nil_append, hc, hput, Bool.false_eq_true, if_false, Option.bind_some]
    rw [List.cons_append, List.foldlM_cons, hstart, Option.bind_eq_bind, Option.bind_some, List.foldlM_append,
      hrun [first] chars hword.2, Option.bind_eq_bind, Option.bind_some, List.foldlM_cons, List.foldlM_cons, hstop]

/-! Blanks and texts. -/

theorem passes_indentation (depth : Nat) : Passes frames (Json.indentation depth) frames := by
  have hblanks (n : Nat) : (List.replicate n ' ').foldlM step ⟨.between, frames⟩ = some ⟨.between, frames⟩ := by
    induction n with
    | zero => rfl
    | succ n ih => exact ih
  rw [Passes, Json.indentation, Numeric.toList_pushn]
  exact hblanks _

theorem hexNumber_hexDigits {n : Nat} (h : n < 0x20) :
    hexNumber ['0', '0', Json.hexDigit (n / 16), Json.hexDigit (n % 16)] = n := by
  revert n
  decide +kernel

theorem foldlM_escape (chars : List Char) (c : Char) : (Json.escape c).toList.foldlM step ⟨.quoted chars, frames⟩ =
    some ⟨.quoted (chars ++ [c]), frames⟩ := by
  unfold Json.escape
  split
  · rfl
  · rfl
  · rfl
  · rfl
  · rfl
  · rfl
  · rfl
  · rename_i hquote hbackslash _ _ _ _ _
    split
    · rename_i hcontrol
      have hcode := hexNumber_hexDigits hcontrol
      simp only [String.toList_append, String.toList_ofList]
      change some (Reading.mk (.quoted (chars ++ [Char.ofNat (hexNumber
        ['0', '0', Json.hexDigit (c.toNat / 16), Json.hexDigit (c.toNat % 16)])])) frames) = _
      rw [hcode, Char.ofNat_toNat]
    · have hstep : step ⟨.quoted chars, frames⟩ c = some ⟨.quoted (chars ++ [c]), frames⟩ := by
        rw [step, if_neg (hquote ·), if_neg (hbackslash ·)]
      simp [hstep]

theorem passes_quoted {text : String} (hput : put (.text text) frames = some frames') :
    Passes frames (Json.quoted text) frames' := by
  have hchars (before after : List Char) : (after.flatMap fun c => (Json.escape c).toList).foldlM step
      ⟨.quoted before, frames⟩ = some ⟨.quoted (before ++ after), frames⟩ := by
    induction after generalizing before with
    | nil => simp
    | cons c after ih =>
      rw [List.flatMap_cons, List.foldlM_append, foldlM_escape]
      simpa using ih (before ++ [c])
  have hinner : (String.join (text.toList.map Json.escape)).toList =
      text.toList.flatMap fun c => (Json.escape c).toList := by
    simp [List.flatMap_def, Function.comp_def]
  have hstart : "\"".toList.foldlM step ⟨.between, frames⟩ = some ⟨.quoted [], frames⟩ := rfl
  have hstop : "\"".toList.foldlM step ⟨.quoted text.toList, frames⟩ = some ⟨.between, frames'⟩ := by
    simp [step, hput]
  rw [Passes, Json.quoted, String.toList_append, String.toList_append, hinner, List.append_assoc, List.foldlM_append,
    hstart]
  simp only [List.foldlM_append, hchars, List.nil_append, Option.bind_eq_bind, Option.bind_some, hstop]

/-! Values. -/

theorem TakesAll.passes_intercalate {texts : List String} (h : TakesAll frames texts frames') :
    Passes frames (",\n".intercalate texts ++ "\n") frames' := by
  induction h with
  | nil frames => rfl
  | cons htext htexts ih =>
    rename_i text texts
    cases texts with
    | nil =>
      cases htexts
      rw [String.intercalate_singleton]
      exact htext.append rfl rfl
    | cons next texts =>
      rw [String.intercalate_cons_cons, String.append_assoc, String.append_assoc]
      exact htext.append (.append (a := ",\n") rfl ih) (by simp [isWordChar])

theorem TakesAll.map_indentation {texts : List String} (h : TakesAll frames texts frames') (depth : Nat) :
    TakesAll frames (texts.map (Json.indentation depth ++ ·)) frames' := by
  induction h with
  | nil frames => exact .nil frames
  | cons htext _ ih => exact .cons (.precede (passes_indentation depth) htext) ih

theorem passes_block {start stop : String} {frame frame' : Frame} {items : List String} (depth : Nat)
    (hstart : Passes frames start (frame :: frames)) (hitems : TakesAll (frame :: frames) items (frame' :: frames))
    (hstop : Passes (frame' :: frames) stop frames') : Passes frames (Json.block start stop depth items) frames' := by
  unfold Json.block
  split
  · rename_i hempty
    obtain rfl := List.isEmpty_iff.1 hempty
    cases hitems
    exact hstart.append hstop
  · have hlines := (hitems.map_indentation (depth + 1)).passes_intercalate
    have hend := (passes_indentation depth).append hstop
    simpa only [String.append_assoc] using hstart.append (.append (a := "\n") rfl (hlines.append hend))

variable {frame : Frame}

theorem takesAll_prettyItems {items : List Json} {depth : Nat}
    (h : ∀ item ∈ items, ∀ {frames frames'}, put item.document frames = some frames' →
      Takes frames (item.prettyAt depth) frames') (before : List Document) :
    TakesAll (.list before :: frames) (Json.prettyItems depth items)
      (.list (before ++ Json.itemDocuments items) :: frames) := by
  induction items generalizing before with
  | nil => simpa [Json.prettyItems, Json.itemDocuments] using TakesAll.nil _
  | cons item items ih =>
    have hitem : Takes (.list before :: frames) (item.prettyAt depth)
        (.list (before ++ [item.document]) :: frames) := h item List.mem_cons_self rfl
    have hitems := ih (fun other hother => h other (List.mem_cons_of_mem _ hother)) (before ++ [item.document])
    rw [List.append_assoc] at hitems
    exact .cons hitem hitems

theorem takesAll_prettyFields {fields : List (String × Json)} {depth : Nat}
    (h : ∀ field ∈ fields, ∀ {frames frames'}, put field.2.document frames = some frames' →
      Takes frames (field.2.prettyAt depth) frames') (before : List (String × Document)) :
    TakesAll (.object before none :: frames) (Json.prettyFields depth fields)
      (.object (before ++ Json.fieldDocuments fields) none :: frames) := by
  induction fields generalizing before with
  | nil => simpa [Json.prettyFields, Json.fieldDocuments] using TakesAll.nil _
  | cons field fields ih =>
    obtain ⟨name, value⟩ := field
    have hname : Passes (.object before none :: frames) (Json.quoted name ++ ": ")
        (.object before (some name) :: frames) := (passes_quoted rfl).append rfl
    have hvalue : Takes (.object before (some name) :: frames) (value.prettyAt depth)
        (.object (before ++ [(name, value.document)]) none :: frames) := h (name, value) List.mem_cons_self rfl
    have hfields := ih (fun other hother => h other (List.mem_cons_of_mem _ hother))
      (before ++ [(name, value.document)])
    rw [List.append_assoc] at hfields
    exact .cons (.precede hname hvalue) hfields

theorem takes_prettyAt (j : Json) (depth : Nat) {frames frames' : List Frame}
    (hput : put j.document frames = some frames') : Takes frames (j.prettyAt depth) frames' :=
  match j with
  | .null => takes_word (a := "null") ⟨by simp, rfl⟩ hput
  | .bool false => takes_word (a := "false") ⟨by simp, rfl⟩ hput
  | .bool true => takes_word (a := "true") ⟨by simp, rfl⟩ hput
  | .nat value => takes_word (isWord_nat value) hput
  | .float value => takes_word (isWord_floatText value) hput
  | .text _ => (passes_quoted hput).takes
  | .list items => by
    have hstart : Passes frames "[" (.list [] :: frames) := rfl
    have hitems : TakesAll (.list [] :: frames) (Json.prettyItems (depth + 1) items)
        (.list (Json.itemDocuments items) :: frames) :=
      takesAll_prettyItems (fun item hitem => fun {_ _} hput => takes_prettyAt item (depth + 1) hput) []
    have hstop : Passes (.list (Json.itemDocuments items) :: frames) "]" frames' := by
      change ((put (.list (Json.itemDocuments items)) frames).map _).bind some = _
      rw [← Json.document, hput]
      rfl
    exact (passes_block depth hstart hitems hstop).takes
  | .object fields => by
    have hstart : Passes frames "\x7b" (.object [] none :: frames) := rfl
    have hfields : TakesAll (.object [] none :: frames) (Json.prettyFields (depth + 1) fields)
        (.object (Json.fieldDocuments fields) none :: frames) :=
      takesAll_prettyFields (fun field hfield => fun {_ _} hput => takes_prettyAt field.2 (depth + 1) hput) []
    have hstop : Passes (.object (Json.fieldDocuments fields) none :: frames) "\x7d" frames' := by
      change ((put (.object (Json.fieldDocuments fields)) frames).map _).bind some = _
      rw [← Json.document, hput]
      rfl
    exact (passes_block depth hstart hfields hstop).takes
termination_by j
decreasing_by
  · have hlt := List.sizeOf_lt_of_mem hitem
    simp only [Json.list.sizeOf_spec]
    omega
  · have hlt := List.sizeOf_lt_of_mem hfield
    obtain ⟨name, value⟩ := field
    simp only [Json.object.sizeOf_spec, Prod.mk.sizeOf_spec] at *
    omega

theorem read?_pretty (j : Json) : read? (j.pretty ++ "\n") = some j.document := by
  have hread : Passes [.list []] (j.pretty ++ "\n") [.list [j.document]] :=
    (takes_prettyAt j 0 rfl).append rfl (by simp [isWordChar])
  rw [read?, hread]

/-! The numbers of a report. -/

/-- The part at the end of a path of names. -/
def at? : List String → Document → Option Document
  | [], d => some d
  | name :: path, .object fields => (fields.lookup name).bind (at? path)
  | _ :: _, _ => none

def number? : Document → Option Nat
  | .word chars => readNumber? chars.toList
  | _ => none

def items? : Document → Option (List Document)
  | .list items => some items
  | _ => none

def rows? (paths : List (List (List String))) (d : Document) : Option (List (List Nat)) :=
  paths.mapM fun row => row.mapM fun path => (d.at? path).bind number?

def flowPaths : List (List (List String)) :=
  [[["id"]], [["key", "source_port"], ["key", "destination_port"]], [["record", "tx_packets"]],
    [["record", "tx_bytes"]], [["record", "rx_packets"]], [["record", "rx_bytes"]], [["record", "lost_packets"]]]

def generatorPaths : List (List (List String)) :=
  [[["stats", "frames"], ["stats", "bytes_generated"], ["stats", "segments_issued"], ["stats", "segments_deferred"],
      ["stats", "segments_failed"], ["stats", "bytes_failed"]],
    [["socket", "sends_accepted"], ["socket", "bytes_accepted"], ["socket", "sends_deferred"],
      ["socket", "sends_refused"], ["socket", "packets_emitted"]]]

def diagnosticsPaths : List (List (List String)) :=
  [[["diagnostics", "unattributed"], ["diagnostics", "ack_drops"], ["flows", "in_flight"],
    ["diagnostics", "discarded_events"], ["diagnostics", "captured_events"]]]

def figures? (d : Document) : Option (List (List Nat)) := do
  let flows ← (d.at? ["flows", "flows"]).bind items?
  let flowRows ← flows.mapM (rows? flowPaths)
  let generators ← (d.at? ["generators"]).bind items?
  let generatorRows ← generators.mapM (rows? generatorPaths)
  let rest ← rows? diagnosticsPaths d
  return flowRows.flatten ++ generatorRows.flatten ++ rest

@[simp] theorem number?_nat (n : Nat) : (Json.nat n).document.number? = some n := by
  rw [Json.document, number?, Nat.toString_eq_ofList_toDigits, String.toList_ofList, readNumber?_toDigits]

@[simp] theorem items?_list (items : List Json) :
    (Json.list items).document.items? = some (Json.itemDocuments items) := by
  rw [Json.document, items?]

theorem mapM_rows?_itemDocuments {α : Type} {encode : α → Json} {paths : List (List (List String))}
    {rows : α → List (List Nat)} (h : ∀ a, rows? paths (encode a).document = some (rows a)) (as : List α) :
    (Json.itemDocuments (as.map encode)).mapM (rows? paths) = some (as.map rows) := by
  induction as with
  | nil => rfl
  | cons a as ih => simp [Json.itemDocuments, h, ih]

theorem lookup_fieldDocuments (name : String) (fields : List (String × Json)) :
    (Json.fieldDocuments fields).lookup name = (fields.lookup name).map Json.document := by
  induction fields with
  | nil => rfl
  | cons field fields ih =>
    rw [Json.fieldDocuments, List.lookup_cons, List.lookup_cons]
    split <;> simp [*]

@[simp] theorem at?_nil (d : Document) : d.at? [] = some d := rfl

@[simp] theorem at?_object (fields : List (String × Json)) (name : String) (path : List String) :
    (Json.object fields).document.at? (name :: path) =
      (fields.lookup name).bind fun value => value.document.at? path := by
  rw [Json.document, at?, lookup_fieldDocuments, Option.bind_map]
  rfl

theorem rows?_flow (f : FlowEntry) : rows? flowPaths f.json.document = some f.figures := by
  simp only [rows?, flowPaths, List.mapM_cons, List.mapM_nil, FlowEntry.json, FlowKey.json, FlowRecord.json, at?_object,
    List.lookup_cons, String.reduceBEq, Option.bind_some, at?_nil, number?_nat]
  rfl

theorem rows?_generator (g : GeneratorReport) : rows? generatorPaths g.json.document = some g.figures := by
  simp only [rows?, generatorPaths, List.mapM_cons, List.mapM_nil, GeneratorReport.json, GeneratorStats.json,
    SocketStats.json, at?_object, List.lookup_cons, String.reduceBEq, Option.bind_some, at?_nil, number?_nat]
  rfl

theorem rows?_diagnostics (r : Report) :
    rows? diagnosticsPaths r.json.document = some [r.diagnostics.figures r.flows.inFlight] := by
  simp only [rows?, diagnosticsPaths, List.mapM_cons, List.mapM_nil, Report.json, FlowSnapshot.json, Diagnostics.json,
    at?_object, List.lookup_cons, String.reduceBEq, Option.bind_some, at?_nil, number?_nat]
  rfl

theorem figures?_report (r : Report) : r.json.document.figures? = some r.figures := by
  have hflows : (r.json.document.at? ["flows", "flows"]).bind items? =
      some (Json.itemDocuments (r.flows.flows.map FlowEntry.json)) := by
    simp only [Report.json, FlowSnapshot.json, at?_object, List.lookup_cons, String.reduceBEq, Option.bind_some,
      at?_nil, items?_list]
  have hgenerators : (r.json.document.at? ["generators"]).bind items? =
      some (Json.itemDocuments (r.generators.map GeneratorReport.json)) := by
    simp only [Report.json, at?_object, List.lookup_cons, String.reduceBEq, Option.bind_some, at?_nil, items?_list]
  rw [figures?, hflows, hgenerators, rows?_diagnostics]
  simp [mapM_rows?_itemDocuments rows?_flow, mapM_rows?_itemDocuments rows?_generator, Report.figures,
    List.flatMap_def]

end Document

/-- The numbers that a JSON text tells. -/
def readJson? (text : String) : Option (List (List Nat)) := (Document.read? text).bind Document.figures?

/-- The JSON text of a report gives back its numbers. -/
theorem Report.readJson?_pretty (r : Report) : readJson? (r.json.pretty ++ "\n") = some r.figures := by
  rw [readJson?, Document.read?_pretty, Option.bind_some, Document.figures?_report]

end VideoLink
