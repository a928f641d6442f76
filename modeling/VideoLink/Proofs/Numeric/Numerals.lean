import Mathlib
import VideoLink.Numeric.Decimal

/-! Decimal numerals: digits, and after a point more digits. Digits with zeros in front and numbers with a
fixed count of decimals are numerals of the value that they were made from, and a numeral is read back from
its text. -/
namespace VideoLink.Numeric

theorem toList_pushn (text : String) (c : Char) (n : Nat) :
    (text.pushn c n).toList = text.toList ++ List.replicate n c := by
  rw [String.pushn_eq_repeat_push]
  induction n with
  | zero => simp [Nat.repeat]
  | succ n ih => simp [Nat.repeat, ih, List.replicate_succ']

/-! Digits with zeros in front. -/

theorem toList_padded (width n : Nat) : (padded width n).toList =
    List.replicate (width - (Nat.toDigits 10 n).length) '0' ++ Nat.toDigits 10 n := by
  have hlength : (toString n).length = (Nat.toDigits 10 n).length := by
    rw [Nat.toString_eq_ofList_toDigits, String.length_ofList]
  rw [padded, hlength, String.toList_append, toList_pushn, Nat.toString_eq_ofList_toDigits, String.toList_ofList]
  simp

theorem isDigit_of_mem_padded {width n : Nat} {c : Char} (hc : c ∈ (padded width n).toList) : c.isDigit := by
  rw [toList_padded, List.mem_append] at hc
  rcases hc with hzero | hdigit
  · rw [List.eq_of_mem_replicate hzero]
    rfl
  · exact Nat.isDigit_of_mem_toDigits (by decide) (by decide) hdigit

theorem length_padded {width n : Nat} (pos : 0 < width) (h : n < 10 ^ width) :
    (padded width n).toList.length = width := by
  have hfits := (Nat.length_toDigits_le_iff (by decide) pos).2 h
  rw [toList_padded, List.length_append, List.length_replicate]
  omega

theorem ofDigitChars_padded (width n : Nat) : Nat.ofDigitChars 10 (padded width n).toList 0 = n := by
  rw [toList_padded, Nat.ofDigitChars_append, Nat.ofDigitChars_replicate_zero, Nat.mul_zero,
    Nat.ofDigitChars_ten_toDigits]

/-! Numerals. -/

/-- Digits, and after a point more digits if there is a fraction. There is no sign and no exponent. -/
structure Numeral where
  whole : List Char
  fraction : List Char
  whole_ne_nil : whole ≠ []
  isDigit : ∀ c ∈ whole ++ fraction, c.isDigit

namespace Numeral

def chars (n : Numeral) : List Char := n.whole ++ if n.fraction = [] then [] else '.' :: n.fraction

def text (n : Numeral) : String := String.ofList n.chars

def digits (n : Numeral) : Nat := Nat.ofDigitChars 10 (n.whole ++ n.fraction) 0

def value (n : Numeral) : ℚ := n.digits / 10 ^ n.fraction.length

def ofDigits? (whole fraction : List Char) : Option Numeral :=
  if h : whole ≠ [] ∧ ∀ c ∈ whole ++ fraction, c.isDigit then some ⟨whole, fraction, h.1, h.2⟩ else none

/-- The numeral that a text is. A point has digits on both sides. -/
def ofText? (text : String) : Option Numeral :=
  match text.toList.splitOn '.' with
  | [whole] => ofDigits? whole []
  | [whole, fraction] => if fraction = [] then none else ofDigits? whole fraction
  | _ => none

variable (n : Numeral)

@[simp] theorem toList_text : n.text.toList = n.chars := String.toList_ofList

theorem mem_chars {c : Char} (hc : c ∈ n.chars) : c.isDigit ∨ c = '.' := by
  have hdigit := n.isDigit c
  unfold chars at hc
  split at hc <;> simp at hc hdigit <;> tauto

theorem ofDigits?_self : ofDigits? n.whole n.fraction = some n := dif_pos ⟨n.whole_ne_nil, n.isDigit⟩

theorem point_not_mem {digits : List Char} (h : ∀ c ∈ digits, c.isDigit) : '.' ∉ digits := fun hc =>
  absurd (h '.' hc) (by decide)

theorem ofText?_text : ofText? n.text = some n := by
  have hwhole := point_not_mem fun c hc => n.isDigit c (List.mem_append_left _ hc)
  have hfraction := point_not_mem fun c hc => n.isDigit c (List.mem_append_right _ hc)
  have hself := n.ofDigits?_self
  rw [ofText?, toList_text, chars]
  by_cases hnil : n.fraction = []
  · rw [hnil] at hself
    rw [if_pos hnil, List.append_nil, List.splitOn_eq_singleton hwhole]
    exact hself
  · rw [if_neg hnil, List.splitOn_append_cons_self_of_not_mem hwhole, List.splitOn_eq_singleton hfraction]
    simp only [if_neg hnil, hself]

theorem digits_eq : n.digits =
    Nat.ofDigitChars 10 n.whole 0 * 10 ^ n.fraction.length + Nat.ofDigitChars 10 n.fraction 0 := by
  rw [digits, Nat.ofDigitChars_append, Nat.ofDigitChars_eq_ofDigitChars_zero, Nat.mul_comm]

/-- `k / 10 ^ places`, with `places` digits after the point. -/
def ofPlaces (places k : Nat) : Numeral where
  whole := Nat.toDigits 10 (k / 10 ^ places)
  fraction := (padded places (k % 10 ^ places)).toList
  whole_ne_nil := Nat.toDigits_ne_nil
  isDigit c hc := (List.mem_append.1 hc).elim (Nat.isDigit_of_mem_toDigits (by decide) (by decide))
    isDigit_of_mem_padded

variable {places : Nat} (pos : 0 < places) (k : Nat)
include pos

theorem length_fraction_ofPlaces : (ofPlaces places k).fraction.length = places := by
  have hlt : k % 10 ^ places < 10 ^ places := Nat.mod_lt k (Nat.pow_pos (by decide))
  rw [ofPlaces, length_padded pos hlt]

theorem text_ofPlaces : (ofPlaces places k).text = withPlaces places k := by
  have hlength := length_fraction_ofPlaces pos k
  have hnil : (ofPlaces places k).fraction ≠ [] := by
    intro hnil
    rw [hnil] at hlength
    exact absurd hlength pos.ne
  rw [← String.toList_inj, toList_text, chars, if_neg hnil, withPlaces, if_neg pos.ne']
  simp only [ofPlaces, Nat.pow_eq, Nat.toString_eq_repr, String.toList_append, Nat.toList_repr, List.append_assoc,
    List.append_cancel_left_eq]
  rfl

theorem value_ofPlaces : (ofPlaces places k).value = k / 10 ^ places := by
  have hdigits : (ofPlaces places k).digits = k := by
    rw [digits_eq, length_fraction_ofPlaces pos]
    simp only [ofPlaces, Nat.ofDigitChars_ten_toDigits, ofDigitChars_padded]
    exact Nat.div_add_mod' k _
  rw [value, hdigits, length_fraction_ofPlaces pos]

end Numeral

end VideoLink.Numeric
