import Parley.Proofs.Json.Token
import Parley.Binary64.Shortest
/-!
# Numerals of a text

The text of a number with a fraction or an exponent is a numeral: digits, then a point with further
digits, an exponent, or both (`Finite64.write_numeral`). Whatever number it is read as, the text goes on
behind it, unless it starts with a zero that does not stand alone (`Document.readNumber_numeral`).
-/
namespace Parley

open Parley.Text

/-- The parts of a numeral: the digits in front of the point and behind it, and the digits of the
exponent, with whether it is negative. -/
structure Numeral where
  whole : List Char
  fraction : List Char
  exponent : Option (Bool × List Char)

namespace Numeral

/-- A point with the digits behind it, if there are any. -/
def fractionText : List Char → List Char
  | [] => []
  | ds => '.' :: ds

theorem fractionText_of_ne {ds : List Char} (some_digits : ds ≠ []) : fractionText ds = '.' :: ds := by
  cases ds with
  | nil => contradiction
  | cons => rfl

def exponentText : Option (Bool × List Char) → List Char
  | none => []
  | some (down, ds) => 'e' :: (if down then '-' else '+') :: ds

def text (n : Numeral) : List Char :=
  n.whole ++ (fractionText n.fraction ++ exponentText n.exponent)

/-- The parts are digits, at least one in front of the point, and there is a point or an exponent. -/
structure Lawful (n : Numeral) : Prop where
  whole : Document.Digits n.whole
  starts : n.whole ≠ []
  fraction : Document.Digits n.fraction
  exponent : ∀ down ds, n.exponent = some (down, ds) → Document.Digits ds ∧ ds ≠ []
  marked : n.fraction ≠ [] ∨ n.exponent ≠ none

end Numeral

namespace Document

theorem ends_scaledNumber (negative : Bool) (whole fraction : List Char)
    (exponent : Option (Bool × List Char)) :
    (scaledNumber negative whole fraction exponent).ends = false := by
  rw [scaledNumber.eq_def]
  split
  split
  extract_lets shift result
  clear_value result
  cases result <;> rfl

theorem ends_wholeNumber (negative : Bool) (digits : List Char) :
    (wholeNumber negative digits).ends = false := by
  rw [wholeNumber.eq_def]
  split
  split
  · rfl
  split
  · rfl
  generalize Binary64.scaled? negative _ _ = result
  cases result <;> rfl

variable {rest : List Char}

/-- What follows the digits of a number is read as its exponent, if it has one. -/
private theorem readScale_exponent (negative : Bool) (whole fraction : List Char)
    {exponent : Option (Bool × List Char)} (marked : fraction ≠ [] ∨ exponent ≠ none)
    (digits : ∀ down ds, exponent = some (down, ds) → Digits ds ∧ ds ≠ []) (stops : Stops rest) :
    readScale negative whole fraction (Numeral.exponentText exponent ++ rest) =
      (scaledNumber negative whole fraction exponent, rest) := by
  cases exponent with
  | none =>
    have some_digits : fraction.isEmpty = false := by simpa using marked
    cases rest with
    | nil => simp [readScale, Numeral.exponentText, some_digits]
    | cons c rest => simp [readScale, Numeral.exponentText, some_digits, stops.not_digit.2.2]
  | some e =>
    obtain ⟨down, ds⟩ := e
    obtain ⟨digits, some_digits⟩ := digits down ds rfl
    have span := stops.spanDigits digits
    cases ds with
    | nil => contradiction
    | cons c cs =>
      rw [List.cons_append] at span
      cases down <;> simp [readScale, Numeral.exponentText, span]

/-- Of several digits the first one is a zero. -/
def LeadingZero (ds : List Char) : Prop := ∃ c cs, ds = '0' :: c :: cs

private theorem readNumber_leadingZero (negative : Bool) {cs ds after : List Char}
    (span : Binary64.spanDigits cs = (ds, after)) (zero : LeadingZero ds) :
    readNumber negative cs = badNumber after := by
  obtain ⟨c, ds, rfl⟩ := zero
  simp [readNumber, span]

private theorem readNumber_fraction (negative : Bool) {cs ds fraction after : List Char}
    (span : Binary64.spanDigits cs = (ds, '.' :: (fraction ++ after))) (starts : ds ≠ [])
    (plain : ¬ LeadingZero ds) (digits : Binary64.spanDigits (fraction ++ after) = (fraction, after))
    (some_digits : fraction ≠ []) :
    readNumber negative cs = readScale negative ds fraction after := by
  unfold readNumber
  rw [span]
  split
  · next none => exact absurd (Prod.mk.inj none).1 starts
  · next zero => exact absurd ⟨_, _, (Prod.mk.inj zero).1⟩ plain
  · next point =>
    obtain ⟨rfl, same⟩ := Prod.mk.inj point
    obtain rfl := (List.cons.inj same).2
    rw [digits]
    cases fraction with
    | nil => contradiction
    | cons => rfl
  · next other =>
    obtain ⟨rfl, rfl⟩ := Prod.mk.inj other
    simp_all

private theorem readNumber_whole (negative : Bool) {cs ds after : List Char}
    (span : Binary64.spanDigits cs = (ds, after)) (starts : ds ≠ []) (plain : ¬ LeadingZero ds)
    (pointless : ∀ more, after ≠ '.' :: more) :
    readNumber negative cs = readScale negative ds [] after := by
  unfold readNumber
  rw [span]
  split
  · next none => exact absurd (Prod.mk.inj none).1 starts
  · next zero => exact absurd ⟨_, _, (Prod.mk.inj zero).1⟩ plain
  · next point => exact absurd (Prod.mk.inj point).2 (pointless _)
  · next other =>
    obtain ⟨rfl, rfl⟩ := Prod.mk.inj other
    rfl

private theorem span_exponent {ds : List Char} (digits : Digits ds)
    (exponent : Option (Bool × List Char)) (stops : Stops rest) :
    Binary64.spanDigits (ds ++ (Numeral.exponentText exponent ++ rest)) =
      (ds, Numeral.exponentText exponent ++ rest) := by
  cases exponent with
  | none => exact stops.spanDigits digits
  | some e =>
    refine spanDigits_append digits fun c cs same => ?_
    obtain ⟨rfl, -⟩ := List.cons.inj same
    rfl

private theorem span_whole {n : Numeral} (lawful : n.Lawful) (stops : Stops rest) :
    Binary64.spanDigits (n.text ++ rest) =
      (n.whole, Numeral.fractionText n.fraction ++ (Numeral.exponentText n.exponent ++ rest)) := by
  rw [Numeral.text, List.append_assoc, List.append_assoc]
  cases fraction : n.fraction with
  | nil => exact span_exponent lawful.whole n.exponent stops
  | cons d ds =>
    refine spanDigits_append lawful.whole fun c cs same => ?_
    obtain ⟨rfl, -⟩ := List.cons.inj same
    rfl

/-- A numeral is read as a number, and the text goes on behind it; or the text cannot be followed,
for a zero in front of other digits. -/
theorem readNumber_numeral (negative : Bool) {n : Numeral} (lawful : n.Lawful) :
    (∀ rest, Stops rest → readNumber negative (n.text ++ rest) =
      (scaledNumber negative n.whole n.fraction n.exponent, rest)) ∨
    ∀ rest, Stops rest → (readNumber negative (n.text ++ rest)).1.ends = true := by
  by_cases zero : LeadingZero n.whole
  · refine .inr fun rest stops => ?_
    rw [readNumber_leadingZero negative (span_whole lawful stops) zero]
    rfl
  · refine .inl fun rest stops => ?_
    have span := span_whole lawful stops
    have scale := readScale_exponent negative n.whole n.fraction lawful.marked lawful.exponent stops
    cases fraction : n.fraction with
    | nil =>
      rw [fraction] at span scale
      have pointless (more : List Char) :
          Numeral.exponentText n.exponent ++ rest ≠ '.' :: more := by
        cases exponent : n.exponent with
        | none => exact absurd lawful.marked (by simp [fraction, exponent])
        | some e => simp [Numeral.exponentText]
      exact (readNumber_whole negative span lawful.starts zero pointless).trans scale
    | cons d ds =>
      rw [fraction] at span scale
      have digits := span_exponent lawful.fraction n.exponent stops
      rw [fraction] at digits
      rw [readNumber_fraction negative span lawful.starts zero digits (by simp), scale]

end Document

namespace Finite64
open Document (Digits)

private theorem digits_zeros (n : Nat) : Digits (List.replicate n '0') := fun c member => by
  rw [List.eq_of_mem_replicate member]
  rfl

private theorem digits_append {ds es : List Char} (one : Digits ds) (two : Digits es) :
    Digits (ds ++ es) := fun c member => (List.mem_append.mp member).elim (one c) (two c)

private theorem digits_part {ds es : List Char} (digits : Digits ds) (part : es ⊆ ds) : Digits es :=
  fun c member => digits c (part member)

/-- However the digits of a number are laid out, they make a numeral. -/
theorem layout_numeral {ds : List Char} (digits : Digits ds) (starts : ds ≠ []) (k : Int) :
    ∃ n : Numeral, n.Lawful ∧ layout ds k = n.text := by
  have length : 0 < ds.length := List.length_pos_iff.mpr starts
  have zero : Digits ['0'] := digits_zeros 1
  unfold layout
  dsimp only
  split
  · refine ⟨⟨ds ++ List.replicate k.toNat '0', ['0'], none⟩, ⟨digits_append digits (digits_zeros _),
      by simp [starts], zero, nofun, .inl (by simp)⟩, ?_⟩
    simp [Numeral.text, Numeral.fractionText, Numeral.exponentText]
  split
  · next large within =>
    have cut : (k + ds.length).toNat < ds.length := by omega
    have behind : ds.drop (k + ds.length).toNat ≠ [] := by simpa using cut
    have front : ds.take (k + ds.length).toNat ≠ [] := by
      simp only [ne_eq, List.take_eq_nil_iff, starts, or_false]
      omega
    refine ⟨⟨ds.take (k + ds.length).toNat, ds.drop (k + ds.length).toNat, none⟩,
      ⟨digits_part digits (List.take_subset ..), front, digits_part digits (List.drop_subset ..),
        nofun, .inl behind⟩, ?_⟩
    rw [Numeral.text, Numeral.fractionText_of_ne behind]
    simp [Numeral.exponentText]
  split
  · have behind : List.replicate (-(k + ds.length)).toNat '0' ++ ds ≠ [] := by simp [starts]
    refine ⟨⟨['0'], List.replicate (-(k + ds.length)).toNat '0' ++ ds, none⟩,
      ⟨zero, by simp, digits_append (digits_zeros _) digits, nofun, .inl behind⟩, ?_⟩
    rw [Numeral.text, Numeral.fractionText_of_ne behind]
    simp [Numeral.exponentText]
  · have front : ds.take 1 ≠ [] := by simp [starts]
    refine ⟨⟨ds.take 1, ds.drop 1, some (decide (k + ds.length - 1 < 0),
        writeNatural (k + ds.length - 1).natAbs)⟩,
      ⟨digits_part digits (List.take_subset ..), front, digits_part digits (List.drop_subset ..),
        ?_, .inr (by simp)⟩, ?_⟩
    · rintro down es same
      obtain ⟨-, rfl⟩ := Prod.mk.inj (Option.some.inj same)
      exact ⟨Document.digits_toDigits _, Nat.toDigits_ne_nil⟩
    · have fraction : (if ds.length ≤ 1 then [] else '.' :: ds.drop 1) =
          Numeral.fractionText (ds.drop 1) := by
        by_cases single : ds.length ≤ 1
        · rw [if_pos single, List.drop_eq_nil_of_le single]
          rfl
        · rw [if_neg single, Numeral.fractionText_of_ne (mt List.drop_eq_nil_iff.mp single)]
      rw [fraction]
      by_cases down : k + ds.length - 1 < 0 <;> simp [Numeral.text, Numeral.exponentText, down]

/-- The text of a number is a numeral behind its sign. -/
theorem write_numeral (x : Finite64) :
    ∃ n : Numeral, n.Lawful ∧ x.write = if x.negative then '-' :: n.text else n.text := by
  unfold write
  generalize shortest x.units = digits
  obtain ⟨d, k⟩ := digits
  dsimp only
  by_cases none : x.units = 0
  · refine ⟨⟨['0'], ['0'], .none⟩, ⟨digits_zeros 1, by simp, digits_zeros 1, nofun, .inl (by simp)⟩,
      ?_⟩
    rw [if_pos none]
    rfl
  · obtain ⟨n, lawful, text⟩ :=
      layout_numeral (Document.digits_toDigits d) Nat.toDigits_ne_nil k
    exact ⟨n, lawful, by rw [if_neg none, writeNatural, text]⟩

end Finite64

end Parley
