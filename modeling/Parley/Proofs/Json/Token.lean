import Parley.Proofs.Json.Compact
import Parley.Proofs.Text.Natural
import Mathlib.Data.List.TakeDrop
/-!
# Strings and integers of a text

A string is read back from its text behind the quote, whatever characters it has, and an integer that
fits a machine word from its digits.
-/
namespace Parley

open Parley.Text

namespace Document

/-! ## Strings -/

private theorem hexDigit?_low : ∀ n < 32, hexDigit? (Nat.digitChar (n / 16)) = some (n / 16) ∧
    hexDigit? (Nat.digitChar (n % 16)) = some (n % 16) := by
  decide +kernel

private theorem readEscapedNumber_low {c : Char} (low : c.toNat < 32) (rest : List Char) :
    readEscapedNumber ('0' :: '0' :: Nat.digitChar (c.toNat / 16) :: Nat.digitChar (c.toNat % 16) ::
      rest) = .ok (c, rest) := by
  obtain ⟨first, second⟩ := hexDigit?_low c.toNat low
  have zero : hexDigit? '0' = some 0 := by decide
  have whole : ((0 * 16 + 0) * 16 + c.toNat / 16) * 16 + c.toNat % 16 = c.toNat := by omega
  have hex : readHex ('0' :: '0' :: Nat.digitChar (c.toNat / 16) :: Nat.digitChar (c.toNat % 16) ::
      rest) = .ok (c.toNat, rest) := by
    simp only [readHex, zero, first, second, whole]
  have plain : isTrailing c.toNat = false ∧ isLeading c.toNat = false := by
    simp [isTrailing, isLeading]
    omega
  simp [readEscapedNumber, hex, plain]

/-- A character is read back from its escape, or from itself, in front of characters that are read. -/
private theorem readChars_escape (c : Char) {fuel : Nat} {rest ds after : List Char}
    (later : readChars fuel rest = .ok (ds, after)) :
    readChars (fuel + 1) (Json.escape c ++ rest) = .ok (c :: ds, after) := by
  have escaped : Json.Escaped c (Json.escape c) := Json.escaped_iff.mpr rfl
  generalize Json.escape c = text at escaped
  cases escaped with
  | control low _ => simp [readChars, readEscapedNumber_low low, later]
  | plain high quote backslash => simp [readChars, quote, backslash, Nat.not_lt.mpr high, later]
  | _ => simp [readChars, escaped?, later]

theorem readChars_escaped (cs rest : List Char) {fuel : Nat} (enough : cs.length < fuel) :
    readChars fuel (cs.flatMap Json.escape ++ '"' :: rest) = .ok (cs, rest) := by
  induction cs generalizing fuel with
  | nil =>
    obtain ⟨fuel, rfl⟩ := Nat.exists_eq_succ_of_ne_zero (Nat.ne_zero_of_lt enough)
    simp [readChars]
  | cons c cs ih =>
    obtain ⟨fuel, rfl⟩ := Nat.exists_eq_succ_of_ne_zero (Nat.ne_zero_of_lt enough)
    rw [List.flatMap_cons, List.append_assoc]
    exact readChars_escape c (ih (by simpa using enough))

private theorem length_escape (c : Char) : 1 ≤ (Json.escape c).length := by
  unfold Json.escape
  repeat' split
  all_goals simp

private theorem length_flatMap_escape (cs : List Char) :
    cs.length ≤ (cs.flatMap Json.escape).length := by
  induction cs with
  | nil => simp
  | cons c cs ih =>
    have := length_escape c
    simp only [List.length_cons, List.flatMap_cons, List.length_append]
    omega

/-- A string is read back behind its opening quote. -/
theorem readString_escaped (s : String) (rest : List Char) :
    readString (s.toList.flatMap Json.escape ++ '"' :: rest) = (.str s, rest) := by
  have := length_flatMap_escape s.toList
  rw [readString, readChars_escaped _ _ (by rw [List.length_append]; omega)]
  simp

/-! ## Integers -/

private theorem digit?_digits {n : Nat} {c : Char} (member : c ∈ Nat.toDigits 10 n) :
    digit? c = some (c.toNat - '0'.toNat) :=
  digit?_eq_some.mpr ⟨Nat.isDigit_of_mem_toDigits (by decide) (by decide) member, rfl⟩

private theorem ofDigitChars_ge (ds : List Char) (n : Nat) : n ≤ Nat.ofDigitChars 10 ds n := by
  induction ds generalizing n with
  | nil => simp
  | cons c cs ih =>
    rw [Nat.ofDigitChars_cons]
    have := ih (10 * n + (c.toNat - '0'.toNat))
    omega

/-- All digits are taken when their number fits a machine word. -/
private theorem takeDigits_fits {ds : List Char} {n : Nat}
    (digits : ∀ c ∈ ds, digit? c = some (c.toNat - '0'.toNat))
    (fits : Nat.ofDigitChars 10 ds n ≤ greatest64) :
    takeDigits n ds = (Nat.ofDigitChars 10 ds n, 0) := by
  induction ds generalizing n with
  | nil => simp [takeDigits]
  | cons c cs ih =>
    obtain ⟨first, later⟩ := List.forall_mem_cons.mp digits
    rw [Nat.ofDigitChars_cons] at fits ⊢
    have small := Nat.le_trans (ofDigitChars_ge cs _) fits
    have next : n * 10 + (digit? c).getD 0 = 10 * n + (c.toNat - '0'.toNat) := by
      rw [first, Option.getD_some, Nat.mul_comm]
    rw [takeDigits, next, if_pos small, ih later fits]

private theorem takeDigits_toDigits {n : Nat} (fits : n ≤ greatest64) :
    takeDigits 0 (Nat.toDigits 10 n) = (n, 0) := by
  rw [takeDigits_fits (fun c => digit?_digits) (by rwa [Nat.ofDigitChars_ten_toDigits]),
    Nat.ofDigitChars_ten_toDigits]

/-- A number of more than one digit does not start with zero. -/
private theorem toDigits_ne_zero (n : Nat) (c : Char) (cs : List Char) :
    Nat.toDigits 10 n ≠ '0' :: c :: cs := by
  induction n using Nat.strongRecOn generalizing c cs with
  | ind n ih =>
    by_cases small : n < 10
    · simp [Nat.toDigits_of_lt_base small]
    · rw [Nat.toDigits_of_base_le (by decide) (by omega)]
      intro zero
      cases front : Nat.toDigits 10 (n / 10) with
      | nil => exact Nat.toDigits_ne_nil front
      | cons d ds =>
        rw [front] at zero
        obtain rfl : d = '0' := (List.cons.inj zero).1
        cases ds with
        | cons e es => exact ih (n / 10) (by omega) e es front
        | nil =>
          have value := Nat.ofDigitChars_ten_toDigits (n := n / 10)
          rw [front] at value
          have : n / 10 = 0 := value.symm
          omega

theorem Stops.not_digit {c : Char} {rest : List Char} (stops : Stops (c :: rest)) :
    digit? c = none ∧ c ≠ '.' ∧ ¬ (c = 'e' ∨ c = 'E') := by
  rcases stops with rfl | rfl | rfl <;> decide

/-- All of the characters are digits. -/
def Digits (ds : List Char) : Prop := ∀ c ∈ ds, (digit? c).isSome

theorem digits_toDigits (n : Nat) : Digits (Nat.toDigits 10 n) := fun c member => by
  simp [digit?_digits member]

theorem spanDigits_append {ds rest : List Char} (digits : Digits ds)
    (ends : ∀ c cs, rest = c :: cs → digit? c = none) :
    Binary64.spanDigits (ds ++ rest) = (ds, rest) := by
  have none : rest.takeWhile (fun c => (digit? c).isSome) = [] ∧
      rest.dropWhile (fun c => (digit? c).isSome) = rest := by
    cases rest with
    | nil => simp
    | cons c rest => simp [ends c rest rfl]
  rw [Binary64.spanDigits, List.span_eq_takeWhile_dropWhile, List.takeWhile_append_of_pos digits,
    List.dropWhile_append_of_pos digits, none.1, none.2, List.append_nil]

theorem Stops.spanDigits {ds rest : List Char} (stops : Stops rest) (digits : Digits ds) :
    Binary64.spanDigits (ds ++ rest) = (ds, rest) :=
  spanDigits_append digits fun _ _ same => (same ▸ stops).not_digit.1

theorem readNumber_toDigits (negative : Bool) (n : Nat) {rest : List Char} (stops : Stops rest) :
    readNumber negative (Nat.toDigits 10 n ++ rest) =
      (wholeNumber negative (Nat.toDigits 10 n), rest) := by
  have scale : readScale negative (Nat.toDigits 10 n) [] rest =
      (wholeNumber negative (Nat.toDigits 10 n), rest) := by
    cases rest with
    | nil => rfl
    | cons c rest => simp [readScale, stops.not_digit.2.2]
  unfold readNumber
  rw [stops.spanDigits (digits_toDigits n)]
  split
  · next none => exact absurd (Prod.mk.inj none).1 Nat.toDigits_ne_nil
  · next zero => exact absurd (Prod.mk.inj zero).1 (toDigits_ne_zero n _ _)
  · next point => exact absurd rfl ((Prod.mk.inj point).2 ▸ stops).not_digit.2.1
  · next whole =>
    obtain ⟨rfl, rfl⟩ := Prod.mk.inj whole
    exact scale

private theorem wholeNumber_unsigned {n : Nat} (fits : n ≤ greatest64) :
    wholeNumber false (Nat.toDigits 10 n) = .int n := by
  rw [wholeNumber, takeDigits_toDigits fits]
  rfl

private theorem wholeNumber_negative {n : Nat} (fits : n ≤ greatestSigned64) :
    wholeNumber true (Nat.toDigits 10 (n + 1)) = .int (.negSucc n) := by
  have small : n + 1 ≤ greatest64 := by
    have : greatestSigned64 + 1 ≤ greatest64 := by decide
    omega
  rw [wholeNumber, takeDigits_toDigits small]
  refine (if_neg (by simp)).trans ?_
  exact if_pos (c := 0 = 0 ∧ 0 < n + 1 ∧ n + 1 ≤ greatestSigned64 + 1)
    ⟨rfl, Nat.succ_pos n, Nat.succ_le_succ fits⟩

/-! ## Numbers where a value is expected -/

theorem readValue_minus (fuel : Nat) (cs : List Char) :
    readValue (fuel + 1) ('-' :: cs) = readNumber true cs := by
  rw [readValue]
  simp only [skipGap, isGap, List.dropWhile, Char.reduceBEq, Bool.or_false, Char.reduceEq, if_false,
    if_true]

theorem readValue_digit (fuel : Nat) {c : Char} (digit : (digit? c).isSome) (cs : List Char) :
    readValue (fuel + 1) (c :: cs) = readNumber false (c :: cs) := by
  have other {x : Char} (none : digit? x = none) : c ≠ x := fun same => by
    simp [same ▸ none] at digit
  have solid : isGap c = false := by
    simp [isGap, other (x := ' ') rfl, other (x := '\n') rfl, other (x := '\t') rfl,
      other (x := '\r') rfl]
  have gap : skipGap (c :: cs) = c :: cs := by simp [skipGap, solid]
  rw [readValue, gap]
  simp only [other (x := 'n') rfl, other (x := 't') rfl, other (x := 'f') rfl, other (x := '"') rfl,
    other (x := '-') rfl, digit, if_false, if_true]

theorem readValue_integer (n : Int) (fuel : Nat) {rest : List Char} (stops : Stops rest) :
    readValue (fuel + 1) (writeInteger n ++ rest) =
      (wholeNumber (decide (n < 0)) (Nat.toDigits 10 n.natAbs), rest) := by
  cases n with
  | negSucc n =>
    have negative : decide (Int.negSucc n < 0) = true := decide_eq_true (Int.negSucc_lt_zero n)
    simp only [writeInteger, writeNatural, List.cons_append, readValue_minus, negative]
    exact readNumber_toDigits true (n + 1) stops
  | ofNat n =>
    have positive : decide (Int.ofNat n < 0) = false := decide_eq_false (by simp)
    have number := readNumber_toDigits false n stops
    rw [positive]
    cases text : Nat.toDigits 10 n with
    | nil => exact absurd text Nat.toDigits_ne_nil
    | cons c cs =>
      have digit := digits_toDigits n c (by simp [text])
      rw [text] at number
      simp only [writeInteger, writeNatural, text, List.cons_append] at number ⊢
      rw [readValue_digit fuel digit, number, Int.natAbs_ofNat', text]

/-- An integer that fits a machine word is read back. -/
theorem readValue_writeInteger {n : Int} (fits : FitsWord n) (fuel : Nat) {rest : List Char}
    (stops : Stops rest) : readValue (fuel + 1) (writeInteger n ++ rest) = (.int n, rest) := by
  rw [readValue_integer n fuel stops]
  cases n with
  | negSucc n =>
    have small : n ≤ greatestSigned64 := by
      have := fits.1
      omega
    rw [decide_eq_true (Int.negSucc_lt_zero n), Int.natAbs_negSucc, wholeNumber_negative small]
  | ofNat n =>
    have positive : decide (Int.ofNat n < 0) = false := decide_eq_false (by simp)
    rw [positive, Int.natAbs_ofNat', wholeNumber_unsigned (Int.ofNat_le.mp fits.2)]
    rfl

end Document

end Parley
