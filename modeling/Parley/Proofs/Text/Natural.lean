import Parley.Text.Natural
import Parley.Proofs.Text.Blank
/-!
# Decimal numbers

The texts that are read as a number are digits with a sign `+` before them or none, and the number is
what the digits stand for (`Text.readNatural_iff`).
-/
namespace Parley.Text
variable {c : Char} {cs : List Char} {n : Nat}

/-- All of the characters are digits. -/
def Decimal (cs : List Char) : Prop := ∀ c ∈ cs, c.isDigit = true

theorem digit?_eq_some {d : Nat} :
    digit? c = some d ↔ c.isDigit = true ∧ d = c.toNat - '0'.toNat := by
  have same : c.isDigit = true ↔ '0' ≤ c ∧ c ≤ '9' := by
    simp only [Char.isDigit, Bool.and_eq_true, decide_eq_true_eq]
    rfl
  rw [digit?, same]
  split
  · next digit => simp [digit, eq_comm]
  · next other => simp [other]

theorem not_blank_of_digit (digit : c.isDigit = true) : isBlank c = false := by
  simp only [Char.isDigit, Bool.and_eq_true, decide_eq_true_eq, UInt32.le_iff_toNat_le] at digit
  obtain ⟨least, greatest⟩ := digit
  have low : 48 ≤ c.toNat := least
  have high : c.toNat ≤ 57 := greatest
  simp only [isBlank, blankRanges, List.any_cons, List.any_nil, Bool.or_false, Bool.or_eq_false_iff,
    Bool.and_eq_false_iff, decide_eq_false_iff_not]
  omega

theorem decimal_toDigits (n : Nat) : Decimal (Nat.toDigits 10 n) := fun _ member =>
  Nat.isDigit_of_mem_toDigits (by decide) (by decide) member

theorem readDigits_iff {acc : Nat} :
    readDigits acc cs = some n ↔ Decimal cs ∧ n = Nat.ofDigitChars 10 cs acc := by
  induction cs generalizing acc with
  | nil =>
    have all : Decimal [] := fun _ member => absurd member List.not_mem_nil
    simp [readDigits, all, eq_comm]
  | cons c cs ih =>
    rw [readDigits, Decimal, List.forall_mem_cons, Nat.ofDigitChars_cons]
    cases value : digit? c with
    | none =>
      have other : ¬ c.isDigit = true := by
        intro digit
        rw [digit?_eq_some.mpr ⟨digit, rfl⟩] at value
        contradiction
      simp [other]
    | some d =>
      obtain ⟨digit, rfl⟩ := digit?_eq_some.mp value
      simp only [ih, digit, true_and, Nat.mul_comm acc 10]
      rfl

theorem readUnsigned_iff :
    readUnsigned cs = some n ↔ cs ≠ [] ∧ Decimal cs ∧ n = Nat.ofDigitChars 10 cs 0 := by
  cases cs with
  | nil => simp [readUnsigned]
  | cons c cs => simp [readUnsigned, readDigits_iff]

/-- The text of a natural number: digits, with a sign before them or none. -/
inductive SpellsNatural : List Char → Nat → Prop
  | mk (sign digits : List Char) : sign = [] ∨ sign = ['+'] → digits ≠ [] → Decimal digits →
      SpellsNatural (sign ++ digits) (Nat.ofDigitChars 10 digits 0)

private theorem readNatural_signed (greatest : Nat) (rest : List Char) :
    readNatural greatest ('+' :: rest) = (readUnsigned rest).filter (· ≤ greatest) := by
  simp only [readNatural]
  cases readUnsigned rest <;> simp [Option.filter]

private theorem readNatural_unsigned (greatest : Nat) (unsigned : ∀ rest, cs ≠ '+' :: rest) :
    readNatural greatest cs = (readUnsigned cs).filter (· ≤ greatest) := by
  unfold readNatural
  split
  · exact absurd rfl (unsigned _)
  · dsimp only
    cases readUnsigned cs <;> simp [Option.filter]

theorem readNatural_iff {greatest : Nat} :
    readNatural greatest cs = some n ↔ SpellsNatural cs n ∧ n ≤ greatest := by
  by_cases plus : ∃ rest, cs = '+' :: rest
  · obtain ⟨rest, rfl⟩ := plus
    rw [readNatural_signed, Option.filter_eq_some_iff, readUnsigned_iff, decide_eq_true_iff,
      and_congr_left_iff]
    intro _
    constructor
    · rintro ⟨some, decimal, rfl⟩
      exact .mk ['+'] rest (.inr rfl) some decimal
    · intro spells
      generalize whole : '+' :: rest = text at spells
      cases spells with
      | mk sign digits signed some decimal =>
        rcases signed with rfl | rfl
        · rw [List.nil_append] at whole
          have digit := decimal '+' (whole ▸ List.mem_cons_self ..)
          contradiction
        · obtain ⟨-, rfl⟩ := List.cons.inj whole
          exact ⟨some, decimal, rfl⟩
  · have unsigned := not_exists.mp plus
    rw [readNatural_unsigned greatest unsigned, Option.filter_eq_some_iff, readUnsigned_iff,
      decide_eq_true_iff, and_congr_left_iff]
    intro _
    constructor
    · rintro ⟨some, decimal, rfl⟩
      exact .mk [] cs (.inl rfl) some decimal
    · intro spells
      cases spells with
      | mk sign digits signed some decimal =>
        rcases signed with rfl | rfl
        · exact ⟨some, decimal, rfl⟩
        · exact absurd rfl (unsigned digits)

theorem SpellsNatural.trimmed (spells : SpellsNatural cs n) : Trimmed cs := by
  cases spells with
  | mk sign digits signed some decimal =>
    have visible : ∀ c ∈ sign ++ digits, isBlank c = false := by
      intro c member
      rcases List.mem_append.mp member with inSign | inDigits
      · rcases signed with rfl | rfl
        · exact absurd inSign List.not_mem_nil
        · rw [List.mem_singleton.mp inSign]
          decide
      · exact not_blank_of_digit (decimal c inDigits)
    exact ⟨fun c rest here => visible c (by simp [here]), fun front c here => visible c (by simp [here])⟩

theorem spellsNatural_write (n : Nat) : SpellsNatural (writeNatural n) n := by
  have spells := SpellsNatural.mk [] (Nat.toDigits 10 n) (.inl rfl) Nat.toDigits_ne_nil
    (decimal_toDigits n)
  rwa [List.nil_append, Nat.ofDigitChars_ten_toDigits] at spells

end Parley.Text
