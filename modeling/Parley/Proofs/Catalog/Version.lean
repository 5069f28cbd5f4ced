import Parley.Catalog.Version
import Mathlib.Data.List.Pairwise
import Mathlib.Data.String.Basic
/-!
# The order of versions

Two numbers are compared as numbers, and a number with a text as texts. On their own numbers are in
order, and so are texts. Together they need not be: a text can stand behind the greater of two
numbers and in front of the lesser one, as `1a` stands behind `10` and in front of `2`. The three
then come one before the other in a circle. Nothing else goes wrong (`linear_iff`).
-/
namespace Parley.Version
variable {a b c : String} {versions : List String}

theorem before_numbers {m n : Nat} (first : number? a = some m) (second : number? b = some n) :
    before a b = true ↔ m < n := by
  simp [before, first, second]

/-- One version that is no number is enough for both to be compared as texts. -/
theorem before_texts (text : number? a = none ∨ number? b = none) : before a b = true ↔ a < b := by
  unfold before
  split
  · next first second => simp [first, second] at text
  · exact decide_eq_true_iff

theorem before_irrefl (a : String) : ¬ before a a = true := by
  cases number : number? a with
  | none => exact fun first => String.lt_irrefl a ((before_texts (.inl number)).mp first)
  | some n => exact fun first => Nat.lt_irrefl n ((before_numbers number number).mp first)

theorem before_asymm (first : before a b = true) : ¬ before b a = true := by
  intro second
  cases left : number? a with
  | none =>
    exact String.lt_asymm ((before_texts (.inl left)).mp first) ((before_texts (.inr left)).mp second)
  | some m =>
    cases right : number? b with
    | none =>
      exact String.lt_asymm ((before_texts (.inr right)).mp first)
        ((before_texts (.inl right)).mp second)
    | some n =>
      have := (before_numbers left right).mp first
      have := (before_numbers right left).mp second
      omega

theorem ne_of_before (first : before a b = true) : a ≠ b := by
  rintro rfl
  exact before_irrefl a first

/-- Two versions between which nothing decides: two spellings of one number. -/
def Tied (a b : String) : Prop :=
  a ≠ b ∧ ∃ n, number? a = some n ∧ number? b = some n

/-- A text behind the greater and in front of the lesser of two numbers. -/
def Torn (low high text : String) : Prop :=
  (∃ m n, number? low = some m ∧ number? high = some n ∧ m < n) ∧
    number? text = none ∧ high < text ∧ text < low

private theorem lt_or_gt (other : a ≠ b) : a < b ∨ b < a := by
  by_cases first : a < b
  · exact .inl first
  · refine .inr (Decidable.by_contra fun second => other ?_)
    exact String.le_antisymm (String.not_lt.mp second) (String.not_lt.mp first)

theorem tied_iff (other : a ≠ b) : Tied a b ↔ ¬ before a b = true ∧ ¬ before b a = true := by
  constructor
  · rintro ⟨-, n, left, right⟩
    exact ⟨fun first => Nat.lt_irrefl n ((before_numbers left right).mp first),
      fun first => Nat.lt_irrefl n ((before_numbers right left).mp first)⟩
  · rintro ⟨first, second⟩
    have compared (text : number? a = none ∨ number? b = none) : False := by
      rcases lt_or_gt other with less | greater
      · exact first ((before_texts text).mpr less)
      · exact second ((before_texts text.symm).mpr greater)
    cases left : number? a with
    | none => exact (compared (.inl left)).elim
    | some m =>
      cases right : number? b with
      | none => exact (compared (.inr right)).elim
      | some n =>
        have least : ¬ m < n := fun less => first ((before_numbers left right).mpr less)
        have greatest : ¬ n < m := fun less => second ((before_numbers right left).mpr less)
        obtain rfl : m = n := by omega
        exact ⟨other, m, left, right⟩

/-- Torn versions go round in a circle. -/
theorem Torn.circle {low high text : String} (torn : Torn low high text) :
    before low high = true ∧ before high text = true ∧ before text low = true := by
  obtain ⟨⟨m, n, left, right, less⟩, none, behind, front⟩ := torn
  exact ⟨(before_numbers left right).mpr less, (before_texts (.inr none)).mpr behind,
    (before_texts (.inl none)).mpr front⟩

/-- There is no other circle of three: two of them are numbers, and the third one tears them. -/
theorem torn_of_circle (first : before a b = true) (second : before b c = true)
    (third : before c a = true) : Torn a b c ∨ Torn b c a ∨ Torn c a b := by
  have texts (ab : a < b) (bc : b < c) (ca : c < a) : False :=
    String.lt_irrefl a (String.lt_trans (String.lt_trans ab bc) ca)
  cases left : number? a with
  | none =>
    have ab := (before_texts (.inl left)).mp first
    have ca := (before_texts (.inr left)).mp third
    cases middle : number? b with
    | none => exact (texts ab ((before_texts (.inl middle)).mp second) ca).elim
    | some m =>
      cases right : number? c with
      | none => exact (texts ab ((before_texts (.inr right)).mp second) ca).elim
      | some n =>
        exact .inr (.inl ⟨⟨m, n, middle, right, (before_numbers middle right).mp second⟩, left, ca, ab⟩)
  | some k =>
    cases middle : number? b with
    | none =>
      have ab := (before_texts (.inr middle)).mp first
      have bc := (before_texts (.inl middle)).mp second
      cases right : number? c with
      | none => exact (texts ab bc ((before_texts (.inl right)).mp third)).elim
      | some n =>
        exact .inr (.inr ⟨⟨n, k, right, left, (before_numbers right left).mp third⟩, middle, ab, bc⟩)
    | some m =>
      cases right : number? c with
      | none =>
        exact .inl ⟨⟨k, m, left, middle, (before_numbers left middle).mp first⟩, right,
          (before_texts (.inr right)).mp second, (before_texts (.inl right)).mp third⟩
      | some n =>
        have := (before_numbers left middle).mp first
        have := (before_numbers middle right).mp second
        have := (before_numbers right left).mp third
        omega

/-- Different versions stand one before the other, and what is before an earlier one is before a
later one. -/
structure Linear (versions : List String) : Prop where
  total : ∀ a ∈ versions, ∀ b ∈ versions, a ≠ b → before a b = true ∨ before b a = true
  trans : ∀ a ∈ versions, ∀ b ∈ versions, ∀ c ∈ versions,
    before a b = true → before b c = true → before a c = true

theorem Linear.subset {part : List String} (linear : Linear versions) (fewer : part ⊆ versions) :
    Linear part where
  total a first b second := linear.total a (fewer first) b (fewer second)
  trans a first b second c third := linear.trans a (fewer first) b (fewer second) c (fewer third)

/-- No number stands twice among the versions, and no text tears two of the numbers. -/
structure Orderly (versions : List String) : Prop where
  once : ∀ a ∈ versions, ∀ b ∈ versions, ¬ Tied a b
  untorn : ∀ low ∈ versions, ∀ high ∈ versions, ∀ text ∈ versions, ¬ Torn low high text

theorem Orderly.linear (orderly : Orderly versions) : Linear versions where
  total a first b second other := by
    by_contra neither
    exact orderly.once a first b second ((tied_iff other).mpr (not_or.mp neither))
  trans a first b second c third ab bc := by
    by_contra behind
    rcases eq_or_ne a c with rfl | other
    · exact before_asymm ab bc
    by_cases back : before c a = true
    · rcases torn_of_circle ab bc back with torn | torn | torn
      · exact orderly.untorn _ first _ second _ third torn
      · exact orderly.untorn _ second _ third _ first torn
      · exact orderly.untorn _ third _ first _ second torn
    · exact orderly.once a first c third ((tied_iff other).mpr ⟨behind, back⟩)

theorem Linear.orderly (linear : Linear versions) : Orderly versions where
  once a first b second tied := by
    obtain ⟨left, right⟩ := (tied_iff tied.1).mp tied
    exact (linear.total a first b second tied.1).elim left right
  untorn low first high second text third torn := by
    obtain ⟨up, behind, front⟩ := torn.circle
    exact before_asymm front (linear.trans low first high second text third up behind)

theorem linear_iff : Linear versions ↔ Orderly versions :=
  ⟨Linear.orderly, Orderly.linear⟩

theorem Orderly.subset {part : List String} (orderly : Orderly versions) (fewer : part ⊆ versions) :
    Orderly part :=
  linear_iff.mp ((linear_iff.mpr orderly).subset fewer)

/-- Numbers alone are in order as soon as none of them stands twice. -/
theorem orderly_of_numbers (numbers : ∀ a ∈ versions, number? a ≠ none)
    (once : ∀ a ∈ versions, ∀ b ∈ versions, number? a = number? b → a = b) : Orderly versions where
  once := by
    rintro a first b second ⟨other, n, left, right⟩
    exact other (once a first b second (left.trans right.symm))
  untorn := by
    rintro low - high - text third ⟨-, none, -⟩
    exact numbers text third none

/-- Texts alone are in order, with one number among them at most. -/
theorem orderly_of_texts
    (texts : ∀ a ∈ versions, ∀ b ∈ versions, number? a ≠ none → number? b ≠ none → a = b) :
    Orderly versions where
  once := by
    rintro a first b second ⟨other, n, left, right⟩
    exact other (texts a first b second (by simp [left]) (by simp [right]))
  untorn := by
    rintro low first high second text - ⟨⟨m, n, left, right, less⟩, -⟩
    obtain rfl := texts low first high second (by simp [left]) (by simp [right])
    have := left.symm.trans right
    simp only [Option.some.injEq] at this
    omega

example : Torn "2" "10" "1a" := ⟨⟨2, 10, by decide +kernel⟩, by decide +kernel⟩

end Parley.Version
