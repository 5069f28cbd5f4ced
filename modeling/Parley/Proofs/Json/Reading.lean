import Parley.Proofs.Json.Numeral
import Mathlib.Data.List.Forall2
/-!
# Texts of values are read

The compact text of any value is read as some document, with what follows the text left over, or it
cannot be followed to its end (`Document.readsAs_or_breaks`). Which of the two it is depends on the
numbers in it alone. A text has calls enough for its nesting: of three nested calls of the reader one
reads a character.
-/
namespace Parley.Document
open Parley.Json (write writeItems writeFields writeString)
open Parley.Text

/-- The character starts a value: it is neither white space nor the end of an array. -/
structure Opens (c : Char) : Prop where
  solid : isGap c = false
  item : c ≠ ']'

private theorem opens_digit {c : Char} (digit : (digit? c).isSome) : Opens c := by
  have other {x : Char} (none : digit? x = none) : c ≠ x := fun same => by
    simp [same ▸ none] at digit
  refine ⟨?_, other rfl⟩
  simp [isGap, other (x := ' ') rfl, other (x := '\n') rfl, other (x := '\t') rfl,
    other (x := '\r') rfl]

private theorem opens_digits {ds : List Char} (digits : Digits ds) (starts : ds ≠ [])
    (rest : List Char) : ∃ c cs, ds ++ rest = c :: cs ∧ Opens c := by
  cases ds with
  | nil => contradiction
  | cons c cs => exact ⟨c, cs ++ rest, rfl, opens_digit (digits c (List.mem_cons_self ..))⟩

private theorem opens_float (x : Finite64) : ∃ c cs, x.write = c :: cs ∧ Opens c := by
  obtain ⟨n, lawful, text⟩ := x.write_numeral
  rw [text]
  split
  · exact ⟨'-', _, rfl, by decide, by decide⟩
  · exact opens_digits lawful.whole lawful.starts _

theorem opens_write (v : Json) : ∃ c cs, write v = c :: cs ∧ Opens c := by
  cases v with
  | null => exact ⟨'n', _, rfl, by decide, by decide⟩
  | bool b => cases b <;> exact ⟨_, _, rfl, by decide, by decide⟩
  | int n =>
    cases n with
    | ofNat n =>
      simpa [write, writeInteger, writeNatural] using
        opens_digits (digits_toDigits n) Nat.toDigits_ne_nil []
    | negSucc n => exact ⟨'-', _, rfl, by decide, by decide⟩
  | float x => simpa [write] using opens_float x
  | str s => exact ⟨'"', _, by simp only [write, writeString]; rfl, by decide, by decide⟩
  | arr items => cases items <;> exact ⟨'[', _, by simp only [write]; rfl, by decide, by decide⟩
  | obj fields =>
    cases fields <;> exact ⟨'\x7b', _, by simp only [write]; rfl, by decide, by decide⟩

/-! ## Items and fields -/

private theorem stops_items (vs : List Json) (rest : List Char) : Stops (writeItems vs ++ rest) := by
  cases vs with
  | nil => exact .inr (.inl rfl)
  | cons => exact .inl rfl

private theorem stops_fields (fs : List (String × Json)) (rest : List Char) :
    Stops (writeFields fs ++ rest) := by
  cases fs with
  | nil => exact .inr (.inr rfl)
  | cons => exact .inl rfl

private theorem skipGap_solid {c : Char} (solid : isGap c = false) (cs : List Char) :
    skipGap (c :: cs) = c :: cs := by
  simp [skipGap, solid]

/-- The text of a value is read as a document in front of whatever may follow it, when there are calls
enough for the text, and it goes on behind the document. -/
structure ReadsAs (v : Json) (d : Document) : Prop where
  goesOn : d.ends = false
  reads : ∀ fuel rest, Stops rest → 3 * (write v).length ≤ fuel →
    readValue fuel (write v ++ rest) = (d, rest)

/-- The text of a value cannot be followed to its end. -/
def Breaks (v : Json) : Prop :=
  ∀ fuel rest, Stops rest → 3 * (write v).length ≤ fuel →
    (readValue fuel (write v ++ rest)).1.ends = true

section
variable {v w : Json} {vs : List Json} {d : Document} {fuel : Nat} {ended : Fault} {rest : List Char}

private theorem readItems_last (reads : ReadsAs v d) (enough : 3 * (write v).length ≤ fuel) :
    readItems (fuel + 1) ended (write v ++ (writeItems [] ++ rest)) = ([d], none, rest) := by
  have first := reads.reads fuel (writeItems [] ++ rest) (stops_items [] rest) enough
  obtain ⟨c, cs, text, opens⟩ := opens_write v
  rw [text] at first ⊢
  rw [readItems]
  simp only [List.cons_append, skipGap_solid opens.solid] at first ⊢
  simp only [first, reads.goesOn]
  rfl

private theorem readItems_next (reads : ReadsAs v d) (enough : 3 * (write v).length ≤ fuel) :
    readItems (fuel + 1) ended (write v ++ (writeItems (w :: vs) ++ rest)) =
      match readItems fuel .endInValue (write w ++ (writeItems vs ++ rest)) with
      | (ds, stop, after) => (d :: ds, stop, after) := by
  have first := reads.reads fuel (writeItems (w :: vs) ++ rest) (stops_items _ rest) enough
  obtain ⟨c, cs, text, opens⟩ := opens_write v
  obtain ⟨e, es, next, start⟩ := opens_write w
  have comma : skipGap (writeItems (w :: vs) ++ rest) =
      ',' :: e :: (es ++ (writeItems vs ++ rest)) := by
    rw [writeItems, next]
    simp [skipGap_solid (c := ',') rfl]
  rw [text] at first ⊢
  rw [next, readItems]
  simp only [List.cons_append, skipGap_solid opens.solid] at first ⊢
  simp only [first, reads.goesOn, comma, skipGap_solid start.solid]
  split
  · contradiction
  · split
    · next bracket => exact absurd (List.cons.inj bracket).1 start.item
    · rfl

private theorem readItems_breaks (breaks : Breaks v) (enough : 3 * (write v).length ≤ fuel) :
    ∃ ds after, readItems (fuel + 1) ended (write v ++ (writeItems vs ++ rest)) =
      (ds, some (.both .endInList), after) := by
  have first := breaks fuel (writeItems vs ++ rest) (stops_items vs rest) enough
  obtain ⟨c, cs, text, opens⟩ := opens_write v
  rw [text] at first ⊢
  rw [readItems]
  simp only [List.cons_append, skipGap_solid opens.solid] at first ⊢
  simp only [first, if_true]
  exact ⟨_, _, rfl⟩

end

/-- Items that are read one by one are read one after the other. -/
theorem readItems_write {v : Json} {vs : List Json} {ds : List Document}
    (all : List.Forall₂ ReadsAs (v :: vs) ds) (fuel : Nat) (ended : Fault) (rest : List Char)
    (enough : 3 * ((write v).length + (writeItems vs).length) < fuel) :
    readItems fuel ended (write v ++ (writeItems vs ++ rest)) = (ds, none, rest) := by
  induction vs generalizing v fuel ended ds with
  | nil =>
    obtain ⟨fuel, rfl⟩ := Nat.exists_eq_succ_of_ne_zero (Nat.ne_zero_of_lt enough)
    cases all with
    | cons first none =>
      cases none
      exact readItems_last first (by omega)
  | cons w ws ih =>
    obtain ⟨fuel, rfl⟩ := Nat.exists_eq_succ_of_ne_zero (Nat.ne_zero_of_lt enough)
    simp only [writeItems, List.length_cons, List.length_append] at enough
    cases all with
    | cons first others =>
      rw [readItems_next first (by omega), ih others fuel .endInValue (by omega)]

/-- Items are read up to the first one that breaks. -/
theorem readItems_or_stop {v : Json} {vs : List Json}
    (all : ∀ w ∈ v :: vs, (∃ d, ReadsAs w d) ∨ Breaks w) :
    (∃ ds, List.Forall₂ ReadsAs (v :: vs) ds) ∨
    ∀ fuel ended rest, 3 * ((write v).length + (writeItems vs).length) < fuel →
      ∃ ds after, readItems fuel ended (write v ++ (writeItems vs ++ rest)) =
        (ds, some (.both .endInList), after) := by
  induction vs generalizing v with
  | nil =>
    rcases all v (by simp) with ⟨d, reads⟩ | breaks
    · exact .inl ⟨[d], .cons reads .nil⟩
    · refine .inr fun fuel ended rest enough => ?_
      obtain ⟨fuel, rfl⟩ := Nat.exists_eq_succ_of_ne_zero (Nat.ne_zero_of_lt enough)
      exact readItems_breaks breaks (by omega)
  | cons w ws ih =>
    rcases all v (by simp) with ⟨d, reads⟩ | breaks
    · rcases ih fun u member => all u (List.mem_cons_of_mem _ member) with ⟨ds, others⟩ | stop
      · exact .inl ⟨d :: ds, .cons reads others⟩
      · refine .inr fun fuel ended rest enough => ?_
        obtain ⟨fuel, rfl⟩ := Nat.exists_eq_succ_of_ne_zero (Nat.ne_zero_of_lt enough)
        simp only [writeItems, List.length_cons, List.length_append] at enough
        obtain ⟨ds, after, later⟩ := stop fuel .endInValue rest (by omega)
        exact ⟨d :: ds, after, by rw [readItems_next reads (by omega), later]⟩
    · refine .inr fun fuel ended rest enough => ?_
      obtain ⟨fuel, rfl⟩ := Nat.exists_eq_succ_of_ne_zero (Nat.ne_zero_of_lt enough)
      exact readItems_breaks breaks (by omega)

/-! ## Fields -/

/-- The value of a field is read as the document of a field of that name. -/
def FieldReadsAs (f : String × Json) (g : String × Document) : Prop :=
  f.1 = g.1 ∧ ReadsAs f.2 g.2

section
variable {key next : String} {v w : Json} {fs : List (String × Json)} {d : Document} {fuel : Nat}
  {ended : Fault} {rest : List Char}

private theorem readFields_key :
    readFields (fuel + 1) ended (writeString key ++ rest) = readField fuel key rest := by
  have text : writeString key ++ rest = '"' :: (key.toList.flatMap Json.escape ++ '"' :: rest) := by
    simp [writeString]
  rw [readFields, text, skipGap_solid (c := '"') rfl]
  simp only [readString_escaped]

private theorem readFields_last (reads : ReadsAs v d) (enough : 3 * (write v).length ≤ fuel) :
    readFields (fuel + 2) ended (writeString key ++ ':' :: (write v ++ (writeFields [] ++ rest))) =
      ([(key, d)], none, rest) := by
  have first := reads.reads fuel (writeFields [] ++ rest) (stops_fields [] rest) enough
  rw [readFields_key, readField, skipGap_solid (c := ':') rfl]
  simp only [first, reads.goesOn]
  rfl

private theorem readFields_next (reads : ReadsAs v d) (enough : 3 * (write v).length ≤ fuel) :
    readFields (fuel + 2) ended
        (writeString key ++ ':' :: (write v ++ (writeFields ((next, w) :: fs) ++ rest))) =
      match readFields fuel .endInValue
          (writeString next ++ ':' :: (write w ++ (writeFields fs ++ rest))) with
      | (ds, stop, after) => ((key, d) :: ds, stop, after) := by
  have first := reads.reads fuel (writeFields ((next, w) :: fs) ++ rest) (stops_fields _ rest) enough
  have comma : skipGap (writeFields ((next, w) :: fs) ++ rest) =
      ',' :: (writeString next ++ ':' :: (write w ++ (writeFields fs ++ rest))) := by
    rw [writeFields]
    simp [skipGap_solid (c := ',') rfl]
  have quote : skipGap (writeString next ++ ':' :: (write w ++ (writeFields fs ++ rest))) =
      writeString next ++ ':' :: (write w ++ (writeFields fs ++ rest)) :=
    skipGap_solid (c := '"') rfl _
  rw [readFields_key, readField, skipGap_solid (c := ':') rfl]
  simp only [first, reads.goesOn, comma, quote]
  split
  · contradiction
  · split
    · next brace => simp [writeString] at brace
    · rfl

private theorem readFields_breaks (breaks : Breaks v) (enough : 3 * (write v).length ≤ fuel) :
    ∃ ds after, readFields (fuel + 2) ended
        (writeString key ++ ':' :: (write v ++ (writeFields fs ++ rest))) =
      (ds, some (.both .endInObject), after) := by
  have first := breaks fuel (writeFields fs ++ rest) (stops_fields fs rest) enough
  rw [readFields_key, readField, skipGap_solid (c := ':') rfl]
  simp only [first, if_true]
  exact ⟨_, _, rfl⟩

end

/-- Fields that are read one by one are read one after the other. -/
theorem readFields_write {key : String} {v : Json} {fs : List (String × Json)}
    {gs : List (String × Document)} (all : List.Forall₂ FieldReadsAs ((key, v) :: fs) gs) (fuel : Nat)
    (ended : Fault) (rest : List Char)
    (enough : 3 * ((write v).length + (writeFields fs).length) + 3 ≤ fuel) :
    readFields fuel ended (writeString key ++ ':' :: (write v ++ (writeFields fs ++ rest))) =
      (gs, none, rest) := by
  induction fs generalizing key v fuel ended gs with
  | nil =>
    obtain ⟨fuel, rfl⟩ : ∃ n, fuel = n + 2 := ⟨fuel - 2, by omega⟩
    cases all with
    | cons first none =>
      cases none
      obtain ⟨rfl, (reads : ReadsAs v _)⟩ := first
      exact readFields_last reads (by omega)
  | cons f fs ih =>
    obtain ⟨fuel, rfl⟩ : ∃ n, fuel = n + 2 := ⟨fuel - 2, by omega⟩
    simp only [writeFields, List.length_cons, List.length_append] at enough
    cases all with
    | cons first others =>
      obtain ⟨rfl, (reads : ReadsAs v _)⟩ := first
      rw [readFields_next reads (by omega), ih others fuel .endInValue (by omega)]

/-- Fields are read up to the first one that breaks. -/
theorem readFields_or_stop {key : String} {v : Json} {fs : List (String × Json)}
    (all : ∀ f ∈ (key, v) :: fs, (∃ d, ReadsAs f.2 d) ∨ Breaks f.2) :
    (∃ gs, List.Forall₂ FieldReadsAs ((key, v) :: fs) gs) ∨
    ∀ fuel ended rest, 3 * ((write v).length + (writeFields fs).length) + 3 ≤ fuel →
      ∃ gs after, readFields fuel ended
          (writeString key ++ ':' :: (write v ++ (writeFields fs ++ rest))) =
        (gs, some (.both .endInObject), after) := by
  have first : (∃ d, ReadsAs v d) ∨ Breaks v := all (key, v) (by simp)
  induction fs generalizing key v with
  | nil =>
    rcases first with ⟨d, reads⟩ | breaks
    · exact .inl ⟨[(key, d)], .cons ⟨rfl, reads⟩ .nil⟩
    · refine .inr fun fuel ended rest enough => ?_
      obtain ⟨fuel, rfl⟩ : ∃ n, fuel = n + 2 := ⟨fuel - 2, by omega⟩
      exact readFields_breaks breaks (by omega)
  | cons f fs ih =>
    rcases first with ⟨d, reads⟩ | breaks
    · rcases ih (fun u member => all u (List.mem_cons_of_mem _ member)) (all f (by simp))
        with ⟨gs, others⟩ | stop
      · exact .inl ⟨(key, d) :: gs, .cons ⟨rfl, reads⟩ others⟩
      · refine .inr fun fuel ended rest enough => ?_
        obtain ⟨fuel, rfl⟩ : ∃ n, fuel = n + 2 := ⟨fuel - 2, by omega⟩
        simp only [writeFields, List.length_cons, List.length_append] at enough
        obtain ⟨gs, after, later⟩ := stop fuel .endInValue rest (by omega)
        exact ⟨(key, d) :: gs, after, by rw [readFields_next reads (by omega), later]⟩
    · refine .inr fun fuel ended rest enough => ?_
      obtain ⟨fuel, rfl⟩ : ∃ n, fuel = n + 2 := ⟨fuel - 2, by omega⟩
      exact readFields_breaks breaks (by omega)

/-! ## Values -/

theorem call_left {v : Json} {fuel : Nat} (enough : 3 * (write v).length ≤ fuel) :
    ∃ n, fuel = n + 1 := by
  obtain ⟨c, cs, text, -⟩ := opens_write v
  rw [text, List.length_cons] at enough
  exact ⟨fuel - 1, by omega⟩

private theorem readValue_arr (v : Json) (vs : List Json) (fuel : Nat) (rest : List Char) :
    readValue (fuel + 1) (write (.arr (v :: vs)) ++ rest) =
      match readItems fuel .endInList (write v ++ (writeItems vs ++ rest)) with
      | (items, stop, rest) => (.arr items stop, rest) := by
  obtain ⟨c, cs, text, opens⟩ := opens_write v
  rw [write, text, readValue]
  have digit : (digit? '[').isSome = false := rfl
  simp only [List.cons_append, List.append_assoc, skipGap_solid (c := '[') rfl,
    skipGap_solid opens.solid, digit, Bool.false_eq_true, Char.reduceEq, if_false, if_true]
  split
  · next bracket => exact absurd (List.cons.inj bracket).1 opens.item
  · rfl

private theorem readValue_obj (key : String) (v : Json) (fs : List (String × Json)) (fuel : Nat)
    (rest : List Char) : readValue (fuel + 1) (write (.obj ((key, v) :: fs)) ++ rest) =
      match readFields fuel .endInObject
          (writeString key ++ ':' :: (write v ++ (writeFields fs ++ rest))) with
      | (fields, stop, rest) => (.obj fields stop, rest) := by
  have quote : skipGap (writeString key ++ ':' :: (write v ++ (writeFields fs ++ rest))) =
      writeString key ++ ':' :: (write v ++ (writeFields fs ++ rest)) :=
    skipGap_solid (c := '"') rfl _
  rw [write, readValue]
  have digit : (digit? '\x7b').isSome = false := rfl
  simp only [List.cons_append, List.append_assoc, skipGap_solid (c := '\x7b') rfl, quote, digit,
    Bool.false_eq_true, Char.reduceEq, if_false, if_true]
  split
  · next brace => simp [writeString] at brace
  · rfl

theorem readsAs_arr {items : List Json} {ds : List Document} (all : List.Forall₂ ReadsAs items ds) :
    ReadsAs (.arr items) (.arr ds none) := by
  refine ⟨rfl, fun fuel rest stops enough => ?_⟩
  obtain ⟨fuel, rfl⟩ := call_left enough
  cases items with
  | nil =>
    cases all
    rfl
  | cons v vs =>
    simp only [write, List.length_append, List.length_cons] at enough
    rw [readValue_arr, readItems_write all fuel .endInList rest (by omega)]

/-- An object of values that are read is read, in whatever order its keys stand. -/
theorem readsAs_obj {fields : List (String × Json)} {gs : List (String × Document)}
    (all : List.Forall₂ FieldReadsAs fields gs) : ReadsAs (.obj fields) (.obj gs none) := by
  refine ⟨rfl, fun fuel rest stops enough => ?_⟩
  obtain ⟨fuel, rfl⟩ := call_left enough
  cases fields with
  | nil =>
    cases all
    rfl
  | cons f fs =>
    obtain ⟨key, v⟩ := f
    simp only [write, List.length_append, List.length_cons] at enough
    rw [readValue_obj, readFields_write all fuel .endInObject rest (by omega)]

theorem readsAs_str (s : String) : ReadsAs (.str s) (.str s) := by
  refine ⟨rfl, fun fuel rest stops enough => ?_⟩
  obtain ⟨fuel, rfl⟩ := call_left enough
  have text : write (.str s) ++ rest = '"' :: (s.toList.flatMap Json.escape ++ '"' :: rest) := by
    simp [write, writeString]
  rw [text, readValue, skipGap_solid (c := '"') rfl]
  exact readString_escaped s rest

theorem readsAs_null : ReadsAs .null .null := by
  refine ⟨rfl, fun fuel rest stops enough => ?_⟩
  obtain ⟨fuel, rfl⟩ := call_left enough
  rfl

theorem readsAs_bool (b : Bool) : ReadsAs (.bool b) (.bool b) := by
  refine ⟨rfl, fun fuel rest stops enough => ?_⟩
  obtain ⟨fuel, rfl⟩ := call_left enough
  cases b <;> rfl

/-- The fields of an object that is not read end in the middle of the text. -/
def BreaksOff (fields : List (String × Json)) : Prop :=
  ∀ fuel rest, Stops rest → 3 * (write (.obj fields)).length ≤ fuel →
    ∃ gs after, readValue fuel (write (.obj fields) ++ rest) =
      (.obj gs (some (.both .endInObject)), after)

theorem readsAs_or_breaksOff {fields : List (String × Json)}
    (all : ∀ f ∈ fields, (∃ d, ReadsAs f.2 d) ∨ Breaks f.2) :
    (∃ gs, List.Forall₂ FieldReadsAs fields gs) ∨ BreaksOff fields := by
  cases fields with
  | nil => exact .inl ⟨[], .nil⟩
  | cons f fs =>
    obtain ⟨key, v⟩ := f
    refine (readFields_or_stop all).imp_right fun stop fuel rest stops enough => ?_
    obtain ⟨fuel, rfl⟩ := call_left enough
    simp only [write, List.length_append, List.length_cons] at enough
    obtain ⟨gs, after, later⟩ := stop fuel .endInObject rest (by omega)
    exact ⟨gs, after, by rw [readValue_obj, later]⟩

private theorem arr_reads_or_breaks {items : List Json}
    (all : ∀ v ∈ items, (∃ d, ReadsAs v d) ∨ Breaks v) :
    (∃ d, ReadsAs (.arr items) d) ∨ Breaks (.arr items) := by
  cases items with
  | nil => exact .inl ⟨_, readsAs_arr .nil⟩
  | cons v vs =>
    refine (readItems_or_stop all).imp (fun ⟨ds, all⟩ => ⟨_, readsAs_arr all⟩)
      fun stop fuel rest stops enough => ?_
    obtain ⟨fuel, rfl⟩ := call_left enough
    simp only [write, List.length_append, List.length_cons] at enough
    obtain ⟨ds, after, later⟩ := stop fuel .endInList rest (by omega)
    rw [readValue_arr, later]
    rfl

private theorem float_reads_or_breaks (x : Finite64) :
    (∃ d, ReadsAs (.float x) d) ∨ Breaks (.float x) := by
  obtain ⟨n, lawful, text⟩ := x.write_numeral
  obtain ⟨negative, number⟩ : ∃ negative, ∀ fuel rest,
      readValue (fuel + 1) (write (.float x) ++ rest) = readNumber negative (n.text ++ rest) := by
    rw [write, text]
    split
    · exact ⟨true, fun fuel rest => readValue_minus fuel _⟩
    · refine ⟨false, fun fuel rest => ?_⟩
      cases whole : n.whole with
      | nil => exact absurd whole lawful.starts
      | cons c cs =>
        have digit := lawful.whole c (by simp [whole])
        simp only [Numeral.text, whole, List.cons_append]
        exact readValue_digit fuel digit _
  rcases readNumber_numeral negative lawful with reads | breaks
  · refine .inl ⟨_, ends_scaledNumber negative n.whole n.fraction n.exponent, ?_⟩
    intro fuel rest stops enough
    obtain ⟨fuel, rfl⟩ := call_left enough
    rw [number, reads rest stops]
  · refine .inr fun fuel rest stops enough => ?_
    obtain ⟨fuel, rfl⟩ := call_left enough
    rw [number]
    exact breaks rest stops

/-- The text of any value is read as a document, or it cannot be followed to its end. -/
theorem readsAs_or_breaks (v : Json) : (∃ d, ReadsAs v d) ∨ Breaks v := by
  induction v using Json.induct with
  | null => exact .inl ⟨_, readsAs_null⟩
  | bool b => exact .inl ⟨_, readsAs_bool b⟩
  | int n =>
    refine .inl ⟨_, ends_wholeNumber (decide (n < 0)) (Nat.toDigits 10 n.natAbs),
      fun fuel rest stops enough => ?_⟩
    obtain ⟨fuel, rfl⟩ := call_left enough
    rw [write]
    exact readValue_integer n fuel stops
  | float x => exact float_reads_or_breaks x
  | str s => exact .inl ⟨_, readsAs_str s⟩
  | arr items ih => exact arr_reads_or_breaks ih
  | obj fields ih =>
    rcases readsAs_or_breaksOff ih with ⟨gs, all⟩ | off
    · exact .inl ⟨_, readsAs_obj all⟩
    · refine .inr fun fuel rest stops enough => ?_
      obtain ⟨gs, after, later⟩ := off fuel rest stops enough
      rw [later]
      rfl

/-! ## Whole texts -/

/-- The text of a value that is read is read to the end. -/
theorem read_text {v : Json} {d : Document} (reads : ReadsAs v d) : read v.text = (d, none) := by
  have whole : readPart (write v) = (d, []) := by
    have whole := reads.reads (3 * (write v).length + 3) [] trivial (by omega)
    rwa [List.append_nil] at whole
  simp [read, Json.text, whole, skipGap]

theorem ReadsAs.unique {v : Json} {d e : Document} (one : ReadsAs v d) (other : ReadsAs v e) :
    d = e :=
  (Prod.mk.inj ((read_text one).symm.trans (read_text other))).1

/-- What is read of an object whose fields end in the middle of the text. -/
theorem BreaksOff.read_text {fields : List (String × Json)} (off : BreaksOff fields) :
    ∃ gs trailing, read (Json.obj fields).text =
      (.obj gs (some (.both .endInObject)), trailing) := by
  obtain ⟨gs, after, reads⟩ := off (3 * (write (.obj fields)).length + 3) [] trivial (by omega)
  rw [List.append_nil] at reads
  refine ⟨gs, if (skipGap after).isEmpty then none else some .trailingCharacters, ?_⟩
  simp only [read, readPart, Json.text, String.toList_ofList, reads]

/-- A field of an object of values that are read is read under its name. -/
theorem lookup_readsAs {fields : List (String × Json)} {gs : List (String × Document)}
    (all : List.Forall₂ FieldReadsAs fields gs) {key : String} {v : Json}
    (found : fields.lookup key = some v) : ∃ d, gs.lookup key = some d ∧ ReadsAs v d := by
  induction all with
  | nil => simp at found
  | @cons f g fs gs first _ ih =>
    obtain ⟨name, w⟩ := f
    obtain ⟨name', d⟩ := g
    obtain ⟨rfl, reads⟩ := first
    by_cases here : key = name
    · obtain rfl : w = v := by simpa [List.lookup_cons, here] using found
      exact ⟨d, by simp [here], reads⟩
    · have apart : (key == name) = false := by simpa using here
      simp only [List.lookup_cons, apart] at found ⊢
      exact ih found

end Parley.Document
