import Parley.Json.Printer
import Parley.Proofs.Json.Value
import Mathlib.Data.List.Forall2
/-!
# Compact texts

The compact text of a value as a grammar has it: no white space, commas between items and between fields,
and strings in which only quotes, backslashes and control characters are escaped. Every value has one
such text, which is the one that is written (`Json.compact_iff`).
-/
namespace Parley.Json
open Parley.Text

/-! ## Strings -/

/-- What stands for a character in a string. -/
inductive Escaped : Char → List Char → Prop
  | quote : Escaped '"' ['\\', '"']
  | backslash : Escaped '\\' ['\\', '\\']
  | backspace : Escaped '\x08' ['\\', 'b']
  | formFeed : Escaped '\x0c' ['\\', 'f']
  | newLine : Escaped '\n' ['\\', 'n']
  | carriageReturn : Escaped '\r' ['\\', 'r']
  | tab : Escaped '\t' ['\\', 't']
  /-- Any other control character stands as the four digits of its code in base sixteen. -/
  | control {c : Char} (low : c.toNat < 32) (unnamed : c ∉ ['\x08', '\x0c', '\n', '\r', '\t']) :
    Escaped c ['\\', 'u', '0', '0', Nat.digitChar (c.toNat / 16), Nat.digitChar (c.toNat % 16)]
  | plain {c : Char} (high : 32 ≤ c.toNat) (quote : c ≠ '"') (backslash : c ≠ '\\') : Escaped c [c]

theorem writeByteHex_low : ∀ n < 32, writeByteHex n =
    [Nat.digitChar (n / 16), Nat.digitChar (n % 16)] := by
  decide +kernel

theorem escaped_iff {c : Char} {text : List Char} : Escaped c text ↔ text = escape c := by
  constructor
  · intro escaped
    cases escaped with
    | control low unnamed =>
      simp only [List.mem_cons, List.not_mem_nil, or_false, not_or] at unnamed
      obtain ⟨backspace, formFeed, newLine, carriageReturn, tab⟩ := unnamed
      have quote : c ≠ '"' := by
        rintro rfl
        exact absurd low (by decide)
      have backslash : c ≠ '\\' := by
        rintro rfl
        exact absurd low (by decide)
      simp [escape, quote, backslash, backspace, formFeed, newLine, carriageReturn, tab, low,
        writeByteHex_low _ low]
    | plain high quote backslash =>
      have other {d : Char} (low : d.toNat < 32) : c ≠ d := by
        rintro rfl
        exact absurd high (Nat.not_le.mpr low)
      simp [escape, quote, backslash, Nat.not_lt.mpr high, other (d := '\x08') (by decide),
        other (d := '\x0c') (by decide), other (d := '\n') (by decide),
        other (d := '\r') (by decide), other (d := '\t') (by decide)]
    | _ => rfl
  · rintro rfl
    unfold escape
    split
    · next same => exact same ▸ .quote
    split
    · next same => exact same ▸ .backslash
    split
    · next same => exact same ▸ .backspace
    split
    · next same => exact same ▸ .formFeed
    split
    · next same => exact same ▸ .newLine
    split
    · next same => exact same ▸ .carriageReturn
    split
    · next same => exact same ▸ .tab
    split
    · next backspace formFeed newLine carriageReturn tab low =>
      rw [writeByteHex_low _ low]
      exact .control low (by simp [backspace, formFeed, newLine, carriageReturn, tab])
    · next quote backslash _ _ _ _ _ high => exact .plain (Nat.not_lt.mp high) quote backslash

/-- What is related to each of some things is what a function makes of them, if so it is one by one. -/
theorem forall₂_iff_map {α β : Type} {rel : α → β → Prop} {f : α → β} {as : List α} {bs : List β}
    (each : ∀ a ∈ as, ∀ b, rel a b ↔ b = f a) : List.Forall₂ rel as bs ↔ bs = as.map f := by
  induction as generalizing bs with
  | nil => exact List.forall₂_nil_left_iff
  | cons a as ih =>
    obtain ⟨first, others⟩ := List.forall_mem_cons.mp each
    simp only [List.forall₂_cons_left_iff, first, ih others, List.map_cons]
    constructor
    · rintro ⟨_, _, rfl, rfl, rfl⟩
      rfl
    · rintro rfl
      exact ⟨_, _, rfl, rfl, rfl⟩

/-- The text of a string, between quotes. -/
def Quoted (s : String) (text : List Char) : Prop :=
  ∃ parts, List.Forall₂ Escaped s.toList parts ∧ text = '"' :: parts.flatten ++ ['"']

theorem quoted_iff {s : String} {text : List Char} : Quoted s text ↔ text = writeString s := by
  have each {parts : List (List Char)} :
      List.Forall₂ Escaped s.toList parts ↔ parts = s.toList.map escape :=
    forall₂_iff_map fun _ _ _ => escaped_iff
  simp only [Quoted, each, exists_eq_left]
  rw [writeString, List.flatMap_def]

/-! ## Values -/

/-- The text is the compact text of the value. -/
inductive Compact : Json → List Char → Prop
  | null : Compact .null "null".toList
  | true : Compact (.bool true) "true".toList
  | false : Compact (.bool false) "false".toList
  | int (n : Int) : Compact (.int n) (toString n).toList
  /-- Of a number with a fraction it is the shortest text that tells it. -/
  | float (x : Finite64) : Compact (.float x) x.write
  | str {s : String} {text : List Char} : Quoted s text → Compact (.str s) text
  | arr {items : List Json} {texts : List (List Char)} : List.Forall₂ Compact items texts →
    Compact (.arr items) ('[' :: [','].intercalate texts ++ [']'])
  | obj {fields : List (String × Json)} {names texts : List (List Char)} :
    List.Forall₂ Quoted (fields.map Prod.fst) names →
    List.Forall₂ Compact (fields.map Prod.snd) texts →
    Compact (.obj fields)
      ('\x7b' :: [','].intercalate (List.zipWith (fun name text => name ++ ':' :: text) names texts)
        ++ ['\x7d'])

theorem intercalate_comma (text : List Char) (texts : List (List Char)) :
    [','].intercalate (text :: texts) = text ++ texts.flatMap (',' :: ·) := by
  induction texts generalizing text with
  | nil => simp [List.intercalate]
  | cons next texts ih => simp [List.intercalate_cons_cons, ih]

theorem writeItems_eq (items : List Json) :
    writeItems items = (items.map write).flatMap (',' :: ·) ++ [']'] := by
  induction items with
  | nil => rfl
  | cons v vs ih => simp [writeItems, ih]

theorem write_arr (items : List Json) :
    write (.arr items) = '[' :: [','].intercalate (items.map write) ++ [']'] := by
  cases items with
  | nil => rfl
  | cons v vs => simp [write, writeItems_eq, intercalate_comma]

/-- The text of a field, behind its name. -/
def writeField (f : String × Json) : List Char := writeString f.1 ++ ':' :: write f.2

theorem writeFields_eq (fields : List (String × Json)) :
    writeFields fields = (fields.map writeField).flatMap (',' :: ·) ++ ['\x7d'] := by
  induction fields with
  | nil => rfl
  | cons f fs ih => simp [writeFields, writeField, ih]

theorem write_obj (fields : List (String × Json)) :
    write (.obj fields) = '\x7b' :: [','].intercalate (fields.map writeField) ++ ['\x7d'] := by
  cases fields with
  | nil => rfl
  | cons f fs => simp [write, writeField, writeFields_eq, intercalate_comma]

theorem writeInteger_eq (n : Int) : writeInteger n = (toString n).toList := by
  show writeInteger n = n.repr.toList
  cases n <;> simp [Int.repr, Nat.repr, writeInteger, writeNatural]

/-- A value has one compact text, which is the one that is written. -/
theorem compact_iff {v : Json} {text : List Char} : v.Compact text ↔ text = v.write := by
  induction v using Json.induct generalizing text with
  | null =>
    constructor
    · rintro ⟨⟩
      rfl
    · rintro rfl
      exact .null
  | bool b =>
    constructor
    · intro compact
      cases compact <;> rfl
    · rintro rfl
      cases b
      · exact .false
      · exact .true
  | int n =>
    rw [write, writeInteger_eq]
    constructor
    · rintro ⟨⟩
      rfl
    · rintro rfl
      exact .int n
  | float x =>
    rw [write]
    constructor
    · rintro ⟨⟩
      rfl
    · rintro rfl
      exact .float x
  | str s =>
    rw [write, ← quoted_iff]
    constructor
    · intro compact
      cases compact with
      | str same => exact same
    · exact .str
  | arr items ih =>
    have each {texts : List (List Char)} :
        List.Forall₂ Compact items texts ↔ texts = items.map write :=
      forall₂_iff_map fun v member _ => ih v member
    rw [write_arr]
    constructor
    · intro compact
      cases compact with
      | arr all => rw [each.mp all]
    · rintro rfl
      exact .arr (each.mpr rfl)
  | obj fields ih =>
    have each {texts : List (List Char)} : List.Forall₂ Compact (fields.map Prod.snd) texts ↔
        texts = (fields.map Prod.snd).map write := by
      refine forall₂_iff_map fun v member _ => ?_
      obtain ⟨f, inside, rfl⟩ := List.mem_map.mp member
      exact ih f inside
    have named {names : List (List Char)} : List.Forall₂ Quoted (fields.map Prod.fst) names ↔
        names = (fields.map Prod.fst).map writeString :=
      forall₂_iff_map fun _ _ _ => quoted_iff
    have joined : List.zipWith (fun name text => name ++ ':' :: text)
        ((fields.map Prod.fst).map writeString) ((fields.map Prod.snd).map write) =
          fields.map writeField := by
      simp only [List.map_map, List.zipWith_map_left, List.zipWith_map_right, List.zipWith_self]
      rfl
    rw [write_obj, ← joined]
    constructor
    · intro compact
      cases compact with
      | obj names texts => rw [named.mp names, each.mp texts]
    · rintro rfl
      exact .obj (named.mpr rfl) (each.mpr rfl)

end Parley.Json
