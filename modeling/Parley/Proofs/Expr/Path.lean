import Parley.Expr.Path
import Parley.Proofs.Text.Natural
import Mathlib.Data.List.TakeDrop
/-!
# Paths and their texts

The texts of a path are given by a grammar (`Path.Spelled`), and a text is read as a path exactly when
the path is spelled by it (`Path.parse_iff`). The value at the end of a path is the one that its steps
lead to (`Path.follow_iff`).
-/
namespace Parley
open Parley.Text

/-! ## The grammar -/

/-- The text of an index: a machine word with white space around it. -/
inductive SpellsIndex : List Char → Nat → Prop
  | mk {before number after : List Char} {i : Nat} : Blank before → SpellsNatural number i →
      i ≤ greatest64 → Blank after → SpellsIndex (before ++ number ++ after) i

namespace Path

/-- A name is not empty, and no mark stands in it. -/
structure IsName (name : List Char) : Prop where
  nonempty : name ≠ []
  unmarked : ∀ c ∈ name, isMark c = false

end Path

/-- The texts of a step. -/
inductive Segment.Spelled : Segment → List Char → Prop
  | field {name : List Char} : Path.IsName name → Spelled (.field name) ('.' :: name)
  | index {inside : List Char} {i : Nat} : SpellsIndex inside i →
      Spelled (.index i) ('[' :: (inside ++ [']']))

namespace Path

/-- The texts of steps that follow each other. -/
inductive SpelledSteps : List Segment → List Char → Prop
  | nil : SpelledSteps [] []
  | cons {s : Segment} {text : List Char} {ss : List Segment} {rest : List Char} :
      s.Spelled text → SpelledSteps ss rest → SpelledSteps (s :: ss) (text ++ rest)

/-- The texts of a path: a name for the root, and the texts of its steps. -/
inductive Spelled : Path → List Char → Prop
  | mk {root : List Char} {ss : List Segment} {rest : List Char} : IsName root →
      SpelledSteps ss rest → Spelled ⟨root, ss⟩ (root ++ rest)

/-! ## Names and brackets -/

/-- A text that is empty or starts with a mark. -/
def Marked (cs : List Char) : Prop := ∀ c rest, cs = c :: rest → isMark c = true

theorem marked_nil : Marked [] := fun _ _ none => nomatch none

theorem SpelledSteps.marked {ss : List Segment} {cs : List Char} (spelled : SpelledSteps ss cs) :
    Marked cs := by
  cases spelled with
  | nil => exact marked_nil
  | cons first _ =>
    rintro c rest whole
    cases first with
    | field _ =>
      obtain ⟨rfl, -⟩ := List.cons.inj whole
      rfl
    | index _ =>
      obtain ⟨rfl, -⟩ := List.cons.inj whole
      rfl

/-- A text is cut in front of its first mark. -/
theorem spanName_iff {cs name rest : List Char} : spanName cs = (name, rest) ↔
    cs = name ++ rest ∧ (∀ c ∈ name, isMark c = false) ∧ Marked rest := by
  have whole : spanName cs = (cs.takeWhile fun c => !isMark c, cs.dropWhile fun c => !isMark c) :=
    List.span_eq_takeWhile_dropWhile _ cs
  rw [whole, Prod.mk.injEq]
  constructor
  · rintro ⟨rfl, rfl⟩
    refine ⟨List.takeWhile_append_dropWhile.symm, fun c member => ?_, fun c rest here => ?_⟩
    · simpa using List.all_eq_true.mp List.all_takeWhile c member
    · have some : cs.dropWhile (fun c => !isMark c) ≠ [] := by simp [here]
      have stops := List.head_dropWhile_not (fun c => !isMark c) some
      simpa [here] using stops
  · rintro ⟨rfl, unmarked, marked⟩
    have inName : ∀ c ∈ name, (!isMark c) = true := fun c member => by simp [unmarked c member]
    rw [List.takeWhile_append_of_pos inName, List.dropWhile_append_of_pos inName]
    cases rest with
    | nil => simp
    | cons c rest => simp [marked c rest rfl]

/-- A text is cut at its first closing bracket. -/
theorem splitBracket_iff {cs inside rest : List Char} : splitBracket cs = some (inside, rest) ↔
    cs = inside ++ ']' :: rest ∧ ']' ∉ inside := by
  induction cs generalizing inside with
  | nil => simp [splitBracket]
  | cons c cs ih =>
    rw [splitBracket]
    by_cases closes : c = ']'
    · subst closes
      rw [if_pos rfl, Option.some.injEq, Prod.mk.injEq]
      constructor
      · rintro ⟨rfl, rfl⟩
        exact ⟨rfl, List.not_mem_nil⟩
      · rintro ⟨whole, open_⟩
        cases inside with
        | nil => exact ⟨rfl, (List.cons.inj whole).2⟩
        | cons d inside =>
          obtain ⟨rfl, -⟩ := List.cons.inj whole
          exact absurd (List.mem_cons_self ..) open_
    · rw [if_neg closes]
      constructor
      · intro found
        split at found
        · next inside' rest' later =>
          obtain ⟨rfl, rfl⟩ := Prod.mk.inj (Option.some.inj found)
          obtain ⟨rfl, open_⟩ := ih.mp later
          refine ⟨rfl, fun member => ?_⟩
          exact (List.mem_cons.mp member).elim (Ne.symm closes) open_
        · contradiction
      · rintro ⟨whole, open_⟩
        cases inside with
        | nil => exact absurd (List.cons.inj whole).1 closes
        | cons d inside =>
          obtain ⟨rfl, rfl⟩ := List.cons.inj whole
          rw [ih.mpr ⟨rfl, fun member => open_ (List.mem_cons_of_mem _ member)⟩]

theorem readIndex_iff {inside : List Char} {i : Nat} :
    readIndex inside = some i ↔ SpellsIndex inside i := by
  rw [readIndex, readNatural_iff]
  constructor
  · rintro ⟨spells, fits⟩
    obtain ⟨before, after, blankBefore, blankAfter, -, whole⟩ := exists_padded inside
    rw [whole]
    exact .mk blankBefore spells fits blankAfter
  · intro spells
    cases spells with
    | mk blankBefore number fits blankAfter =>
      rw [trim_padded blankBefore number.trimmed blankAfter]
      exact ⟨number, fits⟩

theorem SpellsNatural.not_bracket {cs : List Char} {n : Nat} (spells : SpellsNatural cs n) :
    ']' ∉ cs := by
  cases spells with
  | mk sign digits signed _ decimal =>
    intro member
    rcases List.mem_append.mp member with inSign | inDigits
    · rcases signed with rfl | rfl <;> simp at inSign
    · exact absurd (decimal _ inDigits) (by decide)

theorem SpellsIndex.not_bracket {inside : List Char} {i : Nat} (spells : SpellsIndex inside i) :
    ']' ∉ inside := by
  cases spells with
  | mk blankBefore number _ blankAfter =>
    intro member
    rcases List.mem_append.mp member with front | inAfter
    · rcases List.mem_append.mp front with inBefore | inNumber
      · exact absurd (blankBefore _ inBefore) (by decide)
      · exact SpellsNatural.not_bracket number inNumber
    · exact absurd (blankAfter _ inAfter) (by decide)

/-! ## Reading steps -/

theorem readSegment_sound {cs rest : List Char} {s : Segment}
    (read : readSegment cs = some (s, rest)) : ∃ text, s.Spelled text ∧ cs = text ++ rest := by
  unfold readSegment at read
  split at read
  · next after =>
    split at read
    · contradiction
    · next name rest' some cut =>
      obtain ⟨rfl, rfl⟩ := Prod.mk.inj (Option.some.inj read)
      obtain ⟨rfl, unmarked, -⟩ := spanName_iff.mp cut
      exact ⟨_, .field ⟨some, unmarked⟩, rfl⟩
  · next after =>
    split at read
    · contradiction
    · next inside rest' cut =>
      split at read
      · contradiction
      · next i index =>
        obtain ⟨rfl, rfl⟩ := Prod.mk.inj (Option.some.inj read)
        obtain ⟨rfl, -⟩ := splitBracket_iff.mp cut
        exact ⟨_, .index (readIndex_iff.mp index), by simp⟩
  · contradiction

/-- A step is read from its text, in front of the end of the text or of another step. -/
theorem readSegment_complete {text rest : List Char} {s : Segment} (spelled : s.Spelled text)
    (marked : Marked rest) : readSegment (text ++ rest) = some (s, rest) := by
  cases spelled with
  | field isName =>
    obtain ⟨some, unmarked⟩ := isName
    have cut := spanName_iff.mpr ⟨rfl, unmarked, marked⟩
    obtain ⟨c, name, rfl⟩ := List.exists_cons_of_ne_nil some
    simp only [List.cons_append] at cut ⊢
    simp [readSegment, cut]
  | @index inside i spells =>
    have whole : '[' :: (inside ++ [']']) ++ rest = '[' :: (inside ++ ']' :: rest) := by simp
    have cut := splitBracket_iff.mpr
      ⟨(rfl : inside ++ ']' :: rest = inside ++ ']' :: rest), SpellsIndex.not_bracket spells⟩
    rw [whole]
    simp [readSegment, cut, readIndex_iff.mpr spells]

theorem Segment.Spelled.nonempty {s : Segment} {text : List Char} (spelled : s.Spelled text) :
    text ≠ [] := by
  cases spelled <;> exact List.cons_ne_nil _ _

theorem readSegments_sound {fuel : Nat} {cs : List Char} {ss : List Segment}
    (read : readSegments fuel cs = some ss) : SpelledSteps ss cs := by
  induction fuel generalizing cs ss with
  | zero =>
    cases cs with
    | nil =>
      obtain rfl : [] = ss := by simpa [readSegments] using read
      exact .nil
    | cons c cs => simp [readSegments] at read
  | succ fuel ih =>
    cases cs with
    | nil =>
      obtain rfl : [] = ss := by simpa [readSegments] using read
      exact .nil
    | cons c cs =>
      simp only [readSegments] at read
      split at read
      · contradiction
      · next s rest first =>
        split at read
        · contradiction
        · next later steps =>
          obtain rfl := Option.some.inj read
          obtain ⟨text, spelled, whole⟩ := readSegment_sound first
          rw [whole]
          exact .cons spelled (ih steps)

/-- Steps are read from their text, with fuel for each character. -/
theorem readSegments_complete {fuel : Nat} {cs : List Char} {ss : List Segment}
    (spelled : SpelledSteps ss cs) (enough : cs.length ≤ fuel) : readSegments fuel cs = some ss := by
  induction spelled generalizing fuel with
  | nil => cases fuel <;> rfl
  | @cons s text ss rest first later ih =>
    have some := Segment.Spelled.nonempty first
    have long := List.length_pos_iff.mpr some
    rw [List.length_append] at enough
    obtain ⟨fuel, rfl⟩ := Nat.exists_eq_succ_of_ne_zero (show fuel ≠ 0 by omega)
    have read := readSegment_complete first later.marked
    obtain ⟨c, text, rfl⟩ := List.exists_cons_of_ne_nil some
    rw [List.cons_append] at read ⊢
    rw [readSegments, read]
    · dsimp only
      rw [ih (by omega)]
    · intro none
      contradiction

/-! ## Reading paths -/

/-- A text is read as the path that it spells. -/
theorem parse_iff {cs : List Char} {p : Path} : parse cs = some p ↔ p.Spelled cs := by
  constructor
  · intro read
    unfold parse at read
    split at read
    · contradiction
    · next root rest some cut =>
      split at read
      · contradiction
      · next ss steps =>
        obtain rfl := Option.some.inj read
        obtain ⟨rfl, unmarked, -⟩ := spanName_iff.mp cut
        exact .mk ⟨some, unmarked⟩ (readSegments_sound steps)
  · intro spelled
    cases spelled with
    | mk isName steps =>
      obtain ⟨some, unmarked⟩ := isName
      have cut := spanName_iff.mpr ⟨rfl, unmarked, steps.marked⟩
      have read := readSegments_complete steps (Nat.le_refl _)
      obtain ⟨c, root, rfl⟩ := List.exists_cons_of_ne_nil some
      rw [List.cons_append] at cut ⊢
      simp [parse, cut, read]

/-- A step that can be written: a field with a name, or an index that fits a machine word. -/
def IsStep : Segment → Prop
  | .field name => IsName name
  | .index i => i ≤ greatest64

/-- A path that can be written. -/
structure Valid (p : Path) : Prop where
  root : IsName p.root
  steps : ∀ s ∈ p.segments, IsStep s

theorem spelled_writeSegment {s : Segment} (isStep : IsStep s) : s.Spelled (writeSegment s) := by
  cases s with
  | field name => exact .field isStep
  | index i =>
    have spells := SpellsIndex.mk blank_nil (spellsNatural_write i) isStep blank_nil
    rw [List.nil_append, List.append_nil] at spells
    exact .index spells

theorem spelled_write {p : Path} (valid : p.Valid) : p.Spelled p.write := by
  obtain ⟨root, ss⟩ := p
  refine .mk valid.root ?_
  have steps : ∀ s ∈ ss, IsStep s := valid.steps
  show SpelledSteps ss (ss.flatMap writeSegment)
  clear valid
  induction ss with
  | nil => exact .nil
  | cons s ss ih =>
    obtain ⟨first, later⟩ := List.forall_mem_cons.mp steps
    exact .cons (spelled_writeSegment first) (ih later)

/-- A path that can be written is read back from its text. -/
theorem parse_write {p : Path} (valid : p.Valid) : parse p.write = some p :=
  parse_iff.mpr (spelled_write valid)

/-! ## Following paths -/

/-- The value that a root stands for: the payload, the variables, or the output of a node. -/
inductive StandsFor (ctx : Context) : List Char → Json → Prop
  | payload : StandsFor ctx "trigger".toList ctx.payload
  | values : StandsFor ctx "variables".toList (.obj ctx.values)
  | output {id : List Char} {v : Json} : id ≠ "trigger".toList → id ≠ "variables".toList →
      Keyed.get? (String.ofList id) ctx.outputs = some v → StandsFor ctx id v

/-- Steps lead from a value to one inside it: a field leads into an object, an index into an array. -/
inductive Leads : Json → List Segment → Json → Prop
  | here (v : Json) : Leads v [] v
  | field {fields : List (String × Json)} {name : List Char} {v w : Json} {ss : List Segment} :
      Keyed.get? (String.ofList name) fields = some v → Leads v ss w →
      Leads (.obj fields) (.field name :: ss) w
  | item {items : List Json} {i : Nat} {v w : Json} {ss : List Segment} :
      items[i]? = some v → Leads v ss w → Leads (.arr items) (.index i :: ss) w

theorem rootValue_iff {ctx : Context} {root : List Char} {v : Json} :
    rootValue ctx root = some v ↔ StandsFor ctx root v := by
  constructor
  · intro found
    unfold rootValue at found
    split at found
    · next same =>
      obtain rfl := Option.some.inj found
      exact same ▸ .payload
    · next notPayload =>
      split at found
      · next same =>
        obtain rfl := Option.some.inj found
        exact same ▸ .values
      · next notValues => exact .output notPayload notValues found
  · intro stands
    cases stands with
    | payload => exact if_pos rfl
    | values => rfl
    | output notPayload notValues found =>
      rw [rootValue, if_neg notPayload, if_neg notValues]
      exact found

theorem stepAll_iff {v w : Json} {ss : List Segment} : stepAll v ss = some w ↔ Leads v ss w := by
  constructor
  · intro walked
    induction ss generalizing v with
    | nil =>
      obtain rfl := Option.some.inj walked
      exact .here v
    | cons s ss ih =>
      rw [stepAll] at walked
      split at walked
      · contradiction
      · next u first =>
        cases s with
        | field name =>
          cases v with
          | obj fields => exact .field first (ih walked)
          | _ => simp [step, Json.field?] at first
        | index i =>
          cases v with
          | arr items => exact .item first (ih walked)
          | _ => simp [step, Json.item?] at first
  · intro leads
    induction leads with
    | here v => rfl
    | field first _ ih =>
      rw [stepAll, step, Json.field?, first]
      exact ih
    | item first _ ih =>
      rw [stepAll, step, Json.item?, first]
      exact ih

theorem follow_iff {ctx : Context} {p : Path} {w : Json} :
    follow ctx p = some w ↔ ∃ v, StandsFor ctx p.root v ∧ Leads v p.segments w := by
  unfold follow
  split
  · next none =>
    constructor
    · intro found
      contradiction
    · rintro ⟨v, stands, -⟩
      rw [rootValue_iff.mpr stands] at none
      contradiction
  · next v root =>
    rw [stepAll_iff]
    constructor
    · intro leads
      exact ⟨v, rootValue_iff.mp root, leads⟩
    · rintro ⟨u, stands, leads⟩
      obtain rfl := Option.some.inj (root.symm.trans (rootValue_iff.mpr stands))
      exact leads

/-- An expression denotes the value that the path it spells, white space aside, leads to. -/
def Denotes (ctx : Context) (expr : List Char) (w : Json) : Prop :=
  ∃ p v, Spelled p (trim expr) ∧ StandsFor ctx p.root v ∧ Leads v p.segments w

theorem resolve_iff {ctx : Context} {expr : List Char} {w : Json} :
    resolve ctx expr = .ok w ↔ Denotes ctx expr w := by
  unfold resolve Denotes
  simp only [← parse_iff]
  constructor
  · intro resolved
    split at resolved
    · contradiction
    · next p read =>
      split at resolved
      · contradiction
      · next v followed =>
        obtain rfl := Except.ok.inj resolved
        obtain ⟨u, stands, leads⟩ := follow_iff.mp followed
        exact ⟨p, u, read, stands, leads⟩
  · rintro ⟨p, u, read, stands, leads⟩
    rw [read]
    dsimp only
    rw [follow_iff.mpr ⟨u, stands, leads⟩]

/-- An expression resolves, or it is named as one that does not. -/
theorem resolve_error {ctx : Context} {expr : List Char} {e : Error}
    (failed : resolve ctx expr = .error e) : e = .unresolved (String.ofList (trim expr)) := by
  unfold resolve at failed
  dsimp only at failed
  split at failed
  · exact (Except.error.inj failed).symm
  · split at failed
    · exact (Except.error.inj failed).symm
    · contradiction

end Path

end Parley
