import Parley.Expr.Template
import Parley.Proofs.Expr.Failure
import Parley.Proofs.Json.Compact
import Parley.Proofs.Text.Blank
import Mathlib.Data.List.Forall2
/-!
# Templates are expanded once

A template is cut at its placeholders from the left, in one way only (`Template.cuts_iff`), and what
it becomes is put together from its literal pieces and from the texts that show the values
(`Template.Shows`), which are not looked at again (`Template.expandsOnce`).
-/
namespace Parley.Template
open Parley.Text

/-! ## Placeholders -/

/-- No brace stands in the text. -/
def Braceless (cs : List Char) : Prop := ∀ c ∈ cs, isBrace c = false

/-- A text is white space, an expression and white space again. -/
structure Fits (inside before expr after : List Char) : Prop where
  whole : inside = before ++ expr ++ after
  blankBefore : Blank before
  nonempty : expr ≠ []
  blankAfter : Blank after

/-- Of the ways in which a text fits, the one with the most white space in front counts, and of these
the one with the shortest expression. -/
def ExpressionOf (inside expr : List Char) : Prop :=
  ∃ before after, Fits inside before expr after ∧
    ∀ before' expr' after', Fits inside before' expr' after' →
      before'.length < before.length ∨
        before'.length = before.length ∧ expr.length ≤ expr'.length

/-- A placeholder: two opening braces, a text without braces in which there is an expression, and two
closing braces. -/
def IsPlaceholder (text expr : List Char) : Prop :=
  ∃ inside, Braceless inside ∧ ExpressionOf inside expr ∧
    text = '\x7b' :: '\x7b' :: (inside ++ ['\x7d', '\x7d'])

/-- The text starts with a placeholder. -/
def Begins (cs : List Char) : Prop :=
  ∃ text expr rest, IsPlaceholder text expr ∧ cs = text ++ rest

theorem ExpressionOf.unique {inside expr expr' : List Char} (one : ExpressionOf inside expr)
    (other : ExpressionOf inside expr') : expr = expr' := by
  obtain ⟨before, after, fits, best⟩ := one
  obtain ⟨before', after', fits', best'⟩ := other
  have front : before.length = before'.length := by
    have := best _ _ _ fits'
    have := best' _ _ _ fits
    omega
  have same : expr.length = expr'.length := by
    have := best _ _ _ fits'
    have := best' _ _ _ fits
    omega
  have whole := fits.whole.symm.trans fits'.whole
  rw [List.append_assoc, List.append_assoc] at whole
  exact (List.append_inj (List.append_inj whole front).2 same).1

/-- Where there is nothing but white space, its last character is the expression. -/
private theorem expressionOf_blank {front : List Char} {c : Char} (blank : Blank (front ++ [c])) :
    ExpressionOf (front ++ [c]) [c] := by
  have fits : Fits (front ++ [c]) front [c] [] :=
    ⟨by simp, fun d member => blank d (List.mem_append_left _ member), by simp, blank_nil⟩
  refine ⟨front, [], fits, fun before expr after other => ?_⟩
  have total := congrArg List.length other.whole
  have some := List.length_pos_iff.mpr other.nonempty
  simp only [List.length_append, List.length_singleton] at total ⊢
  omega

/-- Else the expression is all that is left of the text when it is trimmed. -/
private theorem expressionOf_trim {inside : List Char} (visible : trim inside ≠ []) :
    ExpressionOf inside (trim inside) := by
  obtain ⟨before, after, blankBefore, blankAfter, trimmed, whole⟩ := exists_padded inside
  have fits : Fits inside before (trim inside) after := ⟨whole, blankBefore, visible, blankAfter⟩
  refine ⟨before, after, fits, fun before' expr' after' other => ?_⟩
  have same : before' ++ expr' ++ after' = before ++ trim inside ++ after :=
    other.whole.symm.trans whole
  have front : before'.length ≤ before.length := by
    have rest : before' ++ (expr' ++ after') = before ++ (trim inside ++ after) := by
      rw [← List.append_assoc, same, List.append_assoc]
    exact trimmed.length_front_le visible other.blankBefore rest
  have back : after'.length ≤ after.length :=
    trimmed.length_back_le visible other.blankAfter same
  have total := congrArg List.length same
  simp only [List.length_append] at total
  omega

theorem expressionOf_iff {inside expr : List Char} :
    ExpressionOf inside expr ↔ inside ≠ [] ∧ expr = expression inside := by
  have holds (some : inside ≠ []) : ExpressionOf inside (expression inside) := by
    unfold expression
    split
    · next nothing =>
      obtain ⟨front, c, rfl⟩ := (List.eq_nil_or_concat inside).resolve_left some
      rw [List.concat_eq_append] at nothing ⊢
      have last := expressionOf_blank (trim_eq_nil.mp nothing)
      simpa using last
    · next visible => exact expressionOf_trim visible
  constructor
  · intro read
    have some : inside ≠ [] := by
      obtain ⟨before, after, fits, -⟩ := read
      rintro rfl
      have nothing := fits.whole
      simp [fits.nonempty] at nothing
    exact ⟨some, read.unique (holds some)⟩
  · rintro ⟨some, rfl⟩
    exact holds some

theorem placeholder?_append {text expr : List Char} (placed : IsPlaceholder text expr)
    (rest : List Char) : placeholder? (text ++ rest) = some (expr, text.length) := by
  obtain ⟨inside, braceless, read, rfl⟩ := placed
  obtain ⟨some, rfl⟩ := expressionOf_iff.mp read
  have plain : ∀ c ∈ inside, (!isBrace c) = true := fun c member => by simp [braceless c member]
  have taken : (inside ++ '\x7d' :: '\x7d' :: rest).takeWhile (fun c => !isBrace c) = inside := by
    rw [List.takeWhile_append_of_pos plain]
    simp [isBrace]
  have whole : '\x7b' :: '\x7b' :: (inside ++ ['\x7d', '\x7d']) ++ rest =
      '\x7b' :: '\x7b' :: (inside ++ '\x7d' :: '\x7d' :: rest) := by simp
  rw [whole]
  simp [placeholder?, taken, some]

theorem isPlaceholder_of_placeholder? {cs expr : List Char} {n : Nat}
    (found : placeholder? cs = some (expr, n)) :
    ∃ text rest, IsPlaceholder text expr ∧ cs = text ++ rest ∧ n = text.length := by
  unfold placeholder? at found
  split at found
  · next rest =>
    dsimp only at found
    generalize taken : rest.takeWhile (fun c => !isBrace c) = inside at found
    split at found
    · next more closed =>
      split at found
      · contradiction
      · next some =>
        simp only [Option.some.injEq, Prod.mk.injEq] at found
        obtain ⟨rfl, rfl⟩ := found
        have some : inside ≠ [] := by simpa using some
        have braceless : Braceless inside := by
          intro c member
          rw [← taken] at member
          simpa using List.all_eq_true.mp List.all_takeWhile c member
        have whole : rest = inside ++ '\x7d' :: '\x7d' :: more := by
          rw [← closed, ← taken]
          have front : rest.takeWhile (fun c => !isBrace c) <+: rest := List.takeWhile_prefix _
          exact (List.prefix_iff_eq_append.mp front).symm
        refine ⟨_, more, ⟨inside, braceless, expressionOf_iff.mpr ⟨some, rfl⟩, rfl⟩, ?_, by simp⟩
        simp [whole]
    · contradiction
  · contradiction

theorem placeholder?_eq_none {cs : List Char} : placeholder? cs = none ↔ ¬ Begins cs := by
  constructor
  · rintro none ⟨text, expr, rest, placed, rfl⟩
    rw [placeholder?_append placed] at none
    contradiction
  · intro not
    cases found : placeholder? cs with
    | none => rfl
    | some one =>
      obtain ⟨text, rest, placed, whole, -⟩ := isPlaceholder_of_placeholder? found
      exact absurd ⟨text, one.1, rest, placed, whole⟩ not

theorem IsPlaceholder.nonempty {text expr : List Char} (placed : IsPlaceholder text expr) :
    text ≠ [] := by
  obtain ⟨inside, -, -, rfl⟩ := placed
  exact List.cons_ne_nil _ _

/-! ## Cuts -/

/-- No placeholder starts anywhere in the text. -/
def Plain (text : List Char) : Prop := ∀ tail, tail <:+ text → ¬ Begins tail

/-- The piece of a literal text, if there is any text. -/
def literalPiece : List Char → List Piece
  | [] => []
  | text => [.literal text]

/-- A text is cut at its placeholders from the left: each one is the first that starts behind the one
before it, and what stands between them is literal. -/
inductive Cuts : List Char → List Piece → Prop
  | last {text : List Char} : Plain text → Cuts text (literalPiece text)
  | next {front text expr rest : List Char} {pieces : List Piece} : IsPlaceholder text expr →
      (∀ tail, tail ≠ [] → tail <:+ front → ¬ Begins (tail ++ (text ++ rest))) → Cuts rest pieces →
      Cuts (front ++ (text ++ rest)) (literalPiece front ++ .placeholder expr :: pieces)

theorem Plain.tail {c : Char} {cs : List Char} (plain : Plain (c :: cs)) : Plain cs :=
  fun tail behind => plain tail (behind.trans (List.suffix_cons c cs))

theorem splitFrom_eq (n : Nat) (cs : List Char) : splitFrom n cs = split (cs.drop n) := by
  induction cs generalizing n with
  | nil => cases n <;> simp [splitFrom, split]
  | cons c cs ih =>
    cases n with
    | zero => rfl
    | succ n => simp [splitFrom, ih n]

theorem split_nil : split [] = [] := by simp [split, splitFrom]

theorem split_placeholder {text expr : List Char} (placed : IsPlaceholder text expr)
    (rest : List Char) : split (text ++ rest) = .placeholder expr :: split rest := by
  obtain ⟨c, cs, rfl⟩ := List.exists_cons_of_ne_nil placed.nonempty
  have found : placeholder? (c :: (cs ++ rest)) = some (expr, (c :: cs).length) :=
    placeholder?_append placed rest
  rw [List.cons_append, split, splitFrom, found]
  simp [splitFrom_eq]

theorem split_cons {c : Char} {cs : List Char} (not : ¬ Begins (c :: cs)) :
    split (c :: cs) = consChar c (split cs) := by
  rw [split, splitFrom, placeholder?_eq_none.mpr not]
  rfl

theorem consChar_literalPiece (c : Char) (text : List Char) :
    consChar c (literalPiece text) = literalPiece (c :: text) := by
  cases text <;> rfl

theorem consChar_placeholder (c : Char) (front expr : List Char) (pieces : List Piece) :
    consChar c (literalPiece front ++ .placeholder expr :: pieces) =
      literalPiece (c :: front) ++ .placeholder expr :: pieces := by
  cases front <;> rfl

theorem split_plain {text : List Char} (plain : Plain text) : split text = literalPiece text := by
  induction text with
  | nil => exact split_nil
  | cons c cs ih =>
    rw [split_cons (plain _ (List.suffix_refl _)), ih plain.tail, consChar_literalPiece]

theorem split_front {front text expr rest : List Char} (placed : IsPlaceholder text expr)
    (first : ∀ tail, tail ≠ [] → tail <:+ front → ¬ Begins (tail ++ (text ++ rest))) :
    split (front ++ (text ++ rest)) = literalPiece front ++ .placeholder expr :: split rest := by
  induction front with
  | nil => exact split_placeholder placed rest
  | cons c cs ih =>
    have not : ¬ Begins (c :: (cs ++ (text ++ rest))) :=
      first _ (List.cons_ne_nil c cs) (List.suffix_refl _)
    have later := ih fun tail some behind => first tail some (behind.trans (List.suffix_cons c cs))
    rw [List.cons_append, split_cons not, later, consChar_placeholder]

theorem Cuts.eq_split {cs : List Char} {pieces : List Piece} (cuts : Cuts cs pieces) :
    pieces = split cs := by
  induction cuts with
  | last plain => exact (split_plain plain).symm
  | next placed first _ ih => rw [split_front placed first, ih]

/-- A character in front of which nothing starts goes to the literal text behind it. -/
theorem Cuts.cons {c : Char} {cs : List Char} {pieces : List Piece} (cuts : Cuts cs pieces)
    (not : ¬ Begins (c :: cs)) : Cuts (c :: cs) (consChar c pieces) := by
  cases cuts with
  | last plain =>
    rw [consChar_literalPiece]
    refine .last fun tail behind => ?_
    rcases List.suffix_cons_iff.mp behind with rfl | later
    · exact not
    · exact plain tail later
  | @next front text expr rest pieces placed first cut =>
    rw [consChar_placeholder]
    show Cuts ((c :: front) ++ (text ++ rest)) _
    refine .next placed (fun tail some behind => ?_) cut
    rcases List.suffix_cons_iff.mp behind with rfl | later
    · exact not
    · exact first tail some later

theorem cuts_split (cs : List Char) : Cuts cs (split cs) := by
  induction hn : cs.length using Nat.strongRecOn generalizing cs with
  | ind n ih =>
    subst hn
    cases cs with
    | nil =>
      rw [split_nil]
      refine .last fun tail behind => ?_
      rw [List.suffix_nil.mp behind, ← placeholder?_eq_none]
      rfl
    | cons c cs =>
      by_cases begins : Begins (c :: cs)
      · obtain ⟨text, expr, rest, placed, whole⟩ := begins
        have shorter : rest.length < (c :: cs).length := by
          have some := List.length_pos_iff.mpr placed.nonempty
          rw [whole, List.length_append]
          omega
        have cut : Cuts ([] ++ (text ++ rest)) (literalPiece [] ++ .placeholder expr :: split rest) :=
          .next placed (fun tail some behind => absurd (List.suffix_nil.mp behind) some)
            (ih _ shorter rest rfl)
        rw [whole, split_placeholder placed]
        exact cut
      · rw [split_cons begins]
        exact (ih _ (by simp) cs rfl).cons begins

/-- There is one way to cut a text. -/
theorem cuts_iff {cs : List Char} {pieces : List Piece} : Cuts cs pieces ↔ pieces = split cs :=
  ⟨Cuts.eq_split, fun same => same ▸ cuts_split cs⟩

/-! ## Rendering -/

/-- The expressions of the placeholders, from the left. -/
def expressions (pieces : List Piece) : List (List Char) :=
  pieces.filterMap fun
    | .literal _ => none
    | .placeholder expr => some expr

theorem expressions_append (front back : List Piece) :
    expressions (front ++ back) = expressions front ++ expressions back :=
  List.filterMap_append

theorem expressions_placeholder (expr : List Char) (pieces : List Piece) :
    expressions (.placeholder expr :: pieces) = expr :: expressions pieces := rfl

theorem expressions_literalPiece (text : List Char) : expressions (literalPiece text) = [] := by
  cases text <;> rfl

/-- A text shows a value inside a template: no text shows null, a string shows itself, and any other
value is shown by its compact text. -/
inductive Shows : Json → List Char → Prop
  | null : Shows .null []
  | str (s : String) : Shows (.str s) s.toList
  | compact {v : Json} {text : List Char} : v ≠ .null → (∀ s, v ≠ .str s) → v.Compact text →
      Shows v text

/-- One text shows a value, and it is the one that is filled in. -/
theorem shows_iff {v : Json} {text : List Char} : Shows v text ↔ text = display v := by
  constructor
  · intro shows
    cases shows with
    | null => rfl
    | str s => rfl
    | compact visible plain compact =>
      rw [Json.compact_iff.mp compact]
      cases v with
      | null => exact absurd rfl visible
      | str s => exact absurd rfl (plain s)
      | _ => rfl
  · rintro rfl
    cases v with
    | null => exact .null
    | str s => exact .str s
    | _ => exact .compact nofun nofun (Json.compact_iff.mpr rfl)

/-- A literal piece becomes itself, and a placeholder the text that shows the value of its expression. -/
inductive Becomes (resolver : Resolver) (ctx : Context) : Piece → List Char → Prop
  | literal (text : List Char) : Becomes resolver ctx (.literal text) text
  | placeholder {expr text : List Char} {v : Json} : resolver ctx expr = .ok v → Shows v text →
      Becomes resolver ctx (.placeholder expr) text

section
variable {resolver : Resolver} {ctx : Context} {pieces : List Piece}

theorem becomes_literal {text part : List Char} :
    Becomes resolver ctx (.literal text) part ↔ part = text := by
  constructor
  · rintro ⟨⟩
    rfl
  · rintro rfl
    exact .literal part

theorem becomes_placeholder {expr part : List Char} :
    Becomes resolver ctx (.placeholder expr) part ↔
      ∃ v, resolver ctx expr = .ok v ∧ part = display v := by
  constructor
  · intro becomes
    cases becomes with
    | placeholder resolved shows => exact ⟨_, resolved, shows_iff.mp shows⟩
  · rintro ⟨v, resolved, rfl⟩
    exact .placeholder resolved (shows_iff.mpr rfl)

theorem fill_literal (text : List Char) :
    fill resolver ctx (.literal text :: pieces) = (fill resolver ctx pieces).map (text ++ ·) := by
  rw [fill]
  cases fill resolver ctx pieces <;> rfl

theorem fill_placeholder_ok {expr : List Char} {v : Json} (resolved : resolver ctx expr = .ok v) :
    fill resolver ctx (.placeholder expr :: pieces) =
      (fill resolver ctx pieces).map (display v ++ ·) := by
  rw [fill, resolved]
  cases fill resolver ctx pieces <;> rfl

theorem fill_placeholder_error {expr : List Char} {e : Error}
    (failed : resolver ctx expr = .error e) :
    fill resolver ctx (.placeholder expr :: pieces) = .error e := by
  rw [fill, failed]
  rfl

theorem fill_eq_ok {out : List Char} : fill resolver ctx pieces = .ok out ↔
    ∃ parts, List.Forall₂ (Becomes resolver ctx) pieces parts ∧ out = parts.flatten := by
  induction pieces generalizing out with
  | nil => simp [fill, eq_comm]
  | cons piece pieces ih =>
    -- what the piece becomes stands in front of what the other pieces become
    have step {text : List Char} (one : ∀ part, Becomes resolver ctx piece part ↔ part = text) :
        (fill resolver ctx pieces).map (text ++ ·) = .ok out ↔ ∃ parts,
          List.Forall₂ (Becomes resolver ctx) (piece :: pieces) parts ∧ out = parts.flatten := by
      constructor
      · intro filled
        cases rest : fill resolver ctx pieces with
        | error e => simp [rest, Except.map] at filled
        | ok after =>
          obtain ⟨parts, all, rfl⟩ := ih.mp rest
          rw [rest] at filled
          exact ⟨text :: parts, .cons ((one text).mpr rfl) all, (Except.ok.inj filled).symm⟩
      · rintro ⟨_, all, rfl⟩
        cases all with
        | cons first later =>
          rw [ih.mpr ⟨_, later, rfl⟩, (one _).mp first]
          rfl
    cases piece with
    | literal text =>
      rw [fill_literal]
      exact step fun part => becomes_literal
    | placeholder expr =>
      cases resolved : resolver ctx expr with
      | ok v =>
        rw [fill_placeholder_ok resolved]
        exact step fun part => by simp [becomes_placeholder, resolved]
      | error e =>
        have none (part : List Char) : ¬ Becomes resolver ctx (.placeholder expr) part := by
          simp [becomes_placeholder, resolved]
        rw [fill_placeholder_error resolved]
        constructor
        · intro filled
          contradiction
        · rintro ⟨_, all, -⟩
          cases all with
          | cons first _ => exact absurd first (none _)

theorem fill_eq_error {e : Error} : fill resolver ctx pieces = .error e ↔
    FailsFirst (resolver ctx) (expressions pieces) e := by
  induction pieces with
  | nil => simp [fill, expressions, not_failsFirst_nil]
  | cons piece pieces ih =>
    have step (text : List Char) : (fill resolver ctx pieces).map (text ++ ·) = .error e ↔
        fill resolver ctx pieces = .error e := by
      cases fill resolver ctx pieces <;> simp [Except.map]
    cases piece with
    | literal text =>
      rw [fill_literal, step, ih]
      rfl
    | placeholder expr =>
      rw [expressions_placeholder, failsFirst_cons, ← ih]
      cases resolved : resolver ctx expr with
      | ok v => rw [fill_placeholder_ok resolved, step]; simp
      | error d => rw [fill_placeholder_error resolved]; simp

/-- A resolver or a context that has the same values for the expressions fills the pieces alike. -/
theorem fill_congr {other : Resolver} {ctx' : Context}
    (same : ∀ expr ∈ expressions pieces, other ctx' expr = resolver ctx expr) :
    fill other ctx' pieces = fill resolver ctx pieces := by
  induction pieces with
  | nil => rfl
  | cons piece pieces ih =>
    cases piece with
    | literal text => rw [fill_literal, fill_literal, ih same]
    | placeholder expr =>
      obtain ⟨first, later⟩ := List.forall_mem_cons.mp same
      rw [fill, fill, first, ih later]

end

/-! ## Templates that are one placeholder -/

theorem not_begins_blank {c : Char} (blank : isBlank c = true) (cs : List Char) :
    ¬ Begins (c :: cs) := by
  rintro ⟨text, expr, rest, ⟨inside, -, -, rfl⟩, whole⟩
  obtain ⟨rfl, -⟩ := List.cons.inj whole
  contradiction

theorem plain_blank {cs : List Char} (blank : Blank cs) : Plain cs := by
  rintro tail behind begins
  cases tail with
  | nil => exact placeholder?_eq_none.mp rfl begins
  | cons c rest => exact not_begins_blank (blank c (behind.mem (List.mem_cons_self ..))) rest begins

private theorem consChar_eq (c : Char) (pieces : List Piece) :
    ∃ text rest, consChar c pieces = .literal (c :: text) :: rest := by
  unfold consChar
  split
  · exact ⟨_, _, rfl⟩
  · exact ⟨_, _, rfl⟩

theorem split_ne_nil {cs : List Char} (some : cs ≠ []) : split cs ≠ [] := by
  obtain ⟨c, rest, rfl⟩ := List.exists_cons_of_ne_nil some
  by_cases begins : Begins (c :: rest)
  · obtain ⟨text, expr, after, placed, whole⟩ := begins
    rw [whole, split_placeholder placed]
    exact List.cons_ne_nil _ _
  · obtain ⟨text, after, whole⟩ := consChar_eq c (split rest)
    rw [split_cons begins, whole]
    exact List.cons_ne_nil _ _

theorem split_eq_single {cs expr : List Char} :
    split cs = [.placeholder expr] ↔ IsPlaceholder cs expr := by
  constructor
  · intro single
    by_cases begins : Begins cs
    · obtain ⟨text, expr', rest, placed, rfl⟩ := begins
      rw [split_placeholder placed, List.cons.injEq, Piece.placeholder.injEq] at single
      obtain ⟨rfl, nothing⟩ := single
      have rest_nil : rest = [] := by
        by_contra some
        exact split_ne_nil some nothing
      rwa [rest_nil, List.append_nil]
    · cases cs with
      | nil => simp [split_nil] at single
      | cons c cs =>
        obtain ⟨text, after, whole⟩ := consChar_eq c (split cs)
        simp [split_cons begins, whole] at single
  · intro placed
    have whole := split_placeholder placed []
    rwa [List.append_nil, split_nil] at whole

/-- White space around a placeholder is literal text. -/
theorem expressions_padded {before text expr after : List Char} (blankBefore : Blank before)
    (placed : IsPlaceholder text expr) (blankAfter : Blank after) :
    expressions (split (before ++ (text ++ after))) = [expr] := by
  have first (tail : List Char) (some : tail ≠ []) (behind : tail <:+ before) :
      ¬ Begins (tail ++ (text ++ after)) := by
    obtain ⟨c, rest, rfl⟩ := List.exists_cons_of_ne_nil some
    exact not_begins_blank (blankBefore c (behind.mem (List.mem_cons_self ..))) _
  rw [split_front placed first, split_plain (plain_blank blankAfter), expressions_append,
    expressions_placeholder, expressions_literalPiece, expressions_literalPiece, List.nil_append]

theorem expressions_single {template expr : List Char}
    (placed : IsPlaceholder (trim template) expr) : expressions (split template) = [expr] := by
  obtain ⟨before, after, blankBefore, blankAfter, -, whole⟩ := exists_padded template
  rw [whole, List.append_assoc]
  exact expressions_padded blankBefore placed blankAfter

section
variable {resolver : Resolver} {ctx : Context} {template : List Char}

theorem render_single {expr : List Char} (placed : IsPlaceholder (trim template) expr) :
    render resolver ctx template = resolver ctx expr := by
  rw [render, split_eq_single.mpr placed]

theorem render_mixed (mixed : ∀ expr, ¬ IsPlaceholder (trim template) expr) :
    render resolver ctx template =
      (fill resolver ctx (split template)).map fun text => .str (String.ofList text) := by
  unfold render
  split
  · next expr single => exact absurd (split_eq_single.mp single) (mixed expr)
  · cases fill resolver ctx (split template) <;> rfl

/-- Only the expressions of the template itself are resolved. -/
theorem render_congr {other : Resolver} {ctx' : Context}
    (same : ∀ expr ∈ expressions (split template), other ctx' expr = resolver ctx expr) :
    render other ctx' template = render resolver ctx template := by
  by_cases single : ∃ expr, IsPlaceholder (trim template) expr
  · obtain ⟨expr, placed⟩ := single
    rw [render_single placed, render_single placed]
    exact same expr (by simp [expressions_single placed])
  · have mixed := not_exists.mp single
    rw [render_mixed mixed, render_mixed mixed, fill_congr same]

theorem render_eq_error {e : Error} : render resolver ctx template = .error e ↔
    FailsFirst (resolver ctx) (expressions (split template)) e := by
  by_cases single : ∃ expr, IsPlaceholder (trim template) expr
  · obtain ⟨expr, placed⟩ := single
    rw [render_single placed, expressions_single placed, failsFirst_cons]
    simp [not_failsFirst_nil]
  · rw [render_mixed (not_exists.mp single), ← fill_eq_error]
    cases fill resolver ctx (split template) <;> simp [Except.map]

theorem render_eq_text (mixed : ∀ expr, ¬ IsPlaceholder (trim template) expr) {v : Json} :
    render resolver ctx template = .ok v ↔
      ∃ parts, List.Forall₂ (Becomes resolver ctx) (split template) parts ∧
        v = .str (String.ofList parts.flatten) := by
  rw [render_mixed mixed]
  constructor
  · intro rendered
    cases filled : fill resolver ctx (split template) with
    | error e => simp [filled, Except.map] at rendered
    | ok text =>
      obtain ⟨parts, all, rfl⟩ := fill_eq_ok.mp filled
      rw [filled] at rendered
      exact ⟨parts, all, (Except.ok.inj rendered).symm⟩
  · rintro ⟨parts, all, rfl⟩
    rw [fill_eq_ok.mpr ⟨parts, all, rfl⟩]
    rfl

theorem render_plain (plain : Plain template) :
    render resolver ctx template = .ok (.str (String.ofList template)) := by
  have pieces := split_plain plain
  have mixed (expr : List Char) : ¬ IsPlaceholder (trim template) expr := by
    intro placed
    have none := expressions_single placed
    rw [pieces, expressions_literalPiece] at none
    contradiction
  rw [render_mixed mixed, pieces]
  cases template with
  | nil => rfl
  | cons c cs => simp [literalPiece, fill_literal, fill, Except.map]

/-! ## Expansion -/

/-- How a template is expanded in a context. -/
structure ExpandsOnce (resolver : Resolver) (ctx : Context) (template : List Char) : Prop where
  /-- The pieces are those into which the template can be cut; no value has a say in it. -/
  cut : ∀ pieces, Cuts template pieces ↔ pieces = split template
  /-- A template that is one placeholder, white space aside, is the value itself. -/
  single : ∀ expr, IsPlaceholder (trim template) expr →
    render resolver ctx template = resolver ctx expr
  /-- Any other one is a text: its pieces in order, the literal ones as they are and the others as the
  texts that show their values. -/
  mixed : (∀ expr, ¬ IsPlaceholder (trim template) expr) → ∀ v,
    render resolver ctx template = .ok v ↔
      ∃ parts, List.Forall₂ (Becomes resolver ctx) (split template) parts ∧
        v = .str (String.ofList parts.flatten)
  /-- Without a placeholder the template is left as it is. -/
  plain : Plain template → render resolver ctx template = .ok (.str (String.ofList template))
  /-- The first expression that does not resolve makes it fail, and nothing else does. -/
  fails : ∀ e, render resolver ctx template = .error e ↔
    FailsFirst (resolver ctx) (expressions (split template)) e
  /-- Nothing but the expressions of the template is resolved, whatever the values contain. -/
  once : ∀ other : Resolver,
    (∀ expr ∈ expressions (split template), other ctx expr = resolver ctx expr) →
      render other ctx template = render resolver ctx template

/-- Templates are expanded once, from the left. -/
theorem expandsOnce (resolver : Resolver) (ctx : Context) (template : List Char) :
    ExpandsOnce resolver ctx template where
  cut _ := cuts_iff
  single _ := render_single
  mixed none _ := render_eq_text none
  plain := render_plain
  fails _ := render_eq_error
  once _ same := render_congr same

end

end Parley.Template
