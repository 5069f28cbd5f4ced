import Parley.Config.Variables
import Mathlib.Data.List.Basic
/-!
# Variables in settings are replaced once

A text is cut at its references from the left, in one way only (`existsUnique_cuts`). Where each
reference is closed, the value of a variable that is set stands for it, any other reference stays as
it is written, and what a value brings in is not looked at again. A last reference without a closing
brace is expanded as though the text ended in one. An environment that sets none of the variables in
a text therefore leaves the text as it is just when each of its references is closed, and adds a
brace to any other (`expands_references`).
-/
namespace Parley.Environment

/-! ## The pieces of a text -/

/-- What a reference starts with. -/
def opener : List Char := ['$', '\x7b']

/-- No reference starts in the text. -/
def Plain (text : List Char) : Prop := ¬ opener <:+: text

/-- A part of a text: a text without references, or a reference that ends in its closing brace or that
the end of the text leaves open. -/
inductive Piece where
  | plain (text : List Char)
  | closed (name : List Char)
  | unclosed (name : List Char)

/-- A text is cut at its references from the left. A name goes on to the first closing brace, and
where there is none to the end of the text. -/
inductive Cuts : List Char → List Piece → Prop
  | plain {text : List Char} : Plain text → Cuts text [.plain text]
  | closed {front name rest : List Char} {pieces : List Piece} : Plain front → '\x7d' ∉ name →
      Cuts rest pieces →
      Cuts (front ++ (opener ++ (name ++ '\x7d' :: rest))) (.plain front :: .closed name :: pieces)
  | unclosed {front name : List Char} : Plain front → '\x7d' ∉ name →
      Cuts (front ++ (opener ++ name)) [.plain front, .unclosed name]

namespace Piece

/-- The piece as it stands in the text. -/
def written : Piece → List Char
  | .plain text => text
  | .closed name => opener ++ name ++ ['\x7d']
  | .unclosed name => opener ++ name

/-- The name of the variable that is referred to. -/
def name? : Piece → Option String
  | .plain _ => none
  | .closed name | .unclosed name => some (String.ofList name)

/-- What is to stand for a piece: for a closed reference to a variable that is set its value, and for
any other piece what is written. -/
def substitute (env : Environment) : Piece → List Char
  | .closed name =>
    match env (String.ofList name) with
    | some value => value.toList
    | none => written (.closed name)
  | piece => piece.written

/-- What expansion puts in the place of a piece. -/
def expanded (env : Environment) : Piece → List Char
  | .plain text => text
  | .closed name | .unclosed name => env.replacement name

/-- The piece with its closing brace. -/
def close : Piece → Piece
  | .unclosed name => .closed name
  | piece => piece

end Piece

theorem Plain.of_cons {c : Char} {cs : List Char} (plain : Plain (c :: cs)) : Plain cs :=
  fun inside => plain (inside.trans (List.suffix_cons c cs).isInfix)

theorem Plain.not_starts {text : List Char} (plain : Plain text) : ¬ opener <+: text :=
  fun starts => plain starts.isInfix

theorem plain_cons {c : Char} {cs : List Char} (plain : Plain cs) (not : ¬ opener <+: c :: cs) :
    Plain (c :: cs) := by
  intro inside
  rcases List.infix_cons_iff.mp inside with starts | later
  · exact not starts
  · exact plain later

/-- What starts in front of a reference does not reach into it, as no reference starts with a brace. -/
theorem Plain.not_starts_front {c : Char} {front : List Char} (plain : Plain (c :: front))
    (rest : List Char) : ¬ opener <+: c :: front ++ (opener ++ rest) := by
  intro starts
  cases front with
  | nil => simp [opener] at starts
  | cons d front =>
    refine plain.not_starts ?_
    simpa [opener] using starts

theorem plain_or_front (text : List Char) :
    Plain text ∨ ∃ front rest, Plain front ∧ text = front ++ (opener ++ rest) := by
  induction text with
  | nil => exact .inl (by simp [Plain, opener])
  | cons c cs ih =>
    by_cases starts : opener <+: c :: cs
    · obtain ⟨rest, whole⟩ := starts
      exact .inr ⟨[], rest, by simp [Plain, opener], whole.symm⟩
    · rcases ih with plain | ⟨front, rest, plain, rfl⟩
      · exact .inl (plain_cons plain starts)
      · have not : ¬ opener <+: c :: front := fun early =>
          starts (early.trans (List.prefix_append (c :: front) _))
        exact .inr ⟨c :: front, rest, plain_cons plain not, rfl⟩

theorem exists_cuts (text : List Char) : ∃ pieces, Cuts text pieces := by
  induction hn : text.length using Nat.strongRecOn generalizing text with
  | ind n ih =>
    rcases plain_or_front text with plain | ⟨front, rest, plain, rfl⟩
    · exact ⟨_, .plain plain⟩
    · by_cases brace : '\x7d' ∈ rest
      · obtain ⟨name, rest, rfl, first⟩ := List.eq_append_cons_of_mem brace
        have shorter : rest.length < n := by
          simp only [← hn, List.length_append, List.length_cons]
          omega
        obtain ⟨pieces, cuts⟩ := ih _ shorter rest rfl
        exact ⟨_, .closed plain first cuts⟩
      · exact ⟨_, .unclosed plain brace⟩

theorem takeWhile_name {name : List Char} (first : '\x7d' ∉ name) (rest : List Char) :
    (name ++ rest).takeWhile (· != '\x7d') = name ++ rest.takeWhile (· != '\x7d') := by
  refine List.takeWhile_append_of_pos fun c member => ?_
  have other : c ≠ '\x7d' := fun same => first (same ▸ member)
  simpa using other

theorem name_inj {name other rest rest' : List Char} (first : '\x7d' ∉ name)
    (first' : '\x7d' ∉ other) (same : name ++ '\x7d' :: rest = other ++ '\x7d' :: rest') :
    name = other ∧ rest = rest' := by
  have names := congrArg (List.takeWhile (· != '\x7d')) same
  rw [takeWhile_name first, takeWhile_name first'] at names
  obtain rfl : name = other := by simpa using names
  exact ⟨rfl, (List.cons.inj (List.append_cancel_left same)).2⟩

/-! There is one way to cut a text. -/

theorem not_plain_append (front rest : List Char) : ¬ Plain (front ++ (opener ++ rest)) := by
  intro plain
  exact plain ⟨front, rest, by simp⟩

theorem Plain.front_inj {front other rest rest' : List Char} (plain : Plain front)
    (plain' : Plain other) (same : front ++ (opener ++ rest) = other ++ (opener ++ rest')) :
    front = other ∧ rest = rest' := by
  induction front generalizing other with
  | nil =>
    cases other with
    | nil => exact ⟨rfl, List.append_cancel_left same⟩
    | cons c other => exact absurd ⟨rest, same⟩ (plain'.not_starts_front rest')
  | cons c front ih =>
    cases other with
    | nil => exact absurd ⟨rest', same.symm⟩ (plain.not_starts_front rest)
    | cons d other =>
      obtain ⟨rfl, later⟩ := List.cons.inj same
      obtain ⟨rfl, rfl⟩ := ih plain.of_cons plain'.of_cons later
      exact ⟨rfl, rfl⟩

theorem Cuts.unique {text : List Char} {pieces other : List Piece} (cuts : Cuts text pieces)
    (cuts' : Cuts text other) : pieces = other := by
  induction cuts generalizing other with
  | plain plain =>
    cases cuts' with
    | plain => rfl
    | closed => exact absurd plain (not_plain_append _ _)
    | unclosed => exact absurd plain (not_plain_append _ _)
  | @closed front name rest pieces plain first _ ih =>
    generalize whole : front ++ (opener ++ (name ++ '\x7d' :: rest)) = text at cuts'
    cases cuts' with
    | plain plain' => exact absurd (whole ▸ plain') (not_plain_append _ _)
    | closed plain' first' cuts' =>
      obtain ⟨rfl, same⟩ := plain.front_inj plain' whole
      obtain ⟨rfl, rfl⟩ := name_inj first first' same
      rw [ih cuts']
    | unclosed plain' first' =>
      obtain ⟨rfl, rfl⟩ := plain.front_inj plain' whole
      simp at first'
  | @unclosed front name plain first =>
    generalize whole : front ++ (opener ++ name) = text at cuts'
    cases cuts' with
    | plain plain' => exact absurd (whole ▸ plain') (not_plain_append _ _)
    | closed plain' =>
      obtain ⟨rfl, rfl⟩ := plain.front_inj plain' whole
      simp at first
    | unclosed plain' =>
      obtain ⟨rfl, rfl⟩ := plain.front_inj plain' whole
      rfl

theorem existsUnique_cuts (text : List Char) : ∃! pieces, Cuts text pieces :=
  have ⟨pieces, cuts⟩ := exists_cuts text
  ⟨pieces, cuts, fun _ other => other.unique cuts⟩

theorem Cuts.flatMap_written {text : List Char} {pieces : List Piece} (cuts : Cuts text pieces) :
    pieces.flatMap Piece.written = text := by
  induction cuts with
  | plain => simp [Piece.written]
  | closed _ _ _ ih => simp [Piece.written, ih]
  | unclosed => simp [Piece.written]

/-- A closing brace behind the text closes its last reference, where that is unclosed. -/
theorem Cuts.append_brace {text name : List Char} {pieces : List Piece} (cuts : Cuts text pieces)
    (last : .unclosed name ∈ pieces) :
    Cuts (text ++ ['\x7d']) (pieces.map Piece.close ++ [.plain []]) := by
  have nothing : Plain [] := by simp [Plain, opener]
  induction cuts with
  | plain => simp at last
  | closed plain first _ ih =>
    have later := ih (by simpa using last)
    simpa [Piece.close] using Cuts.closed plain first later
  | unclosed plain first =>
    simpa [Piece.close] using Cuts.closed plain first (.plain nothing)

/-! ## What the scanner sees

Expansion and the list of the names that are looked up go through a text alike, so both are read off
one list of tokens.
-/

/-- What a step of the scanner takes from a text: a character or a reference. -/
inductive Token where
  | char (c : Char)
  | reference (name : List Char)

/-- The text as the scanner takes it, of which the first `skip` characters are used up. -/
def tokensFrom : (skip : Nat) → List Char → List Token
  | _, [] => []
  | skip + 1, _ :: cs => tokensFrom skip cs
  | 0, c :: cs =>
    match reference? (c :: cs) with
    | some (name, length) => .reference name :: tokensFrom (length - 1) cs
    | none => .char c :: tokensFrom 0 cs

namespace Token

def expanded (env : Environment) : Token → List Char
  | .char c => [c]
  | .reference name => env.replacement name

def name? : Token → Option String
  | .char _ => none
  | .reference name => some (String.ofList name)

end Token

def Piece.tokens : Piece → List Token
  | .plain text => text.map .char
  | .closed name | .unclosed name => [.reference name]

theorem expandFrom_eq_flatMap (env : Environment) (skip : Nat) (cs : List Char) :
    expandFrom env skip cs = (tokensFrom skip cs).flatMap (Token.expanded env) := by
  fun_induction tokensFrom skip cs with
  | case1 => simp [expandFrom]
  | case2 => simpa [expandFrom]
  | case3 c cs name length found ih => simp [expandFrom, found, ih, Token.expanded]
  | case4 c cs found ih => simp [expandFrom, found, ih, Token.expanded]

theorem mentionedFrom_eq_filterMap (skip : Nat) (cs : List Char) :
    mentionedFrom skip cs = (tokensFrom skip cs).filterMap Token.name? := by
  fun_induction tokensFrom skip cs with
  | case1 => simp [mentionedFrom]
  | case2 => simpa [mentionedFrom]
  | case3 c cs name length found ih => simp [mentionedFrom, found, ih, Token.name?]
  | case4 c cs found ih =>
    rw [mentionedFrom, found, List.filterMap_cons_none rfl]
    exact ih

theorem tokensFrom_drop (skip : Nat) (cs : List Char) :
    tokensFrom skip cs = tokensFrom 0 (cs.drop skip) := by
  induction cs generalizing skip with
  | nil => cases skip <;> simp [tokensFrom]
  | cons c cs ih =>
    cases skip with
    | zero => rfl
    | succ skip => simp [tokensFrom, ih skip]

theorem reference?_eq_none {cs : List Char} (not : ¬ opener <+: cs) : reference? cs = none := by
  unfold reference?
  split
  · simp [opener] at not
  · rfl

theorem tokensFrom_cons {c : Char} {cs : List Char} (not : ¬ opener <+: c :: cs) :
    tokensFrom 0 (c :: cs) = .char c :: tokensFrom 0 cs := by
  rw [tokensFrom, reference?_eq_none not]

theorem tokensFrom_plain {text : List Char} (plain : Plain text) :
    tokensFrom 0 text = text.map .char := by
  induction text with
  | nil => rfl
  | cons c cs ih => rw [tokensFrom_cons plain.not_starts, ih plain.of_cons, List.map_cons]

theorem tokensFrom_front {front : List Char} (plain : Plain front) (rest : List Char) :
    tokensFrom 0 (front ++ (opener ++ rest)) =
      front.map .char ++ tokensFrom 0 (opener ++ rest) := by
  induction front with
  | nil => rfl
  | cons c front ih =>
    have one := tokensFrom_cons (plain.not_starts_front rest)
    have later := ih plain.of_cons
    simpa [later] using one

theorem tokensFrom_opener (rest : List Char) :
    tokensFrom 0 (opener ++ rest) = .reference (rest.takeWhile (· != '\x7d')) ::
      tokensFrom 0 (rest.drop ((rest.takeWhile (· != '\x7d')).length + 1)) := by
  have found : reference? (opener ++ rest) =
      some (rest.takeWhile (· != '\x7d'), (rest.takeWhile (· != '\x7d')).length + 3) := rfl
  unfold opener at found ⊢
  rw [List.cons_append, tokensFrom, ← List.cons_append, found]
  simp only [tokensFrom_drop (_ - 1)]
  simp

theorem tokensFrom_closed {name : List Char} (first : '\x7d' ∉ name) (rest : List Char) :
    tokensFrom 0 (opener ++ (name ++ '\x7d' :: rest)) = .reference name :: tokensFrom 0 rest := by
  have named : (name ++ '\x7d' :: rest).takeWhile (· != '\x7d') = name := by
    simpa using takeWhile_name first ('\x7d' :: rest)
  rw [tokensFrom_opener, named]
  simp

theorem tokensFrom_unclosed {name : List Char} (first : '\x7d' ∉ name) :
    tokensFrom 0 (opener ++ name) = [.reference name] := by
  have named : name.takeWhile (· != '\x7d') = name := by simpa using takeWhile_name first []
  rw [tokensFrom_opener, named, List.drop_eq_nil_of_le (Nat.le_succ _)]
  rfl

section
variable {env : Environment} {text : List Char} {pieces : List Piece}

theorem Cuts.tokensFrom_eq (cuts : Cuts text pieces) :
    tokensFrom 0 text = pieces.flatMap Piece.tokens := by
  induction cuts with
  | plain plain => simp [tokensFrom_plain plain, Piece.tokens]
  | closed plain first _ ih =>
    simp [tokensFrom_front plain, tokensFrom_closed first, ih, Piece.tokens]
  | unclosed plain first =>
    simp [tokensFrom_front plain, tokensFrom_unclosed first, Piece.tokens]

theorem Cuts.expandFrom_eq (cuts : Cuts text pieces) :
    expandFrom env 0 text = pieces.flatMap (Piece.expanded env) := by
  rw [expandFrom_eq_flatMap, cuts.tokensFrom_eq, List.flatMap_assoc]
  congr 1
  funext piece
  cases piece <;> simp [Piece.tokens, Piece.expanded, Token.expanded, List.flatMap_map]

theorem Cuts.mentionedFrom_eq (cuts : Cuts text pieces) :
    mentionedFrom 0 text = pieces.filterMap Piece.name? := by
  rw [mentionedFrom_eq_filterMap, cuts.tokensFrom_eq, List.filterMap_flatMap,
    List.filterMap_eq_flatMap_toList]
  congr 1
  funext piece
  cases piece <;> simp [Piece.tokens, Piece.name?, Token.name?, List.filterMap_map]

end

/-! ## What stands for a piece -/

namespace Piece
variable {env : Environment} {piece : Piece}

theorem substitute_eq_expanded (closed : ∀ name, piece ≠ .unclosed name) :
    piece.substitute env = piece.expanded env := by
  cases piece with
  | plain => rfl
  | closed name =>
    unfold substitute expanded replacement
    cases env (String.ofList name) <;> rfl
  | unclosed name => exact absurd rfl (closed name)

theorem close_eq_self (closed : ∀ name, piece ≠ .unclosed name) : piece.close = piece := by
  cases piece with
  | plain => rfl
  | closed => rfl
  | unclosed name => exact absurd rfl (closed name)

theorem close_ne_unclosed (name : List Char) : piece.close ≠ .unclosed name := by
  cases piece <;> simp [close]

theorem expanded_close : piece.close.expanded env = piece.expanded env := by
  cases piece <;> rfl

theorem expanded_congr {other : Environment}
    (same : ∀ name, piece.name? = some name → other name = env name) :
    piece.expanded other = piece.expanded env := by
  cases piece with
  | plain => rfl
  | closed name => simp only [expanded, replacement, same _ rfl]
  | unclosed name => simp only [expanded, replacement, same _ rfl]

theorem expanded_unset (unset : ∀ name, piece.name? = some name → env name = none) :
    piece.expanded env = piece.close.written := by
  cases piece with
  | plain => rfl
  | closed name => simp only [expanded, replacement, unset _ rfl]; rfl
  | unclosed name => simp only [expanded, replacement, unset _ rfl]; rfl

/-- A reference that is left open is expanded to what is written only when the value of its variable
happens to be that. -/
theorem written_eq_expanded {name : List Char} :
    written (.unclosed name) = expanded env (.unclosed name) ↔
      env (String.ofList name) = some (String.ofList (opener ++ name)) := by
  cases set : env (String.ofList name) with
  | none => simp [written, expanded, replacement, set, opener]
  | some value => simp [written, expanded, replacement, set, String.ext_iff, eq_comm]

end Piece

theorem Cuts.substitute_eq_expanded {env : Environment} {text name : List Char}
    {pieces : List Piece} (cuts : Cuts text pieces) (last : .unclosed name ∈ pieces) :
    pieces.flatMap (Piece.substitute env) = pieces.flatMap (Piece.expanded env) ↔
      env (String.ofList name) = some (String.ofList (opener ++ name)) := by
  induction cuts with
  | plain => simp at last
  | @closed front other _ _ _ _ _ ih =>
    have one : Piece.substitute env (.closed other) = Piece.expanded env (.closed other) :=
      Piece.substitute_eq_expanded (by simp)
    rw [← ih (by simpa using last), List.flatMap_cons, List.flatMap_cons, List.flatMap_cons,
      List.flatMap_cons, one]
    exact (List.append_right_inj _).trans (List.append_right_inj _)
  | @unclosed front other =>
    obtain rfl : name = other := by simpa using last
    rw [← Piece.written_eq_expanded]
    simp [Piece.substitute, Piece.written, Piece.expanded]

/-! ## Expansion -/

/-- Each closed reference to a variable that is set gives way to its value, and all else in the text
stays as it is written. -/
def Substituted (env : Environment) (text out : String) : Prop :=
  ∃ pieces, Cuts text.toList pieces ∧ out.toList = pieces.flatMap (Piece.substitute env)

/-- The last reference of the text has no closing brace. -/
def Unclosed (text : String) (name : List Char) : Prop :=
  ∃ pieces, Cuts text.toList pieces ∧ .unclosed name ∈ pieces

def Closed (text : String) : Prop := ∀ name, ¬ Unclosed text name

/-- None of the variables that are looked up for the text is set. -/
def Unset (env : Environment) (text : String) : Prop := ∀ name ∈ mentioned text, env name = none

structure ExpandsReferences (env : Environment) (text : String) : Prop where
  /-- The variables that are looked up are those the text refers to. -/
  looked : ∀ pieces, Cuts text.toList pieces → mentioned text = pieces.filterMap Piece.name?
  /-- No other variable counts. -/
  agreement : ∀ other : Environment, (∀ name ∈ mentioned text, other name = env name) →
    other.expand text = env.expand text
  closed : Closed text → ∀ out, Substituted env text out ↔ out = env.expand text
  /-- A text that leaves a reference open is read as though it ended in a closing brace. -/
  unclosed : ¬ Closed text → Closed (text ++ "\x7d") ∧ env.expand text = env.expand (text ++ "\x7d")
  /-- Such a reference stays as it is written only when its value happens to be that. -/
  asWritten : Substituted env text (env.expand text) ↔ ∀ name, Unclosed text name →
    env (String.ofList name) = some (String.ofList (opener ++ name))
  unchanged : Unset env text → (env.expand text = text ↔ Closed text)
  braced : Unset env text → ¬ Closed text → env.expand text = text ++ "\x7d"

section
variable {env : Environment} {text : String} {pieces : List Piece}

theorem toList_expand (cuts : Cuts text.toList pieces) :
    (env.expand text).toList = pieces.flatMap (Piece.expanded env) := by
  rw [expand, String.toList_ofList, cuts.expandFrom_eq]

theorem mem_mentioned (cuts : Cuts text.toList pieces) {piece : Piece} (member : piece ∈ pieces)
    {name : String} (named : piece.name? = some name) : name ∈ mentioned text := by
  rw [mentioned, cuts.mentionedFrom_eq]
  exact List.mem_filterMap.mpr ⟨piece, member, named⟩

theorem Closed.not_mem (closed : Closed text) (cuts : Cuts text.toList pieces) (name : List Char) :
    .unclosed name ∉ pieces :=
  fun member => closed name ⟨pieces, cuts, member⟩

theorem closed_append_brace {name : List Char} (last : Unclosed text name) :
    Closed (text ++ "\x7d") := by
  rintro other ⟨pieces', cuts', member'⟩
  obtain ⟨pieces, cuts, member⟩ := last
  have whole : (text ++ "\x7d").toList = text.toList ++ ['\x7d'] := by simp
  obtain rfl := cuts'.unique (whole ▸ cuts.append_brace member)
  simp [Piece.close_ne_unclosed] at member'

theorem expand_append_brace {name : List Char} (last : Unclosed text name) :
    env.expand (text ++ "\x7d") = env.expand text := by
  obtain ⟨pieces, cuts, member⟩ := last
  have whole : (text ++ "\x7d").toList = text.toList ++ ['\x7d'] := by simp
  have closed : Cuts (text ++ "\x7d").toList (pieces.map Piece.close ++ [.plain []]) :=
    whole ▸ cuts.append_brace member
  refine String.ext ?_
  rw [toList_expand closed, toList_expand cuts, List.flatMap_append, List.flatMap_map]
  simp only [Piece.expanded_close]
  exact List.append_nil _

/-- Without the variables that it refers to, a text keeps all its characters, and a reference that is
left open gets its closing brace. -/
theorem toList_expand_unset (cuts : Cuts text.toList pieces) (unset : Unset env text) :
    (env.expand text).toList = (pieces.map Piece.close).flatMap Piece.written := by
  rw [toList_expand cuts, List.flatMap_map]
  exact List.flatMap_congr fun piece member =>
    Piece.expanded_unset fun name named => unset name (mem_mentioned cuts member named)

theorem expand_closed_unset (closed : Closed text) (unset : Unset env text) :
    env.expand text = text := by
  obtain ⟨pieces, cuts⟩ := exists_cuts text.toList
  have same : pieces.map Piece.close = pieces := by
    refine (List.map_congr_left fun piece member => ?_).trans (List.map_id pieces)
    exact Piece.close_eq_self fun name last => closed.not_mem cuts name (last ▸ member)
  refine String.ext ?_
  rw [toList_expand_unset cuts unset, same, cuts.flatMap_written]

theorem expand_unclosed_unset {name : List Char} (last : Unclosed text name)
    (unset : Unset env text) : env.expand text = text ++ "\x7d" := by
  obtain ⟨pieces, cuts, member⟩ := last
  have whole := (cuts.append_brace member).flatMap_written
  refine String.ext ?_
  rw [toList_expand_unset cuts unset]
  simpa [Piece.written] using whole

theorem substituted_iff (closed : Closed text) (out : String) :
    Substituted env text out ↔ out = env.expand text := by
  have made {pieces : List Piece} (cuts : Cuts text.toList pieces) :
      pieces.flatMap (Piece.substitute env) = (env.expand text).toList := by
    rw [toList_expand cuts]
    exact List.flatMap_congr fun piece member => Piece.substitute_eq_expanded fun name same =>
      closed.not_mem cuts name (same ▸ member)
  constructor
  · rintro ⟨pieces, cuts, same⟩
    exact String.ext (same.trans (made cuts))
  · rintro rfl
    obtain ⟨pieces, cuts⟩ := exists_cuts text.toList
    exact ⟨pieces, cuts, (made cuts).symm⟩

theorem substituted_expand_iff {name : List Char} (last : Unclosed text name) :
    Substituted env text (env.expand text) ↔
      env (String.ofList name) = some (String.ofList (opener ++ name)) := by
  obtain ⟨pieces, cuts, member⟩ := last
  rw [← cuts.substitute_eq_expanded member, ← toList_expand cuts]
  constructor
  · rintro ⟨other, cuts', same⟩
    rw [cuts.unique cuts', same]
  · intro same
    exact ⟨pieces, cuts, same.symm⟩

theorem expand_congr {other : Environment}
    (same : ∀ name ∈ mentioned text, other name = env name) :
    other.expand text = env.expand text := by
  obtain ⟨pieces, cuts⟩ := exists_cuts text.toList
  refine String.ext ?_
  rw [toList_expand cuts, toList_expand cuts]
  exact List.flatMap_congr fun piece member =>
    Piece.expanded_congr fun name named => same name (mem_mentioned cuts member named)

end

/-- Expansion puts the values of variables in once, and reads a text that leaves its last reference
open as though it ended in a closing brace. -/
theorem expands_references (env : Environment) (text : String) : ExpandsReferences env text where
  looked := fun pieces cuts => cuts.mentionedFrom_eq
  agreement := fun other => expand_congr
  closed := substituted_iff
  unclosed := fun not => by
    obtain ⟨name, last⟩ := not_forall_not.mp not
    exact ⟨closed_append_brace last, (expand_append_brace last).symm⟩
  asWritten := by
    refine ⟨fun made name last => (substituted_expand_iff last).mp made, fun values => ?_⟩
    by_cases closed : Closed text
    · exact (substituted_iff closed _).mpr rfl
    · obtain ⟨name, last⟩ := not_forall_not.mp closed
      exact (substituted_expand_iff last).mpr (values name last)
  unchanged := fun unset => by
    refine ⟨fun same => ?_, fun closed => expand_closed_unset closed unset⟩
    intro name last
    have longer := (expand_unclosed_unset last unset).symm.trans same
    simpa using congrArg String.length longer
  braced := fun unset not => by
    obtain ⟨name, last⟩ := not_forall_not.mp not
    exact expand_unclosed_unset last unset

example : expand (fun _ => none) "$\x7bLEVEL" = "$\x7bLEVEL\x7d" := by decide

end Parley.Environment
