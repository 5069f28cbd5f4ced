import Parley.Expr.Param
import Parley.Proofs.Expr.Path
import Parley.Proofs.Expr.Template
import Parley.Proofs.Json.Value
/-!
# Parameters are replaced at their references

The references of a parameter are found in it without a context (`Param.leaves`): the objects with the
one key `$ref`, and the strings in which there is a placeholder. Evaluation puts the value of each one
in its place, leaves all else as it is, and fails when one of them has no value
(`Param.replacesReferences`).
-/
namespace Parley

namespace Template

theorem cuts_plain {text : List Char} {pieces : List Piece} (cuts : Cuts text pieces)
    (none : expressions pieces = []) : Plain text := by
  cases cuts with
  | last plain => exact plain
  | next _ _ _ => simp [expressions_append, expressions_placeholder] at none

/-- A text in which no placeholder starts is one that is cut without any. -/
theorem plain_iff {text : List Char} : Plain text ↔ expressions (split text) = [] := by
  constructor
  · intro plain
    rw [split_plain plain, expressions_literalPiece]
  · exact cuts_plain (cuts_split text)

end Template

namespace Param
open Parley.Text

/-! ## References -/

/-- What is replaced in a parameter. -/
inductive Leaf
  /-- The object with the one key `$ref` and an expression under it. -/
  | reference (expr : List Char)
  /-- The object with the one key `$ref` and something else under it. -/
  | misused (got : Json)
  /-- A string in which there is a placeholder. -/
  | template (text : List Char)

namespace Leaf

/-- What stands for the object with the one key `$ref`. -/
def ofReference : Json → Leaf
  | .str expr => .reference expr.toList
  | got => .misused got

/-- What comes in place of it. -/
def value (resolver : Resolver) (ctx : Context) : Leaf → Except Error Json
  | .reference expr => resolver ctx expr
  | .misused got => .error (.invalid (.reference got))
  | .template text => Template.render resolver ctx text

/-- The expressions on which its value depends. -/
def expressions : Leaf → List (List Char)
  | .reference expr => [expr]
  | .misused _ => []
  | .template text => Template.expressions (Template.split text)

theorem value_ofReference (resolver : Resolver) (ctx : Context) (expr : Json) :
    (ofReference expr).value resolver ctx = resolveReference resolver ctx expr := by
  cases expr <;> rfl

theorem value_congr {resolver other : Resolver} {ctx ctx' : Context} {leaf : Leaf}
    (same : ∀ expr ∈ leaf.expressions, other ctx' expr = resolver ctx expr) :
    leaf.value other ctx' = leaf.value resolver ctx := by
  cases leaf with
  | reference expr => exact same expr (List.mem_singleton_self expr)
  | misused got => rfl
  | template text => exact Template.render_congr same

end Leaf

mutual
/-- The references of a parameter, in the order in which they are evaluated. -/
def leaves : Json → List Leaf
  | .str s =>
    if Template.expressions (Template.split s.toList) = [] then [] else [.template s.toList]
  | .arr items => leavesItems items
  | .obj fields =>
    match fields with
    | [("$ref", expr)] => [.ofReference expr]
    | fields => leavesFields fields
  | _ => []

/-- The references of items. -/
def leavesItems : List Json → List Leaf
  | [] => []
  | v :: vs => leaves v ++ leavesItems vs

/-- The references of fields. -/
def leavesFields : List (String × Json) → List Leaf
  | [] => []
  | (_, v) :: fs => leaves v ++ leavesFields fs
end

theorem leaves_reference (expr : Json) : leaves (.obj [("$ref", expr)]) = [.ofReference expr] := by
  simp [leaves]

theorem leavesFields_eq (fields : List (String × Json)) :
    leavesFields fields = leavesItems (fields.map Prod.snd) := by
  induction fields with
  | nil => rfl
  | cons f fs ih => rw [leavesFields, ih, List.map_cons, leavesItems]

theorem leaves_obj {fields : List (String × Json)} (literal : ∀ expr, fields ≠ [("$ref", expr)]) :
    leaves (.obj fields) = leavesItems (fields.map Prod.snd) := by
  rw [leaves, leavesFields_eq]
  exact literal

theorem leaves_plain {s : String} (plain : Template.Plain s.toList) : leaves (.str s) = [] := by
  rw [leaves, if_pos (Template.plain_iff.mp plain)]

theorem leaves_template {s : String} (marked : ¬ Template.Plain s.toList) :
    leaves (.str s) = [.template s.toList] := by
  rw [leaves, if_neg fun none => marked (Template.plain_iff.mpr none)]

/-- The cases of a parameter: atoms, strings without and with a placeholder, arrays, objects with the
one key `$ref` and other objects. -/
@[elab_as_elim]
theorem induct {motive : Json → Prop} (null : motive .null) (bool : ∀ b, motive (.bool b))
    (int : ∀ n, motive (.int n)) (float : ∀ x, motive (.float x))
    (plain : ∀ s, Template.Plain s.toList → motive (.str s))
    (template : ∀ s, ¬ Template.Plain s.toList → motive (.str s))
    (arr : ∀ items, (∀ v ∈ items, motive v) → motive (.arr items))
    (reference : ∀ expr, motive (.obj [("$ref", expr)]))
    (obj : ∀ fields, (∀ expr, fields ≠ [("$ref", expr)]) → (∀ f ∈ fields, motive f.2) →
      motive (.obj fields)) (v : Json) : motive v := by
  induction v using Json.induct with
  | null => exact null
  | bool b => exact bool b
  | int n => exact int n
  | float x => exact float x
  | str s =>
    by_cases marked : Template.Plain s.toList
    · exact plain s marked
    · exact template s marked
  | arr items ih => exact arr items ih
  | obj fields ih =>
    by_cases one : ∃ expr, fields = [("$ref", expr)]
    · obtain ⟨expr, rfl⟩ := one
      exact reference expr
    · exact obj fields (not_exists.mp one) ih

/-! ## Strings -/

theorem hasBraces_of_suffix {cs rest : List Char} (behind : '\x7b' :: '\x7b' :: rest <:+ cs) :
    hasBraces cs = true := by
  induction cs with
  | nil => simp at behind
  | cons c cs ih =>
    rcases List.suffix_cons_iff.mp behind with here | later
    · obtain ⟨rfl, rfl⟩ := List.cons.inj here
      simp [hasBraces]
    · cases cs with
      | nil => simp at later
      | cons d cs => simp [hasBraces, ih later]

theorem plain_of_hasBraces {cs : List Char} (none : hasBraces cs = false) : Template.Plain cs := by
  rintro tail behind ⟨text, expr, rest, ⟨inside, -, -, rfl⟩, rfl⟩
  have some := hasBraces_of_suffix behind
  rw [none] at some
  contradiction

/-- To look for braces first makes no difference: a string without a placeholder is left as it is. -/
theorem resolveString_eq (resolver : Resolver) (ctx : Context) (s : String) :
    resolveString resolver ctx s = Template.render resolver ctx s.toList := by
  unfold resolveString
  split
  · rfl
  · next none =>
    have plain := plain_of_hasBraces (Bool.eq_false_iff.mpr none)
    rw [Template.render_plain plain, String.ofList_toList]

section
variable {resolver : Resolver} {ctx : Context}

theorem resolve_str (s : String) :
    resolve resolver ctx (.str s) = Template.render resolver ctx s.toList := by
  rw [resolve, resolveString_eq]

theorem resolve_plain {s : String} (plain : Template.Plain s.toList) :
    resolve resolver ctx (.str s) = .ok (.str s) := by
  rw [resolve_str, Template.render_plain plain, String.ofList_toList]

/-! ## Objects and arrays -/

theorem resolve_arr (items : List Json) :
    resolve resolver ctx (.arr items) = (resolveItems resolver ctx items).map .arr := by
  rw [resolve]
  cases resolveItems resolver ctx items <;> rfl

theorem resolve_reference (expr : Json) :
    resolve resolver ctx (.obj [("$ref", expr)]) = resolveReference resolver ctx expr := by
  simp [resolve]

theorem resolve_obj {fields : List (String × Json)} (literal : ∀ expr, fields ≠ [("$ref", expr)]) :
    resolve resolver ctx (.obj fields) = (resolveFields resolver ctx fields).map .obj := by
  rw [resolve]
  · cases resolveFields resolver ctx fields <;> rfl
  · exact literal

/-- The fields have the values of the items under the same keys. -/
theorem resolveFields_eq (fields : List (String × Json)) :
    resolveFields resolver ctx fields =
      (resolveItems resolver ctx (fields.map Prod.snd)).map ((fields.map Prod.fst).zip ·) := by
  induction fields with
  | nil => rfl
  | cons f fs ih =>
    obtain ⟨key, v⟩ := f
    rw [resolveFields, ih, List.map_cons, List.map_cons, resolveItems]
    cases resolve resolver ctx v <;> cases resolveItems resolver ctx (fs.map Prod.snd) <;> rfl

/-! ## Values -/

end

mutual
/-- A parameter and its value: each reference has what comes in its place, and all else is the same. -/
inductive Evaluates (resolver : Resolver) (ctx : Context) : Json → Json → Prop
  | null : Evaluates resolver ctx .null .null
  | bool (b : Bool) : Evaluates resolver ctx (.bool b) (.bool b)
  | int (n : Int) : Evaluates resolver ctx (.int n) (.int n)
  | float (x : Finite64) : Evaluates resolver ctx (.float x) (.float x)
  | plain {s : String} : Template.Plain s.toList → Evaluates resolver ctx (.str s) (.str s)
  | template {s : String} {w : Json} : ¬ Template.Plain s.toList →
      Template.render resolver ctx s.toList = .ok w → Evaluates resolver ctx (.str s) w
  | arr {items values : List Json} : EvaluatesItems resolver ctx items values →
      Evaluates resolver ctx (.arr items) (.arr values)
  | reference {expr : String} {w : Json} : resolver ctx expr.toList = .ok w →
      Evaluates resolver ctx (.obj [("$ref", .str expr)]) w
  | obj {fields values : List (String × Json)} : (∀ expr, fields ≠ [("$ref", expr)]) →
      EvaluatesFields resolver ctx fields values → Evaluates resolver ctx (.obj fields) (.obj values)

/-- Items and their values, one by one. -/
inductive EvaluatesItems (resolver : Resolver) (ctx : Context) : List Json → List Json → Prop
  | nil : EvaluatesItems resolver ctx [] []
  | cons {v w : Json} {vs ws : List Json} : Evaluates resolver ctx v w →
      EvaluatesItems resolver ctx vs ws → EvaluatesItems resolver ctx (v :: vs) (w :: ws)

/-- Fields and their values, under the same keys. -/
inductive EvaluatesFields (resolver : Resolver) (ctx : Context) :
    List (String × Json) → List (String × Json) → Prop
  | nil : EvaluatesFields resolver ctx [] []
  | cons {key : String} {v w : Json} {fs gs : List (String × Json)} : Evaluates resolver ctx v w →
      EvaluatesFields resolver ctx fs gs →
      EvaluatesFields resolver ctx ((key, v) :: fs) ((key, w) :: gs)
end

section
variable {resolver : Resolver} {ctx : Context}

theorem evaluates_template {s : String} {w : Json} (marked : ¬ Template.Plain s.toList) :
    Evaluates resolver ctx (.str s) w ↔ Template.render resolver ctx s.toList = .ok w := by
  constructor
  · intro evaluates
    cases evaluates with
    | plain plain => exact absurd plain marked
    | template _ rendered => exact rendered
  · exact .template marked

theorem evaluates_plain {s : String} {w : Json} (plain : Template.Plain s.toList) :
    Evaluates resolver ctx (.str s) w ↔ .str s = w := by
  constructor
  · intro evaluates
    cases evaluates with
    | plain _ => rfl
    | template marked _ => exact absurd plain marked
  · rintro rfl
    exact .plain plain

theorem evaluates_arr {items : List Json} {w : Json} : Evaluates resolver ctx (.arr items) w ↔
    ∃ values, EvaluatesItems resolver ctx items values ∧ w = .arr values := by
  constructor
  · intro evaluates
    cases evaluates with
    | arr each => exact ⟨_, each, rfl⟩
  · rintro ⟨values, each, rfl⟩
    exact .arr each

theorem evaluates_reference {expr w : Json} :
    Evaluates resolver ctx (.obj [("$ref", expr)]) w ↔ resolveReference resolver ctx expr = .ok w := by
  constructor
  · intro evaluates
    cases evaluates with
    | reference resolved => exact resolved
    | obj literal _ => exact absurd rfl (literal expr)
  · intro resolved
    cases expr with
    | str s => exact .reference resolved
    | _ => contradiction

theorem evaluates_obj {fields : List (String × Json)} {w : Json}
    (literal : ∀ expr, fields ≠ [("$ref", expr)]) : Evaluates resolver ctx (.obj fields) w ↔
      ∃ values, EvaluatesFields resolver ctx fields values ∧ w = .obj values := by
  constructor
  · intro evaluates
    cases evaluates with
    | reference _ => exact absurd rfl (literal _)
    | obj _ each => exact ⟨_, each, rfl⟩
  · rintro ⟨values, each, rfl⟩
    exact .obj literal each

theorem resolveItems_iff {items values : List Json}
    (each : ∀ v ∈ items, ∀ w, resolve resolver ctx v = .ok w ↔ Evaluates resolver ctx v w) :
    resolveItems resolver ctx items = .ok values ↔ EvaluatesItems resolver ctx items values := by
  induction items generalizing values with
  | nil =>
    constructor
    · rintro ⟨⟩
      exact .nil
    · rintro ⟨⟩
      rfl
  | cons v vs ih =>
    obtain ⟨first, later⟩ := List.forall_mem_cons.mp each
    rw [resolveItems, seq_eq_ok]
    constructor
    · rintro ⟨w, ws, one, rest, rfl⟩
      exact .cons ((first w).mp one) ((ih later).mp rest)
    · rintro (_ | ⟨one, rest⟩)
      exact ⟨_, _, (first _).mpr one, (ih later).mpr rest, rfl⟩

theorem resolveFields_iff {fields values : List (String × Json)}
    (each : ∀ f ∈ fields, ∀ w, resolve resolver ctx f.2 = .ok w ↔ Evaluates resolver ctx f.2 w) :
    resolveFields resolver ctx fields = .ok values ↔ EvaluatesFields resolver ctx fields values := by
  induction fields generalizing values with
  | nil =>
    constructor
    · rintro ⟨⟩
      exact .nil
    · rintro ⟨⟩
      rfl
  | cons f fs ih =>
    obtain ⟨key, v⟩ := f
    obtain ⟨first, later⟩ := List.forall_mem_cons.mp each
    rw [resolveFields, seq_eq_ok]
    constructor
    · rintro ⟨w, ws, one, rest, rfl⟩
      exact .cons ((first w).mp one) ((ih later).mp rest)
    · rintro (_ | ⟨one, rest⟩)
      exact ⟨_, _, (first _).mpr one, (ih later).mpr rest, rfl⟩

/-- The value of a parameter is the one that has values in the places of the references. -/
theorem resolve_iff {v w : Json} : resolve resolver ctx v = .ok w ↔ Evaluates resolver ctx v w := by
  induction v using Param.induct generalizing w with
  | null | bool _ | int _ | float _ =>
    simp only [resolve, Except.ok.injEq]
    constructor
    · rintro rfl
      constructor
    · rintro ⟨⟩
      rfl
  | plain s plain => rw [resolve_plain plain, evaluates_plain plain, Except.ok.injEq]
  | template s marked => rw [resolve_str, evaluates_template marked]
  | arr items ih =>
    simp only [resolve_arr, map_eq_ok, evaluates_arr, resolveItems_iff fun v member _ => ih v member]
  | reference expr => rw [resolve_reference, evaluates_reference]
  | obj fields literal ih =>
    simp only [resolve_obj literal, map_eq_ok, evaluates_obj literal,
      resolveFields_iff fun f member _ => ih f member]

/-! ## Failures -/

theorem resolveItems_failsLike {items : List Json}
    (each : ∀ v ∈ items, FailsLike (resolve resolver ctx v) (Leaf.value resolver ctx) (leaves v)) :
    FailsLike (resolveItems resolver ctx items) (Leaf.value resolver ctx) (leavesItems items) := by
  induction items with
  | nil => exact failsLike_ok []
  | cons v vs ih =>
    obtain ⟨first, later⟩ := List.forall_mem_cons.mp each
    rw [resolveItems, leavesItems]
    exact first.seq (ih later) _

/-- A parameter fails with the first of its references that has no value. -/
theorem resolve_failsLike (v : Json) :
    FailsLike (resolve resolver ctx v) (Leaf.value resolver ctx) (leaves v) := by
  induction v using Param.induct with
  | null | bool _ | int _ | float _ =>
    simp only [resolve, leaves]
    exact failsLike_ok _
  | plain s plain =>
    rw [resolve_plain plain, leaves_plain plain]
    exact failsLike_ok _
  | template s marked =>
    rw [resolve_str, leaves_template marked]
    exact failsLike_single rfl
  | arr items ih =>
    rw [resolve_arr, leaves]
    exact (resolveItems_failsLike ih).map Json.arr
  | reference expr =>
    rw [resolve_reference, leaves_reference]
    exact failsLike_single (Leaf.value_ofReference resolver ctx expr).symm
  | obj fields literal ih =>
    rw [resolve_obj literal, resolveFields_eq, leaves_obj literal]
    have values := resolveItems_failsLike (List.forall_mem_map.mpr ih)
    exact (values.map _).map Json.obj

/-! ## Parameters without references -/

theorem resolveItems_literal {items : List Json}
    (each : ∀ v ∈ items, leaves v = [] → resolve resolver ctx v = .ok v)
    (none : leavesItems items = []) : resolveItems resolver ctx items = .ok items := by
  induction items with
  | nil => rfl
  | cons v vs ih =>
    obtain ⟨first, later⟩ := List.forall_mem_cons.mp each
    obtain ⟨here, after⟩ := List.append_eq_nil_iff.mp none
    rw [resolveItems, first here, ih later after]
    rfl

/-- A parameter without references is its own value. -/
theorem resolve_literal {v : Json} (none : leaves v = []) : resolve resolver ctx v = .ok v := by
  induction v using Param.induct with
  | null | bool _ | int _ | float _ => simp [resolve]
  | plain s plain => exact resolve_plain plain
  | template s marked =>
    rw [leaves_template marked] at none
    contradiction
  | arr items ih =>
    rw [leaves] at none
    rw [resolve_arr, resolveItems_literal ih none]
    rfl
  | reference expr =>
    rw [leaves_reference] at none
    contradiction
  | obj fields literal ih =>
    rw [leaves_obj literal] at none
    have values := resolveItems_literal (List.forall_mem_map.mpr ih) none
    rw [resolve_obj literal, resolveFields_eq, values]
    simp [Except.map, List.zip_map']

/-! ## What a parameter depends on -/

/-- The expressions of the references. -/
def expressions (v : Json) : List (List Char) :=
  (leaves v).flatMap Leaf.expressions

/-- The roots of the paths that the expressions spell. -/
def roots (v : Json) : List (List Char) :=
  (expressions v).filterMap fun expr => (Path.parse (trim expr)).map Path.root

example : roots (.arr [.str "\x7b\x7b a.b \x7d\x7d", .obj [("$ref", .str " c[0] ")],
    .str "\x7b\x7b"]) = ["a".toList, "c".toList] := by
  decide +kernel

section
variable {other : Resolver} {ctx' : Context}

theorem resolveItems_congr {items : List Json}
    (each : ∀ v ∈ items, (∀ leaf ∈ leaves v, leaf.value other ctx' = leaf.value resolver ctx) →
      resolve other ctx' v = resolve resolver ctx v)
    (same : ∀ leaf ∈ leavesItems items, leaf.value other ctx' = leaf.value resolver ctx) :
    resolveItems other ctx' items = resolveItems resolver ctx items := by
  induction items with
  | nil => rfl
  | cons v vs ih =>
    obtain ⟨first, later⟩ := List.forall_mem_cons.mp each
    obtain ⟨here, after⟩ := List.forall_mem_append.mp same
    rw [resolveItems, resolveItems, first here, ih later after]

theorem resolve_congr_leaves {v : Json}
    (same : ∀ leaf ∈ leaves v, leaf.value other ctx' = leaf.value resolver ctx) :
    resolve other ctx' v = resolve resolver ctx v := by
  induction v using Param.induct with
  | null | bool _ | int _ | float _ => simp only [resolve]
  | plain s plain => rw [resolve_plain plain, resolve_plain plain]
  | template s marked =>
    rw [resolve_str, resolve_str]
    exact same (.template s.toList) (by simp [leaves_template marked])
  | arr items ih =>
    rw [leaves] at same
    rw [resolve_arr, resolve_arr, resolveItems_congr ih same]
  | reference expr =>
    rw [resolve_reference, resolve_reference, ← Leaf.value_ofReference, ← Leaf.value_ofReference]
    exact same _ (by simp [leaves_reference])
  | obj fields literal ih =>
    rw [leaves_obj literal] at same
    have values := resolveItems_congr (List.forall_mem_map.mpr ih) same
    rw [resolve_obj literal, resolve_obj literal, resolveFields_eq, resolveFields_eq, values]

/-- A resolver or a context that has the same values for the expressions has the same one for the
parameter. -/
theorem resolve_congr {v : Json}
    (same : ∀ expr ∈ expressions v, other ctx' expr = resolver ctx expr) :
    resolve other ctx' v = resolve resolver ctx v :=
  resolve_congr_leaves fun _ member => Leaf.value_congr fun expr inLeaf =>
    same expr (List.mem_flatMap.mpr ⟨_, member, inLeaf⟩)

/-- A path is resolved alike where its root stands for the same. -/
theorem resolve_path_congr {expr : List Char}
    (same : ∀ p, Path.parse (trim expr) = some p →
      Path.rootValue ctx' p.root = Path.rootValue ctx p.root) :
    Path.resolve ctx' expr = Path.resolve ctx expr := by
  unfold Path.resolve
  dsimp only
  cases read : Path.parse (trim expr) with
  | none => rfl
  | some p => simp only [Path.follow, same p read]

/-- Contexts that agree on the roots have the same value for the parameter. -/
theorem resolve_agree {v : Json}
    (agree : ∀ root ∈ roots v, Path.rootValue ctx' root = Path.rootValue ctx root) :
    resolve Path.resolve ctx' v = resolve Path.resolve ctx v := by
  refine resolve_congr fun expr member => resolve_path_congr fun p read => agree p.root ?_
  exact List.mem_filterMap.mpr ⟨expr, member, by rw [read]; rfl⟩

end

end

/-! ## Evaluation -/

theorem fails_iff {resolver : Resolver} {ctx : Context} {v : Json} :
    (∃ e, resolve resolver ctx v = .error e) ↔ (∃ got, .misused got ∈ leaves v) ∨
      (∃ expr e, .reference expr ∈ leaves v ∧ resolver ctx expr = .error e) ∨
      (∃ text e, .template text ∈ leaves v ∧ Template.render resolver ctx text = .error e) := by
  rw [exists_congr (resolve_failsLike v), exists_failsFirst]
  constructor
  · rintro ⟨leaf, member, e, failed⟩
    cases leaf with
    | reference expr => exact .inr (.inl ⟨expr, e, member, failed⟩)
    | misused got => exact .inl ⟨got, member⟩
    | template text => exact .inr (.inr ⟨text, e, member, failed⟩)
  · rintro (⟨got, member⟩ | ⟨expr, e, member, failed⟩ | ⟨text, e, member, failed⟩)
    · exact ⟨_, member, _, rfl⟩
    · exact ⟨_, member, e, failed⟩
    · exact ⟨_, member, e, failed⟩

/-- How a parameter is evaluated. -/
structure ReplacesReferences (resolver : Resolver) (ctx : Context) (v : Json) : Prop where
  /-- The value is the parameter with values in the places of the references. -/
  values : ∀ w, resolve resolver ctx v = .ok w ↔ Evaluates resolver ctx v w
  /-- A parameter without references is left as it is. -/
  literal : leaves v = [] → resolve resolver ctx v = .ok v
  /-- It fails with the first reference that has no value. -/
  failsFirst : ∀ e, resolve resolver ctx v = .error e ↔
    FailsFirst (Leaf.value resolver ctx) (leaves v) e
  /-- It fails when something else than an expression stands under the one key `$ref`, or when an
  expression or a template has no value, and never else. -/
  fails : (∃ e, resolve resolver ctx v = .error e) ↔ (∃ got, .misused got ∈ leaves v) ∨
    (∃ expr e, .reference expr ∈ leaves v ∧ resolver ctx expr = .error e) ∨
    (∃ text e, .template text ∈ leaves v ∧ Template.render resolver ctx text = .error e)
  /-- It depends on nothing but the values of its expressions. -/
  depends : ∀ (other : Resolver) ctx',
    (∀ expr ∈ expressions v, other ctx' expr = resolver ctx expr) →
      resolve other ctx' v = resolve resolver ctx v
  /-- Where the expressions are paths, it depends on nothing but what their roots stand for. -/
  agrees : ∀ c c', (∀ root ∈ roots v, Path.rootValue c' root = Path.rootValue c root) →
    resolve Path.resolve c' v = resolve Path.resolve c v

/-- Parameters are replaced at their references, and nowhere else. -/
theorem replacesReferences (resolver : Resolver) (ctx : Context) (v : Json) :
    ReplacesReferences resolver ctx v where
  values _ := resolve_iff
  literal := resolve_literal
  failsFirst := resolve_failsLike v
  fails := fails_iff
  depends _ _ := resolve_congr
  agrees _ _ := resolve_agree

end Param

end Parley
