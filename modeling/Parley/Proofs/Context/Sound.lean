import Parley.Expr.Param
import Parley.Proofs.Context.Snapshot
import Parley.Proofs.Log
/-!
# Contexts of runs

What a run remembers can be told in a text, and the text that is kept with a context is the one that
tells it (`Context.Sound`). Flows, events and answers whose values a text can tell lead to such contexts
only: whatever an expression or a parameter stands for comes from them.
-/
namespace Parley
open Parley.Json

/-- A text can tell the parameters and the first values of the variables of a flow. -/
structure Flow.Faithful (flow : Flow) : Prop where
  params : ∀ n ∈ flow.nodes, n.params.Faithful
  defaults : ∀ v ∈ flow.declared, v.default.Faithful

/-- A text can tell the values that were answered: flows, and the results of pieces of code. -/
def Exchange.Faithful : Exchange → Prop
  | ⟨.load .., .ok flow⟩ => flow.Faithful
  | ⟨.execute .., some (.ok v)⟩ => v.Faithful
  | _ => True

/-- No flow was asked for and no code was run. -/
def Exchange.isPlain : Exchange → Bool
  | ⟨.load .., _⟩ | ⟨.execute .., _⟩ => false
  | _ => true

theorem Exchange.faithful_of_isPlain {x : Exchange} (plain : x.isPlain = true) : x.Faithful := by
  obtain ⟨r, a⟩ := x
  cases r <;> trivial

namespace Context
variable {ctx : Context}

/-- A text can tell what the run remembers, and the text that is kept is this one. -/
structure Sound (ctx : Context) : Prop extends ctx.Faithful where
  cached : ∀ text, ctx.cached = some text → text = ctx.serialize

theorem Faithful.sound (faithful : ctx.Faithful) (unkept : ctx.cached = none) : ctx.Sound where
  toFaithful := faithful
  cached := by simp [unkept]

theorem table_firstValues {flow : Flow} (faithful : flow.Faithful) : Table flow.firstValues := by
  refine table_ofList fun f member => ?_
  obtain ⟨v, declared, rfl⟩ := List.mem_map.mp member
  exact faithful.defaults v declared

theorem sound_start {flow : Flow} {event : Event} (faithful : flow.Faithful)
    (payload : event.payload.Faithful) (run : String) : (start run flow event).Sound :=
  Faithful.sound ⟨payload, table_nil, table_firstValues faithful⟩ rfl

theorem sound_forSubFlow {flow : Flow} {payload : Json} (faithful : flow.Faithful)
    (argument : payload.Faithful) : (ctx.forSubFlow flow payload).Sound :=
  Faithful.sound ⟨argument, table_nil, table_firstValues faithful⟩ rfl

theorem Sound.record (sound : ctx.Sound) {id : String} {value : Json} (faithful : value.Faithful) :
    (ctx.record id value).Sound :=
  Faithful.sound ⟨sound.payload, sound.outputs.insert faithful, sound.values⟩ rfl

theorem Sound.setVariable (sound : ctx.Sound) {name : String} {value : Json}
    (faithful : value.Faithful) : (ctx.setVariable name value).Sound :=
  Faithful.sound ⟨sound.payload, sound.outputs, sound.values.insert faithful⟩ rfl

theorem Sound.resumedBy (sound : ctx.Sound) {event : Event} (payload : event.payload.Faithful) :
    (ctx.resumedBy event).Sound :=
  Faithful.sound ⟨payload, sound.outputs, sound.values⟩ rfl

/-- The snapshot of a sound context is the text of its fields, and it is kept from then on. -/
theorem Sound.snapshot (sound : ctx.Sound) :
    ctx.snapshot = (ctx.serialize, { ctx with cached := some ctx.serialize }) := by
  unfold Context.snapshot
  split
  · next text kept => rw [← sound.cached text kept, ← kept]
  · rfl

theorem Sound.kept (sound : ctx.Sound) : { ctx with cached := some ctx.serialize }.Sound where
  toFaithful := ⟨sound.payload, sound.outputs, sound.values⟩
  cached := by rintro text ⟨⟩; rfl

/-- What a context has is not undone by what nodes write to it. -/
structure Lasting (has : Context → Prop) : Prop where
  record : ∀ ctx id value, has ctx → has (ctx.record id value)
  setVariable : ∀ ctx name value, has ctx → has (ctx.setVariable name value)
  kept : ∀ ctx text, has ctx → has { ctx with cached := some text }

theorem lasting_true : Lasting fun _ => True :=
  ⟨fun _ _ _ _ => trivial, fun _ _ _ _ => trivial, fun _ _ _ => trivial⟩

end Context

/-! ## Expressions -/

/-- The values of expressions are values that the context has. -/
def Resolver.Faithful (resolver : Resolver) : Prop :=
  ∀ ctx expr v, ctx.Faithful → resolver ctx expr = .ok v → v.Faithful

namespace Path

private theorem faithful_step {v w : Json} {s : Segment} (faithful : v.Faithful)
    (stepped : step v s = some w) : w.Faithful := by
  cases s with
  | field name =>
    cases v with
    | obj fields => exact (faithful_obj.mp faithful).get stepped
    | _ => simp [step, field?] at stepped
  | index i =>
    cases v with
    | arr items => exact faithful_arr.mp faithful w (List.mem_of_getElem? stepped)
    | _ => simp [step, item?] at stepped

private theorem faithful_stepAll {v w : Json} {ss : List Segment} (faithful : v.Faithful)
    (stepped : stepAll v ss = some w) : w.Faithful := by
  induction ss generalizing v with
  | nil =>
    obtain rfl : v = w := by simpa [stepAll] using stepped
    exact faithful
  | cons s ss ih =>
    cases first : step v s with
    | none => simp [stepAll, first] at stepped
    | some u => exact ih (faithful_step faithful first) (by simpa [stepAll, first] using stepped)

private theorem faithful_rootValue {ctx : Context} {root : List Char} {v : Json}
    (faithful : ctx.Faithful) (found : rootValue ctx root = some v) : v.Faithful := by
  unfold rootValue at found
  split at found
  · obtain rfl := Option.some.inj found
    exact faithful.payload
  · split at found
    · obtain rfl := Option.some.inj found
      exact faithful_obj.mpr faithful.values
    · exact faithful.outputs.get found

theorem resolve_faithful : Resolver.Faithful resolve := by
  intro ctx expr v faithful resolved
  unfold resolve at resolved
  cases parsed : parse (Text.trim expr) with
  | none => simp [parsed] at resolved
  | some p =>
    cases root : rootValue ctx p.root with
    | none => simp [parsed, follow, root] at resolved
    | some u =>
      cases walked : stepAll u p.segments with
      | none => simp [parsed, follow, root, walked] at resolved
      | some w =>
        obtain rfl : w = v := by simpa [parsed, follow, root, walked] using resolved
        exact faithful_stepAll (faithful_rootValue faithful root) walked

end Path

/-! ## Parameters -/

namespace Param
variable {resolver : Resolver} {ctx : Context}

private theorem faithful_render (lawful : Resolver.Faithful resolver) (faithful : ctx.Faithful)
    {template : List Char} {w : Json} (resolved : Template.render resolver ctx template = .ok w) :
    w.Faithful := by
  unfold Template.render at resolved
  split at resolved
  · exact lawful _ _ _ faithful resolved
  · cases filled : Template.fill resolver ctx (Template.split template) with
    | error e => simp [filled, bind, Except.bind] at resolved
    | ok text =>
      simp only [filled, bind, Except.bind, pure, Except.pure, Except.ok.injEq] at resolved
      exact resolved ▸ faithful_str _

private theorem resolveItems_faithful {items ws : List Json}
    (one : ∀ v ∈ items, ∀ w, resolve resolver ctx v = .ok w → w.Faithful)
    (resolved : resolveItems resolver ctx items = .ok ws) : ∀ w ∈ ws, w.Faithful := by
  induction items generalizing ws with
  | nil =>
    obtain rfl : [] = ws := by simpa [resolveItems] using resolved
    simp
  | cons v vs ih =>
    obtain ⟨first, later⟩ := List.forall_mem_cons.mp one
    rw [resolveItems] at resolved
    obtain ⟨w, head, rest⟩ := bind_eq_ok.mp resolved
    obtain ⟨us, tail, whole⟩ := bind_eq_ok.mp rest
    obtain rfl := Except.ok.inj whole
    exact List.forall_mem_cons.mpr ⟨first w head, ih later tail⟩

private theorem resolveFields_faithful {fields ws : List (String × Json)}
    (one : ∀ f ∈ fields, ∀ w, resolve resolver ctx f.2 = .ok w → w.Faithful)
    (resolved : resolveFields resolver ctx fields = .ok ws) :
    ws.map Prod.fst = fields.map Prod.fst ∧ ∀ f ∈ ws, f.2.Faithful := by
  induction fields generalizing ws with
  | nil =>
    obtain rfl : [] = ws := by simpa [resolveFields] using resolved
    simp
  | cons f fs ih =>
    obtain ⟨first, later⟩ := List.forall_mem_cons.mp one
    rw [resolveFields] at resolved
    obtain ⟨w, head, rest⟩ := bind_eq_ok.mp resolved
    obtain ⟨us, tail, whole⟩ := bind_eq_ok.mp rest
    obtain rfl := Except.ok.inj whole
    obtain ⟨keys, values⟩ := ih later tail
    exact ⟨by simp [keys], List.forall_mem_cons.mpr ⟨first w head, values⟩⟩

private theorem table_of_keys {fields ws : List (String × Json)} (table : Table fields)
    (same : ws.map Prod.fst = fields.map Prod.fst) (values : ∀ f ∈ ws, f.2.Faithful) : Table ws where
  sorted := by
    have ordered := List.pairwise_map.mpr table.sorted
    rw [← same] at ordered
    exact List.pairwise_map.mp ordered
  faithful := values

theorem resolve_faithful (lawful : Resolver.Faithful resolver) (faithful : ctx.Faithful) {v w : Json}
    (param : v.Faithful) (resolved : resolve resolver ctx v = .ok w) : w.Faithful := by
  induction v using Json.induct generalizing w with
  | str s =>
    rw [resolve, resolveString] at resolved
    split at resolved
    · exact faithful_render lawful faithful resolved
    · obtain rfl := Except.ok.inj resolved
      exact faithful_str s
  | arr items ih =>
    rw [resolve] at resolved
    obtain ⟨ws, inner, whole⟩ := bind_eq_ok.mp resolved
    obtain rfl := Except.ok.inj whole
    exact faithful_arr.mpr (resolveItems_faithful
      (fun v member u => ih v member (faithful_arr.mp param v member)) inner)
  | obj fields ih =>
    have table := faithful_obj.mp param
    unfold resolve at resolved
    split at resolved
    · next expr =>
      unfold resolveReference at resolved
      split at resolved
      · exact lawful _ _ _ faithful resolved
      · contradiction
    · obtain ⟨ws, inner, whole⟩ := bind_eq_ok.mp resolved
      obtain rfl := Except.ok.inj whole
      obtain ⟨keys, values⟩ := resolveFields_faithful
        (fun f member u => ih f member (table.faithful f member)) inner
      exact faithful_obj.mpr (table_of_keys table keys values)
  | _ =>
    rw [resolve] at resolved
    · obtain rfl := Except.ok.inj resolved
      exact param
    all_goals simp

theorem resolveFields_table (lawful : Resolver.Faithful resolver) (faithful : ctx.Faithful)
    {fields ws : Keyed Json} (table : Table fields)
    (resolved : resolveFields resolver ctx fields = .ok ws) : Table ws := by
  obtain ⟨keys, values⟩ := resolveFields_faithful
    (fun f member u => resolve_faithful lawful faithful (table.faithful f member)) resolved
  exact table_of_keys table keys values

end Param

end Parley
