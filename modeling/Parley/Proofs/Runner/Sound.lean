import Parley.Runner.Builtin
import Parley.Proofs.Invariant
import Parley.Proofs.Context.Sound
import Parley.Proofs.Runner.Parameters
/-!
# Runners keep contexts sound

What the built-in runners write to a context, and what they report, a text can tell, when it can tell
what they were given: the flow with its parameters, the context, and what they were answered.
-/
namespace Parley
open Parley.Json Parley.Task

/-- The text can tell the result of a report. -/
def Report.Faithful (r : Report) : Prop := ∀ v, r.result = some v → v.Faithful

/-- A walk leads from sound contexts to sound ones, and what lasts is not undone. -/
def Task.KeepsSound (walk : Task Context Walk) : Prop :=
  ∀ has, Context.Lasting has →
    Keeps (fun ctx => ctx.Sound ∧ has ctx) Exchange.Faithful (fun _ => True) (fun _ => True) walk

/-- The context of the run is sound and has what lasts, and the text can tell the result that the node
has left so far. -/
structure NodeState.Sound (has : Context → Prop) (s : NodeState) : Prop where
  context : s.context.Sound
  lasts : has s.context
  report : s.report.Faithful

/-- What is around a node leads to sound contexts only. -/
structure Surroundings.Sound (around : Surroundings) : Prop where
  resolver : Resolver.Faithful around.resolver
  nested : ∀ flow entry appointed, flow.Faithful →
    Task.KeepsSound (around.nested flow entry appointed)

namespace Runner

/-- The runner keeps the state of a node sound, and what lasts is not undone. -/
def KeepsSound (runner : Runner) : Prop :=
  ∀ has, Context.Lasting has → ∀ around call, around.Sound → call.flow.Faithful →
    call.node.params.Faithful →
    Keeps (NodeState.Sound has) Exchange.Faithful (fun _ => True) (fun _ => True) (runner around call)

section
variable {has : Context → Prop}

/-! ## Steps of runners -/

private theorem keeps_report {change : Report → Report}
    (keeps : ∀ r : Report, r.Faithful → (change r).Faithful) :
    Keeps (NodeState.Sound has) Exchange.Faithful (fun _ => True) (fun _ => True) (report change) :=
  keeps_modify fun s sound => ⟨sound.context, sound.lasts, keeps s.report sound.report⟩

private theorem keeps_context {change : Context → Context}
    (keeps : ∀ ctx : Context, ctx.Sound → has ctx → (change ctx).Sound ∧ has (change ctx)) :
    Keeps (NodeState.Sound has) Exchange.Faithful (fun _ => True) (fun _ => True) (context change) :=
  keeps_modify fun s sound =>
    let ⟨after, lasts⟩ := keeps s.context sound.context sound.lasts
    ⟨after, lasts, sound.report⟩

private theorem faithful_withResult {v : Json} (faithful : v.Faithful) (r : Report) :
    (r.withResult v).Faithful := by
  rintro w ⟨⟩
  exact faithful

private theorem keeps_load (code : String) (version : Option String) :
    Keeps (NodeState.Sound has) Exchange.Faithful (fun _ => True) Flow.Faithful (load code version) :=
  keeps_call trivial fun _ faithful _ same => by
    subst same
    exact faithful

private theorem keeps_logWalk (place : String) (walk : Walk) :
    Keeps (NodeState.Sound has) Exchange.Faithful (fun _ => True) (fun _ => True)
      (logWalk place walk) := by
  refine keeps_report fun r faithful => ?_
  have unchanged (visits : List Visit) (r : Report) :
      (visits.foldl (fun r v => r.addLine (visitLine place v)) r).result = r.result := by
    induction visits generalizing r with
    | nil => rfl
    | cons v visits ih => exact ih _
  intro v result
  exact faithful v (unchanged walk.visits r ▸ result)

private theorem faithful_triggerOutput {ctx : Context} (payload : ctx.payload.Faithful)
    (trigger : Trigger) : (triggerOutput ctx trigger).Faithful := by
  have fields : Table (payloadFields ctx.payload) := by
    unfold payloadFields
    split
    · next fields same => exact faithful_obj.mp (same ▸ payload)
    · exact table_nil
    · exact ⟨List.pairwise_singleton .., by simpa using payload⟩
  refine faithful_obj.mpr (fields.insertAll fun f member => ?_)
  have strings : (Json.ofFields [("uid", .str ctx.operator.uid),
      ("nickname", .str ctx.operator.nickname)]).Faithful := faithful_ofFields (by simp)
  simp only [identityFields, operatorFields, List.mem_append, List.mem_cons, List.not_mem_nil,
    or_false] at member
  rcases member with ((rfl | rfl | rfl) | topic) | operator
  · exact faithful_str _
  · exact faithful_str _
  · exact faithful_str _
  · cases some : ctx.scope.topic with
    | none => simp [some] at topic
    | some t =>
      obtain rfl : f = ("topic_id", .str t) := by simpa [some] using topic
      exact faithful_str _
  · split at operator
    · simp at operator
    · obtain rfl := List.mem_singleton.mp operator
      exact strings

/-! ## The runners -/

private theorem start_sound : KeepsSound start := by
  intro has lasting around call _ _ _
  refine keeps_ofExcept_bind fun params _ => keeps_bind keeps_get fun s sound =>
    keeps_ofExcept_bind fun r executed => keeps_report fun _ _ => ?_
  unfold Start.execute at executed
  dsimp only at executed
  split at executed
  · obtain rfl := Except.ok.inj executed
    exact faithful_withResult (faithful_ofFields (by simp [Trigger.toJson])) s.report
  · split at executed
    · contradiction
    · obtain rfl := Except.ok.inj executed
      refine faithful_withResult ?_ s.report
      unfold Start.output
      split
      · unfold Start.iterationOutput
        refine faithful_obj.mpr (Table.insert ?_ (faithful_str _))
        cases turn : call.node.parent.bind s.context.output? with
        | none => exact table_nil
        | some v =>
          obtain ⟨id, -, found⟩ := Option.bind_eq_some_iff.mp turn
          have faithful := sound.context.outputs.get found
          cases v with
          | obj fields => exact faithful_obj.mp faithful
          | _ => exact table_nil
      · exact faithful_triggerOutput sound.context.payload _

private theorem waitMessage_sound : KeepsSound waitMessage := by
  intro has lasting around call _ _ _
  unfold waitMessage
  split
  · exact keeps_bind keeps_get fun s sound => keeps_report fun _ _ =>
      faithful_withResult (faithful_triggerOutput sound.context.payload _) _
  · unfold WaitMessage.suspend
    refine keeps_guard fun _ => keeps_ofExcept_bind fun params _ =>
      keeps_bind (keeps_ask .clock trivial) fun now _ =>
      keeps_bind (keeps_ask .identifier trivial) fun id _ => keeps_ofChecked_bind fun _ _ =>
      keeps_bind keeps_get fun s sound => ?_
    rw [sound.context.snapshot]
    exact keeps_bind (keeps_context fun _ _ _ =>
      ⟨sound.context.kept, lasting.kept _ _ sound.lasts⟩) fun _ _ =>
      keeps_bind (keeps_call_any trivial)
        fun _ _ => keeps_report fun _ faithful => faithful

private theorem ifElse_sound : KeepsSound ifElse := by
  intro has lasting around call _ _ _
  refine keeps_ofExcept_bind fun params _ => keeps_bind keeps_get fun s _ =>
    keeps_ofExcept_bind fun label _ => keeps_report fun r _ => ?_
  refine faithful_withResult (faithful_ofFields ?_) _
  simp only [List.forall_mem_cons, List.not_mem_nil, false_implies, implies_true, and_true]
  cases label.or params.otherwise <;> simp [ofString?]

private theorem finish_sound : KeepsSound finish := by
  intro has lasting around call sound _ faithful
  refine keeps_ofExcept_bind fun params read => keeps_bind keeps_get fun s kept =>
    keeps_ofExcept_bind fun outputs resolved => keeps_report fun r _ => ?_
  exact faithful_withResult (faithful_obj.mpr (Param.resolveFields_table sound.resolver
    kept.context.toFaithful (finish_parameters faithful read) resolved)) r

private theorem reply_sound : KeepsSound reply := by
  intro has lasting around call _ _ _
  refine keeps_ofExcept_bind fun params _ => keeps_bind keeps_get fun s _ =>
    keeps_ofExcept_bind fun v _ => keeps_bind (keeps_call_any trivial) fun _ (_ : True) =>
    keeps_report fun r _ => ?_
  exact faithful_withResult (faithful_ofFields (by simp)) r

private theorem code_sound : KeepsSound code := by
  intro has lasting around call _ _ _
  refine keeps_ofExcept_bind fun params _ =>
    keeps_bind (keeps_ask (.execute ..) trivial) fun a faithful => ?_
  split
  · exact keeps_throw _
  · next result =>
    refine keeps_ofExcept_bind fun output same => keeps_report fun r _ => ?_
    subst same
    exact faithful_withResult faithful r

private theorem setVariables_sound : KeepsSound setVariables := by
  intro has lasting around call sound _ faithful
  refine keeps_ofExcept_bind fun params read => keeps_bind keeps_get fun s kept =>
    keeps_ofExcept_bind fun assigned resolved => ?_
  have table := Param.resolveFields_table sound.resolver kept.context.toFaithful
    (setVariables_parameters faithful read) resolved
  have assign (ctx : Context) (values : Keyed Json) (faithful : ∀ f ∈ values, f.2.Faithful)
      (sound : ctx.Sound) (lasts : has ctx) :
      (SetVariables.assign ctx values).Sound ∧ has (SetVariables.assign ctx values) := by
    induction values generalizing ctx with
    | nil => exact ⟨sound, lasts⟩
    | cons f fs ih =>
      obtain ⟨first, later⟩ := List.forall_mem_cons.mp faithful
      exact ih (ctx.setVariable f.1 f.2) later (sound.setVariable first)
        (lasting.setVariable ctx f.1 f.2 lasts)
  exact keeps_bind (keeps_context fun ctx => assign ctx assigned table.faithful) fun _ _ =>
    keeps_report fun r _ => faithful_withResult (faithful_obj.mpr table) r

/-- What a loop goes through is faithful when its length fits a machine word. -/
private theorem turns_faithful {around : Surroundings} {ctx : Context} {id : String}
    {params : Loop.Params} {turns : Loop.Turns} (lawful : Resolver.Faithful around.resolver)
    (sound : ctx.Sound) (items : ∀ v ∈ params.items, v.Faithful)
    (told : Loop.turns around ctx id params = .ok turns) (fits : turns.length ≤ Text.greatest64) :
    ∀ v ∈ turns.values, v.Faithful := by
  cases turns with
  | count n =>
    intro v member
    obtain ⟨i, small, rfl⟩ := List.mem_map.mp member
    exact faithful_ofNat (Nat.le_trans (Nat.le_of_lt (List.mem_range.mp small)) fits)
  | items values =>
    unfold Loop.turns at told
    split at told
    · next _ param given =>
      cases resolved : value around ctx param with
      | error e => simp [resolved, bind, Except.bind] at told
      | ok v =>
        have faithful := Param.resolve_faithful lawful sound.toFaithful (items param given) resolved
        simp only [resolved, bind, Except.bind] at told
        split at told
        · obtain ⟨rfl⟩ := Except.ok.inj told
          exact faithful_arr.mp faithful
        · obtain ⟨rfl⟩ := Except.ok.inj told
          simp [Loop.Turns.values]
        · contradiction
    · next param _ _ =>
      cases resolved : value around ctx param with
      | error e => simp [resolved, bind, Except.bind] at told
      | ok v =>
        simp only [resolved, bind, Except.bind] at told
        split at told <;> cases told
    · contradiction

private theorem iterate_sound (lasting : Context.Lasting has) {around : Surroundings} {call : Call}
    (sound : around.Sound)
    (flow : call.flow.Faithful) (body : String) {index : Nat} {items : List Json}
    (faithful : ∀ v ∈ items, v.Faithful) (fits : index + items.length ≤ Text.greatest64) :
    Keeps (NodeState.Sound has) Exchange.Faithful (fun _ => True) (fun _ => True)
      (Loop.iterate around call body index items) := by
  induction items generalizing index with
  | nil => exact keeps_pure trivial
  | cons item rest ih =>
    obtain ⟨first, later⟩ := List.forall_mem_cons.mp faithful
    rw [List.length_cons] at fits
    have iteration : (Loop.iteration item index).Faithful := by
      refine faithful_ofFields ?_
      simpa using ⟨first, faithful_ofNat (n := index) (by omega)⟩
    refine keeps_bind (keeps_context fun ctx kept lasts =>
        ⟨kept.record iteration, lasting.record ctx _ _ lasts⟩) fun _ _ =>
      keeps_bind (keeps_within (fun s kept => ⟨kept.context, kept.lasts⟩)
        (fun s ctx kept after => ⟨after.1, after.2, kept.report⟩)
        (sound.nested _ body _ flow has lasting)) fun walk _ =>
      keeps_bind (keeps_logWalk _ walk) fun _ _ => ?_
    split
    · exact keeps_throw _
    · exact ih later (by omega)

private theorem loop_sound : KeepsSound loop := by
  intro has lasting around call sound flow faithful
  refine keeps_ofExcept_bind fun params read => keeps_bind keeps_get fun s kept =>
    keeps_ofExcept_bind fun _ told => keeps_ofChecked_bind fun turns same => ?_
  obtain ⟨-, rfl⟩ := Loop.Turns.listed_eq_ok.mp same
  obtain ⟨items, -, limit⟩ := loop_parameters faithful read
  refine keeps_guard fun allowed => ?_
  have fits : turns.length ≤ Text.greatest64 := Nat.le_trans (Nat.not_lt.mp allowed) limit
  have values := turns_faithful sound.resolver kept.context items told fits
  have length : turns.values.length = turns.length := by
    cases turns <;> simp [Loop.Turns.values, Loop.Turns.length]
  split
  · exact keeps_throw _
  · refine keeps_bind (iterate_sound lasting sound flow _ values (by omega)) fun _ _ =>
      keeps_report fun r _ => faithful_withResult (faithful_ofFields ?_) r
    simpa using faithful_ofNat fits

private theorem subFlow_sound : KeepsSound subFlow := by
  intro has lasting around call sound _ faithful
  refine keeps_ofExcept_bind fun params read => keeps_bind (keeps_load _ _) fun flow loaded =>
    keeps_ofExcept_bind fun _ _ => keeps_ofExcept_bind fun entry _ => keeps_bind keeps_get fun s kept =>
    keeps_ofExcept_bind fun argument resolved => ?_
  have payload : (SubFlow.payload argument).Faithful := by
    have value := Param.resolve_faithful sound.resolver kept.context.toFaithful
      (subFlow_parameters faithful read) resolved
    unfold SubFlow.payload
    split
    · exact faithful_obj.mpr table_nil
    · exact value
  refine keeps_bind (keeps_apart ⟨Context.sound_forSubFlow loaded payload, trivial⟩
    (sound.nested _ _ _ loaded _ Context.lasting_true)) fun ⟨walk, child⟩ ended =>
    keeps_bind (keeps_logWalk _ walk) fun _ _ => ?_
  split
  · exact keeps_throw _
  · refine keeps_report fun r _ => faithful_withResult ?_ r
    unfold SubFlow.output
    cases output : (walk.visits.reverse.filter fun v => v.type == SubFlow.endType).findSome?
        fun v => child.output? v.id with
    | none => exact faithful_obj.mpr table_nil
    | some v =>
      obtain ⟨visit, -, found⟩ := List.exists_of_findSome?_eq_some output
      exact ended.2.1.outputs.get found

/-- The built-in runners keep the state of a node sound. -/
theorem builtins_sound : ∀ r ∈ builtins, KeepsSound r.runner := by
  simp only [builtins, firstVersion, List.forall_mem_cons, List.not_mem_nil, false_implies,
    implies_true, and_true]
  exact ⟨start_sound, waitMessage_sound, ifElse_sound, loop_sound, subFlow_sound, finish_sound,
    code_sound, reply_sound, setVariables_sound⟩

end

end Runner

end Parley
