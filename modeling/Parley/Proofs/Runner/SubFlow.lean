import Parley.Proofs.Runner.Steps
/-!
# What a call of a flow comes to

Of the context of its caller a called flow has no more than the context of its own that it runs in. So
how a call ends is told without the one of the caller (`Runner.SubFlow.Does`), and the caller's is left
as it was (`Runner.subFlow_iff`). The same goes for the calls that panic (`Runner.subFlow_breaks`).
-/
namespace Parley.Runner

namespace SubFlow

/-- What is asked for a flow, and the flow that is given. -/
def loaded (params : Params) (flow : Except Error Flow) : Exchange :=
  ⟨.load params.code params.version, flow⟩

/-- The report with the lines about a walk. -/
def logged (r : Report) (flow : Flow) (walk : Walk) : Report :=
  { r with log := r.log ++ walk.visits.map (visitLine (flow.code ++ "/")) }

/-- How a call ends once the flow has been walked. -/
def concluded (id : String) (r : Report) (flow : Flow) (child : Context) :
    Except Error Walk → Except Error Unit × Report
  | .error e => (.error e, r)
  | .ok walk =>
    match callError id flow.code walk with
    | some e => (.error e, logged r flow walk)
    | none => (.ok (), (logged r flow walk).withResult (output child walk))

/-- The walk is one of a flow that can be run, from where it is entered and in the context for it. -/
structure Enters (around : Surroundings) (child : Flow → Context) (i : Walked) : Prop where
  checked : around.check i.flow = .ok ()
  entered : ∃ entry, i.flow.requireEntry = .ok entry ∧ i.entry = entry.id
  appointed : i.appointed = none
  before : i.before = child i.flow
  ran : i.Ran around

/-- How a call ends, when every flow has a context to run in. -/
inductive Does (around : Surroundings) (id : String) (params : Params) (child : Flow → Context)
    (r : Report) : List Exchange → Except Error Unit × Report → Prop
  | unloaded (e : Error) : Does around id params child r [loaded params (.error e)] (.error e, r)
  | refused {flow : Flow} {e : Error} : around.check flow = .error e →
    Does around id params child r [loaded params (.ok flow)] (.error e, r)
  | closed {flow : Flow} {e : Error} : around.check flow = .ok () → flow.requireEntry = .error e →
    Does around id params child r [loaded params (.ok flow)] (.error e, r)
  | walked {i : Walked} : Enters around child i →
    Does around id params child r (loaded params (.ok i.flow) :: i.log)
      (concluded id r i.flow i.after i.ended)

/-- A call panics within the walk of the flow. -/
def Breaks (around : Surroundings) (params : Params) (child : Flow → Context) (log : List Exchange)
    (cause : Panic) : Prop :=
  ∃ flow entry rest, log = loaded params (.ok flow) :: rest ∧ around.check flow = .ok () ∧
    flow.requireEntry = .ok entry ∧
    Task.Panics (around.nested flow entry.id none) (child flow) rest cause

/-- A call that does not fail has gone through a walk of the flow. -/
theorem Does.returned {around : Surroundings} {id : String} {params : Params} {child : Flow → Context}
    {r r' : Report} {log : List Exchange} (does : Does around id params child r log (.ok (), r')) :
    ∃ i walk, Enters around child i ∧ log = loaded params (.ok i.flow) :: i.log ∧ i.ended = .ok walk ∧
      (walk.failed = none ∧ walk.suspendedAt = none) ∧
      r' = (logged r i.flow walk).withResult (output i.after walk) := by
  generalize ended : ((.ok (), r') : Except Error Unit × Report) = outcome at does
  cases does with
  | unloaded | refused | closed => simp at ended
  | @walked i enters =>
    unfold concluded at ended
    split at ended
    · simp at ended
    · next walk whole =>
      split at ended
      · simp at ended
      · next through =>
        exact ⟨i, walk, enters, rfl, whole, callError_eq_none through, congrArg Prod.snd ended⟩

/-- The value is the output of the node that ran last among the end nodes of a walk, or it is empty when
none ran. -/
inductive Outputs (walk : Walk) (child : Context) : Json → Prop
  | last {front back : List Visit} {e : Visit} {v : Json} : walk.visits = front ++ e :: back →
    e.type = endType → (∀ x ∈ back, x.type ≠ endType) → child.output? e.id = some v →
    Outputs walk child v
  | none : (∀ x ∈ walk.visits, x.type ≠ endType) → Outputs walk child .empty

/-- The output of an end node behind which no other has run is put out. -/
theorem output_last {walk : Walk} {child : Context} {front back : List Visit} {e : Visit} {v : Json}
    (split : walk.visits = front ++ e :: back) (last : e.type = endType)
    (others : ∀ x ∈ back, x.type ≠ endType) (told : child.output? e.id = some v) :
    output child walk = v := by
  have skipped : back.reverse.filter (fun x => x.type == endType) = [] := by simpa using others
  simp [output, split, skipped, last, told]

/-- Where all end nodes that ran have outputs, the one put out is that of the last. -/
theorem outputs_output {walk : Walk} {child : Context}
    (recorded : ∀ e ∈ walk.visits, e.type = endType → ∃ v, child.output? e.id = some v) :
    Outputs walk child (output child walk) := by
  cases found : walk.visits.reverse.find? fun x => x.type == endType with
  | none =>
    have other : ∀ x ∈ walk.visits, x.type ≠ endType := by simpa using found
    have skipped : walk.visits.reverse.filter (fun x => x.type == endType) = [] := by simpa using other
    rw [output, skipped]
    exact .none other
  | some e =>
    obtain ⟨last, behind, before, split, other⟩ := List.find?_eq_some_iff_append.mp found
    have visits : walk.visits = before.reverse ++ e :: behind.reverse := by
      rw [← List.reverse_reverse walk.visits, split]
      simp
    have isEnd : e.type = endType := beq_iff_eq.mp last
    have others : ∀ x ∈ behind.reverse, x.type ≠ endType := by simpa using other
    obtain ⟨v, told⟩ := recorded e (by simp [visits]) isEnd
    rw [output_last visits isEnd others told]
    exact .last visits isEnd others told

end SubFlow

variable {around : Surroundings} {call : Call} {params : SubFlow.Params} {argument : Json}
  {s s' : NodeState} {log : List Exchange} {result : Except Error Unit}

/-- What is made of a walk that has come to its end. -/
private theorem runs_concluded {id : String} {flow : Flow} {walk : Walk} {child : Context} :
    Task.Runs (logWalk (flow.code ++ "/") walk >>= fun _ => match SubFlow.callError id flow.code walk with
      | some e => throw e
      | none => report fun r => r.withResult (SubFlow.output child walk)) s log result s' ↔
    log = [] ∧ s'.context = s.context ∧
      (result, s'.report) = SubFlow.concluded id s.report flow child (.ok walk) := by
  obtain ⟨ctx, r⟩ := s
  obtain ⟨ctx', r'⟩ := s'
  simp only [logWalk, report, Task.runs_modify_bind, logWalk_report, SubFlow.concluded]
  cases SubFlow.callError id flow.code walk <;> simp [SubFlow.logged, and_left_comm]

/-- How a call ends depends on the context of its caller by the context of the called flow alone, and the
caller's is left as it was. -/
theorem subFlow_iff (read : call.node.params.decode SubFlow.Params.decoder = .ok params)
    (given : value around s.context params.params = .ok argument) :
    Task.Runs (subFlow around call) s log result s' ↔
      SubFlow.Does around call.node.id params
          (fun flow => s.context.forSubFlow flow (SubFlow.payload argument)) s.report log
          (result, s'.report) ∧
        s'.context = s.context := by
  simp only [subFlow, parameters_of_decode read, given, Task.runs_ofExcept_bind, Task.runs_load_bind,
    Task.runs_get_bind, Task.runs_apart_bind, Except.ok.injEq, exists_eq_left', reduceCtorEq, false_and,
    exists_false, false_or]
  constructor
  · rintro (⟨e, rfl, rfl, rfl⟩ | ⟨flow, rest, rfl, ⟨e, refused, rfl, rfl, rfl⟩ |
      ⟨_, checked, ⟨e, closed, rfl, rfl, rfl⟩ | ⟨entry, entered, run⟩⟩⟩)
    · exact ⟨.unloaded e, rfl⟩
    · exact ⟨.refused refused, rfl⟩
    · exact ⟨.closed checked closed, rfl⟩
    rcases run with ⟨e, child, ran, rfl, rfl⟩ | ⟨walk, child, front, back, ran, goes, rfl⟩
    · exact ⟨.walked (i := ⟨flow, entry.id, none, _, rest, .error e, child⟩)
        ⟨checked, ⟨entry, entered, rfl⟩, rfl, rfl, ran⟩, rfl⟩
    · obtain ⟨rfl, kept, ended⟩ := runs_concluded.mp goes
      rw [ended, List.append_nil]
      exact ⟨.walked (i := ⟨flow, entry.id, none, _, front, .ok walk, child⟩)
        ⟨checked, ⟨entry, entered, rfl⟩, rfl, rfl, ran⟩, kept⟩
  · rintro ⟨does, kept⟩
    obtain ⟨ctx, r⟩ := s
    obtain ⟨ctx', r'⟩ := s'
    obtain rfl : ctx' = ctx := kept
    generalize ended : (result, r') = outcome at does
    cases does with
    | unloaded e =>
      cases ended
      exact .inl ⟨e, rfl, rfl, rfl⟩
    | refused refused =>
      cases ended
      exact .inr ⟨_, [], rfl, .inl ⟨_, refused, rfl, rfl, rfl⟩⟩
    | closed checked closed =>
      cases ended
      exact .inr ⟨_, [], rfl, .inr ⟨(), checked, .inl ⟨_, closed, rfl, rfl, rfl⟩⟩⟩
    | @walked i enters =>
      obtain ⟨flow, entry, appointed, before, log, walked, child⟩ := i
      obtain ⟨checked, ⟨node, entered, rfl⟩, rfl, own, ran⟩ := enters
      dsimp only at own
      subst own
      refine .inr ⟨flow, log, rfl, .inr ⟨(), checked, .inr ⟨node, entered, ?_⟩⟩⟩
      cases walked with
      | error e =>
        cases ended
        exact .inl ⟨e, child, ran, rfl, rfl⟩
      | ok walk =>
        exact .inr ⟨walk, child, log, [], ran, runs_concluded.mpr ⟨rfl, rfl, ended⟩, by simp⟩

/-- Whether a call panics depends on the context of its caller in the same way. -/
theorem subFlow_breaks (read : call.node.params.decode SubFlow.Params.decoder = .ok params)
    (given : value around s.context params.params = .ok argument) {cause : Panic} :
    Task.Panics (subFlow around call) s log cause ↔
      SubFlow.Breaks around params
        (fun flow => s.context.forSubFlow flow (SubFlow.payload argument)) log cause := by
  simp only [subFlow_panics, parameters_of_decode read, Except.ok.injEq, exists_and_left,
    exists_eq_left', given]
  rfl

end Parley.Runner
