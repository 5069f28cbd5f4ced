import Parley.Proofs.Runner.Loop
import Parley.Proofs.Runner.Bounds
import Parley.Proofs.Engine.Nesting
/-!
# Loops within walks

A loop that has started either begins or fails before any node of its body has run. One that begins
walks its body for one item after the other, tells only the node where the body is entered that an
iteration starts, and ends with the first walk that fails (`Engine.loop_iterates`). Before it is asked
whether a number is too large the items below it are listed, so a loop panics over a number of which
there can be no list, however few iterations it is allowed.
-/
namespace Parley

/-! ## Who is told a trigger -/

/-- The node of the turn was run by the visitor, and told this trigger instead of the one of the
run. -/
def Turn.PlaysFor (visitor : Visitor) (flow : Flow) (first : Bool) (appointed : Option Trigger)
    (t : Turn) : Prop :=
  ∃ node arrival report failure, arrival.appointed = appointed ∧
    flow.require t.visit.id = .ok node ∧
    t.visit = Walk.visitOf t.visit.level node arrival report (failure.map Error.message) ∧
    Program.Runs (visitor first node arrival t.before) t.log ((report, failure), t.after)

namespace Frontier

/-- No node that is still to run is told another trigger than that of the run. -/
def Plain (f : Frontier) : Prop := ∀ a ∈ f.pending ++ f.next, a.appointed = none

private theorem arrive_plain {parent : Parent} {child : String} {l : List Arrival}
    (plain : ∀ a ∈ l, a.appointed = none) : ∀ a ∈ arrive parent child l, a.appointed = none := by
  induction l with
  | nil => simp [arrive]
  | cons a l ih =>
    obtain ⟨first, later⟩ := List.forall_mem_cons.mp plain
    unfold arrive
    split
    · exact List.forall_mem_cons.mpr ⟨first, later⟩
    · exact List.forall_mem_cons.mpr ⟨first, ih later⟩

private theorem arrivals_plain {parent : Parent} {children : List String} {next : List Arrival}
    (plain : ∀ a ∈ next, a.appointed = none) :
    ∀ a ∈ children.foldl (fun next child => arrive parent child next) next, a.appointed = none := by
  induction children generalizing next with
  | nil => exact plain
  | cons child children ih => exact ih (arrive_plain plain)

theorem Plain.extend {f : Frontier} (plain : f.Plain) (parent : Parent) (children : List String) :
    (f.extend parent children).Plain := by
  obtain ⟨pending, next⟩ := List.forall_mem_append.mp plain
  exact List.forall_mem_append.mpr ⟨pending, arrivals_plain next⟩

theorem Plain.pop {f rest : Frontier} {a : Arrival} (plain : f.Plain)
    (popped : f.pop = some (a, rest)) : a.appointed = none ∧ rest.Plain := by
  obtain ⟨level, pending, next⟩ := f
  cases pending with
  | cons b pending =>
    obtain ⟨rfl, rfl⟩ : b = a ∧ _ = rest := by simpa [Frontier.pop] using popped
    exact List.forall_mem_cons.mp plain
  | nil =>
    cases next with
    | nil => simp [Frontier.pop] at popped
    | cons b next =>
      obtain ⟨rfl, rfl⟩ : b = a ∧ _ = rest := by simpa [Frontier.pop] using popped
      obtain ⟨first, later⟩ := List.forall_mem_cons.mp plain
      exact ⟨first, by simpa [Plain] using later⟩

end Frontier

namespace Walk
variable {flow : Flow} {visitor : Visitor} {limit : Nat}

/-- The walk is entered at a node, and only there is a trigger told instead of the one of the run: not
where the node runs again, and nowhere else. -/
structure Appoints (flow : Flow) (visitor : Visitor) (limit : Nat) (entry : String)
    (appointed : Option Trigger) (turns : List Turn) : Prop where
  entered : ∃ t rest, turns = t :: rest ∧ t.visit.id = entry
  told : ∀ t rest, turns = t :: rest → 0 < limit → t.PlaysFor visitor flow true appointed
  untold : ∀ i, (inside : i + 1 < turns.length) → i + 1 < limit →
    turns[i + 1].PlaysFor visitor flow false none

theorem Turns.plain {left : Nat} {first : Bool} {frontier : Frontier} {ctx ctx' : Context}
    {turns : List Turn} (taken : Turns flow visitor limit left first frontier ctx turns ctx')
    (plain : frontier.Plain) : ∀ i, (inside : i < turns.length) → i < left →
      turns[i].PlaysFor visitor flow (first && i == 0) none := by
  induction taken with
  | stop => simp
  | cut => simp
  | @turn left first frontier rest arrival node _ _ _ log report failure visit turns popped found
      played seen _ ih =>
    obtain ⟨none, onward⟩ := plain.pop popped
    obtain ⟨-, named⟩ := Flow.require_mem found
    intro i inside allowed
    cases i with
    | zero =>
      refine ⟨node, arrival, report, failure, none, ?_, ?_, by simpa using played⟩
      · simpa [seen, visitOf, named] using found
      · simp [seen, visitOf]
    | succ i => simpa using ih (onward.extend _ _) i (by simpa using inside) (by omega)

theorem Turns.appoints {start : Arrival} {ctx ctx' : Context} {turns : List Turn}
    (taken : Turns flow visitor limit limit true { pending := [start] } ctx turns ctx') :
    Appoints flow visitor limit start.id start.appointed turns := by
  cases taken with
  | stop last => simp [Frontier.pop] at last
  | cut popped found =>
    obtain ⟨rfl, rfl⟩ : start = _ ∧ _ = _ := by simpa [Frontier.pop] using popped
    exact ⟨⟨_, _, rfl, (Flow.require_mem found).2⟩, by simp, by simp⟩
  | @turn left _ _ _ _ node _ _ _ _ report failure _ turns popped found played seen later =>
    obtain ⟨rfl, rfl⟩ : start = _ ∧ _ = _ := by simpa [Frontier.pop] using popped
    obtain ⟨-, named⟩ := Flow.require_mem found
    subst seen
    refine ⟨⟨_, _, rfl, named⟩, ?told, ?untold⟩
    case told =>
      rintro t rest same -
      obtain ⟨rfl, -⟩ := List.cons.inj same
      refine ⟨node, start, report, failure, rfl, ?_, rfl, played⟩
      simpa [visitOf, named] using found
    case untold =>
      intro i inside allowed
      have none : (Frontier.mk 0 [] []).Plain := by simp [Frontier.Plain]
      simpa using later.plain (none.extend _ _) i (by simpa using inside) (by omega)

end Walk

/-! ## Loops -/

namespace Engine
open Runner (Loop.Turns)

/-- A walk of the body of a loop, from where the body is entered. -/
structure BodyWalk (engine : Engine) (room : Nat) (flow : Flow) (body : String) (i : Walked) :
    Prop where
  walked : i.flow = flow ∧ i.entry = body ∧ i.appointed = some .loopStart
  ran : Task.Runs (engine.walk (room + 1) flow body (some .loopStart)) i.before i.log i.ended i.after
  /-- It comes to its end, and only the node where the body is entered is told that an iteration
  starts. -/
  turns : ∃ turns, i.ended = .ok ⟨turns.map Turn.visit⟩ ∧ i.log = turns.flatMap Turn.exchanges ∧
    Walk.Performed flow (engine.nodeVisitor room flow) engine.config.maxExecutions i.before turns
      i.after ∧
    Walk.Appoints flow (engine.nodeVisitor room flow) engine.config.maxExecutions body
      (some .loopStart) turns

/-- Why a loop fails after a walk of its body that has not gone through. -/
inductive Stops (id : String) (index : Nat) (walk : Walk) : Error → Prop
  | failed {place reason : String} : walk.failed = some (place, reason) →
    Stops id index walk (.nodeFailed id (.iteration index place reason))
  | suspended {place : String} : walk.failed = none → walk.suspendedAt = some place →
    Stops id index walk (.cannotSuspend (.loopBody id place))

/-- A loop that has begun has walked its body in these rounds. -/
structure LoopsThrough (engine : Engine) (room : Nat) (flow : Flow) (id body : String)
    (turns : Loop.Turns) (ctx : Context) (log : List Exchange) (report : Report)
    (failure : Option Error) (ctx' : Context) (rounds : List Walked) : Prop where
  walks : ∀ i ∈ rounds, BodyWalk engine room flow body i
  /-- Each round starts in the context that the one before has left, with its own item and index in
  place of whatever the output of the loop has become. -/
  chained : ∃ last, Runner.Loop.Chained id 0 turns.values ctx rounds last ∧
    ctx' = if failure.isNone then last.record id (Runner.Loop.outcome turns.length) else last
  /-- So each round finds its item and its index there. -/
  shows : ∀ k, (inside : k < rounds.length) → ∃ item, turns.values[k]? = some item ∧
    rounds[k].before.output? id = some (Runner.Loop.iteration item k)
  /-- Nothing else is asked. -/
  heard : log = rounds.flatMap Walked.log
  report : report =
    { id, result := if failure.isNone then some (Runner.Loop.outcome turns.length) else none,
      log := Runner.Loop.lines 0 rounds }
  /-- The loop has not failed exactly when each item has had a round and all have gone through. -/
  succeeds : failure = none ↔ rounds.length = turns.length ∧ ∀ i ∈ rounds, i.Through
  /-- Otherwise the last round is the first one that has not, and the loop tells which one it is. -/
  stops : ∀ e, failure = some e → ∃ front last walk, rounds = front ++ [last] ∧
    (∀ i ∈ front, i.Through) ∧ last.ended = .ok walk ∧ Stops id front.length walk e
  /-- With the built-in node types no round is suspended. -/
  unsuspended : engine.BuiltIn → room < deepest → ∀ i ∈ rounds, ∀ walk, i.ended = .ok walk →
    walk.suspendedAt = none

/-- A loop that has begun panics in a round. -/
structure BreaksOff (engine : Engine) (room : Nat) (flow : Flow) (id body : String)
    (turns : Loop.Turns) (ctx : Context) (log : List Exchange) (cause : Panic) (rounds : List Walked) :
    Prop where
  walks : ∀ i ∈ rounds, BodyWalk engine room flow body i
  /-- The rounds before that one have gone through. -/
  through : ∀ i ∈ rounds, i.Through
  /-- It is the round of the next item, and starts as the others do. -/
  torn : ∃ item last back, turns.values[rounds.length]? = some item ∧
    Runner.Loop.Chained id 0 turns.values ctx rounds last ∧
    Task.Panics (engine.walk (room + 1) flow body (some .loopStart))
      (last.record id (Runner.Loop.iteration item rounds.length)) back cause ∧
    log = rounds.flatMap Walked.log ++ back

/-- How a loop ends that has begun. -/
inductive Begun (engine : Engine) (room : Nat) (flow : Flow) (id body : String) (turns : Loop.Turns)
    (ctx : Context) (log : List Exchange) : Except Panic ((Report × Option Error) × Context) → Prop
  | returned {report : Report} {failure : Option Error} {ctx' : Context} {rounds : List Walked}
      (through : LoopsThrough engine room flow id body turns ctx log report failure ctx' rounds) :
      Begun engine room flow id body turns ctx log (.ok ((report, failure), ctx'))
  | torn {cause : Panic} {rounds : List Walked}
      (breaks : BreaksOff engine room flow id body turns ctx log cause rounds) :
      Begun engine room flow id body turns ctx log (.error cause)

/-- What becomes of a loop that has so many turns to take. -/
structure Iterates (engine : Engine) (room : Nat) (flow : Flow) (id : String) (most : Nat)
    (turns : Loop.Turns) (ctx : Context) (log : List Exchange)
    (ending : Except Panic ((Report × Option Error) × Context)) : Prop where
  /-- It panics over a number of which there can be no list, before any node of the body runs and
  whether it may take so many turns or not. -/
  unlisted : ¬ turns.Listable → log = [] ∧ ending = .error .capacity
  /-- Otherwise, without a body or with more turns than it may take, it fails before any node of the body
  runs. -/
  refused : turns.Listable → most < turns.length ∨ flow.bodyEntry? id = none →
    log = [] ∧ ∃ report e, ending = .ok ((report, some e), ctx)
  begun : turns.Listable → turns.length ≤ most → ∀ body, flow.bodyEntry? id = some body →
    Begun engine room flow id body.id turns ctx log ending

variable {engine : Engine} {flow : Flow} {room : Nat}

private theorem stops_of_roundError {id : String} {index : Nat} {walk : Walk} {e : Error}
    (error : Runner.Loop.roundError id index (.ok walk) = some e) : Stops id index walk e := by
  unfold Runner.Loop.roundError Runner.Loop.bodyError at error
  dsimp only at error
  split at error
  · next failed =>
    obtain rfl := Option.some.inj error
    exact .failed failed
  · next failed suspended =>
    obtain rfl := Option.some.inj error
    exact .suspended failed suspended
  · contradiction

/-- A walk of the body of a loop within a checked flow comes to its end. -/
theorem bodyWalk_of_ran (checked : engine.check flow = .ok ()) {body : String}
    (entered : flow.Entered body) {i : Walked}
    (walked : i.flow = flow ∧ i.entry = body ∧ i.appointed = some .loopStart)
    (ran : i.Ran (engine.around (room + 1))) : BodyWalk engine room flow body i := by
  unfold Walked.Ran at ran
  rw [walked.1, walked.2.1, walked.2.2] at ran
  obtain ⟨start, inside, -, rfl⟩ := entered
  obtain ⟨turns, taken, ended, heard⟩ := walk_turns checked (List.mem_map_of_mem inside) ran
  exact ⟨walked, ran, turns, ended, heard, taken.performed, taken.appoints⟩

private theorem loopsThrough (checked : engine.check flow = .ok ()) {call : Call}
    (within : call.flow = flow) {body : Node} (found : flow.bodyEntry? call.node.id = some body)
    {turns : Loop.Turns} {ctx ctx' : Context} {log : List Exchange} {result : Except Error Unit}
    {rounds : List Walked} {s s₁ : NodeState} {failure : Option Error}
    (each : Runner.Loop.Rounds (engine.around (room + 1)) call body.id 0 turns.values
      { context := ctx, report := { id := call.node.id } } log rounds result s₁)
    (context : s.context = s₁.context)
    (report : s.report = Runner.Loop.conclude turns.length result s₁.report)
    (ended : Concludes s result failure ctx') :
    LoopsThrough engine room flow call.node.id body.id turns ctx log s.report failure ctx' rounds := by
  have entered := Flow.entered_bodyEntry found
  have walks : ∀ i ∈ rounds, BodyWalk engine room flow body.id i := fun i member =>
    bodyWalk_of_ran checked entered (within ▸ each.walked i member) (each.ran i member)
  have lines : s₁.report = { id := call.node.id, log := Runner.Loop.lines 0 rounds } := by
    simpa using each.report
  refine ⟨walks, ?chained, by simpa using each.chained.shows, each.heard, ?report, ?succeeds, ?stops,
    ?unsuspended⟩
  case chained =>
    refine ⟨s₁.context, each.chained, ?_⟩
    cases ended with
    | done => simp [recorded, report, Runner.Loop.conclude, lines, Report.withResult, context]
    | failed e => simp [context]
  case report =>
    rw [report, lines]
    cases ended <;> rfl
  case succeeds =>
    cases ended with
    | done =>
      cases each.ends with
      | all full through => exact iff_of_true rfl ⟨by rw [full, Runner.Loop.length_values], through⟩
    | failed e =>
      cases each.ends with
      | stopped split through stops =>
        refine iff_of_false (by simp) fun clean => ?_
        exact Runner.Loop.not_through_of_roundError stops (clean.2 _ (by simp [split]))
  case stops =>
    rintro e rfl
    cases ended
    cases each.ends with
    | @stopped front last _ split through stops =>
      obtain ⟨turns, walked, -⟩ := (walks last (by simp [split])).turns
      rw [walked, Nat.zero_add] at stops
      exact ⟨front, last, _, split, through, walked, stops_of_roundError stops⟩
  case unsuspended =>
    intro builtIn deep i member walk walked
    have ran := (walks i member).ran
    rw [walked] at ran
    exact (walk_unsuspended builtIn deep checked entered ran).suspendedAt

private theorem breaksOff (checked : engine.check flow = .ok ()) {call : Call}
    (within : call.flow = flow) {body : Node} (found : flow.bodyEntry? call.node.id = some body)
    {turns : Loop.Turns} {ctx : Context} {log : List Exchange} {cause : Panic} {rounds : List Walked}
    (torn : Runner.Loop.TornRounds (engine.around (room + 1)) call body.id 0 turns.values ctx log rounds
      cause) :
    BreaksOff engine room flow call.node.id body.id turns ctx log cause rounds where
  walks i member := bodyWalk_of_ran checked (Flow.entered_bodyEntry found)
    (within ▸ torn.walked i member) (torn.ran i member)
  through := torn.through
  torn := by
    obtain ⟨item, last, back, next, chained, panics, heard⟩ := torn.torn
    rw [within, Nat.zero_add] at panics
    exact ⟨item, last, back, next, chained, panics, heard⟩

section
variable {first : Bool} {node : Node} {arrival : Arrival} {ctx : Context} {log : List Exchange}
  {r : Registration Runner} {inputs : Keyed Json} {params : Runner.Loop.Params} {turns : Loop.Turns}
  (checked : engine.check flow = .ok ()) (starts : engine.Starts ctx node r inputs)
  (loops : r.runner = Runner.loop)
  (read : node.params.decode Runner.Loop.Params.decoder = .ok params)
  (told : Runner.Loop.turns (engine.around (room + 1)) ctx node.id params = .ok turns)
include checked starts loops read told

private theorem iterates_returned {report : Report} {failure : Option Error} {ctx' : Context}
    (run : Program.Runs (engine.nodeVisitor (room + 1) flow first node arrival ctx) log
      ((report, failure), ctx')) :
    Iterates engine room flow node.id params.maxIterations turns ctx log
      (.ok ((report, failure), ctx')) := by
  rcases visitor_runs run with ⟨never, -⟩ | ⟨r', inputs', result, s, starts', ran, rfl, ended⟩
  · exact absurd starts (never r inputs)
  obtain ⟨rfl, rfl⟩ := starts.unique starts'
  rw [loops] at ran
  have given : Runner.parameters Runner.Loop.Params.decoder
      (nodeCall flow (deepest - (room + 1)) first node arrival inputs) = .ok params := by
    simp [Runner.parameters, nodeCall, read]
  have listable := Runner.loop_listable ran given told
  rcases Runner.loop_runs ran with ⟨never, e, rfl, rfl, rfl⟩ |
    ⟨params', turns', body, rounds, s₁, begun, each, context, reported⟩
  · refine ⟨fun many => absurd listable many, fun _ _ => ?_, fun _ fits body found => ?_⟩
    · cases ended
      exact ⟨rfl, _, _, rfl⟩
    · exact absurd ⟨given, told, listable, fits, found⟩ (never params turns body)
  · obtain rfl := Except.ok.inj (read.symm.trans (Runner.decode_of_parameters begun.read))
    obtain rfl := Except.ok.inj (told.symm.trans begun.told)
    refine ⟨fun many => absurd listable many, ?_, fun _ _ body' found => ?_⟩
    · rintro - (many | none)
      · exact absurd begun.fits (Nat.not_le.mpr many)
      · exact absurd (none.symm.trans begun.found) (by simp)
    · obtain rfl := Option.some.inj (begun.found.symm.trans found)
      exact .returned (loopsThrough checked rfl found each context reported ended)

private theorem iterates_panicked {cause : Panic}
    (run : Program.Ends (engine.nodeVisitor (room + 1) flow first node arrival ctx) log
      (.error cause)) :
    Iterates engine room flow node.id params.maxIterations turns ctx log (.error cause) := by
  obtain ⟨r', inputs', starts', panics⟩ := visitor_panics.mp run
  obtain ⟨rfl, rfl⟩ := starts.unique starts'
  rw [loops] at panics
  obtain ⟨params', turns', read', told', ways⟩ := Runner.loop_panics panics
  obtain rfl := Except.ok.inj (read.symm.trans (Runner.decode_of_parameters read'))
  obtain rfl := Except.ok.inj (told.symm.trans told')
  rcases ways with ⟨many, rfl, rfl⟩ | ⟨body, rounds, begun, torn⟩
  · exact ⟨fun _ => ⟨rfl, rfl⟩, fun listable => absurd listable many,
      fun listable => absurd listable many⟩
  · refine ⟨fun many => absurd begun.listable many, ?_, fun _ _ body' found => ?_⟩
    · rintro - (many | none)
      · exact absurd begun.fits (Nat.not_le.mpr many)
      · exact absurd (none.symm.trans begun.found) (by simp)
    · obtain rfl := Option.some.inj (begun.found.symm.trans found)
      exact .torn (breaksOff checked rfl found torn)

/-- A loop walks its body for one item after the other, each time with the item and its index as the
output of the loop, and stops after the first walk that does not go through. -/
theorem loop_iterates {ending : Except Panic ((Report × Option Error) × Context)}
    (ends : Program.Ends (engine.nodeVisitor (room + 1) flow first node arrival ctx) log ending) :
    Iterates engine room flow node.id params.maxIterations turns ctx log ending := by
  cases ending with
  | ok ended => exact iterates_returned checked starts loops read told ends
  | error cause => exact iterates_panicked checked starts loops read told ends

end

end Engine

/-! ### A loop that counts to its items -/

namespace Rows

/-- A loop within the body of another one, that goes to the item of that one. -/
def inner : Node where
  id := "inner"
  type := "loop"
  params := .ofFields [("count", .ofFields [("$ref", .str "outer.item")])]

def outer (items : List Json) : Node where
  id := "outer"
  type := "loop"
  params := .ofFields [("items", .arr items)]

def flow (items : List Json) : Flow where
  code := "rows"
  nodes := [Chat.start, outer items, Enclosed.bodyStart "outer", inner, Enclosed.bodyStart "inner"]
  edges := [{ source := "start", target := "outer", branch := some "m" },
    { source := "outer/start", target := "inner", branch := some "b" }]

def context (items : List Json) : Context :=
  .start "r" (flow items) (Chat.message "first")

/-- The run of the outer loop. -/
def visit (items : List Json) : Program ((Report × Option Error) × Context) :=
  (Engine.standard {}).nodeVisitor 8 (flow items) false (outer items) { id := "outer" } (context items)

/-- Why the outer loop fails, if it returns. -/
def failure? (items : List Json) : Except Panic (Option String) :=
  ((visit items).run {}).1.map fun ended => ended.1.2.map Error.message

/-- Which nodes of the body have run. -/
def nodes (items : List Json) : List String :=
  (events ((visit items).heard {})).filterMap fun
    | .nodeFinished _ id _ _ => some id
    | _ => none

/-- Items of which the inner loop cannot count to the second. -/
def items : List Json := [.int 2, .str "x", .int 1]

theorem starts : ∃ r, (Engine.standard {}).Starts (context items) (outer items) r [] ∧
    r.runner = Runner.loop := by
  have served : ((Engine.standard {}).registry.resolve "loop" "v0").toOption.isSome := by
    decide +kernel
  obtain ⟨r, starts⟩ : ∃ r, (Engine.standard {}).Starts (context items) (outer items) r [] :=
    Engine.exists_starts rfl served _
  obtain ⟨builtin, type⟩ := (Engine.builtIn_standard {}).serves starts.served
  exact ⟨r, starts, Runner.builtin_runner rfl builtin type⟩

end Rows

/-- An item to which the inner loop cannot count ends the outer one, and no later item is looked at. With
an item of which there can be no list the inner loop panics, although it is allowed a hundred
iterations. -/
theorem rows_iterate :
    (Engine.standard {}).check (Rows.flow Rows.items) = .ok () ∧
      Rows.nodes Rows.items =
        ["outer/start", "inner/start", "inner/start", "inner", "outer/start", "inner"] ∧
      Rows.failure? Rows.items =
        .ok (some ("Node runner failed: outer: iteration 1 failed at inner: Validation error: loop inner: "
          ++ "count must be a non-negative integer, got \"x\"")) ∧
      Rows.failure? [.int 2, .int 0] = .ok none ∧
      Rows.failure? [.int 288230376151711743] =
        .ok (some ("Node runner failed: outer: iteration 0 failed at inner: Validation error: loop inner "
          ++ "has 288230376151711743 iterations, above max_iterations 100")) ∧
      Rows.failure? [.int 288230376151711744] = .error .capacity ∧
      ∃ r, (Engine.standard {}).Starts (Rows.context Rows.items) (Rows.outer Rows.items) r [] ∧
        r.runner = Runner.loop ∧
        Engine.Iterates (.standard {}) 7 (Rows.flow Rows.items) "outer" 100 (.items Rows.items)
          (Rows.context Rows.items) ((Rows.visit Rows.items).heard {})
          ((Rows.visit Rows.items).run {}).1 := by
  have checked : (Engine.standard {}).check (Rows.flow Rows.items) = .ok () := rfl
  have read : (Rows.outer Rows.items).params.decode Runner.Loop.Params.decoder =
      .ok ⟨some (.arr Rows.items), none, 100⟩ := rfl
  have told : Runner.Loop.turns ((Engine.standard {}).around 8) (Rows.context Rows.items) "outer"
      ⟨some (.arr Rows.items), none, 100⟩ = .ok (.items Rows.items) := rfl
  obtain ⟨r, starts, loops⟩ := Rows.starts
  refine ⟨checked, by decide +kernel, by decide +kernel, by decide +kernel, by decide +kernel,
    by decide +kernel, r, starts, loops, ?_⟩
  exact Engine.loop_iterates checked starts loops read told ((Rows.visit Rows.items).ends_heard {})

end Parley
