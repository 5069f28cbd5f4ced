import Parley.Engine.Dispatch
import Parley.Proofs.Runner.Bounds
import Parley.Proofs.Engine.Nesting
/-!
# Runs come to their end

A walk runs only so many nodes and walks nest only so deep, so a run comes to its end whatever its flow
is and whatever it loads: flows that lead back, loops in loops, flows that call themselves. How often it
asks is bounded by the limits of the engine and of the loops (`Engine.mostAsked`), and each of its walks
keeps to its limits, also those that are torn off when it panics (`Engine.keepsLimits`).
-/
namespace Parley

namespace Engine
open Parley.Task
variable {engine : Engine} {most n : Nat}

/-! ## How often walks ask -/

/-- How often a walk asks when `room` levels are left and no loop is allowed more than `most`
iterations. -/
def mostAsked (engine : Engine) (most : Nat) : (room : Nat) → Nat
  | 0 => 0
  | room + 1 =>
    engine.config.maxExecutions * (Runner.mostAsked most (engine.mostAsked most room) + 1) + 1

private theorem visitor_ends (builtIn : engine.BuiltIn) {around : Surroundings} {flow : Flow}
    (nested : ∀ flow entry appointed, flow.LoopsWithin most →
      EndsWithin most n (around.nested flow entry appointed))
    (loops : flow.LoopsWithin most) {node : Node} (member : node ∈ flow.nodes) (depth : Nat)
    (first : Bool) (arrival : Arrival) :
    EndsWithin most (Runner.mostAsked most n)
      (ExceptT.lift (engine.visitor around flow depth first node arrival)) := by
  have runs : EndsWithin most (Runner.mostAsked most n)
      (engine.runNode around flow depth first node arrival) := by
    refine endsIn_ofExcept_bind fun r found => endsIn_get_bind fun _ =>
      endsIn_ofExcept_bind fun inputs _ => ?_
    obtain ⟨builtin, type⟩ := builtIn.serves found
    have serves : EndsWithin most (Runner.mostAsked most n)
        (r.runner around (nodeCall flow depth first node arrival inputs)) :=
      Runner.builtins_end r builtin type.symm (loops node member) loops nested
    exact endsIn_bind (m := 0) serves fun _ _ => endsIn_modify
  refine endsIn_lift fun ctx => (runs _).bind (m := 0) ?_
  rintro ⟨result, s⟩ -
  cases result <;> exact trivial

private theorem proceed_ends {flow : Flow} {visitor : Visitor}
    (visits : ∀ first node arrival, node ∈ flow.nodes →
      EndsWithin most n (ExceptT.lift (visitor first node arrival)))
    (limit left : Nat) (frontier : Frontier) (walk : Walk) :
    EndsWithin most (left * (n + 1) + 1) (Walk.proceed flow visitor limit left frontier walk) := by
  have announces (v : Visit) : EndsWithin most 1 (Walk.announce v) :=
    endsIn_get_bind fun ctx => endsIn_ask (r := .publish (v.event ctx.runId)) (n := 0)
  induction left generalizing frontier walk with
  | zero =>
    unfold Walk.proceed
    split
    · exact endsIn_pure trivial
    · rw [Nat.zero_mul, Nat.zero_add]
      exact endsIn_ofExcept_bind fun _ _ => endsIn_bind (m := 0) (announces _) fun _ _ =>
        endsIn_pure trivial
  | succ left ih =>
    unfold Walk.proceed
    split
    · exact endsIn_pure trivial
    · refine endsIn_ofExcept_bind fun node found => ?_
      have turn : n + (1 + (left * (n + 1) + 1)) = (left + 1) * (n + 1) + 1 := by
        rw [Nat.succ_mul]
        omega
      rw [← turn]
      exact endsIn_bind (visits _ _ _ (Flow.require_mem found).1) fun ended _ =>
        endsIn_bind (announces _) fun _ _ => ih _ _

theorem walk_ends (builtIn : engine.BuiltIn) {flow : Flow} (loops : flow.LoopsWithin most) (room : Nat)
    (entry : String) (appointed : Option Trigger) :
    EndsWithin most (engine.mostAsked most room) (engine.walk room flow entry appointed) := by
  induction room generalizing flow entry appointed with
  | zero => exact endsIn_throw _
  | succ room ih =>
    exact proceed_ends (fun first node arrival member => visitor_ends builtIn
      (fun flow entry appointed loops => ih loops entry appointed) loops member _ first arrival) _ _ _ _

/-! ## How often runs ask -/

section
variable {flow : Flow} (builtIn : engine.BuiltIn)
include builtIn

theorem finish_ends (loops : flow.LoopsWithin most) (entry : String) (ctx : Context) :
    EndsWithin most (engine.mostAsked most (deepest + 1) + 1) (engine.finish flow entry ctx) :=
  endsIn_bind (endsIn_apart (walk_ends builtIn loops _ _ _)) fun _ _ =>
    endsIn_ask_bind (r := .publish _) (n := 0) fun _ _ => endsIn_pure trivial

theorem run_ends (loops : flow.LoopsWithin most) (ctx : Context) :
    EndsWithin most (engine.mostAsked most (deepest + 1) + 2) (engine.run flow ctx) :=
  endsIn_ofExcept_bind fun _ _ => endsIn_ofExcept_bind fun _ _ =>
    endsIn_ask_bind (r := .publish _) fun _ _ => finish_ends builtIn loops _ _

theorem runFrom_ends (loops : flow.LoopsWithin most) (entry : String) (ctx : Context) :
    EndsWithin most (engine.mostAsked most (deepest + 1) + 1) (engine.runFrom flow entry ctx) :=
  endsIn_ofExcept_bind fun _ _ => endsIn_ofExcept_bind fun _ _ => finish_ends builtIn loops _ _

theorem resume_ends (record : Wait.Record) (event : Event) :
    EndsWithin most (engine.mostAsked most (deepest + 1) + 5) (engine.resume record event) := by
  have drops (n : Nat) : EndsWithin most (n + 1) (drop record) :=
    endsIn_ask_bind (r := .publish _) fun _ _ => endsIn_pure trivial
  refine endsIn_ask_bind (r := .clock) fun now _ => ?_
  split
  · exact endsIn_call_bind (r := .claim _) fun _ _ _ _ => drops _
  · refine endsIn_call_bind (r := .load _ _) ?_
    rintro _ loops flow rfl
    refine endsIn_ofExcept_bind fun _ _ => endsIn_ofExcept_bind fun _ _ =>
      endsIn_ofExcept_bind fun ctx _ => endsIn_call_bind (r := .claim _) fun _ _ won _ => ?_
    split
    · exact endsIn_ask_bind (r := .publish _) fun _ _ =>
        endsIn_bind (m := 0) (finish_ends builtIn loops _ _) fun _ _ => endsIn_pure trivial
    · exact drops _

theorem dispatch_ends (code : String) (version : Option String) (event : Event) :
    EndsWithin most (engine.mostAsked most (deepest + 1) + 6)
      (engine.dispatch code version event) := by
  have waits : EndsWithin most 1 (waiting event) := by
    unfold waiting
    split
    · exact endsIn_ask_bind (r := .find _) (n := 0) fun _ _ => endsIn_ofExcept
    · exact endsIn_pure trivial
  rw [show engine.mostAsked most (deepest + 1) + 6 = 1 + (engine.mostAsked most (deepest + 1) + 5) by
    omega]
  refine endsIn_bind waits fun found _ => ?_
  cases found with
  | some record =>
    refine endsIn_bind (m := 0) (resume_ends builtIn record event) fun resumed _ => ?_
    cases resumed <;> exact endsIn_pure trivial
  | none =>
    refine EndsIn.mono (n := engine.mostAsked most (deepest + 1) + 2 + 1 + 1) ?_ (by omega)
    refine endsIn_call_bind (r := .load _ _) ?_
    rintro _ loops flow rfl
    exact endsIn_ask_bind (r := .identifier) fun id _ =>
      endsIn_bind (m := 0) (run_ends builtIn loops _) fun _ _ => endsIn_pure trivial

end

end Engine

/-! ## Walks and their limits -/

/-- The walk runs as many nodes as it may, each once in its turn. One more may be listed, which is not
run: it ends the walk as a node that has failed for this reason. -/
structure Walk.Limited (flow : Flow) (visitor : Visitor) (limit : Nat) (turns : List Turn) : Prop where
  played : ∀ t ∈ turns.take limit, ∃ first, t.Plays visitor flow first
  listed : turns.length ≤ limit + 1
  cut : turns.length = limit + 1 → ∃ early last, turns = early ++ [last] ∧ last.Cut limit ∧
    last.visit.report.success = false ∧
    last.visit.report.log.getLast? = some ("failed: " ++ Walk.limitText limit)

theorem Walk.Turns.limited {flow : Flow} {visitor : Visitor} {limit : Nat} {frontier : Frontier}
    {ctx ctx' : Context} {turns : List Turn}
    (taken : Walk.Turns flow visitor limit limit true frontier ctx turns ctx') :
    Walk.Limited flow visitor limit turns := by
  have performed := taken.performed
  refine ⟨?_, performed.bounded, ?_⟩
  · intro t member
    obtain ⟨i, inside, rfl⟩ := List.getElem_of_mem member
    obtain ⟨early, short⟩ := Nat.lt_min.mp (List.length_take ▸ inside)
    rw [List.getElem_take]
    exact ⟨_, performed.played i short early⟩
  · intro full
    have inside : limit < turns.length := by omega
    have cut := performed.cut inside
    refine ⟨turns.take limit, turns[limit], ?_, cut, ?_⟩
    · have all := List.take_append_drop limit turns
      rw [List.drop_eq_getElem_cons inside, List.drop_eq_nil_of_le (by omega)] at all
      exact all.symm
    · obtain ⟨node, arrival, report, failure, -, seen⟩ := taken.visited (List.getElem_mem inside)
      obtain rfl : failure = some (Walk.limitText limit) := by
        have failed := cut.failure
        rwa [seen] at failed
      rw [seen]
      simp [Walk.visitOf, Report.fail, Report.addLine]

namespace Engine
open Parley.Task
variable {engine : Engine} {depth most n : Nat} {i : Walked}

/-- A walk that is nested in `depth` others takes turns. -/
structure Plays (engine : Engine) (depth : Nat) (i : Walked) (turns : List Turn) : Prop where
  ended : i.ended = .ok ⟨turns.map Turn.visit⟩
  heard : i.log = turns.flatMap Turn.exchanges
  performed : Walk.Performed i.flow (engine.nodeVisitor (deepest - depth) i.flow)
    engine.config.maxExecutions i.before turns i.after

/-- A walk that is nested in `depth` others takes turns until a node panics. -/
structure Tears (engine : Engine) (depth : Nat) (i : TornWalk) (cause : Panic) (turns : List Turn)
    (last : Context) (back : List Exchange) : Prop where
  heard : i.log = turns.flatMap Turn.exchanges ++ back
  /-- It is one of the nodes that may run. -/
  torn : Walk.Torn i.flow (engine.nodeVisitor (deepest - depth) i.flow) engine.config.maxExecutions
    cause i.before turns last back

/-- The walks of a run that are torn off when it panics: the one outside all others, and one within the
node that panics. -/
inductive TornAt (engine : Engine) (cause : Panic) : (depth : Nat) → TornWalk → Prop
  | outermost {i : TornWalk} (checked : engine.check i.flow = .ok ()) (inside : i.entry ∈ i.flow.ids)
      (panics : Task.Panics (engine.walk (deepest + 1) i.flow i.entry i.appointed) i.before i.log
        cause) : TornAt engine cause 0 i
  | inner {depth : Nat} {i j : TornWalk} {turns : List Turn} {last : Context} {back : List Exchange}
      {inners : List Walked} (outer : TornAt engine cause depth i)
      (tears : Tears engine depth i cause turns last back)
      (nests : TornNests engine (deepest - depth) back cause inners (some j)) :
      TornAt engine cause (depth + 1) j

/-- The walks of a run: the one outside all others, and those within the turns of a walk. -/
inductive WalkAt (engine : Engine) : (depth : Nat) → Walked → Prop
  | outermost {i : Walked} (checked : engine.check i.flow = .ok ()) (inside : i.entry ∈ i.flow.ids)
      (ran : Task.Runs (engine.walk (deepest + 1) i.flow i.entry i.appointed) i.before i.log i.ended
        i.after) : WalkAt engine 0 i
  | inner {depth : Nat} {i j : Walked} {turns : List Turn} {t : Turn} {inners : List Walked}
      (outer : WalkAt engine depth i) (plays : Plays engine depth i turns) (member : t ∈ turns)
      (nests : t.Nests engine (deepest - depth) inners) (inside : j ∈ inners) :
      WalkAt engine (depth + 1) j
  /-- Another node has panicked after the turn. -/
  | before {depth : Nat} {cause : Panic} {i : TornWalk} {j : Walked} {turns : List Turn} {last : Context}
      {back : List Exchange} {t : Turn} {inners : List Walked} (outer : TornAt engine cause depth i)
      (tears : Tears engine depth i cause turns last back) (member : t ∈ turns)
      (nests : t.Nests engine (deepest - depth) inners) (inside : j ∈ inners) :
      WalkAt engine (depth + 1) j
  /-- The node itself has panicked. -/
  | within {depth : Nat} {cause : Panic} {i : TornWalk} {j : Walked} {turns : List Turn} {last : Context}
      {back : List Exchange} {inners : List Walked} {torn : Option TornWalk}
      (outer : TornAt engine cause depth i) (tears : Tears engine depth i cause turns last back)
      (nests : TornNests engine (deepest - depth) back cause inners torn) (inside : j ∈ inners) :
      WalkAt engine (depth + 1) j

/-- What becomes of a walk that is nested in `depth` others. One that is nested too deeply is refused
before any of its nodes is run. -/
inductive Limited (engine : Engine) (depth : Nat) (i : Walked) : Prop
  | played {turns : List Turn} (allowed : depth ≤ deepest) (plays : Plays engine depth i turns)
      (limited : Walk.Limited i.flow (engine.nodeVisitor (deepest - depth) i.flow)
        engine.config.maxExecutions turns)
      (nests : ∀ t ∈ turns, ∃ inners, t.Nests engine (deepest - depth) inners)
  | refused (deeper : depth = deepest + 1) (silent : i.log = [])
      (failed : i.ended = .error (.invalid (.nesting deepest i.entry))) (kept : i.after = i.before)

/-- What becomes of a walk that is torn off: it has run no more nodes than it may, that which panics
included, and it is not nested too deeply. -/
structure TornLimited (engine : Engine) (cause : Panic) (depth : Nat) (i : TornWalk) : Prop where
  allowed : depth ≤ deepest
  tears : ∃ turns last back, Tears engine depth i cause turns last back ∧
    turns.length < engine.config.maxExecutions ∧
    (∀ t ∈ turns, ∃ inners, t.Nests engine (deepest - depth) inners) ∧
    ∃ inners torn, TornNests engine (deepest - depth) back cause inners torn

theorem TornAt.walks {cause : Panic} {i : TornWalk} (walk : TornAt engine cause depth i) :
    depth ≤ deepest ∧ engine.check i.flow = .ok () ∧ i.entry ∈ i.flow.ids ∧
    Task.Panics (engine.walk (deepest - depth + 1) i.flow i.entry i.appointed) i.before i.log cause := by
  induction walk with
  | outermost checked inside panics => exact ⟨Nat.zero_le _, checked, inside, panics⟩
  | @inner depth i j turns last back inners outer tears nests ih =>
    have panics := nests.torn j rfl
    have deeper : depth + 1 ≤ deepest := by
      -- a walk without room is refused, so it does not panic
      by_contra full
      rw [show deepest - depth = 0 by omega] at panics
      exact Task.not_panics_throw panics
    refine ⟨deeper, nests.checked.2 j rfl, (nests.entered.2 j rfl).inside, ?_⟩
    rwa [show deepest - (depth + 1) + 1 = deepest - depth by omega]

theorem TornAt.limited (builtIn : engine.BuiltIn) {cause : Panic} {i : TornWalk}
    (walk : TornAt engine cause depth i) : TornLimited engine cause depth i := by
  obtain ⟨allowed, checked, inside, panics⟩ := walk.walks
  obtain ⟨turns, last, back, torn, heard, -⟩ := walk_torn checked inside panics
  obtain ⟨node, arrival, -, breaks⟩ := torn.panics
  exact ⟨allowed, turns, last, back, ⟨heard, torn⟩, torn.allowed,
    fun t member => turn_nests builtIn checked torn.performed member,
    torn_nests builtIn checked breaks⟩

/-- Each walk that a run walks has the room that its depth leaves. -/
theorem WalkAt.walks (walk : WalkAt engine depth i) : depth ≤ deepest + 1 ∧
    engine.check i.flow = .ok () ∧ i.entry ∈ i.flow.ids ∧
    Task.Runs (engine.walk (deepest + 1 - depth) i.flow i.entry i.appointed) i.before i.log i.ended
      i.after := by
  induction walk with
  | outermost checked inside ran => exact ⟨Nat.zero_le _, checked, inside, ran⟩
  | @inner depth i j turns t inners outer plays member nests inside ih =>
    obtain ⟨bounded, checked, entry, ran⟩ := ih
    have allowed : depth ≤ deepest := by
      -- a walk without room takes no turns, so no other one is nested in it
      by_contra deeper
      rw [show deepest + 1 - depth = 0 by omega] at ran
      obtain ⟨-, failed, -⟩ := Task.runs_throw.mp ran
      rw [plays.ended] at failed
      contradiction
    refine ⟨Nat.succ_le_succ allowed, nests.checked j inside, (nests.entered j inside).inside, ?_⟩
    rw [Nat.add_sub_add_right]
    exact nests.ran j inside
  | @before depth cause i j turns last back t inners outer tears member nests inside =>
    refine ⟨Nat.succ_le_succ outer.walks.1, nests.checked j inside, (nests.entered j inside).inside,
      ?_⟩
    rw [Nat.add_sub_add_right]
    exact nests.ran j inside
  | @within depth cause i j turns last back inners torn outer tears nests inside =>
    refine ⟨Nat.succ_le_succ outer.walks.1, nests.checked.1 j inside,
      (nests.entered.1 j inside).inside, ?_⟩
    rw [Nat.add_sub_add_right]
    exact nests.ran j inside

theorem WalkAt.limited (builtIn : engine.BuiltIn) (walk : WalkAt engine depth i) :
    Limited engine depth i := by
  obtain ⟨bounded, checked, inside, ran⟩ := walk.walks
  by_cases allowed : depth ≤ deepest
  · rw [show deepest + 1 - depth = deepest - depth + 1 by omega] at ran
    obtain ⟨turns, taken, ended, heard⟩ := walk_turns checked inside ran
    exact .played allowed ⟨ended, heard, taken.performed⟩ taken.limited fun t member =>
      turn_nests builtIn checked taken.performed member
  · have deeper : depth = deepest + 1 := by omega
    subst deeper
    rw [Nat.sub_self] at ran
    obtain ⟨silent, failed, kept⟩ := Task.runs_throw.mp ran
    exact .refused rfl silent failed kept

/-! ## Runs -/

/-- However the program is answered, it comes to its end, and it has never asked more often than a number
of times when no flow that was loaded has a loop with more than `most` iterations. -/
structure Terminates {α : Type} (most n : Nat) (p : Program α) : Prop where
  asked : ∀ log q, p.Goes log q → (∀ x ∈ log, x.LoopsWithin most) → log.length ≤ n
  ends : ∀ log q, p.Goes log q → ∃ rest ending, p.Ends (log ++ rest) ending

theorem terminates {α : Type} {t : Task Unit α} (ends : EndsWithin most n t) :
    Terminates most n (t ()) where
  asked _ _ gone answers := (ends ()).goes gone answers
  ends _ _ gone := gone.finish

/-- Runs keep to the limits of the engine. -/
structure KeepsLimits (engine : Engine) : Prop where
  run {most : Nat} {flow : Flow} (ctx : Context) : flow.LoopsWithin most →
    Terminates most (engine.mostAsked most (deepest + 1) + 2) (engine.run flow ctx ())
  runFrom {most : Nat} {flow : Flow} (entry : String) (ctx : Context) : flow.LoopsWithin most →
    Terminates most (engine.mostAsked most (deepest + 1) + 1) (engine.runFrom flow entry ctx ())
  resume (most : Nat) (record : Wait.Record) (event : Event) :
    Terminates most (engine.mostAsked most (deepest + 1) + 5) (engine.resume record event ())
  dispatch (most : Nat) (code : String) (version : Option String) (event : Event) :
    Terminates most (engine.mostAsked most (deepest + 1) + 6) (engine.dispatch code version event ())
  /-- There is such a bound for all flows. -/
  loops : (∀ flow : Flow, flow.LoopsWithin Text.greatest64) ∧
    ∀ x : Exchange, x.LoopsWithin Text.greatest64
  /-- A run that walks comes to its outcome with the walk outside all others. -/
  finish {flow : Flow} {entry : String} {ctx : Context} {log : List Exchange}
    {result : Except Error Outcome} : engine.check flow = .ok () → entry ∈ flow.ids →
    Task.Runs (engine.finish flow entry ctx) () log result () →
    ∃ outcome turns, result = .ok outcome ∧ Finishes engine flow entry ctx log outcome turns ∧
      WalkAt engine 0 ⟨flow, entry, none, ctx, turns.flatMap Turn.exchanges, .ok ⟨outcome.executed⟩,
        outcome.context⟩
  walk {depth : Nat} {i : Walked} : WalkAt engine depth i → Limited engine depth i
  /-- A run that panics while it walks does so with the walk outside all others. -/
  panics {flow : Flow} {entry : String} {ctx : Context} {log : List Exchange} {cause : Panic} :
    engine.check flow = .ok () → entry ∈ flow.ids →
    Task.Panics (engine.finish flow entry ctx) () log cause →
    TornAt engine cause 0 ⟨flow, entry, none, ctx, log⟩
  torn {cause : Panic} {depth : Nat} {i : TornWalk} : TornAt engine cause depth i →
    TornLimited engine cause depth i

/-- With the node types of every engine runs come to their end within its limits, whatever the flows
are and however they lead back, call each other and nest their loops. -/
theorem keepsLimits (builtIn : engine.BuiltIn) : KeepsLimits engine where
  run ctx loops := terminates (run_ends builtIn loops ctx)
  runFrom entry ctx loops := terminates (runFrom_ends builtIn loops entry ctx)
  resume _ record event := terminates (resume_ends builtIn record event)
  dispatch _ code version event := terminates (dispatch_ends builtIn code version event)
  loops := ⟨Flow.loopsWithin, Exchange.loopsWithin⟩
  finish checked inside run := by
    obtain ⟨outcome, turns, rfl, finishes⟩ := finish_runs checked inside run
    exact ⟨outcome, turns, rfl, finishes, .outermost checked inside finishes.walked⟩
  walk walk := walk.limited builtIn
  panics checked inside ran := .outermost checked inside (finish_panics ran)
  torn walk := walk.limited builtIn

end Engine

/-! ### A flow that calls itself -/

namespace Abyss

/-- A node that calls the flow it belongs to. -/
def call : Node where
  id := "call"
  type := "sub_flow"
  params := .ofFields [("flow_code", .str "abyss")]

/-- A flow that is entered by messages and by calls, calls itself, and leads back to one of its
nodes. -/
def flow : Flow where
  code := "abyss"
  nodes := [{ id := "start", type := "start", params := .ofFields [("branches", .arr
      [.ofFields [("branch_id", .str "m"), ("trigger_type", .str "chat_message")],
        .ofFields [("branch_id", .str "m"), ("trigger_type", .str "param_call")]])] },
    call, Ring.node "again"]
  edges := [{ source := "start", target := "call", branch := some "m" },
    { source := "start", target := "again", branch := some "m" },
    { source := "again", target := "again" }]

/-- An engine that lets three nodes run in a walk. -/
def engine : Engine := .standard { maxExecutions := 3 }

def world : World where
  catalog := .ofFlows [flow]

def run : Program (Except Error Outcome × Unit) :=
  engine.run flow (.start "r" flow (Chat.message "first")) ()

/-- The nodes that were told of, and whether they ran well. -/
def nodes : List (String × Bool) :=
  (events (run.heard world)).filterMap fun
    | .nodeFinished _ id _ success => some (id, success)
    | _ => none

end Abyss

/-- Nine walks are nested in each other, and each of them lists one node more than it may run. -/
theorem abyss_keepsLimits : Abyss.engine.BuiltIn ∧ Engine.KeepsLimits Abyss.engine ∧
    Abyss.engine.check Abyss.flow = .ok () ∧
    Abyss.nodes = List.replicate 9 ("start", true) ++
      (List.replicate 9 [("call", false), ("again", true), ("again", false)]).flatten := by
  have builtIn := Engine.builtIn_standard { maxExecutions := 3 }
  exact ⟨builtIn, Engine.keepsLimits builtIn, rfl, by decide +kernel⟩

end Parley
