import Parley.Proofs.Engine.Branching
import Parley.Proofs.Runner.IfElse
/-!
# Conditional nodes

A conditional node takes the first branch that holds, else its last resort, and its output names what it
has taken (`Engine.takesFirst`). All operands of a branch are evaluated before it is decided, so it fails
when one of them has no value, even if the others decide the branch. Operands of branches that are not
evaluated count for nothing.
-/
namespace Parley

open Runner (value)
open Runner.IfElse (Evaluated operands)

namespace Engine

/-- The node has taken a branch, or none: its output names the branch, and the branch is followed. -/
structure Took (flow : Flow) (node : Node) (arrival : Arrival) (ctx : Context) (label : Option String)
    (report : Report) (failure : Option Error) (ctx' : Context) : Prop where
  works : failure = none
  result : report.result = some (.ofFields [("branch_id", .ofString? label)])
  recorded : ctx' = ctx.record node.id (.ofFields [("branch_id", .ofString? label)])
  follows : ∀ level, Follows flow node.id label
    ((Walk.visitOf level node arrival report none).leadsTo (flow.children node.id))

/-- How a conditional node ends. -/
structure TakesFirst (around : Surroundings) (flow : Flow) (node : Node) (arrival : Arrival)
    (params : Runner.IfElse.Params) (ctx : Context) (log : List Exchange) (report : Report)
    (failure : Option Error) (ctx' : Context) : Prop where
  silent : log = []
  /-- The first branch that holds is taken when all operands up to it have values, whatever comes behind
  it. -/
  taken : ∀ before b after, params.branches = before ++ b :: after →
    (∀ x ∈ before, x.Passed around ctx) → b.Resolves around ctx → b.Holds around ctx →
    Took flow node arrival ctx (some b.label) report failure ctx'
  /-- When none holds, it is the last resort, or nothing. -/
  otherwise : (∀ b ∈ params.branches, b.Passed around ctx) →
    Took flow node arrival ctx params.otherwise report failure ctx'
  /-- There is no other way to go on. -/
  decided : failure = none → (∃ before b after, params.branches = before ++ b :: after ∧
      (∀ x ∈ before, x.Passed around ctx) ∧ b.Resolves around ctx ∧ b.Holds around ctx) ∨
    ∀ b ∈ params.branches, b.Passed around ctx
  /-- A branch without conditions is passed. -/
  bare : ∀ b ∈ params.branches, b.conditions = [] → b.Passed around ctx
  /-- The node fails just when an operand of an evaluated branch has no value, with the error of the first
  such operand, -/
  failed : failure.isSome ↔
    ∃ b, Evaluated around ctx params.branches b ∧ ¬ b.Resolves around ctx
  error : ∀ e, failure = some e ↔
    ∃ b, Evaluated around ctx params.branches b ∧ FailsFirst (value around ctx) (operands b.conditions) e
  /-- and then it takes no branch. -/
  untaken : failure.isSome → report.result = none ∧ ctx' = ctx ∧ ∀ level reason,
    (Walk.visitOf level node arrival report (some reason)).leadsTo (flow.children node.id) = []
  /-- It ends in the same way wherever the operands of the evaluated branches have the same values, be
  it that all others have none. -/
  unread : ∀ {engine' : Engine} {room : Nat} {first : Bool} {arrival' : Arrival} {ctx₁ : Context}
    {log₁ : List Exchange} {ending₁ : Except Panic ((Report × Option Error) × Context)}
    {r : Registration Runner} {inputs : Keyed Json}, engine'.Starts ctx₁ node r inputs →
    r.runner = Runner.ifElse →
    (∀ b, Evaluated around ctx params.branches b → ∀ p ∈ operands b.conditions,
      value (engine'.around room) ctx₁ p = value around ctx p) →
    Program.Ends (engine'.nodeVisitor room flow first node arrival' ctx₁) log₁ ending₁ →
    ∃ ctx₁', ending₁ = .ok ((report, failure), ctx₁')

variable {engine : Engine} {flow : Flow} {room : Nat} {first : Bool} {node : Node} {arrival : Arrival}
  {ctx ctx' : Context} {log : List Exchange} {report : Report} {failure : Option Error}
  {ending : Except Panic ((Report × Option Error) × Context)} {r : Registration Runner}
  {inputs : Keyed Json} {params : Runner.IfElse.Params}

/-- The report about a label. It depends on no more of the call than the flow and the node. -/
def reportOn (flow : Flow) (node : Node) (label : Option String) : Report :=
  Runner.IfElse.follow (nodeCall flow 0 false node { id := node.id } []) { id := node.id } label

theorem reportOn_children (flow : Flow) (node : Node) (label : Option String) :
    (reportOn flow node label).children = .only (label.elim [] (flow.branchTargets node.id)) := by
  cases label <;> rfl

theorem reportOn_result (flow : Flow) (node : Node) (label : Option String) :
    (reportOn flow node label).result = some (.ofFields [("branch_id", .ofString? label)]) := rfl

theorem reportOn_id (flow : Flow) (node : Node) (label : Option String) :
    (reportOn flow node label).id = node.id := by
  cases label <;> rfl

theorem reportOn_suspended (flow : Flow) (node : Node) (label : Option String) :
    (reportOn flow node label).suspended = false := by
  cases label <;> rfl

/-- How a conditional node ends once its branches have come to something. -/
inductive Concluded (flow : Flow) (node : Node) (ctx : Context) (otherwise : Option String) :
    Except Error (Option String) → Report → Option Error → Context → Prop
  | took (label : Option String) :
    Concluded flow node ctx otherwise (.ok label) (reportOn flow node (label.or otherwise)) none
      (ctx.record node.id (.ofFields [("branch_id", .ofString? (label.or otherwise))]))
  | failed (e : Error) :
    Concluded flow node ctx otherwise (.error e) { id := node.id } (some e) ctx

namespace Concluded

variable {otherwise : Option String} {outcome : Except Error (Option String)}

theorem failure_iff (ended : Concluded flow node ctx otherwise outcome report failure ctx') (e : Error) :
    failure = some e ↔ outcome = .error e := by
  cases ended <;> simp

theorem untaken (ended : Concluded flow node ctx otherwise outcome report failure ctx')
    (fails : failure.isSome) : report.result = none ∧ ctx' = ctx ∧ ∀ level reason,
      (Walk.visitOf level node arrival report (some reason)).leadsTo (flow.children node.id) = [] := by
  cases ended with
  | took => simp at fails
  | failed => exact ⟨rfl, rfl, fun _ _ => rfl⟩

/-- What the branches have come to settles the report, whatever the context. -/
theorem unread {ctx₁ ctx₁' : Context} {report₁ : Report} {failure₁ : Option Error}
    (ended : Concluded flow node ctx otherwise outcome report failure ctx')
    (ended' : Concluded flow node ctx₁ otherwise outcome report₁ failure₁ ctx₁') :
    report₁ = report ∧ failure₁ = failure := by
  cases ended <;> cases ended' <;> exact ⟨rfl, rfl⟩

theorem took_of_ok {label : Option String}
    (ended : Concluded flow node ctx otherwise (.ok label) report failure ctx') (arrival : Arrival) :
    Took flow node arrival ctx (label.or otherwise) report failure ctx' := by
  cases ended
  refine ⟨rfl, reportOn_result .., rfl, fun level => ?_⟩
  rw [leadsTo_visitOf (reportOn_suspended ..)]
  exact follows_of_kept (reportOn_children ..)

end Concluded

/-- A conditional node never panics, so it concludes. -/
theorem conditional_concludes (starts : engine.Starts ctx node r inputs)
    (conditional : r.runner = Runner.ifElse)
    (read : node.params.decode Runner.IfElse.Params.decoder = .ok params)
    (run : Program.Ends (engine.nodeVisitor room flow first node arrival ctx) log ending) :
    log = [] ∧ ∃ report failure ctx', ending = .ok ((report, failure), ctx') ∧
      Concluded flow node ctx params.otherwise
        (Runner.IfElse.taken (engine.around room) ctx params.branches) report failure ctx' := by
  obtain _ | ⟨⟨report, failure⟩, ctx'⟩ := ending
  · obtain ⟨_, _, starts', worked⟩ := visitor_panics.mp run
    obtain ⟨rfl, -⟩ := starts.unique starts'
    rw [conditional] at worked
    exact absurd worked (@Runner.ifElse_calm _ _ _ _ _)
  obtain ⟨result, s, worked, rfl, ended⟩ := (visitor_iff starts).mp run
  rw [conditional] at worked
  suffices concluded : log = [] ∧ Concluded flow node ctx params.otherwise
      (Runner.IfElse.taken (engine.around room) ctx params.branches) s.report failure ctx' from
    ⟨concluded.1, s.report, failure, ctx', rfl, concluded.2⟩
  obtain ⟨silent, ⟨e, failed, rfl, rfl⟩ | ⟨label, taken, rfl, rfl⟩⟩ := Runner.ifElse_runs read worked
  · refine ⟨silent, ?_⟩
    rw [failed]
    cases ended
    exact .failed e
  · refine ⟨silent, ?_⟩
    rw [taken]
    cases ended
    have same : Runner.IfElse.follow (nodeCall flow (deepest - room) first node arrival inputs)
        { id := node.id } (label.or params.otherwise) = reportOn flow node (label.or params.otherwise) := rfl
    rw [same, recorded_context (reportOn_suspended ..) (reportOn_result ..), reportOn_id]
    exact .took label

/-- A conditional node never panics, and it takes the first branch that holds, for all parameters and
contexts. -/
theorem takesFirst (starts : engine.Starts ctx node r inputs) (conditional : r.runner = Runner.ifElse)
    (read : node.params.decode Runner.IfElse.Params.decoder = .ok params)
    (run : Program.Ends (engine.nodeVisitor room flow first node arrival ctx) log ending) :
    ∃ report failure ctx', ending = .ok ((report, failure), ctx') ∧
      TakesFirst (engine.around room) flow node arrival params ctx log report failure ctx' := by
  obtain ⟨silent, report, failure, ctx', rfl, ended⟩ :=
    conditional_concludes starts conditional read run
  refine ⟨report, failure, ctx', rfl, ?_⟩
  have first (e : Error) := (ended.failure_iff e).trans Runner.IfElse.taken_error_iff
  refine { silent, taken := ?taken, otherwise := ?otherwise, decided := ?decided, bare := ?bare,
           failed := ?failed, error := first, untaken := ?untaken, unread := ?unread }
  case taken =>
    intro before b after split passed resolves holds
    rw [Runner.IfElse.Decides.taken (.takes split passed resolves holds)] at ended
    exact ended.took_of_ok arrival
  case otherwise =>
    intro passed
    rw [Runner.IfElse.Decides.taken (.passes passed)] at ended
    exact ended.took_of_ok arrival
  case decided =>
    rintro rfl
    have decides : Runner.IfElse.Decides (engine.around room) ctx params.branches _ :=
      Runner.IfElse.decides_iff.mpr rfl
    generalize Runner.IfElse.taken (engine.around room) ctx params.branches = outcome at ended decides
    cases ended
    cases decides with
    | takes split passed resolves holds => exact .inl ⟨_, _, _, split, passed, resolves, holds⟩
    | passes passed => exact .inr passed
  case bare =>
    intro b _ none
    constructor
    · simp [Runner.IfElse.Branch.Resolves, operands, none]
    · simp [Runner.IfElse.Branch.Holds, none]
  case failed =>
    simp only [Option.isSome_iff_exists, first, Runner.IfElse.not_resolves_iff, ← exists_and_left]
    exact exists_comm
  case untaken =>
    exact ended.untaken
  case unread =>
    intro engine' room' first' arrival' ctx₁ log₁ ending₁ r' inputs' starts' conditional' same run'
    obtain ⟨-, report₁, failure₁, ctx₁', rfl, ended'⟩ :=
      conditional_concludes starts' conditional' read run'
    rw [Runner.IfElse.taken_congr same] at ended'
    obtain ⟨rfl, rfl⟩ := ended.unread ended'
    exact ⟨ctx₁', rfl⟩

end Engine

/-! ### A branch that is decided before it is evaluated -/

namespace Crossroads

/-- A comparison of two parameters, as it is written. -/
def comparison (left : Json) (op : String) (right : Json) : Json :=
  .ofFields [("left", left), ("op", .str op), ("right", right)]

def reference (expr : String) : Json := .ofFields [("$ref", .str expr)]

/-- A node that looks at the value of an expression twice, and at nothing at last. -/
def node (expr : String) : Node where
  id := "turn"
  type := "if_else"
  params := .ofFields [("branches", .arr [
      .ofFields [("branch_id", .str "bare")],
      .ofFields [("branch_id", .str "both"), ("conditions", .arr [
        comparison (.str "stop") "==" (.str "go"),
        comparison (reference expr) "==" (.str "hello")])],
      .ofFields [("branch_id", .str "either"), ("logic", .str "or"), ("conditions", .arr [
        comparison (reference expr) "contains" (.str "ll"),
        comparison (.str "stop") "==" (.str "go")])],
      .ofFields [("branch_id", .str "behind"), ("conditions", .arr [
        comparison (reference "nowhere") "==" (.str "go")])]]),
    ("else_branch", .str "rest")]

/-- The branches of the node, as they are read. -/
def bare : Runner.IfElse.Branch := { label := "bare" }

def both (expr : String) : Runner.IfElse.Branch where
  label := "both"
  conditions := [⟨.str "stop", .eq, .str "go"⟩, ⟨reference expr, .eq, .str "hello"⟩]

def either (expr : String) : Runner.IfElse.Branch where
  label := "either"
  logic := .any
  conditions := [⟨reference expr, .contains, .str "ll"⟩, ⟨.str "stop", .eq, .str "go"⟩]

def behind : Runner.IfElse.Branch where
  label := "behind"
  conditions := [⟨reference "nowhere", .eq, .str "go"⟩]

def params (expr : String) : Runner.IfElse.Params :=
  ⟨[bare, both expr, either expr, behind], some "rest"⟩

def flow (expr : String) : Flow where
  code := "crossroads"
  nodes := [Crossing.start, node expr] ++ ["a", "b", "c", "d"].map Ring.node
  edges := { source := "start", target := "turn", branch := some "m" } ::
    [("a", "bare"), ("b", "either"), ("c", "behind"), ("b", "rest"), ("d", "either")].map
      fun (target, label) => { source := "turn", target, branch := some label }

def context (expr : String) : Context :=
  .start "r" (flow expr) (.chatMessage { organization := "org", conversation := "conv" } "hello")

/-- The run of the node. -/
def visit (expr : String) : Program ((Report × Option Error) × Context) :=
  (Engine.standard {}).nodeVisitor 8 (flow expr) false (node expr) { id := "turn" } (context expr)

/-- How it has ended, and the context that it has left. -/
def ended (expr : String) : Except Panic ((Report × Option Error) × Context) := ((visit expr).run {}).1

theorem starts (expr : String) : ∃ r, (Engine.standard {}).Starts (context expr) (node expr) r [] ∧
    r.runner = Runner.ifElse := by
  have served : ((Engine.standard {}).registry.resolve "if_else" "v0").toOption.isSome := by
    decide +kernel
  obtain ⟨r, starts⟩ : ∃ r, (Engine.standard {}).Starts (context expr) (node expr) r [] :=
    Engine.exists_starts rfl served _
  obtain ⟨builtin, type⟩ := (Engine.builtIn_standard {}).serves starts.served
  exact ⟨r, starts, Runner.builtin_runner rfl builtin type⟩

/-- How the node ends when it looks at an expression. -/
def TakesFirst (expr : String) (report : Report) (failure : Option Error) (ctx' : Context) : Prop :=
  Engine.TakesFirst ((Engine.standard {}).around 8) (flow expr) (node expr) { id := "turn" }
    (params expr) (context expr) ((visit expr).heard {}) report failure ctx'

end Crossroads

/-- The third branch holds, so nobody minds that the fourth cannot be evaluated. But when the second
cannot be, the node fails, although the first condition of that branch decides it already. -/
theorem crossroads_take_first :
    (∀ expr, ∃ r, (Engine.standard {}).Starts (Crossroads.context expr) (Crossroads.node expr) r [] ∧
      r.runner = Runner.ifElse) ∧
    (∃ report failure ctx', Crossroads.ended "trigger.message" = .ok ((report, failure), ctx') ∧
      Crossroads.TakesFirst "trigger.message" report failure ctx' ∧
      Engine.Took (Crossroads.flow "trigger.message") (Crossroads.node "trigger.message")
        { id := "turn" } (Crossroads.context "trigger.message") (some "either") report failure ctx') ∧
    ∃ report failure ctx', Crossroads.ended "nowhere" = .ok ((report, failure), ctx') ∧
      Crossroads.TakesFirst "nowhere" report failure ctx' ∧
      failure.map Error.message = some "Unresolved reference: nowhere" ∧
      ∃ b, Evaluated ((Engine.standard {}).around 8) (Crossroads.context "nowhere")
        (Crossroads.params "nowhere").branches b ∧
          ¬ b.Resolves ((Engine.standard {}).around 8) (Crossroads.context "nowhere") := by
  have read (expr : String) : (Crossroads.node expr).params.decode Runner.IfElse.Params.decoder =
      .ok (Crossroads.params expr) := rfl
  have takes (expr : String) : ∃ report failure ctx', Crossroads.ended expr =
      .ok ((report, failure), ctx') ∧ Crossroads.TakesFirst expr report failure ctx' := by
    obtain ⟨r, starts, conditional⟩ := Crossroads.starts expr
    exact Engine.takesFirst starts conditional (read expr) ((Crossroads.visit expr).ends_heard {})
  have passed : ∀ x ∈ [Crossroads.bare, Crossroads.both "trigger.message"],
      x.Passed ((Engine.standard {}).around 8) (Crossroads.context "trigger.message") := by
    simp only [List.forall_mem_cons, List.not_mem_nil, false_implies, implies_true, and_true]
    exact ⟨Runner.IfElse.passed_iff.mpr ⟨[], rfl, rfl⟩,
      Runner.IfElse.passed_iff.mpr ⟨[false, true], rfl, rfl⟩⟩
  have outcomes : Runner.IfElse.outcomes ((Engine.standard {}).around 8)
      (Crossroads.context "trigger.message") (Crossroads.either "trigger.message").conditions =
        .ok [true, false] := rfl
  refine ⟨Crossroads.starts, ?holds, ?fails⟩
  case holds =>
    obtain ⟨report, failure, ctx', ended, took⟩ := takes "trigger.message"
    exact ⟨report, failure, ctx', ended, took, took.taken _ _ _ rfl passed
      (Runner.IfElse.resolves_iff.mpr ⟨_, outcomes⟩) ((Runner.IfElse.combine_iff outcomes).mp rfl)⟩
  case fails =>
    obtain ⟨report, failure, ctx', ended, took⟩ := takes "nowhere"
    have said : (Crossroads.ended "nowhere").map (fun ended => ended.1.2.map Error.message) =
        .ok (some "Unresolved reference: nowhere") := by decide +kernel
    rw [ended] at said
    have failed : failure.map Error.message = some "Unresolved reference: nowhere" :=
      Except.ok.inj said
    refine ⟨report, failure, ctx', ended, took, failed, took.failed.mp ?_⟩
    exact Option.isSome_map.symm.trans (congrArg Option.isSome failed)

end Parley
