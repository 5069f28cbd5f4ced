import Parley.Runner.Start
import Parley.Runner.WaitMessage
import Parley.Proofs.Keyed
import Parley.Proofs.Log
/-!
# What a payload can say of a run

A node that takes a trigger puts out the fields of the payload and, over them, what identifies the run.
A run that has no topic or that goes on for nobody puts nothing under the key, and there the payload
speaks for itself: two payloads are told apart by it, and by no other key that identifies the run
(`Runner.keepsIdentity`).
-/
namespace Parley.Runner

/-! ## Keys -/

/-- The keys under which a node tells the run that it belongs to. -/
def identityKeys : List String :=
  ["trigger_type", "organization_code", "conversation_id", "topic_id", "operator"]

/-- The run has nothing to tell under the key. -/
inductive Silent (ctx : Context) : String → Prop
  | topic : ctx.scope.topic = none → Silent ctx "topic_id"
  | operator : ctx.operator.uid = "" → Silent ctx "operator"

/-- Contexts with the same trigger and scope and on the same behalf. -/
structure SameRun (c c' : Context) : Prop where
  trigger : c'.trigger = c.trigger
  scope : c'.scope = c.scope
  operator : c'.operator = c.operator

section
variable {c c' : Context} {trigger : Trigger} {key : String}

theorem SameRun.identityFields (same : SameRun c c') (trigger : Trigger) :
    identityFields c' trigger = identityFields c trigger := by
  simp only [Runner.identityFields, same.scope, same.operator]

theorem silent_iff : Silent c key ↔
    key = "topic_id" ∧ c.scope.topic = none ∨ key = "operator" ∧ c.operator.uid = "" := by
  constructor
  · rintro (none | nobody)
    · exact .inl ⟨rfl, none⟩
    · exact .inr ⟨rfl, nobody⟩
  · rintro (⟨rfl, none⟩ | ⟨rfl, nobody⟩)
    · exact .topic none
    · exact .operator nobody

/-- The keys of the fields that identify the run. -/
theorem keys_identityFields (c : Context) (trigger : Trigger) :
    (identityFields c trigger).map Prod.fst =
      ["trigger_type", "organization_code", "conversation_id"]
        ++ (if c.scope.topic = none then [] else ["topic_id"])
        ++ (if c.operator.uid = "" then [] else ["operator"]) := by
  unfold identityFields operatorFields
  cases c.scope.topic <;> by_cases nobody : c.operator.uid = "" <;> simp [nobody]

theorem mem_identityFields :
    key ∈ (identityFields c trigger).map Prod.fst ↔ key ∈ identityKeys ∧ ¬ Silent c key := by
  rw [keys_identityFields, silent_iff]
  by_cases none : c.scope.topic = none <;> by_cases nobody : c.operator.uid = "" <;>
    grind [identityKeys]

theorem identityFields_distinct : ((identityFields c trigger).map Prod.fst).Nodup := by
  rw [keys_identityFields]
  split <;> split <;> decide

/-! ## Outputs -/

/-- A field of a payload that is no object has none of the keys. -/
theorem get?_payloadFields (payload : Json) (member : key ∈ identityKeys) :
    Keyed.get? key (payloadFields payload) = payload.field? key := by
  have other : key ≠ "payload" := by
    rintro rfl
    exact absurd member (by decide)
  cases payload <;> simp [payloadFields, Json.field?, Keyed.get?, Ne.symm other]

/-- What the run tells stands in the output, whatever is in the payload. -/
theorem triggerOutput_own (same : SameRun c c') (member : key ∈ identityKeys)
    (tells : ¬ Silent c key) :
    (triggerOutput c' trigger).field? key = (triggerOutput c trigger).field? key := by
  have known : key ∈ (identityFields c trigger).map Prod.fst :=
    mem_identityFields.mpr ⟨member, tells⟩
  obtain ⟨⟨_, v⟩, field, rfl⟩ := List.mem_map.mp known
  have told (payload : Json) :
      Keyed.get? _ (Keyed.insertAll (payloadFields payload) (identityFields c trigger)) = some v :=
    Keyed.get?_insertAll_of_mem identityFields_distinct field
  simp only [triggerOutput, Json.field?, same.identityFields, told]

/-- Where the run has nothing to tell, the payload has its way. -/
theorem triggerOutput_silent (silent : Silent c key) :
    (triggerOutput c trigger).field? key = c.payload.field? key := by
  have other : key ∉ (identityFields c trigger).map Prod.fst := fun member =>
    (mem_identityFields.mp member).2 silent
  have known : key ∈ identityKeys := by
    cases silent <;> decide
  exact (Keyed.get?_insertAll_of_not_mem other).trans (get?_payloadFields c.payload known)

/-- The output of a start node that has no branch for the trigger. -/
def quietOutput (trigger : Trigger) : Json :=
  .ofFields [("trigger_type", trigger.toJson)]

/-- Whether a start node takes the trigger is decided without the payload. -/
theorem Start.execute_result {params : Start.Params} {call : Call} {r r' : Report}
    (executed : Start.execute params c call r = .ok r')
    (taken : call.appointed.getD c.trigger = trigger) :
    r'.result = some (
      if ∃ b ∈ params.branches, b.trigger = trigger then Start.output c call.node trigger
      else quietOutput trigger) := by
  unfold Start.execute at executed
  rw [taken] at executed
  dsimp only at executed
  split at executed
  · next none =>
    have no : ¬ ∃ b ∈ params.branches, b.trigger = trigger := by
      simpa using none
    obtain rfl := Except.ok.inj executed
    rw [if_neg no]
    rfl
  · next branch found =>
    have yes : ∃ b ∈ params.branches, b.trigger = trigger :=
      ⟨branch, List.mem_of_find?_eq_some found, by simpa using List.find?_some found⟩
    split at executed
    · contradiction
    · obtain rfl := Except.ok.inj executed
      rw [if_pos yes]
      rfl

/-! ## Runs -/

/-- A call that takes a trigger: of a start node that does not start the body of a loop, or of the node
that the run has waited at. -/
inductive Takes (ctx : Context) (call : Call) : Runner → Prop
  | start : call.appointed.getD ctx.trigger ≠ .loopStart → Takes ctx call start
  | waitMessage : call.isFirst = true → Takes ctx call waitMessage

/-- How the outputs of a node go together that have been made in two contexts. -/
structure KeepsIdentity (c c' : Context) (out out' : Json) : Prop where
  /-- They agree on all that the run tells, whatever is in the payloads. -/
  own : ∀ key ∈ identityKeys, ¬ Silent c key → out'.field? key = out.field? key
  /-- Where the run has nothing to tell, each payload has its way, unless none of them is put out. -/
  silent : ∀ key, Silent c key → (∃ t, out = quietOutput t ∧ out' = quietOutput t) ∨
    out.field? key = c.payload.field? key ∧ out'.field? key = c'.payload.field? key

theorem KeepsIdentity.quiet (trigger : Trigger) :
    KeepsIdentity c c' (quietOutput trigger) (quietOutput trigger) where
  own _ _ _ := rfl
  silent _ _ := .inl ⟨trigger, rfl, rfl⟩

theorem KeepsIdentity.took (same : SameRun c c') (trigger : Trigger) :
    KeepsIdentity c c' (triggerOutput c trigger) (triggerOutput c' trigger) where
  own _ member tells := triggerOutput_own same member tells
  silent key silent := by
    have silent' : Silent c' key := by
      rwa [silent_iff, same.scope, same.operator, ← silent_iff]
    exact .inr ⟨triggerOutput_silent silent, triggerOutput_silent silent'⟩

variable {around : Surroundings} {call : Call} {runner : Runner} {r r' : Report}
  {log log' : List Exchange} {s s' : NodeState}

theorem start_runs (run : Task.Runs (start around call) ⟨c, r⟩ log (.ok ()) s) :
    ∃ params, parameters Start.Params.decoder call = .ok params ∧
      Start.execute params c call r = .ok s.report := by
  simp only [start, report, Task.runs_ofExcept_bind, Task.runs_get_bind, Task.runs_modify] at run
  obtain ⟨_, -, -, failed, -⟩ | ⟨params, read, ⟨_, -, -, failed, -⟩ | ⟨r', executed, -, -, rfl⟩⟩ := run
  · contradiction
  · contradiction
  · exact ⟨params, read, executed⟩

theorem waitMessage_runs (first : call.isFirst = true)
    (run : Task.Runs (waitMessage around call) ⟨c, r⟩ log (.ok ()) s) :
    s.report.result = some (triggerOutput c c.trigger) := by
  simp only [waitMessage, first, if_true, report, Task.runs_get_bind, Task.runs_modify] at run
  obtain ⟨-, -, rfl⟩ := run
  rfl

/-- No payload has a say in what a run tells of itself, and only where it tells nothing can a payload
speak for it. -/
theorem keepsIdentity (takes : Takes c call runner) (same : SameRun c c')
    (run : Task.Runs (runner around call) ⟨c, r⟩ log (.ok ()) s)
    (run' : Task.Runs (runner around call) ⟨c', r'⟩ log' (.ok ()) s') :
    ∃ out out', s.report.result = some out ∧ s'.report.result = some out' ∧
      KeepsIdentity c c' out out' := by
  cases takes with
  | start outside =>
    obtain ⟨params, read, executed⟩ := start_runs run
    obtain ⟨params', read', executed'⟩ := start_runs run'
    obtain rfl : params = params' := Except.ok.inj (read.symm.trans read')
    have result := Start.execute_result executed rfl
    have result' := Start.execute_result executed' (by rw [same.trigger])
    refine ⟨_, _, result, result', ?_⟩
    split
    · simp only [Start.output, if_neg outside]
      exact .took same _
    · exact .quiet _
  | waitMessage first =>
    have result := waitMessage_runs first run
    have result' := waitMessage_runs first run'
    rw [same.trigger] at result'
    exact ⟨_, _, result, result', .took same _⟩

end

/-! ## A forged payload -/

namespace Forgery

/-- A start node for messages. -/
def node : Node where
  id := "start"
  type := "start"
  params := .ofFields [("branches", .arr [.ofFields
    [("branch_id", .str "m"), ("trigger_type", .str "chat_message")]])]

def call : Call where
  flow := { code := "talk", nodes := [node] }
  node := node
  isFirst := true
  inputs := []
  parents := []
  appointed := none
  maySuspend := true
  depth := 0

def around : Surroundings where
  resolver := Path.resolve
  check _ := .ok ()
  nested _ _ _ := throw (.invalid (.noEntry "talk"))

/-- The state before a run without a topic that goes on for nobody. -/
def before (payload : Json) : NodeState where
  context := .start "r" call.flow
    { trigger := .chatMessage, scope := ⟨"org", "conv", none, none⟩, payload := payload }
  report := { id := "start" }

/-- The state behind it. -/
def after (payload : Json) : NodeState where
  context := (before payload).context
  report :=
    { id := "start"
      result := some (triggerOutput (before payload).context .chatMessage)
      children := .only [] }

theorem runs (payload : Json) :
    Task.Runs (start around call) (before payload) [] (.ok ()) (after payload) :=
  Program.Goes.stay _

def honest : Json := .ofFields [("message", .str "hi")]

/-- A message that claims to be for an administrator, in a topic and from a routine. -/
def forged : Json :=
  .ofFields [("message", .str "hi"), ("operator", .str "admin"), ("topic_id", .str "t"),
    ("trigger_type", .str "routine")]

end Forgery

open Forgery in
/-- The forged message has its way where the run has nothing to tell, and only there. -/
theorem forged_speaks :
    Task.Runs (start around call) (before honest) [] (.ok ()) (after honest) ∧
    Task.Runs (start around call) (before forged) [] (.ok ()) (after forged) ∧
    ∃ out out', (after honest).report.result = some out ∧ (after forged).report.result = some out' ∧
      KeepsIdentity (before honest).context (before forged).context out out' ∧
      identityKeys.map out.field? = [some (.str "chat_message"), some (.str "org"),
        some (.str "conv"), none, none] ∧
      identityKeys.map out'.field? = [some (.str "chat_message"), some (.str "org"),
        some (.str "conv"), some (.str "t"), some (.str "admin")] := by
  have takes : Takes (before honest).context call start := .start (by decide)
  have same : SameRun (before honest).context (before forged).context := ⟨rfl, rfl, rfl⟩
  obtain ⟨out, out', result, result', keeps⟩ :=
    keepsIdentity takes same (runs honest) (runs forged)
  obtain rfl := Option.some.inj result
  obtain rfl := Option.some.inj result'
  exact ⟨runs honest, runs forged, _, _, result, result', keeps, rfl, rfl⟩

end Parley.Runner
