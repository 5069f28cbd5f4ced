import Parley.Proofs.Requests
import Parley.Proofs.Runner.Steps
/-!
# What nodes write into their reports

A node that works writes a result, lines and the children that it keeps into its report, and neither
fails nor suspends the run by it (`Runner.builtins_write`). A node that waits suspends the run when it
has saved a record, and it saves no more than one (`Runner.waitMessage_reports`).
-/
namespace Parley

/-- The records that have been saved, in order. -/
def saves (log : List Exchange) : List Wait.Record := log.filterMap Exchange.saved?

@[simp] theorem saves_nil : saves [] = [] := rfl

@[simp] theorem saves_append (log more : List Exchange) :
    saves (log ++ more) = saves log ++ saves more := List.filterMap_append

theorem mem_saves {log : List Exchange} {record : Wait.Record} :
    record ∈ saves log ↔ ⟨.save record, .ok ()⟩ ∈ log := by
  simp [saves, Exchange.saved?_eq_some]

/-- What the work of a node writes into its report does not undo it. -/
structure Report.Lasting (inv : Report → Prop) : Prop where
  withResult : ∀ r v, inv r → inv (r.withResult v)
  keep : ∀ r ids, inv r → inv (r.keep ids)
  addLine : ∀ r line, inv r → inv (r.addLine line)

/-- It does not undo that a node has failed or suspends the run, and does not make it so. -/
theorem Report.lasting_flags (success suspended : Bool) :
    Report.Lasting fun r => r.success = success ∧ r.suspended = suspended :=
  ⟨fun _ _ kept => kept, fun _ _ kept => kept, fun _ _ kept => kept⟩

namespace Program

theorem asks_any {α : Type} {fair : Exchange → Prop} (p : Program α) :
    p.Asks fair (fun _ => True) fun _ => True := by
  induction p with
  | done v => trivial
  | panic cause => trivial
  | ask r next ih => exact ⟨trivial, fun a _ => ih a⟩

end Program

theorem Task.asks_any {σ α : Type} (t : Task σ α) : Task.Asks (fun _ => True) (fun _ => True) t :=
  fun s _ => (t s).asks_any.mono (fun _ => id) (fun _ => id) fun _ _ => ⟨trivial, fun _ _ => trivial⟩

namespace Runner
open Parley.Task

/-- What lasts in a report, the runner does not undo. -/
def Writes (runner : Runner) : Prop :=
  ∀ inv, Report.Lasting inv → ∀ around call,
    Asks (fun s : NodeState => inv s.report) (fun _ => True) (runner around call)

theorem Writes.flags {runner : Runner} (writes : Writes runner) {around : Surroundings} {call : Call}
    {s s' : NodeState} {log : List Exchange} {result : Except Error Unit}
    (run : Task.Runs (runner around call) s log result s') :
    s'.report.success = s.report.success ∧ s'.report.suspended = s.report.suspended :=
  ((writes _ (Report.lasting_flags _ _) around call).run ⟨rfl, rfl⟩ (fun _ _ => trivial) run).2.1

section
variable {inv : Report → Prop}

private theorem writes_ofExcept {α : Type} (e : Except Error α) :
    Asks (fun s : NodeState => inv s.report) (fun _ => True) (Task.ofExcept e) :=
  keeps_ofExcept fun _ _ => trivial

private theorem writes_ofChecked {α : Type} (checked : Except Panic α) :
    Asks (fun s : NodeState => inv s.report) (fun _ => True) (Task.ofChecked checked) :=
  keeps_ofChecked fun _ _ => trivial

private theorem writes_report {change : Report → Report} (keeps : ∀ r, inv r → inv (change r)) :
    Asks (fun s => inv s.report) (fun _ => True) (report change) :=
  keeps_modify fun s kept => keeps s.report kept

private theorem writes_context (change : Context → Context) :
    Asks (fun s => inv s.report) (fun _ => True) (context change) :=
  keeps_modify fun _ kept => kept

private theorem writes_logWalk (lasting : Report.Lasting inv) (place : String) (walk : Walk) :
    Asks (fun s => inv s.report) (fun _ => True) (logWalk place walk) := by
  refine writes_report fun r kept => ?_
  induction walk.visits generalizing r with
  | nil => exact kept
  | cons v visits ih => exact ih _ (lasting.addLine r _ kept)

private theorem start_writes : Writes start := by
  intro inv lasting around call
  refine keeps_bind (writes_ofExcept _) fun params _ => keeps_bind keeps_get fun s here =>
    keeps_ofExcept_bind fun r executed => writes_report fun _ _ => ?_
  unfold Start.execute at executed
  dsimp only at executed
  split at executed
  · rw [← Except.ok.inj executed]
    exact lasting.keep _ _ (lasting.withResult _ _ (lasting.addLine _ _ here))
  · split at executed
    · contradiction
    · rw [← Except.ok.inj executed]
      exact lasting.keep _ _ (lasting.withResult _ _ here)

private theorem ifElse_writes : Writes ifElse := by
  intro inv lasting around call
  refine keeps_bind (writes_ofExcept _) fun params _ => keeps_bind keeps_get fun s _ =>
    keeps_bind (writes_ofExcept _) fun label _ => writes_report fun r kept => ?_
  unfold IfElse.follow
  cases label.or params.otherwise with
  | some l => exact lasting.withResult _ _ (lasting.keep _ _ (lasting.addLine _ _ kept))
  | none => exact lasting.withResult _ _ (lasting.keep _ _ (lasting.addLine _ _ kept))

private theorem finish_writes : Writes finish := fun _ lasting _ _ =>
  keeps_bind (writes_ofExcept _) fun _ _ => keeps_bind keeps_get fun _ _ =>
    keeps_bind (writes_ofExcept _) fun _ _ =>
    writes_report fun _ kept => lasting.keep _ _ (lasting.withResult _ _ kept)

private theorem iterate_writes (lasting : Report.Lasting inv) {around : Surroundings} {call : Call}
    {body : String} (index : Nat) (items : List Json) :
    Asks (fun s => inv s.report) (fun _ => True) (Loop.iterate around call body index items) := by
  induction items generalizing index with
  | nil => exact keeps_pure trivial
  | cons item rest ih =>
    refine keeps_bind (writes_context _) fun _ _ =>
      keeps_bind (keeps_within (fun _ _ => trivial) (fun _ _ kept _ => kept) (Task.asks_any _))
        fun walk _ => keeps_bind (writes_logWalk lasting _ _) fun _ _ => ?_
    split
    · exact keeps_throw _
    · exact ih _

private theorem loop_writes : Writes loop := by
  intro inv lasting around call
  refine keeps_bind (writes_ofExcept _) fun params _ => keeps_bind keeps_get fun _ _ =>
    keeps_bind (writes_ofExcept _) fun _ _ => keeps_bind (writes_ofChecked _) fun turns _ => ?_
  split
  · exact keeps_guard fun _ => keeps_throw _
  · exact keeps_guard fun _ => keeps_bind (iterate_writes lasting _ _) fun _ _ =>
      writes_report fun r => lasting.withResult r _

private theorem subFlow_writes : Writes subFlow := by
  intro inv lasting around call
  refine keeps_bind (writes_ofExcept _) fun params _ =>
    keeps_bind (keeps_call_any (r := .load _ _) trivial) fun flow _ =>
    keeps_bind (writes_ofExcept _) fun _ _ => keeps_bind (writes_ofExcept _) fun entry _ =>
    keeps_bind keeps_get fun _ _ => keeps_bind (writes_ofExcept _) fun argument _ =>
    keeps_bind (keeps_apart trivial (Task.asks_any _)) fun ended _ =>
    keeps_bind (writes_logWalk lasting _ _) fun _ _ => ?_
  split
  · exact keeps_throw _
  · exact writes_report fun r => lasting.withResult r _

private theorem code_writes : Writes code := by
  intro inv lasting around call
  refine keeps_bind (writes_ofExcept _) fun params _ =>
    keeps_bind (keeps_ask (.execute _ _ _) trivial) fun result _ => ?_
  split
  · exact keeps_throw _
  · exact keeps_bind (writes_ofExcept _) fun _ _ => writes_report fun r => lasting.withResult r _

private theorem reply_writes : Writes reply := fun _ lasting _ _ =>
  keeps_bind (writes_ofExcept _) fun _ _ => keeps_bind keeps_get fun _ _ =>
    keeps_bind (writes_ofExcept _) fun _ _ => keeps_bind (keeps_call_any (r := .send _ _) trivial)
    fun _ _ => writes_report fun r => lasting.withResult r _

private theorem setVariables_writes : Writes setVariables := fun _ lasting _ _ =>
  keeps_bind (writes_ofExcept _) fun _ _ => keeps_bind keeps_get fun _ _ =>
    keeps_bind (writes_ofExcept _) fun _ _ => keeps_bind (writes_context _) fun _ _ =>
    writes_report fun r => lasting.withResult r _

end

/-- Of the built-in runners only the one for nodes that wait does more to a report than its work. -/
theorem builtins_write : ∀ r ∈ builtins,
    (r.type = "wait_message" ∧ r.runner = waitMessage) ∨ Writes r.runner := by
  simp only [builtins, firstVersion, List.forall_mem_cons, List.not_mem_nil, false_implies,
    implies_true, and_true]
  exact ⟨.inr start_writes, .inl trivial, .inr ifElse_writes, .inr loop_writes, .inr subFlow_writes,
    .inr finish_writes, .inr code_writes, .inr reply_writes, .inr setVariables_writes⟩

/-- A node that waits does not fail by its report. It saves no more than one record, and it suspends
the run only when it has. -/
theorem waitMessage_reports {around : Surroundings} {call : Call} {s s' : NodeState}
    {log : List Exchange} {result : Except Error Unit}
    (run : Task.Runs (waitMessage around call) s log result s') :
    s'.report.success = s.report.success ∧ (saves log).length ≤ 1 ∧
      (s.report.suspended = false → s'.report.suspended = true → saves log ≠ []) := by
  have never {was becomes : Bool} {log : List Exchange} (same : becomes = was) (before : was = false)
      (after : becomes = true) : saves log ≠ [] := by
    rw [same, before] at after
    contradiction
  cases waitMessage_does run with
  | waited => exact ⟨rfl, Nat.zero_le _, never rfl⟩
  | nested => exact ⟨rfl, Nat.zero_le _, never rfl⟩
  | unread => exact ⟨rfl, Nat.zero_le _, never rfl⟩
  | unsaved => exact ⟨rfl, Nat.zero_le _, never rfl⟩
  | suspended => exact ⟨rfl, Nat.le_refl 1, fun _ _ => List.cons_ne_nil _ _⟩

end Runner

end Parley
