import Parley.Proofs.Engine.Sound
import Parley.Proofs.Runner.Steps
/-!
# Nodes that suspend a run

A record is saved by a node that waits and by no other one. It holds what the node found: the text of
the context before the node ran, which the node leaves as it was (`Engine.turn_suspends`).
-/
namespace Parley
open Parley.Task

/-- The turn of a node that waits: it asks to save a record of the context that it found, leaves that
context as it was, and suspends the run once the record is saved. -/
structure Turn.Suspends (t : Turn) (record : Wait.Record) (done : Except Error Unit) : Prop where
  saves : ⟨.save record, done⟩ ∈ t.log
  record : ∃ id now timeout,
    record = Runner.WaitMessage.record id now timeout t.visit.id t.before t.before.serialize
  after : t.after = { t.before with cached := some t.before.serialize }
  suspends : done = .ok () → t.visit.suspends = true

namespace Turn.Suspends
variable {t : Turn} {record : Wait.Record} {done : Except Error Unit}

theorem node (suspends : t.Suspends record done) : record.node = t.visit.id := by
  obtain ⟨id, now, timeout, rfl⟩ := suspends.record
  rfl

theorem snapshot (suspends : t.Suspends record done) : record.snapshot = t.before.serialize := by
  obtain ⟨id, now, timeout, rfl⟩ := suspends.record
  rfl

end Turn.Suspends

namespace Runner

/-- When a node that waits asks to save a record, it is one of the context that it found. -/
theorem waitMessage_saves {around : Surroundings} {call : Call} {s s' : NodeState}
    {log : List Exchange} {result : Except Error Unit} {record : Wait.Record}
    {done : Except Error Unit} (saved : ⟨.save record, done⟩ ∈ log)
    (run : Task.Runs (waitMessage around call) s log result s') :
    (∃ id now timeout, record = WaitMessage.record id now timeout call.node.id s.context.snapshot.2
        s.context.snapshot.1) ∧
      s'.context = s.context.snapshot.2 ∧
      result = done ∧ (done = .ok () → s'.report.suspended = true) := by
  cases waitMessage_does run with
  | waited => contradiction
  | nested => contradiction
  | unread => contradiction
  | @unsaved timeout now id e _ =>
    obtain ⟨rfl, rfl⟩ : record = _ ∧ done = .error e := by simpa [WaitMessage.asked] using saved
    exact ⟨⟨id, now, timeout, rfl⟩, rfl, rfl, by simp⟩
  | @suspended timeout now id _ =>
    obtain ⟨rfl, rfl⟩ : record = _ ∧ done = .ok () := by simpa [WaitMessage.asked] using saved
    exact ⟨⟨id, now, timeout, rfl⟩, rfl, rfl, fun _ => rfl⟩

end Runner

namespace Engine
variable {engine : Engine} {flow : Flow} {record : Wait.Record} {done : Except Error Unit}

private theorem unsaving_conduct :
    Conduct (fun _ => True) fun r => ∀ record : Wait.Record, r ≠ .save record where
  record _ _ _ _ := trivial
  setVariable _ _ _ _ := trivial
  forSubFlow _ _ _ _ := trivial
  works _ r _ work record save := by simp [save, Request.IsWork] at work

theorem nested_unsaved (builtIn : engine.BuiltIn) {room : Nat} (nested : room ≤ deepest)
    {entry : String} {appointed : Option Trigger} {ctx ctx' : Context} {log : List Exchange}
    {result : Except Error Walk}
    (run : Task.Runs (engine.walk room flow entry appointed) ctx log result ctx') :
    ⟨.save record, done⟩ ∉ log := fun saved =>
  ((nested_asks builtIn unsaving_conduct nested flow entry appointed).run trivial
    (fun _ _ => trivial) run).1 _ saved record rfl

theorem torn_unsaved (builtIn : engine.BuiltIn) {room : Nat} (nested : room ≤ deepest)
    {entry : String} {appointed : Option Trigger} {ctx : Context} {log : List Exchange} {cause : Panic}
    (panics : Task.Panics (engine.walk room flow entry appointed) ctx log cause) :
    ⟨.save record, done⟩ ∉ log := fun saved =>
  (nested_asks builtIn unsaving_conduct nested flow entry appointed).panics trivial
    (fun _ _ => trivial) panics _ saved record rfl

theorem works_unsaved (builtIn : engine.BuiltIn) {room : Nat} (nested : room ≤ deepest)
    {runner : Runner} (worker : Runner.Works runner) {call : Call} {s s' : NodeState}
    {log : List Exchange} {result : Except Error Unit}
    (run : Task.Runs (runner (engine.around room) call) s log result s') :
    ⟨.save record, done⟩ ∉ log := fun saved =>
  ((worker _ _ (engine.around room) call unsaving_conduct
    (nested_asks builtIn unsaving_conduct nested)).run trivial
    (fun _ _ => trivial) run).1 _ saved record rfl

/-- A node that panics has saved nothing. -/
theorem panics_unsaved (builtIn : engine.BuiltIn) {room : Nat} (nested : room ≤ deepest) {first : Bool}
    {node : Node} {arrival : Arrival} {ctx : Context} {log : List Exchange} {cause : Panic}
    (panics : Program.Ends (engine.nodeVisitor room flow first node arrival ctx) log
      (.error cause)) : ⟨.save record, done⟩ ∉ log := by
  obtain ⟨r, inputs, starts, worked⟩ := visitor_panics.mp panics
  rcases builtIn.waits_or_works starts.served with ⟨-, waits⟩ | worker
  · rw [waits] at worked
    obtain ⟨-, -, _, _, _, -, -, rfl⟩ := Runner.waitMessage_panics.mp worked
    simp
  · exact fun saved => (worker _ _ (engine.around room) _ unsaving_conduct
      (nested_asks builtIn unsaving_conduct nested)).panics trivial (fun _ _ => trivial)
      worked _ saved record rfl

private theorem visitor_saves (builtIn : engine.BuiltIn) {first : Bool} {node : Node}
    {arrival : Arrival} {ctx ctx' : Context} {log : List Exchange} {report : Report}
    {failure : Option Error} (saved : ⟨.save record, done⟩ ∈ log)
    (run : Program.Runs (engine.nodeVisitor deepest flow first node arrival ctx) log
      ((report, failure), ctx')) :
    (∃ id now timeout, record = Runner.WaitMessage.record id now timeout node.id ctx.snapshot.2
        ctx.snapshot.1) ∧
      ctx' = ctx.snapshot.2 ∧ (done = .ok () → failure = none ∧ report.suspended = true) := by
  rcases visitor_runs run with ⟨-, rfl, -⟩ | ⟨r, inputs, result, s, starts, ran, rfl, ended⟩
  · contradiction
  rcases builtIn.waits_or_works starts.served with ⟨-, waits⟩ | worker
  · rw [waits] at ran
    obtain ⟨told, kept, rfl, suspends⟩ := Runner.waitMessage_saves saved ran
    refine ⟨told, ?_⟩
    cases ended with
    | done => simp [recorded, suspends rfl, kept]
    | failed e => exact ⟨kept, by simp⟩
  · exact absurd saved (works_unsaved builtIn (Nat.le_refl _) worker ran)

/-- When a turn of a walk outside all other walks asks to save a record, it is one of the context that
the turn found, and a turn that has saved it suspends the run. -/
theorem turn_saves (builtIn : engine.BuiltIn) {limit : Nat} {ctx ctx' : Context}
    {turns : List Turn}
    (performed : Walk.Performed flow (engine.nodeVisitor deepest flow) limit ctx turns ctx')
    {t : Turn} (member : t ∈ turns) (saved : ⟨.save record, done⟩ ∈ t.log) :
    (∃ id now timeout, record = Runner.WaitMessage.record id now timeout t.visit.id
        t.before.snapshot.2 t.before.snapshot.1) ∧
      t.after = t.before.snapshot.2 ∧ (done = .ok () → t.visit.suspends = true) := by
  rcases performed.turn member with ⟨first, node, arrival, report, failure, found, seen, run⟩ | cut
  · obtain ⟨told, after, suspends⟩ := visitor_saves builtIn saved run
    have named : node.id = t.visit.id := (Flow.require_mem found).2
    refine ⟨named ▸ told, after, fun ok => ?_⟩
    obtain ⟨rfl, suspended⟩ := suspends ok
    rw [seen]
    simpa [Visit.suspends, Walk.visitOf] using suspended
  · rw [cut.log] at saved
    contradiction

/-- Such a turn is one of a node that waits. -/
theorem turn_suspends (lawful : engine.Lawful) {limit : Nat} {ctx ctx' : Context}
    {turns : List Turn}
    (performed : Walk.Performed flow (engine.nodeVisitor deepest flow) limit ctx turns ctx')
    {t : Turn} (member : t ∈ turns) (sound : t.before.Sound)
    (saved : ⟨.save record, done⟩ ∈ t.log) : t.Suspends record done := by
  obtain ⟨told, after, suspends⟩ := turn_saves lawful.builtIn performed member saved
  rw [sound.snapshot] at told after
  exact ⟨saved, told, after, suspends⟩

end Engine

end Parley
