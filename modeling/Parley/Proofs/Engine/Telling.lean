import Parley.Proofs.Engine.Nesting
import Parley.Proofs.Runner.Reports
/-!
# What walks tell

A walk tells of each of its nodes in turn, of none before all that is told in the walks within it, and
so do the walks within its nodes (`Engine.walk_tells`). All of it is told of the run of the context.
-/
namespace Parley

/-- A request to tell something is one to tell of a node of the run. -/
def Request.TellsOf (run : String) (r : Request) : Prop :=
  ∀ e, r = .publish e → ∃ node type success, e = .nodeFinished run node type success

theorem Context.tellsOf (run : String) :
    Conduct.Suspends (fun ctx => ctx.runId = run) (Request.TellsOf run) where
  record _ _ _ same := same
  setVariable _ _ _ same := same
  forSubFlow _ _ _ same := same
  works ctx r same work := by
    rintro e rfl
    cases e with
    | nodeFinished of node type success => exact ⟨node, type, success, by rw [← same, ← work]⟩
    | _ => exact work.elim
  snapshot ctx same := by
    unfold Context.snapshot
    split <;> exact same
  waits ctx r same wait := by
    rintro e rfl
    obtain ⟨_, _, _, _, save⟩ := wait
    contradiction

/-- What a walk with `room` walks below one another has told of a run: of each of its nodes, right after
all that the walks within the node have told. -/
inductive Walked.Tells (engine : Engine) (run : String) : (room : Nat) → Walked → Prop
  /-- There is no room for a walk. -/
  | refused {w : Walked} {e : Error} (ended : w.ended = .error e) (told : events w.log = []) :
      Tells engine run 0 w
  | walked {room : Nat} {w : Walked} {turns : List Turn} {inners : Turn → List Walked}
      (performed : Walk.Performed w.flow (engine.nodeVisitor room w.flow) engine.config.maxExecutions
        w.before turns w.after)
      (ended : w.ended = .ok ⟨turns.map Turn.visit⟩)
      (told : events w.log = turns.flatMap fun t =>
        ((inners t).flatMap fun i => events i.log) ++ [t.visit.event run])
      (reports : ∀ t ∈ turns, t.visit.report.success = t.visit.failure.isNone)
      (nests : ∀ t ∈ turns, t.Nests engine room (inners t))
      (within : ∀ t ∈ turns, ∀ i ∈ inners t, Tells engine run room i) :
      Tells engine run (room + 1) w

namespace Engine
variable {engine : Engine} {flow : Flow} {room limit : Nat} {ctx ctx' : Context} {turns : List Turn}
  {t : Turn} {run : String}

/-- A node that has not failed says so in its report. -/
theorem turn_reports (builtIn : engine.BuiltIn)
    (performed : Walk.Performed flow (engine.nodeVisitor room flow) limit ctx turns ctx')
    (member : t ∈ turns) (clean : t.visit.failure = none) : t.visit.report.success = true := by
  rcases turn_worked builtIn performed member with ⟨-, failed⟩ | ⟨first, r, call, result, s, worked⟩
  · simp [clean] at failed
  rw [worked.report clean]
  have ran := worked.ran
  rcases Runner.builtins_write r worked.builtin with ⟨-, waits⟩ | writes
  · rw [waits] at ran
    exact (Runner.waitMessage_reports ran).1
  · exact (writes.flags ran).1

/-- A walk tells of its nodes, and of nothing before the walks within them. -/
theorem walk_tells (builtIn : engine.BuiltIn) {w : Walked} (checked : engine.check w.flow = .ok ())
    (inside : w.entry ∈ w.flow.ids)
    (ran : Task.Runs (engine.walk room w.flow w.entry w.appointed) w.before w.log w.ended w.after)
    (ofRun : ∀ x ∈ w.log, x.1.TellsOf run) : w.Tells engine run room := by
  induction room generalizing w with
  | zero =>
    obtain ⟨silent, failed, -⟩ := Task.runs_throw.mp ran
    exact .refused failed (by rw [silent, events_nil])
  | succ room ih =>
    obtain ⟨turns, taken, ended, heard⟩ := walk_turns checked inside ran
    have performed := taken.performed
    have each (t : Turn) : ∃ inners, t ∈ turns → t.Nests engine room inners := by
      by_cases member : t ∈ turns
      · obtain ⟨inners, nests⟩ := turn_nests builtIn checked performed member
        exact ⟨inners, fun _ => nests⟩
      · exact ⟨[], fun inside => absurd inside member⟩
    choose inners nests using each
    have asked (t : Turn) (member : t ∈ turns) (x : Exchange) (of : x ∈ t.exchanges) :
        x.1.TellsOf run :=
      ofRun x (heard ▸ List.mem_flatMap.mpr ⟨t, member, of⟩)
    refine .walked performed ended ?told ?reports nests ?within
    case told =>
      rw [heard, events_turns]
      refine List.flatMap_congr fun t member => ?_
      obtain ⟨_, _, _, same⟩ := asked t member ⟨.publish (t.visit.event t.after.runId), ()⟩
        (by simp [Turn.exchanges]) _ rfl
      obtain ⟨ofRun, -⟩ : t.after.runId = run ∧ _ := by simpa [Visit.event] using same
      rw [(nests t member).told, ofRun]
    case reports =>
      intro t member
      obtain ⟨node, arrival, report, failure, -, seen⟩ := taken.visited member
      have clean := turn_reports builtIn performed member
      rw [seen] at clean ⊢
      cases failure with
      | none => exact clean rfl
      | some reason => rfl
    case within =>
      intro t member i nested
      obtain ⟨start, startMember, -, entered⟩ := (nests t member).entered i nested
      refine ih ((nests t member).checked i nested) (entered ▸ List.mem_map_of_mem startMember)
        ((nests t member).ran i nested) fun x told => asked t member x ?_
      obtain ⟨own, -, all⟩ := (nests t member).heard
      rw [Turn.exchanges, all]
      exact List.mem_append_left _ (List.mem_append_right _ (List.mem_flatMap.mpr ⟨i, nested, told⟩))

end Engine

end Parley
