import Parley.Proofs.Engine.Pass
/-!
# Saved contexts are read back

The text that a record holds is read back as the context that the waiting node found, whatever the run
has come to, unless that context is nested deeper than a text may be; then the run can never be resumed
(`Engine.saved_text_read_back`).
-/
namespace Parley

namespace Engine
variable {engine : Engine} {log : List Exchange} {record : Wait.Record}

/-- What becomes of the text of a record: it is read back as the context that was seen, or it is nested
too deep, and then the run can never be resumed. -/
structure ReadsBack (engine : Engine) (record : Wait.Record) (seen : Context) : Prop where
  read : seen.depth ≤ Context.deepestText →
    Context.ofSnapshot record.snapshot = .ok { seen with cached := some record.snapshot }
  refused : Context.deepestText < seen.depth →
    Context.ofSnapshot record.snapshot = .error (.json (.malformed .nestingTooDeep))
  stuck : Context.deepestText < seen.depth → ∀ event log,
    (∀ outcome, ¬ Task.Runs (engine.resume record event) () log (.ok (.resumed outcome)) ()) ∧
      ∀ cause, ¬ Task.Panics (engine.resume record event) () log cause

/-- A resume whose record cannot be read does not take up the run, and it does not panic. -/
private theorem not_goOn {e : Error} (unreadable : Context.ofSnapshot record.snapshot = .error e)
    (event : Event) :
    (∀ outcome, ¬ Task.Runs (engine.resume record event) () log (.ok (.resumed outcome)) ()) ∧
      ∀ cause, ¬ Task.Panics (engine.resume record event) () log cause := by
  have never {ending : Except Panic (Except Error Resumed)}
      (ends : Task.Ends (engine.resume record event) log ending) :
      ending = .ok (.ok .dropped) ∨ ∃ e, ending = .ok (.error e) := by
    cases resume_resumption ends with
    | taken inTime ready goes => exact absurd (unreadable.symm.trans ready.readable) (by simp)
    | expired | lost => exact .inl rfl
    | _ => exact .inr ⟨_, rfl⟩
  constructor
  · intro outcome run
    have ends : Task.Ends (engine.resume record event) log (.ok (.ok (.resumed outcome))) := run
    simpa using never ends
  · intro cause panics
    have ends : Task.Ends (engine.resume record event) log (.error cause) := panics
    simpa using never ends

/-- Whatever a run has come to, the text of a record that it asks to save is read back as the context
that the waiting node found, exactly when that context is not nested deeper than a text may be. -/
theorem saved_text_read_back (lawful : engine.Lawful) {ending : Except Panic (Option Outcome)}
    {done : Except Error Unit} (pass : Pass engine log ending) (saved : ⟨.save record, done⟩ ∈ log) :
    ∃ flow ctx turns last t, Pass.Walks engine log ending flow ctx turns last ∧
      t ∈ turns ∧ t.Suspends record done ∧ ReadsBack engine record t.before := by
  rcases pass.walks lawful with unsaved | ⟨flow, ctx, turns, last, walks⟩
  · exact absurd saved (unsaved record done)
  obtain ⟨t, member, suspends⟩ := walks.suspends lawful saved
  have told := Context.ofSnapshot_serialize (walks.before lawful member).toFaithful
  rw [← suspends.snapshot] at told
  have refused (deep : Context.deepestText < t.before.depth) :
      Context.ofSnapshot record.snapshot = .error (.json (.malformed .nestingTooDeep)) := by
    rw [told, if_neg (Nat.not_le.mpr deep)]
  refine ⟨flow, ctx, turns, last, t, walks, member, suspends, ?_, refused, ?_⟩
  · intro fits
    rw [told, if_pos fits]
  · exact fun deep event log => not_goOn (refused deep) event

end Engine

/-! ### A run that is nested too deep -/

namespace Deep
open Chat

/-- A value in lists within lists. -/
def nest (v : Json) : Nat → Json
  | 0 => v
  | n + 1 => .arr [nest v n]

/-- A flow that puts a value into lists, then puts that into lists again, and waits. -/
def flow : Flow where
  code := "deep"
  nodes := [start, assign "inner" "x" (nest (.int 1) 62),
    assign "outer" "y" (nest (.str "\x7b\x7b variables.x \x7d\x7d") 63), wait]
  edges := [{ source := "start", target := "inner", branch := some "m" },
    { source := "inner", target := "outer" }, { source := "outer", target := "wait" }]

theorem nest_faithful {v : Json} (faithful : v.Faithful) (n : Nat) : (nest v n).Faithful := by
  induction n with
  | zero => exact faithful
  | succ n ih => exact Json.faithful_arr.mpr (by simpa using ih)

theorem params_faithful : ∀ n ∈ flow.nodes, n.params.Faithful := by
  have one : (Json.int 1).Faithful := Json.faithful_int.mpr ⟨by decide, by decide⟩
  simp only [flow, List.forall_mem_cons, List.not_mem_nil, false_implies, implies_true, and_true]
  exact ⟨faithful_start, faithful_assign (nest_faithful one _),
    faithful_assign (nest_faithful (Json.faithful_str _) _), Json.faithful_obj.mpr Json.table_nil⟩

end Deep

/-- A run that has saved its record and can never be resumed. -/
theorem deep_text_refused :
    ∃ outcome record, Chat.outcome? Deep.flow = some outcome ∧ outcome.status = .suspended "wait" ∧
      Chat.records Deep.flow = [record] ∧
      Context.ofSnapshot record.snapshot = .error (.json (.malformed .nestingTooDeep)) ∧
      ∀ event log,
        (∀ outcome, ¬ Task.Runs (Engine.resume (.standard {}) record event) () log
          (.ok (.resumed outcome)) ()) ∧
        ∀ cause, ¬ Task.Panics (Engine.resume (.standard {}) record event) () log cause := by
  have passed := Chat.pass Deep.params_faithful rfl (by decide +kernel)
  have waiting : (Chat.records Deep.flow).map Wait.Record.node = ["wait"] := by decide +kernel
  obtain ⟨record, single, named⟩ := List.map_eq_singleton_iff.mp waiting
  have saved := Chat.mem_records.mp (single ▸ List.mem_singleton_self record)
  obtain ⟨flow, ctx, turns, last, t, walks, member, suspends, reads⟩ :=
    Engine.saved_text_read_back (Engine.lawful_standard {}) passed saved
  have told : (Chat.outcome? Deep.flow).map (fun o => (o.status, o.executed.map Visit.id,
      o.context.depth)) = some (.suspended "wait", ["start", "inner", "outer", "wait"], 128) := by
    decide +kernel
  obtain ⟨outcome, ended, told⟩ := Option.map_eq_some_iff.mp told
  obtain ⟨executed, rfl⟩ := walks.stops.of_outcome (Chat.ending_of_outcome ended)
  simp only [Prod.mk.injEq, executed, List.map_map] at told
  obtain ⟨status, ran, depth⟩ := told
  -- the node that waits is the last one, so the run ends with the context that it found
  have found : t.before.depth = outcome.context.depth := by
    have whole : turns.map (Visit.id ∘ Turn.visit) = ["start", "inner", "outer"] ++ ["wait"] := ran
    obtain ⟨earlier, rest, rfl, front, back⟩ := List.map_eq_append_iff.mp whole
    obtain ⟨last, rfl, -⟩ := List.map_eq_singleton_iff.mp back
    rcases List.mem_append.mp member with early | late
    · have inside : t.visit.id ∈ ["start", "inner", "outer"] := front ▸ List.mem_map_of_mem early
      rw [← suspends.node, named] at inside
      exact absurd inside (by decide)
    · obtain rfl := List.mem_singleton.mp late
      obtain ⟨_, -, -, final⟩ := walks.performed.chained.split
      rw [show outcome.context = t.after from final, suspends.after]
      rfl
  have deep : Context.deepestText < t.before.depth := by
    rw [found, depth]
    decide
  exact ⟨outcome, record, ended, status, single, reads.refused deep, reads.stuck deep⟩

end Parley
