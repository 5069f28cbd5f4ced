import Parley.Proofs.Engine.Resume
/-!
# What callers want done

A caller resumes a record, dispatches an event or reaps. What is done for it is a program, which goes
one of a few ways (`Errand.went`).
-/
namespace Parley

/-- What a caller wants done. -/
inductive Errand
  | resume (record : Wait.Record) (event : Event)
  | dispatch (code : String) (version : Option String) (event : Event)
  | reap

namespace Errand

/-- What is done for a caller. -/
def program (engine : Engine) : Errand → Program Unit
  | .resume record event => (engine.resume record event ()).bind fun _ => .done ()
  | .dispatch code version event => (engine.dispatch code version event ()).bind fun _ => .done ()
  | .reap => (Reaper.once ()).bind fun _ => .done ()

/-- The caller holds a copy of a record: the one to resume, or the one that was found for an event. -/
def Holds : Errand → List Exchange → Wait.Record → Prop
  | .resume record _, _, r => r = record
  | .dispatch .., log, r => ∃ scope rest, log = ⟨.find scope, .ok (some r)⟩ :: rest
  | .reap, _, _ => False

/-- What is done for a caller goes one of the ways that there are. -/
def Went (engine : Engine) : Errand → List Exchange → Prop
  | .resume record event, log => ∃ ending, engine.Resumption record event log ending
  | .dispatch code version event, log => ∃ ending, engine.Dispatching code version event log ending
  | .reap, log => ∃ result, Task.Runs Reaper.once () log result ()

theorem went {engine : Engine} {errand : Errand} {log : List Exchange} {ending : Except Panic Unit}
    (ends : (errand.program engine).Ends log ending) : errand.Went engine log := by
  cases errand with
  | resume record event =>
    obtain ⟨former, ends, -⟩ := Task.ends_bind_done.mp ends
    exact ⟨former, Engine.resume_resumption ends⟩
  | dispatch code version event =>
    obtain ⟨former, ends, -⟩ := Task.ends_bind_done.mp ends
    exact ⟨former, Engine.dispatch_dispatching ends⟩
  | reap =>
    obtain ⟨former, ends, -⟩ := Task.ends_bind_done.mp ends
    cases former with
    | ok result => exact ⟨result, ends⟩
    | error cause => exact absurd ends Reaper.once_calm

end Errand

end Parley
