import Parley.Proofs.Interleaving
import Parley.Proofs.Engine.Errand
import Parley.Proofs.Engine.Pass
/-!
# Messages that take up runs

A message in a conversation where a run waits takes up the run, when its record is found and the run can
go on (`Errand.takes_up`). So what becomes of a flow when messages come one after another is known
from the contexts in which its runs wait, without reading a snapshot (`Chat.course_interleaved`).
-/
namespace Parley

/-! ## Worlds in which nothing goes wrong -/

/-- No call of the store fails, and nobody steals what is found. -/
structure World.Calm (w : World) : Prop where
  works : w.failing = []
  changes : w.frozen = false
  honest : w.thief = false

namespace World.Calm
variable {w : World}

theorem failure? (calm : w.Calm) (call : StoreCall) : w.failure? call = none := by
  simp [World.failure?, calm.works, calm.changes]

theorem answer_find (calm : w.Calm) (scope : Scope) :
    w.answer (.find scope) = (.ok (w.store.find w.clock scope), w) := by
  simp only [answer, guarded, calm.failure?, find, calm.honest]
  cases w.store.find w.clock scope <;> rfl

theorem answer_claim (calm : w.Calm) (r : Wait.Record) :
    w.answer (.claim r) = (.ok (w.store.claim r).1, { w with store := (w.store.claim r).2 }) := by
  simp only [answer, guarded, calm.failure?, claim]

end World.Calm

/-! ## Taking up a run -/

/-- How a caller is served: what is asked and answered, how it ends, and what becomes of the world. -/
structure Served where
  log : List Exchange
  ending : Except Panic Unit
  world : World

/-- A program goes this way in a world. -/
structure Served.By (s : Served) (p : Program Unit) (w : World) : Prop where
  ends : p.Ends s.log s.ending
  answers : w.Answers s.log s.world

def Program.serve (p : Program Unit) (w : World) : Served where
  log := p.heard w
  ending := (p.run w).1
  world := (p.run w).2

theorem Program.served (p : Program Unit) (w : World) : (p.serve w).By p w :=
  ⟨p.ends_heard w, p.answers_heard w⟩

/-- How a message is served that takes up the run of a record. -/
def Engine.takesUp (engine : Engine) (event : Event) (r : Wait.Record) (flow : Flow) (ctx : Context)
    (w : World) : Served :=
  let claimed := { w with store := (w.store.claim r).2 }
  let goes := engine.goOn r event flow ctx ()
  { log := [⟨.find event.scope, .ok (some r)⟩, ⟨.clock, w.clock⟩,
      ⟨.load r.flowCode (some r.flowVersion), .ok flow⟩, ⟨.claim r, .ok true⟩] ++ goes.heard claimed
    ending := (goes.run claimed).1.map fun _ => ()
    world := (goes.run claimed).2 }

/-- A message takes up the run that waits in its conversation, whatever flow it was meant for. -/
theorem Errand.takes_up {engine : Engine} {w : World} {event : Event} {r : Wait.Record} {flow : Flow}
    {ctx : Context} (calm : w.Calm) (places : (w.store.records.map Wait.Record.key).Nodup)
    (chat : event.trigger = .chatMessage) (finds : w.store.find w.clock event.scope = some r)
    (loads : w.catalog.load r.flowCode (some r.flowVersion) = .ok flow)
    (ready : engine.Ready r flow ctx) (code : String) (version : Option String) :
    (engine.takesUp event r flow ctx w).By ((Errand.dispatch code version event).program engine) w where
  ends := by
    have goes := Task.ends_of_program (Program.ends_heard (engine.goOn r event flow ctx ())
      { w with store := (w.store.claim r).2 })
    have taken := Engine.dispatch_taken chat (Wait.Store.find_inTime finds) ready goes code version
    refine Task.ends_bind_done.mpr ⟨_, taken, ?_⟩
    simp only [Engine.takesUp]
    cases ((engine.goOn r event flow ctx ()).run { w with store := (w.store.claim r).2 }).1 <;> rfl
  answers := by
    have wins : (w.store.claim r).1 = true :=
      (Wait.Store.claim_won_iff places r).mpr ⟨r, (Wait.Store.find_some finds).1, .refl r⟩
    have found := calm.answer_find event.scope
    have claimed := calm.answer_claim r
    rw [finds] at found
    rw [wins] at claimed
    have loaded : w.answer (.load r.flowCode (some r.flowVersion)) = (.ok flow, w) :=
      congrArg (·, w) loads
    exact .cons found (.cons (v := w) rfl (.cons loaded (.cons claimed (Program.answers_heard _ _))))

/-! ### One flow and its messages -/

namespace Chat

def runId : String := "00000000-0000-4000-8000-000000000001"

/-- What a node finds that comes after the start node of a flow. -/
def seen (flow : Flow) : Context :=
  (Context.start runId flow (message "")).record "start" (.ofFields
    [("message", .str ""), ("trigger_type", .str "chat_message"),
      ("organization_code", .str "org"), ("conversation_id", .str "conv")])

/-- The record with which a run waits at such a node. -/
def record (flow : Flow) (id node : String) : Wait.Record :=
  Runner.WaitMessage.record id default none node (seen flow) (seen flow).serialize

def sends (flow : Flow) : Errand := .dispatch flow.code none (message "")

def program (flow : Flow) : Program Unit := (sends flow).program (.standard {})

def world (flow : Flow) : World where
  catalog := .ofFlows [flow]

def takesUp (flow : Flow) (r : Wait.Record) (w : World) : Served :=
  Engine.takesUp (.standard {}) (message "") r flow
    { seen flow with cached := some (seen flow).serialize } w

/-- Messages take up a run where it waits, one after another. -/
def follow (flow : Flow) : List Wait.Record → World → List Served
  | [], _ => []
  | r :: rs, w => takesUp flow r w :: follow flow rs (takesUp flow r w).world

/-- The world that callers leave who come one after another. -/
def left : World → List Served → World
  | w, [] => w
  | _, s :: later => left s.world later

/-- The logs of callers that come one after another. -/
def inTurn : Nat → List Served → List (Nat × Exchange)
  | _, [] => []
  | i, s :: later => s.log.map (i, ·) ++ inTurn (i + 1) later

theorem inTurn_pairwise (i : Nat) (served : List Served) :
    ((inTurn i served).map Prod.fst).Pairwise (· ≤ ·) ∧
      ∀ j ∈ (inTurn i served).map Prod.fst, i ≤ j := by
  induction served generalizing i with
  | nil => simp [inTurn]
  | cons s served ih =>
    obtain ⟨ordered, later⟩ := ih (i + 1)
    have now : ∀ j ∈ (s.log.map (i, ·)).map Prod.fst, j = i := by simp
    rw [inTurn, List.map_append, List.pairwise_append]
    refine ⟨⟨?_, ordered, fun j one k two => ?_⟩, fun j member => ?_⟩
    · exact List.pairwise_of_forall_mem_list fun j one k two => by rw [now j one, now k two]
    · have := now j one
      have := later k two
      omega
    · rcases List.mem_append.mp member with here | there
      · exact Nat.le_of_eq (now j here).symm
      · have := later j there
        omega

/-- The first message starts a run, and further ones take it up where it waits. -/
def course (flow : Flow) (rs : List Wait.Record) : List Served :=
  let first := (program flow).serve (world flow)
  first :: follow flow rs first.world

structure Goes (flow : Flow) : Prop where
  checked : (Engine.standard {}).check flow = .ok ()
  undeclared : flow.declared = []
  fits : (seen flow).depth ≤ Context.deepestText

/-- A run waits in such a way that a message takes it up. -/
structure Waits (flow : Flow) (r : Wait.Record) (w : World) : Prop where
  calm : w.Calm
  places : (w.store.records.map Wait.Record.key).Nodup
  finds : w.store.find w.clock (message "").scope = some r
  loads : w.catalog.load r.flowCode (some r.flowVersion) = .ok flow
  text : r.snapshot = (seen flow).serialize
  inside : ∃ node, flow.require r.node = .ok node

/-- A run waits in such a way that messages take it up one after another. -/
def AllWait (flow : Flow) : List Wait.Record → World → Prop
  | [], _ => True
  | r :: rs, w => Waits flow r w ∧ AllWait flow rs (takesUp flow r w).world

section
variable {flow : Flow}

theorem Goes.readable (goes : Goes flow) :
    Context.ofSnapshot (seen flow).serialize =
      .ok { seen flow with cached := some (seen flow).serialize } := by
  have values : Json.Table flow.firstValues := by
    rw [Flow.firstValues, goes.undeclared]
    exact Json.table_nil
  have faithful : (seen flow).Faithful :=
    ⟨Json.faithful_ofFields (by simp), Json.table_nil.insert (Json.faithful_ofFields (by simp)), values⟩
  rw [Context.ofSnapshot_serialize faithful, if_pos goes.fits]

theorem Waits.takes_up {r : Wait.Record} {w : World} (waits : Waits flow r w) (goes : Goes flow) :
    (takesUp flow r w).By (program flow) w := by
  have readable := goes.readable
  rw [← waits.text] at readable
  have ready : Engine.Ready (.standard {}) r flow { seen flow with cached := some r.snapshot } :=
    ⟨goes.checked, waits.inside, readable⟩
  have chat : (message "").trigger = .chatMessage := rfl
  have taken := Errand.takes_up waits.calm waits.places chat waits.finds waits.loads ready flow.code none
  rw [waits.text] at taken
  exact taken

theorem AllWait.interleaved (goes : Goes flow) {rs : List Wait.Record} {w : World}
    (waits : AllWait flow rs w) (front : List (Program Unit)) :
    Interleaved w (front ++ rs.map fun _ => program flow)
      (inTurn front.length (follow flow rs w)) (left w (follow flow rs w))
      (front ++ (follow flow rs w).map fun s => .ended s.ending) := by
  induction rs generalizing w front with
  | nil => exact .rest w _
  | cons r rs ih =>
    have served := waits.1.takes_up goes
    have later := ih waits.2 (front ++ [.ended (takesUp flow r w).ending])
    simp only [List.append_assoc, List.singleton_append, List.length_append, List.length_singleton]
      at later
    exact (Interleaved.alone served.ends served.answers front _).trans later

/-- What becomes of a flow when messages come one after another. -/
theorem course_interleaved (goes : Goes flow) {rs : List Wait.Record}
    (waits : AllWait flow rs ((program flow).serve (world flow)).world) :
    Interleaved (world flow)
      ((sends flow :: rs.map fun _ => sends flow).map (Errand.program (.standard {})))
      (inTurn 0 (course flow rs)) (left (world flow) (course flow rs))
      ((course flow rs).map fun s => .ended s.ending) := by
  have served := (program flow).served (world flow)
  have first := Interleaved.alone served.ends served.answers [] (rs.map fun _ => program flow)
  simpa [course, left, inTurn, program, Function.comp_def] using
    first.trans (waits.interleaved goes [.ended ((program flow).serve (world flow)).ending])

end

end Chat

end Parley
