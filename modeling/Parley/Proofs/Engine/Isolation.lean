import Parley.Proofs.Context.Identity
import Parley.Proofs.Engine.AtMostOnce
import Parley.Proofs.Engine.Pass
/-!
# Conversations are kept apart

What is dispatched in one conversation changes no record of another one, and what its run saves and
sends stays in the conversation, also when the run is taken up from a record (`dispatch_isolated`). This
rests on the records: each belongs to the conversation that its snapshot tells, because that is so of
all records that the callers of an engine save, in whatever order they take turns.
-/
namespace Parley

/-- The record belongs to the conversation that its snapshot tells. -/
def Wait.Record.Genuine (r : Wait.Record) : Prop :=
  ∀ ctx, Context.ofSnapshot r.snapshot = .ok ctx → ctx.scope.thread = r.thread

/-- Whoever looks for a record of a conversation finds a genuine one of the conversation. -/
def Exchange.Fair : Exchange → Prop
  | ⟨.find scope, .ok (some r)⟩ => r.thread = scope.thread ∧ r.Genuine
  | _ => True

/-- The request stays within a conversation, and what is saved is genuine. -/
def Request.Within (thread : Thread) : Request → Prop
  | .save r => r.thread = thread ∧ r.Genuine
  | .claim r => r.thread = thread
  | .find s | .list s | .send s _ => s.thread = thread
  | .reap _ => False
  | _ => True

theorem Request.Belongs.within {run : String} {scope : Scope} {r : Request}
    (belongs : r.Belongs run scope) : r.Within scope.thread := by
  cases r with
  | save r => exact ⟨belongs.1, fun ctx read => by rw [(belongs.2 ctx read).2, belongs.1]⟩
  | send s content => exact congrArg Scope.thread belongs
  | find | claim | list | reap => exact belongs.elim
  | _ => trivial

/-! ## Callers stay in their conversations -/

section
open Parley.Task
variable {engine : Engine} {thread : Thread} {event : Event}

/-- As long as it finds genuine records, the task stays within a conversation. -/
private abbrev Stays {α : Type} (thread : Thread) (t : Task Unit α) : Prop :=
  Keeps (fun _ => True) Exchange.Fair (Request.Within thread) (fun _ => True) t

private theorem finish_stays (builtIn : engine.BuiltIn) {run : String} {scope : Scope}
    {ctx : Context} (of : ctx.Of run scope) (flow : Flow) (entry : String) :
    Stays scope.thread (engine.finish flow entry ctx) := by
  have walks := (Engine.topWalk_belongs builtIn run scope flow entry).mono
    (fun x (_ : x.Fair) => trivial) fun _ => Request.Belongs.within
  exact keeps_bind (keeps_apart of walks) fun _ _ =>
    keeps_bind (keeps_ask (.publish _) trivial) fun _ _ => keeps_pure trivial

private theorem resume_stays (builtIn : engine.BuiltIn) {record : Wait.Record}
    (genuine : record.Genuine) : Stays record.thread (engine.resume record event) := by
  have drops : Stays record.thread (Engine.drop record) :=
    keeps_bind (keeps_ask (.publish _) trivial) fun _ _ => keeps_pure trivial
  have claims : Stays record.thread (Task.claim record) :=
    keeps_call_any (r := .claim record) (show record.thread = _ from rfl)
  refine keeps_bind (keeps_ask .clock trivial) fun now _ => ?_
  split
  · exact keeps_bind claims fun _ _ => drops
  · refine keeps_bind (keeps_call_any (r := .load _ _) trivial)
      fun flow _ => keeps_ofExcept_bind fun _ _ => keeps_ofExcept_bind fun _ _ =>
      keeps_ofExcept_bind fun ctx read => keeps_bind claims fun won _ => ?_
    have of := (Context.of_ofSnapshot (Context.tells_of_ofSnapshot read) read).resumedBy event
    split
    · exact keeps_bind (keeps_ask (.publish _) trivial) fun _ _ =>
        keeps_bind (genuine ctx read ▸ finish_stays builtIn of flow record.node) fun _ _ =>
        keeps_pure trivial
    · exact drops

private theorem startRun_stays (builtIn : engine.BuiltIn) (code : String) (version : Option String) :
    Stays event.scope.thread (engine.startRun code version event) :=
  keeps_bind (keeps_call_any (r := .load code version) trivial)
    fun flow _ => keeps_bind (keeps_ask .identifier trivial) fun run _ =>
    keeps_bind (keeps_ofExcept_bind fun _ _ => keeps_ofExcept_bind fun _ _ =>
      keeps_bind (keeps_ask (.publish _) trivial) fun _ _ =>
      finish_stays builtIn (Context.of_start run flow event) flow _) fun _ _ => keeps_pure trivial

/-- Whoever dispatches an event stays within the conversation of the event, even if the event takes up
a run. -/
theorem Engine.dispatch_stays (builtIn : engine.BuiltIn) (code : String) (version : Option String)
    (event : Event) : Keeps (fun _ => True) Exchange.Fair (Request.Within event.scope.thread)
      (fun _ => True) (engine.dispatch code version event) := by
  have finds : Keeps (fun _ => True) Exchange.Fair (Request.Within event.scope.thread)
      (fun found => ∀ r, found = some r → r.thread = event.scope.thread ∧ r.Genuine)
      (Engine.waiting event) := by
    unfold Engine.waiting
    split
    · refine keeps_call (r := .find event.scope) (show event.scope.thread = _ from rfl)
        fun a answer found same => ?_
      rintro r rfl
      subst same
      exact answer
    · exact keeps_pure (by simp)
  refine keeps_bind finds fun found fair => ?_
  cases found with
  | none => exact startRun_stays builtIn code version
  | some record =>
    obtain ⟨here, genuine⟩ := fair record rfl
    refine keeps_bind (here ▸ resume_stays builtIn genuine) fun resumed _ => ?_
    cases resumed <;> exact keeps_pure trivial

namespace Errand

def Genuine : Errand → Prop
  | .resume record _ => record.Genuine
  | _ => True

/-- What may be asked for a caller. -/
def Allows : Errand → Request → Prop
  | .resume record _ => Request.Within record.thread
  | .dispatch _ _ event => Request.Within event.scope.thread
  | .reap => fun r => ∀ record, r ≠ .save record

theorem Allows.genuine {errand : Errand} {record : Wait.Record}
    (allows : errand.Allows (.save record)) : record.Genuine := by
  cases errand with
  | resume | dispatch => exact allows.2
  | reap => exact absurd rfl (allows record)

/-- As long as genuine records are found, no more is asked for a caller than may be. -/
theorem asks (builtIn : engine.BuiltIn) (errand : Errand) (genuine : errand.Genuine) :
    (errand.program engine).Asks Exchange.Fair errand.Allows fun _ => True := by
  cases errand with
  | resume record event =>
    exact (resume_stays builtIn genuine () trivial).bind fun _ _ => trivial
  | dispatch code version event =>
    exact (Engine.dispatch_stays builtIn code version event () trivial).bind fun _ _ => trivial
  | reap =>
    have announces (records : List Wait.Record) : Keeps (fun _ => True) Exchange.Fair
        (Errand.Allows .reap) (fun _ => True) (Reaper.announce records) := by
      induction records with
      | nil => exact keeps_pure trivial
      | cons r records ih => exact keeps_bind (keeps_ask (.publish _) nofun) fun _ _ => ih
    have reaps : Keeps (fun _ => True) Exchange.Fair (Errand.Allows .reap) (fun _ => True)
        Reaper.once :=
      keeps_bind (keeps_ask .clock nofun) fun now _ =>
        keeps_bind (keeps_call_any (r := .reap now) nofun)
          fun reaped _ => keeps_bind (announces reaped) fun _ _ => keeps_pure trivial
    exact (reaps () trivial).bind fun _ _ => trivial

def MayAsk (errands : List Errand) (i : Nat) (r : Request) : Prop :=
  ∃ errand, errands[i]? = some errand ∧ errand.Allows r

end Errand

end

/-! ## The store keeps conversations apart -/

/-- Where all records are genuine, genuine ones of the conversation are found. -/
theorem World.answer_fair (w : World) (r : Request) (genuine : ∀ h ∈ w.store.records, h.Genuine) :
    Exchange.Fair ⟨r, (w.answer r).1⟩ := by
  cases r with
  | find scope =>
    cases answer : (w.answer (.find scope)).1 with
    | error e => trivial
    | ok found =>
      cases found with
      | none => trivial
      | some r =>
        obtain ⟨stored, here⟩ := World.answer_find answer
        exact ⟨here, genuine r stored⟩
  | _ => trivial

namespace Effect
variable {thief : Bool} {store after : Wait.Store} {x : Exchange}

theorem genuine (effect : Effect thief store x after) (genuine : ∀ h ∈ store.records, h.Genuine)
    (saves : ∀ record, x.1 = .save record → record.Genuine) : ∀ h ∈ after.records, h.Genuine := by
  intro h member
  rcases effect.mem member with old | ⟨r, rfl, rfl⟩
  · exact genuine h old
  · intro ctx read
    rw [Wait.Store.kept_snapshot] at read
    exact (saves r rfl ctx read).trans (Wait.Store.kept_thread store r).symm

/-- What is asked within one conversation changes nothing in another one. -/
theorem alike (effect : Effect thief store x after) (fair : x.Fair) {thread : Thread}
    (within : x.1.Within thread) {scope : Scope} (other : scope.thread ≠ thread) :
    after.Alike scope store := by
  have apart {r : Wait.Record} (here : r.thread = thread) : r.thread ≠ scope.thread :=
    fun same => other (same.symm.trans here)
  cases effect with
  | saved r => exact store.save_alike (apart within.1)
  | claimed r => exact store.claim_alike (apart within)
  | reaped now => exact within.elim
  | stolen place r => exact store.claim_alike (apart (fair.1.trans within))
  | kept => exact .refl scope store

end Effect

/-! ## Histories -/

section
variable {engine : Engine} {errands : List Errand} {w v w' : World}
  {earlier log : List (Nat × Exchange)} {between rest : List (Program Unit)}

/-- Whoever takes turns, in whatever order, finds genuine records and asks for no more than is allowed to
him, and all stored records stay genuine. -/
theorem Interleaved.genuine (run : Interleaved v between log w' rest)
    (asks : ∀ i (p : Program Unit), between[i]? = some p →
      p.Asks Exchange.Fair (Errand.MayAsk errands i) fun _ => True)
    (stored : ∀ h ∈ v.store.records, h.Genuine) :
    (∀ i x, (i, x) ∈ log → x.Fair ∧ Errand.MayAsk errands i x.1) ∧
      (∀ h ∈ w'.store.records, h.Genuine) ∧
      ∀ i (p : Program Unit), rest[i]? = some p →
        p.Asks Exchange.Fair (Errand.MayAsk errands i) fun _ => True :=
  run.relies (fun store => ∀ h ∈ store.records, h.Genuine) asks
    (fun w r holds => w.answer_fair r holds)
    (fun w _ r holds ⟨errand, _, allows⟩ => (w.answer_effect r).genuine holds fun record saves => by
      obtain rfl : r = .save record := saves
      exact allows.genuine)
    stored

theorem Interleaved.alike {thread : Thread} (run : Interleaved v between log w' rest)
    (within : ∀ i x, (i, x) ∈ log → x.Fair ∧ x.1.Within thread) {scope : Scope}
    (other : scope.thread ≠ thread) : w'.store.Alike scope v.store := by
  induction run with
  | rest w ps => exact .refl scope w.store
  | meanwhile store _ _ ih => exact store ▸ ih within
  | @turn w w' ps ps' log i r next asks later ih =>
    obtain ⟨fair, here⟩ := within i _ (List.mem_cons_self ..)
    exact (ih fun j x member => within j x (List.mem_cons_of_mem _ member)).trans
      ((w.answer_effect r).alike fair here other)

/-- What was done in one conversation changes nothing in another one, and what was sent and saved
carries the conversation. -/
structure Isolated (thread : Thread) (before after : World) (log : List (Nat × Exchange)) : Prop where
  records : ∀ scope : Scope, scope.thread ≠ thread →
    (after.store.records.filter fun r => r.inScope scope) =
      before.store.records.filter fun r => r.inScope scope
  lists : ∀ scope : Scope, scope.thread ≠ thread → after.store.list scope = before.store.list scope
  finds : ∀ (scope : Scope) now, scope.thread ≠ thread →
    after.store.find now scope = before.store.find now scope
  sends : ∀ i (scope : Scope) content done, (i, ⟨.send scope content, done⟩) ∈ log →
    scope.thread = thread
  saves : ∀ i (record : Wait.Record) done, (i, ⟨.save record, done⟩) ∈ log → record.thread = thread

/-- In a history that starts without records, the turns of dispatches in one conversation leave all
other conversations alone, whatever was done before in whatever order. -/
theorem dispatch_isolated {thread : Thread} (builtIn : engine.BuiltIn) (empty : w.store.records = [])
    (genuine : ∀ errand ∈ errands, errand.Genuine)
    (before : Interleaved w (errands.map (Errand.program engine)) earlier v between)
    (run : Interleaved v between log w' rest)
    (mine : ∀ i x, (i, x) ∈ log → ∃ code version event,
      errands[i]? = some (.dispatch code version event) ∧ event.scope.thread = thread) :
    Isolated thread v w' log := by
  have asks (i : Nat) (p : Program Unit)
      (started : (errands.map (Errand.program engine))[i]? = some p) :
      p.Asks Exchange.Fair (Errand.MayAsk errands i) fun _ => True := by
    rw [List.getElem?_map] at started
    obtain ⟨errand, sent, rfl⟩ := Option.map_eq_some_iff.mp started
    exact (errand.asks builtIn (genuine errand (List.mem_of_getElem? sent))).mono (fun _ => id)
      (fun r allows => ⟨errand, sent, allows⟩) fun _ => id
  -- the earlier turns leave genuine records only, so the later ones find genuine records
  obtain ⟨-, stored, ready⟩ := before.genuine asks (by simp [empty])
  obtain ⟨turns, -, -⟩ := run.genuine ready stored
  have within (i : Nat) (x : Exchange) (member : (i, x) ∈ log) : x.Fair ∧ x.1.Within thread := by
    obtain ⟨fair, errand, sent, allows⟩ := turns i x member
    obtain ⟨code, version, event, same, here⟩ := mine i x member
    obtain rfl := Option.some.inj (sent.symm.trans same)
    exact ⟨fair, here ▸ allows⟩
  exact {
    records := fun scope other => (run.alike within other).records
    lists := fun scope other => (run.alike within other).list
    finds := fun scope now other => (run.alike within other).find now
    sends := fun i scope content done sent => (within i _ sent).2
    saves := fun i record done saved => (within i _ saved).2.1 }

end

/-! ### Two conversations -/

namespace Neighbours

def message (conversation text : String) : Event :=
  .chatMessage { organization := "org", conversation } text

/-- Two conversations in which a run starts and waits; in the first one a further message comes. -/
def errands : List Errand :=
  [.dispatch "survey" none (message "ours" "first"), .dispatch "survey" none (message "theirs" "hello"),
    .dispatch "survey" none (message "ours" "again")]

def flow : Flow where
  code := "survey"
  nodes := [Chat.start, Chat.wait]
  edges := [{ source := "start", target := "wait", branch := some "m" }]

def world : World where
  catalog := .ofFlows [flow]

/-- What has happened when both runs wait. -/
def waiting : List (Nat × Exchange) × World × List (Program Unit) :=
  takeTurns (List.replicate 12 0 ++ List.replicate 12 1) world
    (errands.map (Errand.program (.standard {})))

/-- What happens when the further message takes up the first of them. -/
def answered : List (Nat × Exchange) × World × List (Program Unit) :=
  takeTurns (List.replicate 12 2) waiting.2.1 waiting.2.2

end Neighbours

/-- The message that takes up a run leaves the other conversation alone. -/
theorem neighbours_isolated :
    Neighbours.world.store.records = [] ∧ (∀ errand ∈ Neighbours.errands, errand.Genuine) ∧
      Neighbours.waiting.2.1.store.records.map Wait.Record.thread =
        [("org", "ours"), ("org", "theirs")] ∧
      Isolated ("org", "ours") Neighbours.waiting.2.1 Neighbours.answered.2.1
        Neighbours.answered.1 := by
  have genuine : ∀ errand ∈ Neighbours.errands, errand.Genuine := by
    simp [Neighbours.errands, Errand.Genuine]
  have before : Interleaved Neighbours.world (Neighbours.errands.map (Errand.program (.standard {})))
      Neighbours.waiting.1 Neighbours.waiting.2.1 Neighbours.waiting.2.2 :=
    Interleaved.ofSchedule _ _ _
  have run : Interleaved Neighbours.waiting.2.1 Neighbours.waiting.2.2 Neighbours.answered.1
      Neighbours.answered.2.1 Neighbours.answered.2.2 := Interleaved.ofSchedule _ _ _
  refine ⟨rfl, genuine, by decide +kernel,
    dispatch_isolated (Engine.builtIn_standard {}) rfl genuine before run fun i x turn => ?_⟩
  obtain rfl := List.eq_of_mem_replicate (takeTurns_scheduled turn)
  exact ⟨_, _, _, rfl, rfl⟩

end Parley
