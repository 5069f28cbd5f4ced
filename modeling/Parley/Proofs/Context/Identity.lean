import Parley.Proofs.Context.Snapshot
import Parley.Proofs.Requests
import Parley.Proofs.Wait.Threads
/-!
# Whose run a snapshot is of

A snapshot that can be read tells the run and the conversation of the context that it was made of,
whatever else is lost of the context (`Context.tells_serialize`). Nodes change neither of the two, so a
context and the text that is kept with it are of one run and of one conversation from the start of the
run on (`Context.Of`), and all that is asked in a walk belongs to them (`Engine.topWalk_belongs`).
-/
namespace Parley

namespace Record
variable {α : Type} {source : Source}

/-- The fields of a record are not read when they end in the middle of a text. -/
theorem checkFields_stop (rules : List FieldRule) (s : Stop) (seen : List String)
    (fields : List (String × Document)) :
    checkFields rules source (some s) seen fields ≠ .ok () := by
  induction fields generalizing seen with
  | nil => simp [checkFields, stopped, noFault]
  | cons f fields ih =>
    obtain ⟨key, d⟩ := f
    rw [checkFields]
    split
    · split
      · simp
      · next rule _ _ =>
        cases rule.accepts source d with
        | ok v => exact ih (key :: seen)
        | error e => simp [bind, Except.bind]
    · split
      · simp
      · exact ih seen

theorem built_of_decode {name : String} {r : Record α} {fields : List (String × Document)}
    {stop : Option Stop} {a : α} (decoded : decode name r source (.obj fields stop) = .ok a) :
    stop = none ∧ ∃ inner, source.enter = .ok inner ∧
      r.build inner (fun key => fields.lookup key) = .ok a := by
  obtain ⟨inner, entered, decoded⟩ := bind_eq_ok.mp decoded
  obtain ⟨⟨⟩, checked, built⟩ := bind_eq_ok.mp decoded
  cases stop with
  | none => exact ⟨rfl, inner, entered, built⟩
  | some s => exact absurd checked (checkFields_stop _ s [] fields)

end Record

/-! ## Reading a snapshot -/

namespace Context
open Parley.Json Parley.Document
variable {ctx : Context}

private theorem faithful_scope (s : Scope) : s.toJson.Faithful :=
  faithful_ofFields (by simp)

/-- What is decoded from the documents of the fields has the run and the conversation of the context. -/
private theorem decoded_identity (source : Source) {inner : Source}
    {gs : List (String × Document)} {c : Context} (entered : source.enter = .ok inner)
    (room : inner.holds 0) (all : List.Forall₂ FieldReadsAs ctx.fields gs)
    (decoded : decoder source (.obj gs none) = .ok c) :
    c.runId = ctx.runId ∧ c.scope = ctx.scope := by
  obtain ⟨-, _, same, built⟩ := Record.built_of_decode decoded
  obtain rfl := Except.ok.inj (entered.symm.trans same)
  obtain ⟨runText, runAt, runReads⟩ := lookup_readsAs all
    (show ctx.fields.lookup "run_id" = some (.str ctx.runId) from rfl)
  obtain ⟨scopeText, scopeAt, scopeReads⟩ := lookup_readsAs all
    (show ctx.fields.lookup "scope" = some ctx.scope.toJson from rfl)
  obtain rfl := runReads.unique (readsAs_str _)
  obtain rfl := scopeReads.unique (readsBack_iff.mp (readsBack (faithful_scope ctx.scope)))
  simp only [Record.build_seq, Record.build_map, Record.build_required, runAt, scopeAt,
    Option.some.injEq] at built
  -- the fields are built in their order; the first and the seventh are the ones that matter
  obtain ⟨_, values, ⟨_, outputs, ⟨_, scope, ⟨_, operator, ⟨_, payload, ⟨_, trigger, ⟨_, version,
    ⟨_, code, ⟨run, ⟨_, rfl, runTold⟩, rfl⟩, -, rfl⟩, -, rfl⟩, -, rfl⟩, -, rfl⟩, -, rfl⟩,
    ⟨_, rfl, scopeTold⟩, rfl⟩, -, rfl⟩, -, rfl⟩ := built
  have back : Scope.decoder inner (ofJson ctx.scope.toJson) =
      inner.held ctx.scope.toJson.depth ctx.scope := Scope.decodes room ctx.scope
  rw [back, Source.held] at scopeTold
  split at scopeTold
  · exact ⟨(Except.ok.inj runTold).symm, (Except.ok.inj scopeTold).symm⟩
  · contradiction

/-- Whoever can read the text learns that it is of this run and of this conversation. -/
def Tells (text run : String) (scope : Scope) : Prop :=
  ∀ ctx, ofSnapshot text = .ok ctx → ctx.runId = run ∧ ctx.scope = scope

private theorem ofSnapshot_ok {text : String} (read : ofSnapshot text = .ok ctx) :
    ∃ c d trailing, Document.read text = (d, trailing) ∧
      decoder (.text Source.textRoom) d = .ok c ∧ ctx = { c with cached := some text } := by
  unfold ofSnapshot Decoder.ofText at read
  generalize seen : Document.read text = e at read
  obtain ⟨d, trailing⟩ := e
  cases decoded : decoder (.text Source.textRoom) d with
  | error e => simp [decoded, bind, Except.bind] at read
  | ok c =>
    cases trailing with
    | some f => simp [decoded, bind, Except.bind, noFault] at read
    | none =>
      simp only [decoded, bind, Except.bind, noFault, pure, Except.pure, Except.ok.injEq] at read
      exact ⟨c, d, none, rfl, decoded, read.symm⟩

/-- The text of a context tells its run and its conversation, if it can be read. -/
theorem tells_serialize (ctx : Context) : Tells ctx.serialize ctx.runId ctx.scope := by
  intro back read
  obtain ⟨c, d, trailing, seen, decoded, rfl⟩ := ofSnapshot_ok read
  have each (f : String × Json) (_ : f ∈ ctx.fields) := readsAs_or_breaks f.2
  rcases readsAs_or_breaksOff each with ⟨gs, all⟩ | off
  · obtain ⟨rfl, -⟩ := Prod.mk.inj (seen.symm.trans (read_text (readsAs_obj all)))
    have same := decoded_identity (.text Source.textRoom) rfl rfl all decoded
    exact same
  · obtain ⟨gs, after, broken⟩ := off.read_text
    obtain ⟨rfl, -⟩ := Prod.mk.inj (seen.symm.trans broken)
    exact absurd (Record.built_of_decode decoded).1 (by simp)

/-! ## Contexts of one run -/

/-- The context is of a run and of a conversation, and so is the text that is kept with it. -/
structure Of (run : String) (scope : Scope) (ctx : Context) : Prop where
  runId : ctx.runId = run
  place : ctx.scope = scope
  cached : ∀ text, ctx.cached = some text → Tells text run scope

section
variable {run : String} {scope : Scope}

theorem of_start (run : String) (flow : Flow) (event : Event) :
    Of run event.scope (start run flow event) :=
  ⟨rfl, rfl, by simp [start]⟩

theorem Of.record (of : Of run scope ctx) (id : String) (v : Json) : Of run scope (ctx.record id v) :=
  ⟨of.runId, of.place, by simp [Context.record]⟩

theorem Of.setVariable (of : Of run scope ctx) (name : String) (v : Json) :
    Of run scope (ctx.setVariable name v) :=
  ⟨of.runId, of.place, by simp [Context.setVariable]⟩

theorem Of.forSubFlow (of : Of run scope ctx) (flow : Flow) (payload : Json) :
    Of run scope (ctx.forSubFlow flow payload) :=
  ⟨of.runId, of.place, by simp [Context.forSubFlow]⟩

theorem Of.resumedBy (of : Of run scope ctx) (event : Event) : Of run scope (ctx.resumedBy event) :=
  ⟨of.runId, of.place, by simp [Context.resumedBy]⟩

theorem Of.snapshot (of : Of run scope ctx) :
    Tells ctx.snapshot.1 run scope ∧ Of run scope ctx.snapshot.2 := by
  unfold Context.snapshot
  split
  · next text kept => exact ⟨of.cached text kept, of⟩
  · have tells : Tells ctx.serialize run scope := of.runId ▸ of.place ▸ tells_serialize ctx
    exact ⟨tells, of.runId, of.place, by rintro text ⟨⟩; exact tells⟩

/-- A context that is read from a text is of the run and of the conversation that the text tells. -/
theorem of_ofSnapshot {text : String} (tells : Tells text run scope)
    (read : ofSnapshot text = .ok ctx) : Of run scope ctx := by
  obtain ⟨same, place⟩ := tells ctx read
  obtain ⟨_, _, _, -, -, rfl⟩ := ofSnapshot_ok read
  exact ⟨same, place, by rintro _ ⟨⟩; exact tells⟩

/-- A text tells the run and the conversation of the one context that is read from it. -/
theorem tells_of_ofSnapshot {text : String} (read : ofSnapshot text = .ok ctx) :
    Tells text ctx.runId ctx.scope := by
  intro other again
  obtain rfl := Except.ok.inj (read.symm.trans again)
  exact ⟨rfl, rfl⟩

end

end Context

/-! ## Walks of one run -/

/-- The request is one of a walk of a run in a conversation: what is saved belongs there and tells of the
run, what is sent goes there, and what is told is told of nodes of the run. -/
def Request.Belongs (run : String) (scope : Scope) : Request → Prop
  | .save r => r.thread = scope.thread ∧ Context.Tells r.snapshot run scope
  | .send s _ => s = scope
  | .publish e => ∃ node type success, e = .nodeFinished run node type success
  | .clock | .identifier | .load .. | .execute .. => True
  | _ => False

theorem Context.of_suspends (run : String) (scope : Scope) :
    Conduct.Suspends (Of run scope) (Request.Belongs run scope) where
  record _ id v of := of.record id v
  setVariable _ name v of := of.setVariable name v
  forSubFlow _ flow payload of := of.forSubFlow flow payload
  works ctx r of work := by
    unfold Request.IsWork at work
    split at work
    · trivial
    · trivial
    · trivial
    · trivial
    · exact work.trans of.place
    · exact ⟨_, _, _, by rw [work, of.runId]⟩
    · contradiction
  snapshot _ of := of.snapshot.2
  waits ctx r of wait := by
    obtain ⟨id, now, timeout, node, rfl⟩ := wait
    obtain ⟨tells, after⟩ := of.snapshot
    exact ⟨congrArg Scope.thread after.place, tells⟩

/-- What a walk asks for belongs to the run and to the conversation of its context. -/
theorem Engine.topWalk_belongs {engine : Engine} (builtIn : engine.BuiltIn) (run : String)
    (scope : Scope) (flow : Flow) (entry : String) :
    Task.Asks (Context.Of run scope) (Request.Belongs run scope) (engine.topWalk flow entry) :=
  topWalk_asks builtIn (Context.of_suspends run scope) flow entry

end Parley
