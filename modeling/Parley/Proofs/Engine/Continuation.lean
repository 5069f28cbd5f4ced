import Parley.Proofs.Engine.Pass
/-!
# Where a suspended run goes on

A run goes on from the context that the waiting node found: all that was recorded before is there, and
what other nodes have recorded after it in the same pass is not (`Engine.goes_on_from_wait`).
-/
namespace Parley

/-! ## What a run remembers -/

/-- What a run remembers under a name: the output of a node or the value of a variable. -/
inductive Entry
  | output (id : String)
  | value (name : String)

/-- What a context has under a name. -/
def Context.recall? (ctx : Context) : Entry → Option Json
  | .output id => ctx.output? id
  | .value name => ctx.variableValue? name

namespace Context

/-- What a run remembers is written over but not forgotten. -/
theorem lasting_entry (e : Entry) : Lasting fun ctx => (ctx.recall? e).isSome where
  record ctx id value has := by
    cases e with
    | value name => exact has
    | output other =>
      show (Keyed.get? other (Keyed.insert id value ctx.outputs)).isSome
      by_cases same : other = id
      · simp [same, Keyed.get?_insert_self]
      · rwa [Keyed.get?_insert_of_ne value ctx.outputs same]
  setVariable ctx name value has := by
    cases e with
    | output id => exact has
    | value other =>
      show (Keyed.get? other (Keyed.insert name value ctx.values)).isSome
      by_cases same : other = name
      · simp [same, Keyed.get?_insert_self]
      · rwa [Keyed.get?_insert_of_ne value ctx.values same]
  kept ctx text has := by cases e <;> exact has

end Context

namespace Turn
variable {e : Entry} {ctx ctx' : Context} {turns : List Turn}

/-- The turn puts in what the run did not remember before. -/
def Adds (t : Turn) (e : Entry) : Prop :=
  t.before.recall? e = none ∧ (t.after.recall? e).isSome

/-- What turns that forget nothing add to a context is what one of them adds. -/
theorem Chained.adds (chained : Chained ctx turns ctx')
    (lasts : ∀ t ∈ turns, (t.before.recall? e).isSome → (t.after.recall? e).isSome) :
    (ctx.recall? e = none ∧ (ctx'.recall? e).isSome) ↔ ∃ t ∈ turns, t.Adds e := by
  induction turns generalizing ctx with
  | nil =>
    obtain rfl : ctx' = ctx := chained
    refine iff_of_false ?_ (by simp)
    rintro ⟨unknown, known⟩
    simp [unknown] at known
  | cons t turns ih =>
    obtain ⟨rfl, rest⟩ := chained
    obtain ⟨first, later⟩ := List.forall_mem_cons.mp lasts
    simp only [List.mem_cons, exists_eq_or_imp]
    by_cases between : (t.after.recall? e).isSome
    · obtain ⟨each, last⟩ := rest.keeps (fun ctx => (ctx.recall? e).isSome) between later
      constructor
      · rintro ⟨unknown, -⟩
        exact .inl ⟨unknown, between⟩
      · rintro (⟨unknown, -⟩ | ⟨u, member, unknown, -⟩)
        · exact ⟨unknown, last⟩
        · exact absurd (each u member) (by simp [unknown])
    · have after : t.after.recall? e = none := by simpa using between
      have before : t.before.recall? e = none := by simpa using mt first between
      have onward := ih rest later
      simp only [after, true_and] at onward
      simpa [Adds, before, after] using onward

/-- What is there at first, or after one of the turns, is there after all turns that forget nothing. -/
theorem Chained.remembers (chained : Chained ctx turns ctx')
    (lasts : ∀ t ∈ turns, (t.before.recall? e).isSome → (t.after.recall? e).isSome)
    (known : (ctx.recall? e).isSome ∨ ∃ t ∈ turns, (t.after.recall? e).isSome) :
    (ctx'.recall? e).isSome := by
  rcases known with first | ⟨t, member, after⟩
  · exact (chained.keeps (fun ctx => (ctx.recall? e).isSome) first lasts).2
  · obtain ⟨earlier, later, rfl⟩ := List.append_of_mem member
    obtain ⟨_, -, -, rest⟩ := chained.split
    exact (rest.keeps (fun ctx => (ctx.recall? e).isSome) after fun u inside =>
      lasts u (List.mem_append_right _ (List.mem_cons_of_mem _ inside))).2

theorem Chained.unwritten (chained : Chained ctx turns ctx')
    (same : ∀ t ∈ turns, t.after.recall? e = t.before.recall? e) : ctx'.recall? e = ctx.recall? e := by
  induction turns generalizing ctx with
  | nil => exact congrArg (·.recall? e) (chained : ctx' = ctx)
  | cons t turns ih =>
    obtain ⟨rfl, rest⟩ := chained
    obtain ⟨first, later⟩ := List.forall_mem_cons.mp same
    exact (ih rest later).trans first

end Turn

namespace Engine
variable {engine : Engine} {log : List Exchange} {record : Wait.Record}

private theorem Pass.Walks.lasts (lawful : engine.Lawful) {ending : Except Panic (Option Outcome)}
    {flow : Flow} {ctx last : Context} {turns : List Turn}
    (walks : Pass.Walks engine log ending flow ctx turns last) {u : Turn}
    (member : u ∈ turns) (e : Entry) (has : (u.before.recall? e).isSome) :
    (u.after.recall? e).isSome :=
  (turn_sound lawful walks.faithful (Context.lasting_entry e) walks.performed member
    (walks.answers u member) ⟨walks.before lawful member, has⟩).2

/-- How a run goes on after a pass whose nodes ran `earlier` and `later` than the one that waits: a resume
that finds the flow and wins its claim goes on from the context that the waiting node found, with the
trigger and the payload of its event. -/
structure GoesOn (engine : Engine) (flow : Flow) (record : Wait.Record) (start seen final : Context)
    (earlier later : List Turn) : Prop where
  resume : seen.depth ≤ Context.deepestText → ∀ event now log ending,
    record.isExpired now = false →
    (Task.Ends (engine.resume record event)
        ([⟨.clock, now⟩, ⟨.load record.flowCode (some record.flowVersion), .ok flow⟩,
          ⟨.claim record, .ok true⟩] ++ log) ending ↔
      Task.Ends (engine.goOn record event flow seen) log ending)
  /-- What was there at first or was recorded by an earlier node is there. -/
  known : ∀ event e, ((start.recall? e).isSome ∨ ∃ u ∈ earlier, (u.after.recall? e).isSome) →
    ((seen.resumedBy event).recall? e).isSome
  /-- What is missing is what a later node was the first to record. -/
  missing : ∀ event e, ((seen.resumedBy event).recall? e = none ∧ (final.recall? e).isSome) ↔
    ∃ u ∈ later, u.Adds e
  /-- What no later node has written to is as the pass has left it. -/
  kept : ∀ event e, (∀ u ∈ later, u.after.recall? e = u.before.recall? e) →
    (seen.resumedBy event).recall? e = final.recall? e

/-- A run goes on from the context that its waiting node found: all that nodes recorded before is there,
and nothing that nodes recorded after it in the same pass. -/
theorem goes_on_from_wait (lawful : engine.Lawful) {ending : Except Panic (Option Outcome)}
    (pass : Pass engine log ending) (saved : ⟨.save record, .ok ()⟩ ∈ log) :
    ∃ flow ctx earlier t later last,
      Pass.Walks engine log ending flow ctx (earlier ++ t :: later) last ∧
        t.Suspends record (.ok ()) ∧ GoesOn engine flow record ctx t.before last earlier later := by
  rcases pass.walks lawful with unsaved | ⟨flow, ctx, turns, last, walks⟩
  · exact absurd saved (unsaved record (.ok ()))
  obtain ⟨t, member, suspends⟩ := walks.suspends lawful saved
  obtain ⟨earlier, later, rfl⟩ := List.append_of_mem member
  obtain ⟨_, front, rfl, back⟩ := walks.performed.chained.split
  -- the node that waits leaves its context as it was, so the later turns start from what it has seen
  have seen (event : Event) (e : Entry) :
      (t.before.resumedBy event).recall? e = t.after.recall? e := by
    rw [suspends.after]
    cases e <;> rfl
  refine ⟨flow, ctx, earlier, t, later, last, walks, suspends, ?_, ?_, ?_, ?_⟩
  · intro fits event now log ending inTime
    have readable := Context.ofSnapshot_serialize (walks.before lawful member).toFaithful
    rw [if_pos fits, ← suspends.snapshot] at readable
    have waits : ∃ node, flow.require record.node = .ok node := by
      rw [suspends.node]
      rcases walks.performed.turn member with ⟨_, node, _, _, _, found, -⟩ | cut
      · exact ⟨node, found⟩
      · exact absurd (cut.log ▸ suspends.saves) (by simp)
    -- a run that goes on drops the text that its context keeps
    have same : Task.Ends (engine.goOn record event flow t.before) log ending ↔
        Task.Ends (engine.goOn record event flow
          { t.before with cached := some record.snapshot }) log ending := Iff.rfl
    rw [same]
    exact resume_taken inTime ⟨walks.checked, waits, readable⟩
  · intro event e known
    have same : (t.before.resumedBy event).recall? e = t.before.recall? e := by cases e <;> rfl
    rw [same]
    exact front.remembers (fun u inside => walks.lasts lawful (List.mem_append_left _ inside) e) known
  · intro event e
    rw [seen]
    exact back.adds fun u inside =>
      walks.lasts lawful (List.mem_append_right _ (List.mem_cons_of_mem _ inside)) e
  · intro event e unwritten
    rw [seen]
    exact (back.unwritten unwritten).symm

end Engine

/-! ### A flow with two ways -/

namespace Fork
open Chat

/-- A flow that waits on one way and sets a variable on the other. -/
def flow : Flow where
  code := "fork"
  nodes := [start, wait, assign "note" "topic" (.str "rain")]
  edges := [{ source := "start", target := "wait", branch := some "m" },
    { source := "start", target := "note", branch := some "m" }]

/-- What the node that waits finds. -/
def seen : Context :=
  (Context.start "r" flow (message "first")).record "start" (.ofFields
    [("message", .str "first"), ("trigger_type", .str "chat_message"),
      ("organization_code", .str "org"), ("conversation_id", .str "conv")])

/-- What an outcome tells: how the run ended, the nodes that have run, how many of them suspended it,
and whether the variable and the output of its node are there. -/
def told (o : Outcome) : Status × List String × Nat × Bool × Bool :=
  (o.status, o.executed.map Visit.id, (o.executed.filter Visit.suspends).length,
    (o.context.recall? (.value "topic")).isSome, (o.context.recall? (.output "note")).isSome)

theorem params_faithful : ∀ n ∈ flow.nodes, n.params.Faithful := by
  simp only [flow, List.forall_mem_cons, List.not_mem_nil, false_implies, implies_true, and_true]
  exact ⟨faithful_start, Json.faithful_obj.mpr Json.table_nil,
    faithful_assign (Json.faithful_str _)⟩

end Fork

/-- The run remembers what the other way has recorded when it is suspended, and no more when any resume
of its one record goes on. -/
theorem fork_forgets :
    (Chat.outcome? Fork.flow).map Fork.told =
        some (.suspended "wait", ["start", "wait", "note"], 1, true, true) ∧
      ∃ record ctx, Chat.records Fork.flow = [record] ∧
        (∀ event now log ending,
          Task.Ends (Engine.resume (.standard {}) record event)
              ([⟨.clock, now⟩, ⟨.load record.flowCode (some record.flowVersion), .ok Fork.flow⟩,
                ⟨.claim record, .ok true⟩] ++ log) ending ↔
            Task.Ends (Engine.goOn (.standard {}) record event Fork.flow ctx) log ending) ∧
        ∀ event, (ctx.resumedBy event).recall? (.value "topic") = none ∧
          (ctx.resumedBy event).recall? (.output "note") = none := by
  refine ⟨by decide +kernel, ?_⟩
  have saved : (Chat.records Fork.flow).map (fun r => (r.node, r.timeout)) = [("wait", none)] := by
    decide +kernel
  have text : (Chat.records Fork.flow).map Wait.Record.snapshot = [Fork.seen.serialize] := rfl
  obtain ⟨record, single, same⟩ := List.map_eq_singleton_iff.mp saved
  obtain ⟨waits, endless⟩ := Prod.mk.inj same
  have snapshot : record.snapshot = Fork.seen.serialize := by simpa [single] using text
  have faithful : Fork.seen.Faithful :=
    ((Context.sound_start ⟨Fork.params_faithful, by simp [Fork.flow]⟩
      (Json.faithful_ofFields (by simp)) "r").record (Json.faithful_ofFields (by simp))).toFaithful
  have readable := Context.ofSnapshot_serialize faithful
  have checked : (Engine.standard {}).check Fork.flow = .ok () := rfl
  have found : ∃ node, Fork.flow.require record.node = .ok node := ⟨Chat.wait, by rw [waits]; rfl⟩
  rw [if_pos (by decide +kernel), ← snapshot] at readable
  have unknown : Keyed.get? "note" Fork.seen.outputs = none := by decide +kernel
  refine ⟨record, { Fork.seen with cached := some record.snapshot }, single,
    fun event now log ending => ?_, fun event => ⟨rfl, unknown⟩⟩
  exact Engine.resume_taken (by simp [Wait.Record.isExpired, endless]) ⟨checked, found, readable⟩

/-- The run of the flow goes on from what the node that waits has found. -/
theorem fork_goes_on :
    ∃ outcome record flow ctx earlier t later, Chat.outcome? Fork.flow = some outcome ∧
      Chat.records Fork.flow = [record] ∧
      Engine.Pass.Walks (.standard {}) (Chat.log Fork.flow) (.ok (some outcome)) flow ctx
        (earlier ++ t :: later) outcome.context ∧
      t.Suspends record (.ok ()) ∧
      Engine.GoesOn (.standard {}) flow record ctx t.before outcome.context earlier later := by
  have passed := Chat.pass Fork.params_faithful rfl (by decide +kernel)
  have waiting : (Chat.records Fork.flow).map Wait.Record.node = ["wait"] := by decide +kernel
  obtain ⟨record, single, -⟩ := List.map_eq_singleton_iff.mp waiting
  have saved := Chat.mem_records.mp (single ▸ List.mem_singleton_self record)
  have ends : (Chat.outcome? Fork.flow).isSome = true := by decide +kernel
  obtain ⟨outcome, ended⟩ := Option.isSome_iff_exists.mp ends
  rw [Chat.ending_of_outcome ended] at passed
  obtain ⟨flow, ctx, earlier, t, later, last, walks, suspends, goesOn⟩ :=
    Engine.goes_on_from_wait (Engine.lawful_standard {}) passed saved
  obtain ⟨-, rfl⟩ := walks.stops.of_outcome rfl
  exact ⟨outcome, record, flow, ctx, earlier, t, later, ended, single, walks, suspends, goesOn⟩

end Parley
