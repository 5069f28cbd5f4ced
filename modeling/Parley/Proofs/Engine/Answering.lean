import Parley.Proofs.Engine.Messages
import Parley.Proofs.Engine.Reaping
import Parley.Proofs.Wait.Newest
/-!
# No message is dropped

A message is dropped when another caller takes the run that waits for it. Where nobody else is at work
this does not happen (`dispatch_undropped`): what is found when the message arrives has not expired
when it is taken up, and its claim succeeds. So the newest of the records that wait in the
conversation is taken up, and no other one is taken, or the message is refused and the store is as it
was. Where no record waits the flow of the message is run, as it is for every other event.
-/
namespace Parley

/-! ## What stays in a store -/

theorem World.answer_find_ok {w : World} (honest : w.thief = false) {scope : Scope}
    {found : Option Wait.Record} (answered : (w.answer (.find scope)).1 = .ok found) :
    w.failure? .find = none ∧ w.store.find w.clock scope = found ∧ (w.answer (.find scope)).2 = w := by
  simp only [answer, find_honest honest, guarded] at answered ⊢
  cases failure : w.failure? .find with
  | some e => simp [failure] at answered
  | none =>
    simp only [failure, Except.ok.injEq] at answered
    exact ⟨rfl, answered, rfl⟩

theorem World.answer_find_error {w : World} {scope : Scope} {e : Error}
    (answered : (w.answer (.find scope)).1 = .error e) :
    w.failure? .find = some e ∧ (w.answer (.find scope)).2 = w := by
  simp only [answer, guarded] at answered ⊢
  cases failure : w.failure? .find with
  | some e' =>
    simp only [failure, Except.error.injEq] at answered
    exact ⟨congrArg some answered, rfl⟩
  | none => simp [failure] at answered

theorem World.answer_claim_ok {w : World} {r : Wait.Record} {won : Bool}
    (claimed : (w.answer (.claim r)).1 = .ok won) :
    won = (w.store.claim r).1 ∧ (w.answer (.claim r)).2.store = (w.store.claim r).2 := by
  simp only [answer, guarded] at claimed ⊢
  cases failure : w.failure? .claim with
  | some e => simp [failure] at claimed
  | none =>
    simp only [failure, Except.ok.injEq] at claimed
    exact ⟨claimed.symm, rfl⟩

theorem World.answer_claim_error {w : World} {r : Wait.Record} {e : Error}
    (refused : (w.answer (.claim r)).1 = .error e) : (w.answer (.claim r)).2 = w := by
  simp only [answer, guarded] at refused ⊢
  cases failure : w.failure? .claim with
  | some e => rfl
  | none => simp [failure] at refused

theorem Request.Steady.not_claim {r : Request} (steady : r.Steady) (c : Wait.Record) :
    r ≠ .claim c := by
  rintro rfl
  exact steady

theorem Request.Steady.not_reap {r : Request} (steady : r.Steady) (now : Instant) :
    r ≠ .reap now := by
  rintro rfl
  exact steady

theorem Effect.leaves {store after : Wait.Store} {x : Exchange} (effect : Effect false store x after)
    (steady : x.1.Steady) {h : Wait.Record} (stored : h ∈ store.records) :
    h ∈ after.records ∨ ∃ s, x = ⟨.save s, .ok ()⟩ ∧ s.key = h.key := by
  cases effect with
  | saved r =>
    by_cases place : r.key = h.key
    · exact .inr ⟨r, rfl, place⟩
    · refine .inl ?_
      rw [Wait.Store.records_save]
      exact List.mem_append_left _ (List.mem_filter.mpr ⟨stored, by simpa using Ne.symm place⟩)
  | claimed r => exact absurd rfl (steady.not_claim r)
  | reaped now => exact absurd rfl (steady.not_reap now)
  | stolen _ _ steals => contradiction
  | kept => exact .inl stored

/-- Where no record is claimed or reaped, a record stays until another one is saved at its place. -/
theorem World.Answers.stays {w w' : World} {log : List Exchange} (answers : w.Answers log w')
    (honest : w.thief = false) (steady : ∀ x ∈ log, x.1.Steady) {h : Wait.Record}
    (stored : h ∈ w.store.records) :
    h ∈ w'.store.records ∨ ∃ s, (⟨.save s, .ok ()⟩ : Exchange) ∈ log ∧ s.key = h.key := by
  induction log generalizing w with
  | nil =>
    obtain rfl : w' = w := answers
    exact .inl stored
  | cons x log ih =>
    obtain ⟨r, a⟩ := x
    obtain ⟨first, rest⟩ := List.forall_mem_cons.mp steady
    obtain ⟨rfl, later⟩ := answers
    rcases (honest ▸ w.answer_effect r).leaves first stored with stays | ⟨s, saved, place⟩
    · rcases ih later (by simpa using honest) rest stays with last | ⟨s, saved, place⟩
      · exact .inl last
      · exact .inr ⟨s, List.mem_cons_of_mem _ saved, place⟩
    · exact .inr ⟨s, saved ▸ List.mem_cons_self .., place⟩

namespace Engine
variable {engine : Engine} {w w' : World} {event : Event} {code : String} {version : Option String}
  {r : Wait.Record} {log : List Exchange}

/-! ## What comes of a message -/

/-- A message takes up the run of a record: it takes the record out of the store and no other one,
and the run goes on, until it is told how it has ended or one of its nodes panics. -/
structure Resumes (engine : Engine) (w : World) (event : Event) (r : Wait.Record)
    (ending : Except Panic (Except Error Dispatched)) (log : List Exchange) (w' : World) : Prop where
  outcome : ∀ result, ending = .ok result → ∃ outcome, result = .ok (.resumed outcome)
  goes : ∃ flow ctx rest former, Ready engine r flow ctx ∧
    log = [⟨.find event.scope, .ok (some r)⟩, ⟨.clock, w.clock⟩,
      ⟨.load r.flowCode (some r.flowVersion), .ok flow⟩, ⟨.claim r, .ok true⟩] ++ rest ∧
    Task.Ends (engine.goOn r event flow ctx) rest former ∧
    ending = former.map (Except.map answered) ∧
    (engine.BuiltIn → ∀ x ∈ rest, x.1.Steady)
  claimed : (w.store.claim r).2.records = w.store.records.filter fun h => h.key ≠ r.key
  others : engine.BuiltIn → ∀ h ∈ w.store.records, h.key ≠ r.key →
    h ∈ w'.store.records ∨ ∃ s, ⟨.save s, .ok ()⟩ ∈ log ∧ s.key = h.key

/-- A run of the flow that the event names, or what keeps it from starting. -/
structure StartsAfresh (engine : Engine) (w : World) (code : String) (version : Option String)
    (event : Event) (ending : Except Panic (Except Error Dispatched)) (log : List Exchange)
    (w' : World) : Prop where
  ran : (engine.startRun code version event ()).run w = (ending.map fun result => (result, ()), w')
  heard : (engine.startRun code version event ()).heard w = log
  ends : ∀ result, ending = .ok result → (∃ outcome, result = .ok (.ran outcome)) ∨
    ∃ e, result = .error e ∧ Unstarted engine code version log e
  unclaiming : engine.BuiltIn → ∀ x ∈ log, x.1.Steady

/-- What comes of an event when nobody else is at work, where some records wait. -/
structure Undropped (engine : Engine) (w : World) (rs : List Wait.Record) (code : String)
    (version : Option String) (event : Event) (ending : Except Panic (Except Error Dispatched))
    (log : List Exchange) (w' : World) : Prop where
  never : ending ≠ .ok (.ok .dropped)
  unsearched : event.trigger = .chatMessage → ∀ e, w.failure? .find = some e →
    ending = .ok (.error e) ∧ w' = w
  waiting : event.trigger = .chatMessage → w.failure? .find = none →
    Wait.Store.pending w.clock event.scope rs ≠ [] →
    ∃ s, Wait.Store.Newest w.store.isTable (Wait.Store.pending w.clock event.scope rs) s ∧
      (Resumes engine w event (w.store.kept s) ending log w' ∨
        (∃ e, ending = .ok (.error e)) ∧ w'.store = w.store)
  alone : event.trigger = .chatMessage → w.failure? .find = none →
    Wait.Store.pending w.clock event.scope rs = [] →
    ∃ rest, log = ⟨.find event.scope, .ok none⟩ :: rest ∧
      StartsAfresh engine w code version event ending rest w'
  other : event.trigger ≠ .chatMessage → StartsAfresh engine w code version event ending log w'

/-! ## The ways of a dispatch in one world -/

theorem startsAfresh {ending : Except Panic (Except Error Dispatched)}
    (starts : Task.Ends (engine.startRun code version event) log ending)
    (answers : w.Answers log w') : StartsAfresh engine w code version event ending log w' := by
  obtain ⟨heard, ran⟩ := Program.heard_of_answers (Task.program_of_ends starts) answers
  refine ⟨ran, heard, ?_, fun builtIn => startRun_steady builtIn starts⟩
  rintro result rfl
  cases result with
  | error e => exact .inr ⟨e, rfl, startRun_unstarted starts⟩
  | ok d =>
    rcases startRun_runs starts with ⟨_, -, same⟩ | ⟨_, _, _, former, -, -, same⟩
    · exact absurd same (by simp)
    · rcases former with cause | e | outcome
      · exact absurd same (by simp [Except.map])
      · exact absurd same (by simp [Except.map])
      · exact .inl ⟨outcome, Except.ok.inj same⟩

theorem StartsAfresh.never {ending : Except Panic (Except Error Dispatched)}
    (starts : StartsAfresh engine w code version event ending log w') :
    ending ≠ .ok (.ok .dropped) := by
  intro dropped
  rcases starts.ends _ dropped with ⟨_, same⟩ | ⟨_, same, -⟩ <;> simp at same

/-- With nobody else at work, taking up the record that was found succeeds or changes nothing. -/
theorem Resumption.alone {rs : List Wait.Record} {ending : Except Panic (Except Error Resumed)}
    (goes : Resumption engine r event log ending) (holds : w.store.Holds rs)
    (honest : w.thief = false) (found : w.store.find w.clock event.scope = some r)
    (answers : w.Answers log w') :
    Resumes engine w event r (ending.map (Except.map answered))
        (⟨.find event.scope, .ok (some r)⟩ :: log) w' ∨
      (∃ e, ending = .ok (.error e)) ∧ w'.store = w.store := by
  have inTime := Wait.Store.find_inTime found
  obtain ⟨wins, left⟩ := holds.claim_found found
  cases goes with
  | expired late | expiredFailed late =>
    obtain ⟨rfl, -⟩ := answers
    have late : r.isExpired w.clock = true := late
    simp [inTime] at late
  | unloaded | refused =>
    obtain ⟨rfl, -, same⟩ := answers
    exact .inr ⟨⟨_, rfl⟩, congrArg World.store same⟩
  | unclaimed =>
    obtain ⟨rfl, -, refused, same⟩ := answers
    exact .inr ⟨⟨_, rfl⟩, congrArg World.store (same.trans (World.answer_claim_error refused.symm))⟩
  | lost =>
    obtain ⟨rfl, -, lost, -⟩ := answers
    have lost : (w.answer (.claim r)).1 = .ok false := lost.symm
    exact absurd (World.answer_claim_ok lost).1 (by simp [wins])
  | @taken now flow ctx rest _ _ ready goes =>
    obtain ⟨rfl, -, claimed, later⟩ := answers
    have claimed : (w.answer (.claim r)).1 = .ok true := claimed.symm
    have later : (w.answer (.claim r)).2.Answers rest w' := later
    have store := (World.answer_claim_ok claimed).2
    refine .inl ⟨fun result returns => ?_, ⟨flow, ctx, rest, ending, ready, rfl, goes, rfl,
      fun builtIn => goOn_steady builtIn goes⟩, left, fun builtIn h stored place => ?_⟩
    · cases ending with
      | error cause => exact absurd returns (by simp [Except.map])
      | ok resumed =>
        obtain ⟨outcome, rfl⟩ := goOn_ends ready goes
        exact ⟨outcome, (Except.ok.inj returns).symm⟩
    · have stays : h ∈ (w.answer (.claim r)).2.store.records := by
        rw [store, left]
        exact List.mem_filter.mpr ⟨stored, by simpa using place⟩
      rcases later.stays (by simpa using honest) (goOn_steady builtIn goes) stays with
        last | ⟨s, saved, same⟩
      · exact .inl last
      · exact .inr ⟨s, by simp [saved], same⟩

section
variable {rs : List Wait.Record} (holds : w.store.Holds rs) (honest : w.thief = false)
  (chat : event.trigger = .chatMessage)
include holds honest chat

theorem undropped_found {ending : Except Panic (Except Error Resumed)}
    (goes : Resumption engine r event log ending)
    (answers : w.Answers (⟨.find event.scope, .ok (some r)⟩ :: log) w') :
    Undropped engine w rs code version event (ending.map (Except.map answered))
      (⟨.find event.scope, .ok (some r)⟩ :: log) w' := by
  obtain ⟨found, later⟩ := answers
  obtain ⟨works, found, same⟩ := World.answer_find_ok honest found.symm
  rw [same] at later
  have waits : Wait.Store.pending w.clock event.scope rs ≠ [] := fun none => by
    simp [holds.find_eq_none.mpr none] at found
  have ways := goes.alone holds honest found later
  obtain ⟨s, newest, rfl⟩ := holds.find_newest found
  refine ⟨fun dropped => ?_, fun _ e fails => by simp [works] at fails, fun _ _ _ => ⟨s, newest, ?_⟩,
    fun _ _ none => absurd none waits, fun other => absurd chat other⟩
  · rcases ways with resumes | ⟨⟨e, rfl⟩, -⟩
    · obtain ⟨outcome, resumed⟩ := resumes.outcome _ dropped
      simp at resumed
    · simp [Except.map] at dropped
  · refine ways.imp_right ?_
    rintro ⟨⟨e, rfl⟩, same⟩
    exact ⟨⟨e, rfl⟩, same⟩

theorem undropped_unanswered {ending : Except Panic (Except Error Dispatched)}
    (starts : Task.Ends (engine.startRun code version event) log ending)
    (answers : w.Answers (⟨.find event.scope, .ok none⟩ :: log) w') :
    Undropped engine w rs code version event ending (⟨.find event.scope, .ok none⟩ :: log) w' := by
  obtain ⟨found, later⟩ := answers
  obtain ⟨works, found, same⟩ := World.answer_find_ok honest found.symm
  rw [same] at later
  have none := holds.find_eq_none.mp found
  have afresh := startsAfresh starts later
  exact ⟨afresh.never, fun _ e fails => by simp [works] at fails, fun _ _ waits => absurd none waits,
    fun _ _ _ => ⟨log, rfl, afresh⟩, fun other => absurd chat other⟩

end

theorem undropped_unfound {rs : List Wait.Record} {e : Error} (chat : event.trigger = .chatMessage)
    (answers : w.Answers [⟨.find event.scope, .error e⟩] w') :
    Undropped engine w rs code version event (.ok (.error e)) [⟨.find event.scope, .error e⟩] w' := by
  obtain ⟨found, later⟩ := answers
  obtain ⟨fails, same⟩ := World.answer_find_error found.symm
  refine ⟨by simp, fun _ e' fails' => ?_, fun _ works => by simp [fails] at works,
    fun _ works => by simp [fails] at works, fun other => absurd chat other⟩
  obtain rfl := Option.some.inj (fails.symm.trans fails')
  exact ⟨rfl, later.trans same⟩

/-- With nobody else at work no message is dropped. -/
theorem dispatch_undropped (engine : Engine) {w : World} {calls : List Wait.Store.Call}
    (reached : w.store.Reached calls) (honest : w.thief = false) (code : String)
    (version : Option String) (event : Event) :
    let p := engine.dispatch code version event ()
    Undropped engine w (Wait.Store.waiting calls) code version event ((p.run w).1.map Prod.fst)
      (p.heard w) (p.run w).2 := by
  intro p
  have holds := reached.holds
  have answers := p.answers_heard w
  have goes := dispatch_dispatching (Task.ends_of_program (p.ends_heard w))
  generalize (p.run w).1.map Prod.fst = ending at goes ⊢
  generalize p.heard w = log at answers goes ⊢
  generalize (p.run w).2 = w' at answers ⊢
  cases goes with
  | unfound chat => exact undropped_unfound chat answers
  | resumed chat goes same =>
    rw [same]
    exact undropped_found holds honest chat goes answers
  | unanswered chat starts => exact undropped_unanswered holds honest chat starts answers
  | fresh other starts =>
    have afresh := startsAfresh starts answers
    exact ⟨afresh.never, fun chat => absurd chat other, fun chat => absurd chat other,
      fun chat => absurd chat other, fun _ => afresh⟩

end Engine

/-! ### Three runs that wait in one conversation -/

namespace Queue

def flow : Flow where
  code := "queue"
  nodes := [Chat.start, { Chat.wait with id := "a" }, { Chat.wait with id := "b" },
    { Chat.wait with id := "c" }]
  edges := [{ source := "start", target := "a", branch := some "m" }]

/-- The run that waits at a node since a second. -/
def record (node : String) (second : Int) (timeout : Option Int) : Wait.Record where
  __ := Chat.record flow ("w-" ++ node) node
  timeout := timeout
  createdAt := .ofSeconds second

/-- The newest of the three has expired, and the next one was saved first. -/
def calls : List Wait.Store.Call :=
  [.save (record "a" 7 none), .save (record "b" 5 none), .save (record "c" 8 (some 9))]

def world (store : Wait.Store) : World where
  store := store.after calls
  clock := .ofSeconds 9
  catalog := .ofFlows [flow]

def sends : Program (Except Error Dispatched × Unit) :=
  (Engine.standard {}).dispatch "queue" none (Chat.message "") ()

theorem reached {store : Wait.Store} (member : store ∈ [Wait.Store.ledger {}, .table {}]) :
    (world store).store.Reached calls := by
  simp only [List.mem_cons, List.not_mem_nil, or_false] at member
  rcases member with rfl | rfl
  · exact .inl rfl
  · exact .inr rfl

theorem waits {store : Wait.Store} (member : store ∈ [Wait.Store.ledger {}, .table {}]) :
    Chat.Waits flow (record "a" 7 none) (world store) := by
  simp only [List.mem_cons, List.not_mem_nil, or_false] at member
  rcases member with rfl | rfl
  · exact ⟨⟨rfl, rfl, rfl⟩, by decide +kernel, rfl, rfl, rfl, ⟨{ Chat.wait with id := "a" }, rfl⟩⟩
  · exact ⟨⟨rfl, rfl, rfl⟩, by decide +kernel, rfl, rfl, rfl, ⟨{ Chat.wait with id := "a" }, rfl⟩⟩

end Queue

/-- The message takes up the newest run that has not expired. -/
theorem queue_undropped :
    (∀ store ∈ [Wait.Store.ledger {}, .table {}],
      (Queue.world store).store.Reached Queue.calls ∧ (Queue.world store).thief = false) ∧
    ∀ store ∈ [Wait.Store.ledger {}, .table {}],
      Engine.Undropped (.standard {}) (Queue.world store) (Wait.Store.waiting Queue.calls) "queue" none
        (Chat.message "") ((Queue.sends.run (Queue.world store)).1.map Prod.fst)
        (Queue.sends.heard (Queue.world store)) (Queue.sends.run (Queue.world store)).2 ∧
      (⟨.claim (Queue.record "a" 7 none), .ok true⟩ : Exchange) ∈
        Queue.sends.heard (Queue.world store) := by
  refine ⟨fun store member => ⟨Queue.reached member, rfl⟩, fun store member => ?_⟩
  obtain ⟨ends, answers⟩ := (Queue.waits member).takes_up ⟨rfl, rfl, by decide +kernel⟩
  obtain ⟨former, ran, -⟩ := Task.ends_bind_done.mp ends
  have heard : Queue.sends.heard (Queue.world store) = _ :=
    (Program.heard_of_answers (Task.program_of_ends ran) answers).1
  refine ⟨Engine.dispatch_undropped (.standard {}) (Queue.reached member) rfl "queue" none
    (Chat.message ""), ?_⟩
  rw [heard]
  simp [Chat.takesUp, Engine.takesUp]

end Parley
