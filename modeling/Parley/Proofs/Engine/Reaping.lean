import Parley.Proofs.Engine.Failures
import Parley.Proofs.Wait.Live
/-!
# Reaping makes no difference to who dispatches

Events are dispatched one after the other, and in between what has expired is reaped. No one who
dispatches an event can tell whether it was: with the same events and the same times everything that is
asked, answered and given back is the same without the reapings (`reaping_unseen`). Worlds are compared
in which the stores have the same live records and everything else but what the reapings told is the
same (`World.Resembles`).
-/
namespace Parley

/-! ## Worlds that look alike -/

/-- The event tells that a record has expired. -/
def RunEvent.ofReaping : RunEvent → Bool
  | .waitExpired .. => true
  | _ => false

/-- What was published but by reapings. -/
def World.told (w : World) : List RunEvent := w.bus.published.filter fun e => !e.ofReaping

/-- Two worlds that differ in what has expired, and in what was told of it. -/
structure World.Resembles (w v : World) : Prop where
  stores : w.store.Resembles w.clock v.store
  told : w.told = v.told
  honest : w.thief = false
  rest : v = { w with store := v.store, bus := v.bus }

/-- What is asked for where no record is claimed or reaped and nobody sleeps. -/
def Request.Steady : Request → Prop
  | .claim _ | .list _ | .reap _ | .sleep _ => False
  | _ => True

theorem Request.Traceless.steady {r : Request} (traceless : r.Traceless) : r.Steady := by
  rcases traceless with looks | rfl
  · cases r <;> first | exact looks.elim | trivial
  · trivial

theorem World.find_honest {w : World} (honest : w.thief = false) (scope : Scope) :
    w.find scope = (w.store.find w.clock scope, w) := by
  unfold find
  cases w.store.find w.clock scope with
  | none => rfl
  | some r => simp [honest]

namespace World.Resembles
variable {w v w' : World}

/-- A call of the store that is answered alike in both worlds and leaves their stores alike. -/
theorem guarded {α : Type} (alike : w.Resembles v) (call : StoreCall) (a : α)
    {store other : Wait.Store} (stores : store.Resembles w.clock other) :
    (v.guarded call (a, { v with store := other })).1 =
        (w.guarded call (a, { w with store })).1 ∧
      (w.guarded call (a, { w with store })).2.Resembles
        (v.guarded call (a, { v with store := other })).2 := by
  have failure : v.failure? call = w.failure? call := by rw [alike.rest]; rfl
  simp only [World.guarded, failure]
  cases w.failure? call with
  | some e => exact ⟨rfl, alike⟩
  | none => exact ⟨rfl, stores, alike.told, alike.honest, by rw [alike.rest]⟩

theorem answer (alike : w.Resembles v) {r : Request} (steady : r.Steady) :
    (v.answer r).1 = (w.answer r).1 ∧ (w.answer r).2.Resembles (v.answer r).2 := by
  cases r with
  | claim | list | reap | sleep => exact steady.elim
  | save r => exact alike.guarded .save () (alike.stores.call (.save r))
  | find scope =>
    have honest : v.thief = false := by rw [alike.rest]; exact alike.honest
    have clock : v.clock = w.clock := by rw [alike.rest]
    simp only [World.answer, find_honest alike.honest, find_honest honest, clock,
      ← alike.stores.find scope]
    exact alike.guarded .find _ alike.stores
  | publish event =>
    refine ⟨rfl, alike.stores, ?_, alike.honest, by rw [alike.rest]; rfl⟩
    have told := alike.told
    simp only [World.told] at told
    simp only [World.answer, World.told, Bus.publish, List.filter_cons, told]
  | send scope content =>
    obtain ⟨stores, told, honest, rest⟩ := alike
    rw [rest]
    simp only [World.answer, World.send]
    cases kept : w.outbound with
    | keep => exact ⟨rfl, stores, told, honest, by simp⟩
    | refuse | pass => exact ⟨rfl, stores, told, honest, by simp [kept]⟩
  | clock | load | identifier | execute =>
    obtain ⟨stores, told, honest, rest⟩ := alike
    rw [rest]
    exact ⟨rfl, stores, told, honest, rfl⟩

theorem claim (alike : w.Resembles v) {scope : Scope} {r : Wait.Record}
    (found : w.store.find w.clock scope = some r) :
    (v.answer (.claim r)).1 = (w.answer (.claim r)).1 ∧
      (w.answer (.claim r)).2.Resembles (v.answer (.claim r)).2 := by
  obtain ⟨left, right⟩ := alike.stores.claim found
  simp only [World.answer, World.claim, left, right]
  exact alike.guarded .claim true (alike.stores.call (.claim r))

theorem answers (alike : w.Resembles v) {log : List Exchange} (steady : ∀ x ∈ log, x.1.Steady)
    (answers : w.Answers log w') : ∃ v', v.Answers log v' ∧ w'.Resembles v' := by
  induction log generalizing w v with
  | nil =>
    obtain rfl : w' = w := answers
    exact ⟨v, rfl, alike⟩
  | cons x log ih =>
    obtain ⟨r, a⟩ := x
    obtain ⟨first, rest⟩ := List.forall_mem_cons.mp steady
    obtain ⟨rfl, later⟩ := answers
    obtain ⟨same, alike⟩ := alike.answer first
    obtain ⟨v', more, alike⟩ := ih alike rest later
    exact ⟨v', ⟨same.symm, more⟩, alike⟩

end World.Resembles

/-! ## Dispatching -/

private theorem steady_conduct : Conduct.Suspends (fun _ => True) Request.Steady where
  record _ _ _ _ := trivial
  setVariable _ _ _ _ := trivial
  forSubFlow _ _ _ _ := trivial
  works ctx r _ work := by cases r <;> first | exact work.elim | trivial
  snapshot _ _ := trivial
  waits ctx r _ wait := by
    obtain ⟨_, _, _, _, rfl⟩ := wait
    trivial

section
variable {engine : Engine} {record : Wait.Record} {event : Event} {log : List Exchange}

theorem Engine.goOn_steady (builtIn : engine.BuiltIn) {flow : Flow} {ctx : Context}
    {ending : Except Panic (Except Error Resumed)}
    (goes : Task.Ends (engine.goOn record event flow ctx) log ending) :
    ∀ x ∈ log, x.1.Steady :=
  (Engine.goOn_asks builtIn steady_conduct (fun _ => trivial) flow ctx).ends trivial
    (fun _ _ => trivial) goes

theorem Engine.startRun_steady (builtIn : engine.BuiltIn) {code : String} {version : Option String}
    {ending : Except Panic (Except Error Dispatched)}
    (starts : Task.Ends (engine.startRun code version event) log ending) :
    ∀ x ∈ log, x.1.Steady :=
  (Engine.startRun_asks builtIn steady_conduct (fun _ => trivial) code version).ends trivial
    (fun _ _ => trivial) starts

/-- Either a record is found and claimed, with nothing but looking around in between, or everything is
steady. -/
inductive Claims (event : Event) : List Exchange → Prop
  | none {log : List Exchange} (steady : ∀ x ∈ log, x.1.Steady) : Claims event log
  | found {record : Wait.Record} {won : Except Error Bool} (front back : List Exchange)
      (looks : ∀ x ∈ front, x.1.Traceless) (steady : ∀ x ∈ back, x.1.Steady) :
      Claims event (⟨.find event.scope, .ok (some record)⟩ ::
        (front ++ ⟨.claim record, won⟩ :: back))

theorem Engine.Resumption.claims (builtIn : engine.BuiltIn)
    {ending : Except Panic (Except Error Resumed)}
    (goes : Engine.Resumption engine record event log ending) :
    Claims event (⟨.find event.scope, .ok (some record)⟩ :: log) := by
  cases goes with
  | @expired now won late =>
    exact .found [⟨.clock, now⟩] [_] (by simp [Request.Traceless, Request.Looks])
      (by simp [Request.Steady])
  | @expiredFailed now e late =>
    exact .found [⟨.clock, now⟩] [] (by simp [Request.Traceless, Request.Looks])
      (by simp)
  | unloaded | refused => exact .none (by simp [Request.Steady])
  | @unclaimed now flow ctx e =>
    exact .found [⟨.clock, now⟩, _] [] (by simp [Request.Traceless, Request.Looks]) (by simp)
  | @lost now flow ctx =>
    exact .found [⟨.clock, now⟩, _] [_] (by simp [Request.Traceless, Request.Looks])
      (by simp [Request.Steady])
  | @taken now flow ctx rest _ inTime ready goes =>
    exact .found [⟨.clock, now⟩, _] rest (by simp [Request.Traceless, Request.Looks])
      (Engine.goOn_steady builtIn goes)

theorem Engine.Dispatching.claims (builtIn : engine.BuiltIn) {code : String}
    {version : Option String} {ending : Except Panic (Except Error Dispatched)}
    (goes : Engine.Dispatching engine code version event log ending) : Claims event log := by
  cases goes with
  | unfound chat => exact .none (by simp [Request.Steady])
  | resumed chat goes => exact goes.claims builtIn
  | unanswered chat starts => exact .none (List.forall_mem_cons.mpr ⟨trivial, Engine.startRun_steady builtIn starts⟩)
  | fresh other starts => exact .none (Engine.startRun_steady builtIn starts)

theorem World.find_of_answer {w : World} {scope : Scope}
    (found : (w.answer (.find scope)).1 = .ok (some record)) :
    w.store.find w.clock scope = some record := by
  cases failure : w.failure? .find with
  | some e => simp [answer, guarded, failure] at found
  | none =>
    cases stored : w.store.find w.clock scope with
    | none => simp [answer, guarded, failure, find, stored] at found
    | some r => simpa [answer, guarded, failure, find, stored] using found

theorem World.Resembles.claims {w v w' : World} (alike : w.Resembles v) (claims : Claims event log)
    (answers : w.Answers log w') : ∃ v', v.Answers log v' ∧ w'.Resembles v' := by
  cases claims with
  | none steady => exact alike.answers steady answers
  | @found record won front back looks steady =>
    obtain ⟨found, answers⟩ := answers
    obtain ⟨w₁, looked, ⟨rfl, later⟩⟩ := World.Answers.append.mp answers
    -- nothing has happened to the store between the search and the claim
    have looks : ∀ x ∈ (⟨.find event.scope, .ok (some record)⟩ :: front : List Exchange),
        x.1.Traceless := List.forall_mem_cons.mpr ⟨.inl trivial, looks⟩
    have before : w.Answers (⟨.find event.scope, .ok (some record)⟩ :: front) w₁ := ⟨found, looked⟩
    obtain ⟨serial, rfl⟩ := (untouched looks).2 w w₁ alike.honest before
    have finds := World.find_of_answer found.symm
    obtain ⟨v₁, asked, alike⟩ := alike.answers (fun x member => (looks x member).steady) before
    obtain ⟨same, alike⟩ := alike.claim finds
    obtain ⟨v', more, alike⟩ := alike.answers steady later
    refine ⟨v', ?_, alike⟩
    rw [← List.cons_append]
    exact World.Answers.append.mpr ⟨v₁, asked, same.symm, more⟩

theorem Claims.awake (claims : Claims event log) {x : Exchange} (heard : x ∈ log) (wake : Instant) :
    x.1 ≠ .sleep wake := by
  have steady {r : Request} (steady : r.Steady) : r ≠ .sleep wake := by
    rintro rfl
    exact steady
  cases claims with
  | none all => exact steady (all x heard)
  | found _ _ looks all =>
    rcases List.mem_cons.mp heard with rfl | heard
    · simp
    rcases List.mem_append.mp heard with front | heard
    · exact steady (looks x front).steady
    rcases List.mem_cons.mp heard with rfl | back
    · simp
    · exact steady (all x back)

theorem World.answer_clock (w : World) {r : Request} (awake : ∀ wake, r ≠ .sleep wake) :
    (w.answer r).2.clock = w.clock := by
  cases r with
  | save record | claim record | reap now =>
    simp only [answer, guarded]
    split <;> rfl
  | find scope =>
    simp only [answer, guarded, find]
    split
    · rfl
    · split
      · rfl
      · split <;> rfl
  | send scope content =>
    simp only [answer, send]
    split <;> rfl
  | sleep wake => exact absurd rfl (awake wake)
  | _ => rfl

theorem World.Answers.clock {w w' : World} (answers : w.Answers log w')
    (awake : ∀ x ∈ log, ∀ wake, x.1 ≠ .sleep wake) : w'.clock = w.clock := by
  induction log generalizing w with
  | nil => exact congrArg World.clock answers
  | cons x log ih =>
    obtain ⟨first, rest⟩ := List.forall_mem_cons.mp awake
    exact (ih answers.2 rest).trans (w.answer_clock first)

theorem Engine.dispatch_clock (builtIn : engine.BuiltIn) (w : World) (code : String)
    (version : Option String) (event : Event) :
    ((engine.dispatch code version event ()).run w).2.clock = w.clock := by
  have ends := Task.ends_of_program ((engine.dispatch code version event ()).ends_heard w)
  have claims := (Engine.dispatch_dispatching ends).claims builtIn
  exact (Program.answers_heard _ w).clock fun x heard => claims.awake heard

/-- Who dispatches an event cannot tell worlds apart that look alike. -/
theorem Engine.dispatch_resembles (builtIn : engine.BuiltIn) {w v : World} (alike : w.Resembles v)
    (code : String) (version : Option String) (event : Event) :
    let p := engine.dispatch code version event ()
    p.heard w = p.heard v ∧ (p.run w).1 = (p.run v).1 ∧ (p.run w).2.Resembles (p.run v).2 := by
  intro p
  -- the other world gives the same answers, so the program goes the same way there
  have ends := p.ends_heard w
  have claims := (Engine.dispatch_dispatching (Task.ends_of_program ends)).claims builtIn
  obtain ⟨v', answers, alike⟩ := alike.claims claims (p.answers_heard w)
  obtain ⟨heard, ran⟩ := Program.heard_of_answers ends answers
  exact ⟨heard.symm, by rw [ran], by rw [ran]; exact alike⟩

end

/-! ## Reaping -/

namespace Reaper

/-- What is published of the records that were reaped. -/
def notices (records : List Wait.Record) : List Exchange :=
  records.map fun r => ⟨.publish (event r), ()⟩

/-- The world in which some records were reaped and the rest of the store is left. -/
def noticed (w : World) (records : List Wait.Record) (store : Wait.Store) : World where
  __ := w
  store := store
  bus := records.foldl (fun bus r => bus.publish (event r)) w.bus

theorem answers_notices {records : List Wait.Record} {w w' : World}
    (answers : w.Answers (notices records) w') : w' = noticed w records w.store := by
  induction records generalizing w with
  | nil => exact answers
  | cons r records ih => exact ih answers.2

section
variable {w : World}

theorem answer_reap (works : w.failure? .reap = none) (now : Instant) :
    w.answer (.reap now) = (.ok (w.store.reap now).1, { w with store := (w.store.reap now).2 }) := by
  simp only [World.answer, World.guarded, works, World.reap]

theorem once_runs_heard (w : World) : ∃ result, ((once ()).run w).1 = .ok (result, ()) ∧
    Task.Runs once () ((once ()).heard w) result () := by
  have ends := (once ()).ends_heard w
  cases ran : ((once ()).run w).1 with
  | ok result => exact ⟨result.1, rfl, Program.runs_heard ran⟩
  | error cause =>
    rw [ran] at ends
    exact absurd ends once_calm

/-- A reaping takes out what has expired and tells of each record. -/
theorem once_reaps (works : w.failure? .reap = none) :
    (once ()).heard w = ⟨.clock, w.clock⟩ :: ⟨.reap w.clock, .ok (w.store.reap w.clock).1⟩ ::
        notices (w.store.reap w.clock).1 ∧
      (once ()).run w = (.ok (.ok (w.store.reap w.clock).1, ()),
        noticed w (w.store.reap w.clock).1 (w.store.reap w.clock).2) := by
  have answers := (once ()).answers_heard w
  have reaps := answer_reap works w.clock
  obtain ⟨result, ran, runs⟩ := once_runs_heard w
  rcases once_runs runs with ⟨now, e, heard, -⟩ | ⟨now, reaped, heard, rfl⟩
  · rw [heard] at answers
    obtain ⟨rfl, answered, -⟩ := answers
    have fails := answered.trans (congrArg Prod.fst reaps)
    contradiction
  · rw [heard] at answers ⊢
    obtain ⟨rfl, answered, told⟩ := answers
    obtain rfl := Except.ok.inj (answered.trans (congrArg Prod.fst reaps))
    have told : World.Answers { w with store := (w.store.reap w.clock).2 } _ _ :=
      congrArg Prod.snd reaps ▸ told
    exact ⟨rfl, Prod.ext ran (answers_notices told)⟩

theorem once_fails {e : Error} (fails : w.failure? .reap = some e) :
    ((once ()).run w).2 = w := by
  have answers := (once ()).answers_heard w
  have refuses : w.answer (.reap w.clock) = (.error e, w) := by
    simp only [World.answer, World.guarded, fails]
  obtain ⟨_, -, runs⟩ := once_runs_heard w
  rcases once_runs runs with ⟨now, _, heard, -⟩ | ⟨now, reaped, heard, -⟩
  · rw [heard] at answers
    obtain ⟨rfl, -, last⟩ := answers
    exact last.trans (congrArg Prod.snd refuses)
  · rw [heard] at answers
    obtain ⟨rfl, answered, -⟩ := answers
    have works := answered.trans (congrArg Prod.fst refuses)
    contradiction

end

end Reaper

theorem World.Resembles.reap {w v : World} (alike : w.Resembles v) :
    ((Reaper.once ()).run w).2.Resembles v := by
  cases failure : w.failure? .reap with
  | some e => rwa [Reaper.once_fails failure]
  | none =>
    rw [(Reaper.once_reaps failure).2]
    obtain ⟨stores, told, honest, rest⟩ := alike
    -- what the reaping tells is not looked at
    have unseen (records : List Wait.Record) (bus : Bus RunEvent) :
        (records.foldl (fun bus r => bus.publish (Reaper.event r)) bus).published.filter
          (fun e => !e.ofReaping) = bus.published.filter fun e => !e.ofReaping := by
      induction records generalizing bus with
      | nil => rfl
      | cons r records ih => exact ih _
    exact ⟨stores.reap, (unseen _ _).trans told, honest, rest⟩

/-! ## Histories -/

/-- What happens in a world. -/
inductive Happening
  | dispatch (code : String) (version : Option String) (event : Event)
  | reap
  /-- Time has gone on. -/
  | time (now : Instant)

namespace Happening

def isReap : Happening → Bool
  | reap => true
  | _ => false

/-- The world after it has happened. -/
def after (engine : Engine) (w : World) : Happening → World
  | dispatch code version event => ((engine.dispatch code version event ()).run w).2
  | reap => ((Reaper.once ()).run w).2
  | time now => { w with clock := now }

/-- What who dispatches an event gets for it, and what was asked and answered. -/
def seen (engine : Engine) (w : World) :
    Happening → List (Except Panic (Except Error Dispatched) × List Exchange)
  | dispatch code version event =>
    let p := engine.dispatch code version event ()
    [((p.run w).1.map Prod.fst, p.heard w)]
  | reap | time _ => []

end Happening

namespace World

/-- What is seen when some things happen one after the other. -/
def seen (engine : Engine) :
    World → List Happening → List (Except Panic (Except Error Dispatched) × List Exchange)
  | _, [] => []
  | w, h :: later => h.seen engine w ++ (h.after engine w).seen engine later

/-- The world after all of it. -/
def after (engine : Engine) (w : World) (history : List Happening) : World :=
  history.foldl (Happening.after engine) w

end World

/-- The clock does not go back. -/
def Forward : (now : Instant) → List Happening → Prop
  | _, [] => True
  | now, .time next :: later => now.seconds ≤ next.seconds ∧ Forward next later
  | now, .dispatch .. :: later | now, .reap :: later => Forward now later

/-- What a reaping does: it takes out what has expired and nothing else, and tells of each record. -/
structure ReapsExpired (w : World) : Prop where
  left : ((Reaper.once ()).run w).2.store.records =
    w.store.records.filter fun r => !r.isExpired w.clock
  told : ∃ reaped, reaped.Perm (w.store.records.filter fun r => r.isExpired w.clock) ∧
    (Reaper.once ()).heard w =
      ⟨.clock, w.clock⟩ :: ⟨.reap w.clock, .ok reaped⟩ :: Reaper.notices reaped

/-- Reapings take out what has expired, and nobody else can tell that they were. -/
structure ReapingUnseen (engine : Engine) (w : World) (history : List Happening) : Prop where
  seen : w.seen engine history = w.seen engine (history.filter fun h => !h.isReap)
  after : (w.after engine history).Resembles
    (w.after engine (history.filter fun h => !h.isReap))
  reaps : ∀ before later, history = before ++ .reap :: later →
    (w.after engine before).failure? .reap = none → ReapsExpired (w.after engine before)

theorem reapsExpired {w : World} (works : w.failure? .reap = none) : ReapsExpired w where
  left := by
    rw [(Reaper.once_reaps works).2]
    exact Wait.Store.records_reap w.store w.clock
  told := ⟨_, Wait.Store.reap_perm w.store w.clock, (Reaper.once_reaps works).1⟩

section
variable {engine : Engine}

theorem World.Resembles.time {w v : World} (alike : w.Resembles v) {now : Instant}
    (forward : w.clock.seconds ≤ now.seconds) :
    World.Resembles { w with clock := now } { v with clock := now } :=
  ⟨alike.stores.later forward, alike.told, alike.honest, by rw [alike.rest]⟩

theorem World.clock_reap (w : World) : ((Reaper.once ()).run w).2.clock = w.clock := by
  cases failure : w.failure? .reap with
  | some e => rw [Reaper.once_fails failure]
  | none => rw [(Reaper.once_reaps failure).2]; rfl

/-- With and without reapings everybody sees the same. -/
theorem World.Resembles.seen (builtIn : engine.BuiltIn) {w v : World} (alike : w.Resembles v)
    {history : List Happening} (forward : Forward w.clock history) :
    w.seen engine history = v.seen engine (history.filter fun h => !h.isReap) ∧
      (w.after engine history).Resembles (v.after engine (history.filter fun h => !h.isReap)) := by
  induction history generalizing w v with
  | nil => exact ⟨rfl, alike⟩
  | cons h later ih =>
    cases h with
    | reap => exact ih alike.reap (World.clock_reap w ▸ forward)
    | time now => exact ih (alike.time forward.1) forward.2
    | dispatch code version event =>
      obtain ⟨heard, result, after⟩ := Engine.dispatch_resembles builtIn alike code version event
      have clock := Engine.dispatch_clock builtIn w code version event
      obtain ⟨same, last⟩ := ih after (clock ▸ forward)
      refine ⟨?_, last⟩
      simp only [List.filter_cons, Happening.isReap, Bool.not_false, if_true, World.seen,
        Happening.seen, Happening.after, heard, result, same]

/-- Whoever dispatches events gets the same, asks the same and is answered the same whether what has
expired is reaped in between or not. -/
theorem reaping_unseen (builtIn : engine.BuiltIn) {w : World} {history : List Happening}
    (stored : ∃ rs, w.store.Holds rs) (honest : w.thief = false) (forward : Forward w.clock history) :
    ReapingUnseen engine w history := by
  obtain ⟨rs, holds⟩ := stored
  have alike : w.Resembles w := ⟨holds.resembles w.clock, rfl, honest, rfl⟩
  obtain ⟨seen, after⟩ := alike.seen builtIn forward
  exact ⟨seen, after, fun before later _ works => reapsExpired works⟩

end

/-! ### A run that nobody answers in time -/

namespace Forgotten

/-- A node that waits for ten seconds. -/
def wait : Node where
  id := "wait"
  type := "wait_message"
  params := .ofFields [("timeout", .ofFields [("enabled", .bool true), ("interval", .int 10)])]

def flow : Flow where
  code := "forgotten"
  nodes := [Chat.start, wait]
  edges := [{ source := "start", target := "wait", branch := some "m" }]

def world (store : Wait.Store) : World where
  store := store
  clock := .ofSeconds 0
  catalog := .ofFlows [flow]

/-- A message, reapings before and after the run has expired, and a message that comes too late. -/
def history : List Happening :=
  [.dispatch "forgotten" none (Chat.message "first"), .time (.ofSeconds 9), .reap,
    .time (.ofSeconds 10), .reap, .dispatch "forgotten" none (Chat.message "second")]

/-- How many records there are each time that something is about to happen, and at the end. -/
def stored (w : World) : List Happening → List Nat
  | [] => [w.store.records.length]
  | h :: later => w.store.records.length :: stored (h.after (.standard {}) w) later

end Forgotten

/-- The second reaping takes the record out that the late message would not have found either. -/
theorem forgotten_unseen : (∀ store ∈ [Wait.Store.ledger {}, .table {}],
      ReapingUnseen (.standard {}) (Forgotten.world store) Forgotten.history) ∧
    (∀ store ∈ [Wait.Store.ledger {}, .table {}],
      Forgotten.stored (Forgotten.world store) Forgotten.history = [0, 1, 1, 1, 1, 0, 1]) := by
  have forward : Forward (Instant.ofSeconds 0) Forgotten.history := by
    simp [Forward, Forgotten.history, Instant.ofSeconds]
  have stored : ∀ store ∈ [Wait.Store.ledger {}, .table {}], store.Holds [] := by
    intro store member
    simp only [List.mem_cons, List.not_mem_nil, or_false] at member
    rcases member with rfl | rfl <;> exact ⟨rfl, .nil, .nil, nofun⟩
  refine ⟨fun store member => reaping_unseen (Engine.builtIn_standard {}) ⟨[], stored store member⟩
    rfl forward, ?_⟩
  decide +kernel

end Parley
