import Parley.Proofs.Interleaving
import Parley.Proofs.Requests
import Parley.Proofs.Engine.Messages
/-!
# A suspended run is taken up at most once

Callers resume records, dispatch events and reap, and take turns with each other in any order. Each of
them either takes a record up, having claimed it first, or does nothing of its run; and of all claims
of one suspension at most one succeeds, which is the first one when the record stays until then.
-/
namespace Parley

/-- What is asked only for a run that goes on: its nodes save, send and run code, and the run tells of
itself. -/
def Request.OfRun : Request → Prop
  | .save _ | .send .. | .execute .. => True
  | .publish event => event.run?.isSome
  | _ => False

/-- What is asked before a record is claimed. -/
def Request.Looks : Request → Prop
  | .find _ | .clock | .load .. => True
  | _ => False

theorem Request.Looks.not_ofRun {r : Request} (looks : r.Looks) : ¬ r.OfRun := by
  cases r <;> simp_all [Looks, OfRun]

/-- Nothing is done of any run. -/
def Silent (log : List Exchange) : Prop := ∀ x ∈ log, ¬ x.1.OfRun

/-- The caller takes up a record: once it has claimed the record, and not before, the run goes on. -/
def TakesUp (engine : Engine) (record : Wait.Record) (log : List Exchange) : Prop :=
  ∃ before after, log = before ++ ⟨.claim record, .ok true⟩ :: after ∧ (∀ x ∈ before, x.1.Looks) ∧
    ∃ event flow ctx rest, Program.Goes (engine.goOn record event flow ctx ()) after rest

section
variable {engine : Engine} {record : Wait.Record} {event : Event} {log : List Exchange}

theorem TakesUp.claims (takes : TakesUp engine record log) : ⟨.claim record, .ok true⟩ ∈ log := by
  obtain ⟨before, after, rfl, -⟩ := takes
  simp

/-- What a caller that takes up a record has done so far is nothing of any run, or it has taken up the
record. -/
theorem TakesUp.front {rest : List Exchange} (takes : TakesUp engine record (log ++ rest)) :
    (∀ x ∈ log, x.1.Looks) ∨ TakesUp engine record log := by
  obtain ⟨before, after, whole, looks, event, flow, ctx, last, goes⟩ := takes
  rcases List.append_eq_append_iff.mp whole with ⟨more, rfl, -⟩ | ⟨more, rfl, left⟩
  · exact .inl fun x member => looks x (List.mem_append_left _ member)
  · cases more with
    | nil => exact .inl fun x member => looks x (by simpa using member)
    | cons x more =>
      obtain ⟨rfl, rfl⟩ := List.cons.inj left
      obtain ⟨p, front, -⟩ := goes.split
      exact .inr ⟨before, more, rfl, looks, event, flow, ctx, p, front⟩

theorem TakesUp.found {scope : Scope} {answer : Except Error (Option Wait.Record)}
    (takes : TakesUp engine record log) :
    TakesUp engine record (⟨.find scope, answer⟩ :: log) := by
  obtain ⟨before, after, rfl, looks, goes⟩ := takes
  refine ⟨⟨.find scope, answer⟩ :: before, after, rfl, ?_, goes⟩
  intro x member
  rcases List.mem_cons.mp member with rfl | old
  · exact trivial
  · exact looks x old

/-- The time that was told first. -/
def firstReading (log : List Exchange) : Option Instant :=
  log.findSome? fun
    | ⟨.clock, now⟩ => some now
    | _ => none

/-- What a caller with a copy of a record has done so far: it takes the record up or does nothing of
its run, and it takes it up when it has claimed it and has not seen it expired. -/
structure Settled (engine : Engine) (record : Wait.Record) (log : List Exchange) : Prop where
  silent_or : Silent log ∨ TakesUp engine record log
  takes : ⟨.claim record, .ok true⟩ ∈ log →
    (∀ now, firstReading log = some now → record.isExpired now = false) →
    TakesUp engine record log

private theorem Settled.of_silent {whole rest : List Exchange} (cut : whole = log ++ rest)
    (silent : Silent whole) (unclaimed : ⟨.claim record, .ok true⟩ ∉ whole) :
    Settled engine record log := by
  subst cut
  exact ⟨.inl fun x member => silent x (List.mem_append_left _ member),
    fun claims => absurd (List.mem_append_left _ claims) unclaimed⟩

theorem Engine.Resumption.settled {whole rest : List Exchange}
    {ending : Except Panic (Except Error Resumed)}
    (goes : Engine.Resumption engine record event whole ending) (cut : whole = log ++ rest) :
    Settled engine record log := by
  cases goes with
  | expired late =>
    have silent : Silent (log ++ rest) := cut ▸ by
      simp [Silent, Request.OfRun, Engine.dropEvent, RunEvent.run?]
    refine ⟨.inl fun x member => silent x (List.mem_append_left _ member), fun claims inTime => ?_⟩
    cases log with
    | nil => contradiction
    | cons x log =>
      obtain ⟨rfl, -⟩ := List.cons.inj cut
      exact absurd late (by simp [inTime _ rfl])
  | taken inTime ready goes =>
    have takes : TakesUp engine record (log ++ rest) :=
      cut ▸ ⟨[_, _], _, rfl, by simp [Request.Looks], event, _, _, Task.goes_of_ends goes⟩
    rcases takes.front with looks | takes
    · exact ⟨.inl fun x member => (looks x member).not_ofRun, fun claims => (looks _ claims).elim⟩
    · exact ⟨.inr takes, fun _ _ => takes⟩
  | _ =>
    refine .of_silent cut ?_ (by simp)
    simp [Silent, Request.OfRun, Engine.dropEvent, RunEvent.run?]

theorem Errand.settled {errand : Errand} {q : Program Unit}
    (gone : (errand.program engine).Goes log q) (holds : errand.Holds log record) :
    Settled engine record log := by
  obtain ⟨rest, ending, run⟩ := gone.finish
  generalize cut : log ++ rest = whole at run
  have went := Errand.went run
  cases errand with
  | reap => exact holds.elim
  | resume r event =>
    obtain rfl : record = r := holds
    obtain ⟨ending, goes⟩ := went
    exact goes.settled cut.symm
  | dispatch code version event =>
    obtain ⟨scope, tail, rfl⟩ := holds
    obtain ⟨ending, found⟩ := went
    cases found with
    | unfound => simp at cut
    | unanswered => simp at cut
    | resumed chat goes ends =>
      obtain ⟨same, rest_cut⟩ := List.cons.inj cut
      obtain ⟨rfl, rfl⟩ : event.scope = scope ∧ _ = record := by simpa using same.symm
      have settled := goes.settled rest_cut.symm
      refine ⟨settled.silent_or.imp (fun silent => ?_) TakesUp.found, fun claims inTime => ?_⟩
      · intro x member
        rcases List.mem_cons.mp member with rfl | old
        · simp [Request.OfRun]
        · exact silent x old
      · exact (settled.takes (by simpa using claims) fun now told => inTime now told).found
    | fresh other starts =>
      obtain ⟨_, _, rfl⟩ := Engine.startRun_loads starts
      simp at cut

/-! ## What is asked for a run -/

section
variable {allowed : Request → Prop} (builtIn : engine.BuiltIn)
  (suspends : Conduct.Suspends (fun _ => True) allowed) (tells : ∀ event, allowed (.publish event))
include builtIn suspends tells

theorem Engine.finish_asks (flow : Flow) (entry : String) (ctx : Context) :
    Task.Asks (fun _ : Unit => True) allowed (engine.finish flow entry ctx) :=
  Task.keeps_bind (Task.keeps_apart trivial (Engine.topWalk_asks builtIn suspends flow entry))
    fun _ _ => Task.keeps_bind (Task.keeps_ask (.publish _) (tells _)) fun _ _ => Task.keeps_pure trivial

theorem Engine.goOn_asks (flow : Flow) (ctx : Context) :
    Task.Asks (fun _ : Unit => True) allowed (engine.goOn record event flow ctx) :=
  Task.keeps_bind (Task.keeps_ask (.publish _) (tells _)) fun _ _ =>
    Task.keeps_bind (Engine.finish_asks builtIn suspends tells flow _ _) fun _ _ => Task.keeps_pure trivial

theorem Engine.startRun_asks (code : String) (version : Option String) :
    Task.Asks (fun _ : Unit => True) allowed (engine.startRun code version event) := by
  have works (r : Request) (work : ∀ ctx, r.IsWork ctx) : allowed r :=
    suspends.works (.start "" { code, nodes := [] } event) r trivial (work _)
  exact Task.keeps_bind (Task.keeps_call_any (r := .load code version) (works _ fun _ => trivial))
    fun flow _ => Task.keeps_bind (Task.keeps_ask .identifier (works _ fun _ => trivial))
    fun _ _ => Task.keeps_bind (Task.keeps_ofExcept_bind fun _ _ => Task.keeps_ofExcept_bind fun _ _ =>
      Task.keeps_bind (Task.keeps_ask (.publish _) (tells _)) fun _ _ =>
        Engine.finish_asks builtIn suspends tells flow _ _)
      fun _ _ => Task.keeps_pure trivial

end

/-! ## Who claims -/

def Request.Unclaiming (r : Request) : Prop := ∀ c, r ≠ .claim c

private abbrev Unclaiming {α : Type} (t : Task Unit α) : Prop :=
  Task.Asks (fun _ => True) Request.Unclaiming t

private theorem unclaiming_conduct : Conduct.Suspends (fun _ => True) Request.Unclaiming where
  record _ _ _ _ := trivial
  setVariable _ _ _ _ := trivial
  forSubFlow _ _ _ _ := trivial
  works _ r _ work c claim := by simp [claim, Request.IsWork] at work
  snapshot _ _ := trivial
  waits _ r _ wait c claim := by
    obtain ⟨_, _, _, _, save⟩ := wait
    simp [claim] at save

private theorem goOn_unclaiming (builtIn : engine.BuiltIn) (flow : Flow) (ctx : Context) :
    Unclaiming (engine.goOn record event flow ctx) :=
  Engine.goOn_asks builtIn unclaiming_conduct (fun _ => nofun) flow ctx

private theorem startRun_unclaiming (builtIn : engine.BuiltIn) (code : String)
    (version : Option String) : Unclaiming (engine.startRun code version event) :=
  Engine.startRun_asks builtIn unclaiming_conduct (fun _ => nofun) code version

private theorem no_claim {α : Type} {t : Task Unit α} (asks : Unclaiming t)
    {ending : Except Panic (Except Error α)} (ends : Task.Ends t log ending)
    {won : Except Error Bool} : ⟨.claim record, won⟩ ∉ log :=
  fun claims => asks.ends trivial (fun _ _ => trivial) ends _ claims record rfl

theorem Engine.Resumption.claims_own (builtIn : engine.BuiltIn)
    {ending : Except Panic (Except Error Resumed)}
    (goes : Engine.Resumption engine record event log ending) {c : Wait.Record}
    {won : Except Error Bool} (claims : ⟨.claim c, won⟩ ∈ log) : c = record := by
  cases goes with
  | taken inTime ready goes =>
    rcases List.mem_append.mp claims with front | back
    · exact (by simpa using front : c = record ∧ _).1
    · exact absurd back (no_claim (goOn_unclaiming builtIn _ _) goes)
  | _ => simp_all

/-- Only a record that is held is claimed. -/
theorem Errand.holds_of_claim (builtIn : engine.BuiltIn) {errand : Errand} {q : Program Unit}
    (gone : (errand.program engine).Goes log q) {won : Except Error Bool}
    (claims : ⟨.claim record, won⟩ ∈ log) : errand.Holds log record := by
  obtain ⟨rest, ending, run⟩ := gone.finish
  have somewhere : ⟨.claim record, won⟩ ∈ log ++ rest := List.mem_append_left _ claims
  generalize cut : log ++ rest = whole at run somewhere
  have went := Errand.went run
  cases errand with
  | reap =>
    obtain ⟨result, reaps⟩ := went
    rcases Reaper.once_runs reaps with ⟨now, e, rfl, -⟩ | ⟨now, reaped, rfl, -⟩ <;>
      simp at somewhere
  | resume r event =>
    obtain ⟨ending, goes⟩ := went
    exact goes.claims_own builtIn somewhere
  | dispatch code version event =>
    obtain ⟨ending, found⟩ := went
    cases found with
    | unfound => simp at somewhere
    | unanswered chat starts =>
      exact absurd (by simpa using somewhere) (no_claim (startRun_unclaiming builtIn _ _) starts)
    | fresh other starts =>
      exact absurd somewhere (no_claim (startRun_unclaiming builtIn _ _) starts)
    | resumed chat goes ends =>
      have later := (List.mem_cons.mp somewhere).resolve_left (by simp)
      obtain rfl := goes.claims_own builtIn later
      cases log with
      | nil => contradiction
      | cons x log =>
        obtain ⟨rfl, -⟩ := List.cons.inj cut
        exact ⟨_, _, rfl⟩

end

/-! ## Callers that take turns -/

/-- Up to some time, nothing but claims happens to a stored record: no record is saved in its place,
it is not reaped, and whoever claims it has seen that it has not expired. -/
structure Undisturbed (early log : List (Nat × Exchange)) (record : Wait.Record) : Prop where
  unreplaced : ∀ i s, (i, ⟨.save s, .ok ()⟩) ∈ early → s.key ≠ record.key
  unreaped : ∀ i now reaped, (i, ⟨.reap now, .ok reaped⟩) ∈ early → record ∉ reaped
  inTime : ∀ i won now, (i, ⟨.claim record, won⟩) ∈ early →
    firstReading (own i log) = some now → record.isExpired now = false

/-- What holds of callers that have taken turns in a world. -/
structure AtMostOnce (engine : Engine) (errands : List Errand) (w : World)
    (log : List (Nat × Exchange)) (w' : World) : Prop where
  /-- Of all claims of one suspension at most one succeeds. -/
  won_once : (wonIds log).Nodup
  /-- Whoever holds a copy of a record takes it up or does nothing of its run. -/
  takes_or_silent : ∀ i errand record, errands[i]? = some errand →
    errand.Holds (own i log) record → Silent (own i log) ∨ TakesUp engine record (own i log)
  /-- Two callers take up no copies of one suspension. -/
  takes_once : ∀ i j record copy, TakesUp engine record (own i log) →
    TakesUp engine copy (own j log) → record.id = copy.id → i = j
  /-- A claim leaves all records of other suspensions in the store. -/
  claim_leaves : ∀ copy record, record ∈ w'.store.records → record.id ≠ copy.id →
    record ∈ (w'.answer (.claim copy)).2.store.records
  /-- When callers with copies of a record that was stored before, or has been saved on the way, claim
  it and nothing else happens to it before, exactly one of them takes it up. -/
  takes_one : ∀ record before early late i won, engine.BuiltIn → w.thief = false →
    StoredBehind w.store record before → log = before ++ early ++ late →
    (i, ⟨.claim record, .ok won⟩) ∈ early → Undisturbed early log record →
    (∀ copy event, Errand.resume copy event ∈ errands → copy.id = record.id → copy = record) →
    ∃! j, TakesUp engine record (own j log)

section
variable {engine : Engine} {errands : List Errand} {w w' : World} {log : List (Nat × Exchange)}
  {rest : List (Program Unit)}

theorem errand_goes (run : Interleaved w (errands.map (Errand.program engine)) log w' rest)
    {i : Nat} {errand : Errand} (sent : errands[i]? = some errand) :
    ∃ q, (errand.program engine).Goes (own i log) q := by
  obtain ⟨q, -, gone⟩ := run.own_goes (i := i) (p := errand.program engine) (by simp [sent])
  exact ⟨q, gone⟩

/-- Two claims of one suspension succeed in the turn of one caller. -/
theorem wonIds_unique {i j : Nat} {r s : Wait.Record} (distinct : (wonIds log).Nodup)
    (one : (i, ⟨.claim r, .ok true⟩) ∈ log) (two : (j, ⟨.claim s, .ok true⟩) ∈ log)
    (same : r.id = s.id) : i = j :=
  congrArg Prod.fst
    (turn_unique (f := fun x => x.won?.map Wait.Record.id) distinct one two rfl (congrArg some same.symm))

/-- Callers with copies of one suspension hold the same record, however they came to it. -/
theorem Errand.Holds.unique {errand : Errand} {record copy : Wait.Record} {i : Nat}
    (run : Interleaved w (errands.map (Errand.program engine)) log w' rest)
    (valid : w.store.Valid) (fresh : FreshIds w.store log) (stored : Stored w.store log record)
    (sent : errands[i]? = some errand) (holds : errand.Holds (own i log) copy)
    (copies : ∀ copy event, Errand.resume copy event ∈ errands → copy.id = record.id → copy = record)
    (same : copy.id = record.id) : copy = record := by
  cases errand with
  | reap => exact holds.elim
  | resume r event =>
    obtain rfl : copy = r := holds
    exact copies copy event (List.mem_of_getElem? sent) same
  | dispatch code version event =>
    obtain ⟨scope, tail, found⟩ := holds
    have turn : (i, ⟨.find scope, .ok (some copy)⟩) ∈ log := Interleaved.mem_own.mp (by simp [found])
    exact (run.found_stored turn).unique valid fresh stored same

/-- Whatever the order in which resumes, dispatches and reaps take turns, a suspension is taken up at
most once. -/
theorem taken_up_at_most_once
    (run : Interleaved w (errands.map (Errand.program engine)) log w' rest)
    (valid : w.store.Valid) (fresh : FreshIds w.store log) :
    AtMostOnce engine errands w log w' where
  won_once := run.won_nodup valid fresh
  takes_or_silent i errand record sent holds := by
    obtain ⟨q, gone⟩ := errand_goes run sent
    exact (errand.settled gone holds).silent_or
  takes_once i j record copy one two same :=
    wonIds_unique (run.won_nodup valid fresh) (Interleaved.mem_own.mp one.claims)
      (Interleaved.mem_own.mp two.claims) same
  claim_leaves copy record stored other :=
    (w'.answer_effect (.claim copy)).claim_leaves (run.valid valid fresh) stored fun same =>
      other same.2
  takes_one record before early late i won builtIn honest behind whole claims undisturbed copies := by
    have inTurn := run
    rw [whole, List.append_assoc] at inTurn
    obtain ⟨between, qs, front, back, inside⟩ := inTurn.cut_stored behind
    obtain ⟨valid', fresh', thief⟩ := front.onward valid (by simpa [whole] using fresh)
    obtain ⟨_, _, contest, -⟩ := back.split
    obtain ⟨j, d, wins, same⟩ := contest.claimed valid' fresh'.early (thief.trans honest) inside
      undisturbed.unreplaced undisturbed.unreaped claims (.refl record)
    have turn : (j, ⟨.claim d, .ok true⟩) ∈ log := by simp [whole, wins]
    obtain ⟨p, started⟩ := run.started turn
    rw [List.getElem?_map] at started
    obtain ⟨errand, sent, rfl⟩ := Option.map_eq_some_iff.mp started
    obtain ⟨q, gone⟩ := errand_goes run sent
    have mine : ⟨.claim d, .ok true⟩ ∈ own j log := Interleaved.mem_own.mpr turn
    have holds := errand.holds_of_claim builtIn gone mine
    have stored : Stored w.store log record := by
      rw [whole, List.append_assoc]
      exact behind.stored
    obtain rfl := holds.unique run valid fresh stored sent copies same.2.symm
    refine ⟨j, (errand.settled gone holds).takes mine fun now told =>
      undisturbed.inTime j _ now wins told, fun k takes => ?_⟩
    exact wonIds_unique (run.won_nodup valid fresh) (Interleaved.mem_own.mp takes.claims) turn rfl

end

/-! ### Callers that race for a record -/

namespace Contest

/-- A flow that waits for a message. -/
def flow : Flow where
  code := "survey"
  nodes := [Chat.start, Chat.wait]
  edges := [{ source := "start", target := "wait", branch := some "m" }]

/-- The record of a run of the flow. -/
def record : Wait.Record where
  id := "first"
  organization := "org"
  conversation := "conv"
  origin := "conv"
  node := "wait"
  flowCode := "survey"
  flowVersion := "1"
  creator := "u1"
  timeout := some 100
  snapshot := "\x7b\"run_id\":\"r\",\"flow_code\":\"survey\",\"flow_version\":\"1\",\"trigger_type\":\"chat_message\",\"scope\":\x7b\"organization_code\":\"org\",\"conversation_id\":\"conv\"\x7d\x7d"
  createdAt := .ofSeconds 1

/-- A world in which the record is stored. -/
def world : World where
  store := Wait.Store.inMemory.save record
  clock := .ofSeconds 50
  catalog := .ofFlows [flow]

/-- Two callers resume the record, one dispatches a message in its conversation, one reaps. -/
def errands : List Errand :=
  let message := Event.chatMessage { organization := "org", conversation := "conv" } "hello"
  [.resume record message, .resume record message, .dispatch "survey" none message, .reap]

/-- What has happened when the callers have taken turns one after the other. -/
def course : List (Nat × Exchange) × World × List (Program Unit) :=
  takeTurns ((List.range 40).map (· % 4)) world (errands.map (Errand.program (.standard {})))

/-! A run that is suspended on the way, and two messages that find its record. -/

def saved : Wait.Record := Chat.record flow "00000000-0000-4000-8000-000000000002" "wait"

/-- How the message is served that starts the run. -/
def starts : Served := (Chat.program flow).serve (Chat.world flow)

/-- How a message is served that takes it up. -/
def answers : Served := Chat.takesUp flow saved starts.world

/-- The first caller starts the run, the second one finds its record, and the third one, who finds it
too, goes on with it. -/
def race : List (Nat × Exchange) :=
  starts.log.map (0, ·) ++ ((1, ⟨.find (Chat.message "").scope, .ok (some saved)⟩) ::
    answers.log.map (2, ·))

theorem race_interleaved : ∃ rest, Interleaved (Chat.world flow)
    ([Chat.sends flow, Chat.sends flow, Chat.sends flow].map (Errand.program (.standard {})))
    race answers.world rest := by
  have waits : Chat.Waits flow saved starts.world :=
    ⟨⟨rfl, rfl, rfl⟩, by decide +kernel, rfl, rfl, rfl, ⟨Chat.wait, rfl⟩⟩
  have starting : starts.By (Chat.program flow) (Chat.world flow) := Program.served _ _
  have answering := waits.takes_up ⟨rfl, rfl, by decide +kernel⟩
  obtain ⟨next, finds⟩ : ∃ next, (Chat.program flow).Goes
      [⟨.find (Chat.message "").scope, .ok (some saved)⟩] next := ⟨_, .step (.stay _)⟩
  have finding : starts.world.Answers [⟨.find (Chat.message "").scope, .ok (some saved)⟩]
      starts.world := by
    have found := waits.calm.answer_find (Chat.message "").scope
    rw [waits.finds] at found
    exact .cons found rfl
  have first := Interleaved.alone starting.ends starting.answers []
    [Chat.program flow, Chat.program flow]
  have second := Interleaved.alone finds finding [.ended starts.ending] [Chat.program flow]
  have third := Interleaved.alone answering.ends answering.answers [.ended starts.ending, next] []
  exact ⟨_, first.trans (second.trans third)⟩

end Contest

/-- One of the callers in the contest takes up the run, and so does one of those that have found the
record of a run that is suspended on the way. -/
theorem contest_taken_up_once :
    (Contest.world.store.Valid ∧ FreshIds Contest.world.store Contest.course.1 ∧
      wonIds Contest.course.1 = ["first"] ∧
      AtMostOnce (.standard {}) Contest.errands Contest.world Contest.course.1 Contest.course.2.1) ∧
    Contest.saved ∉ (Chat.world Contest.flow).store.records ∧
      ∃! i, TakesUp (.standard {}) Contest.saved (own i Contest.race) := by
  constructor
  · have valid : Contest.world.store.Valid := ⟨by decide +kernel, by decide +kernel⟩
    obtain ⟨fresh, won⟩ : (Contest.world.store.ids ++ savedIds Contest.course.1).Nodup ∧
        wonIds Contest.course.1 = ["first"] := by decide +kernel
    exact ⟨valid, fresh, won, taken_up_at_most_once (Interleaved.ofSchedule _ _ _) valid fresh⟩
  · refine ⟨List.not_mem_nil, ?_⟩
    obtain ⟨rest, inTurn⟩ := Contest.race_interleaved
    have fresh : (savedIds Contest.race).Nodup := by decide +kernel
    have once := taken_up_at_most_once inTurn ⟨.nil, .nil⟩ fresh
    have stored : (Contest.race.take 8).getLast? = some (0, ⟨.save Contest.saved, .ok ()⟩) := rfl
    have quiet : ∀ x ∈ Contest.race.drop 8, x.2.saved? = none ∧ x.2.reaped = [] := by decide +kernel
    refine once.takes_one Contest.saved (Contest.race.take 8) (Contest.race.drop 8) [] 2 true
      (Engine.builtIn_standard {}) rfl (.of_last stored rfl) (by simp)
      (List.mem_of_getElem? (i := 6) rfl) ⟨fun i s saving => ?_, fun i now reaped reaps => ?_, ?_⟩ ?_
    · have saves : Exchange.saved? ⟨.save s, .ok ()⟩ = some s := rfl
      exact absurd (saves.symm.trans (quiet _ saving).1) nofun
    · obtain rfl : reaped = [] := (quiet _ reaps).2
      simp
    · exact fun _ _ _ _ _ => rfl
    · simp [Chat.sends]

end Parley
