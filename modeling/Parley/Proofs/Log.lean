import Parley.Run.Task
import Parley.Run.World
/-!
# Logs of programs

What a program asked and what was answered to it. Nothing is assumed of the answers: a log stands for
every surroundings that a program can meet. A program that has gone some way is a program again
(`Program.Goes`), one that has come to its end (`Program.Ends`) has a value (`Program.Runs`) or has
panicked. The rules for tasks take a log apart along the task, one that returns (`Task.runs_bind`) and
one that panics (`Task.panics_bind`).
-/
namespace Parley

/-- A request and what was answered to it. -/
abbrev Exchange := Sigma Request.Answer

namespace Exchange

def saved? : Exchange → Option Wait.Record
  | ⟨.save r, .ok ()⟩ => some r
  | _ => none

theorem saved?_eq_some {x : Exchange} {r : Wait.Record} :
    x.saved? = some r ↔ x = ⟨.save r, .ok ()⟩ := by
  constructor
  · intro saves
    unfold saved? at saves
    split at saves
    · rw [Option.some.inj saves]
    · contradiction
  · rintro rfl
    rfl

end Exchange

namespace Program
variable {α β : Type}

/-- A program that goes on as another one after a log. -/
inductive Goes : Program α → List Exchange → Program α → Prop
  | stay (p : Program α) : Goes p [] p
  | step {r : Request} {next : r.Answer → Program α} {a : r.Answer} {log : List Exchange}
      {q : Program α} : Goes (next a) log q → Goes (.ask r next) (⟨r, a⟩ :: log) q

/-- A program that has nothing left to ask. -/
def ended : Except Panic α → Program α
  | .ok value => .done value
  | .error cause => .panic cause

/-- A program that ends after a log, with a value or in a panic. -/
def Ends (p : Program α) (log : List Exchange) (ending : Except Panic α) : Prop :=
  Goes p log (.ended ending)

/-- A program that ends with a value after a log. -/
def Runs (p : Program α) (log : List Exchange) (value : α) : Prop :=
  Ends p log (.ok value)

theorem goes_answered {r : Request} {next : r.Answer → Program α} {a : r.Answer}
    {log : List Exchange} {q : Program α} :
    Goes (.ask r next) (⟨r, a⟩ :: log) q ↔ Goes (next a) log q :=
  ⟨fun | .step rest => rest, .step⟩

theorem Goes.trans {p q s : Program α} {first second : List Exchange} (one : Goes p first q)
    (two : Goes q second s) : Goes p (first ++ second) s := by
  induction one with
  | stay p => exact two
  | step _ ih => exact .step (ih two)

theorem Goes.split {p s : Program α} {first second : List Exchange}
    (whole : Goes p (first ++ second) s) : ∃ q, Goes p first q ∧ Goes q second s := by
  induction first generalizing p with
  | nil => exact ⟨p, .stay p, whole⟩
  | cons x first ih =>
    cases whole with
    | step rest =>
      obtain ⟨q, front, back⟩ := ih rest
      exact ⟨q, .step front, back⟩

theorem answered (r : Request) : Nonempty r.Answer := by
  cases r <;> exact ⟨by first | exact default | exact .error .readOnly⟩

theorem ends (p : Program α) : ∃ log ending, p.Ends log ending := by
  induction p with
  | done value => exact ⟨[], .ok value, .stay _⟩
  | panic cause => exact ⟨[], .error cause, .stay _⟩
  | ask r next ih =>
    obtain ⟨a⟩ := answered r
    obtain ⟨log, ending, run⟩ := ih a
    exact ⟨⟨r, a⟩ :: log, ending, .step run⟩

/-- A program that has gone some way can be brought to its end. -/
theorem Goes.finish {p q : Program α} {log : List Exchange} (gone : Goes p log q) :
    ∃ rest ending, p.Ends (log ++ rest) ending := by
  obtain ⟨rest, ending, run⟩ := q.ends
  exact ⟨rest, ending, gone.trans run⟩

@[simp] theorem ends_done {value : α} {ending : Except Panic α} {log : List Exchange} :
    (done value).Ends log ending ↔ log = [] ∧ ending = .ok value := by
  constructor
  · intro run
    cases ending <;> cases run
    exact ⟨rfl, rfl⟩
  · rintro ⟨rfl, rfl⟩
    exact .stay _

@[simp] theorem ends_panic {cause : Panic} {ending : Except Panic α} {log : List Exchange} :
    (panic cause : Program α).Ends log ending ↔ log = [] ∧ ending = .error cause := by
  constructor
  · intro run
    cases ending <;> cases run
    exact ⟨rfl, rfl⟩
  · rintro ⟨rfl, rfl⟩
    exact .stay _

theorem ends_ask {r : Request} {next : r.Answer → Program α} {ending : Except Panic α}
    {log : List Exchange} :
    (ask r next).Ends log ending ↔ ∃ a rest, log = ⟨r, a⟩ :: rest ∧ (next a).Ends rest ending := by
  constructor
  · intro run
    cases ending <;> cases run with
    | step rest => exact ⟨_, _, rfl, rest⟩
  · rintro ⟨a, rest, rfl, run⟩
    exact .step run

/-- A program followed by another one ends in the panic of the first, or as the second one ends with
its value. -/
theorem ends_bind {p : Program α} {f : α → Program β} {ending : Except Panic β}
    {log : List Exchange} :
    (p.bind f).Ends log ending ↔
      (∃ cause, p.Ends log (.error cause) ∧ ending = .error cause) ∨
        ∃ u first second, p.Runs first u ∧ (f u).Ends second ending ∧ log = first ++ second := by
  induction p generalizing log with
  | done value =>
    constructor
    · intro run
      exact .inr ⟨value, [], log, .stay _, run, rfl⟩
    · rintro (⟨cause, ends, -⟩ | ⟨u, first, second, ends, run, rfl⟩)
      · exact nomatch (ends_done.mp ends).2
      · obtain ⟨rfl, same⟩ := ends_done.mp ends
        exact Except.ok.inj same ▸ run
  | panic cause =>
    constructor
    · intro run
      obtain ⟨rfl, rfl⟩ := ends_panic.mp run
      exact .inl ⟨cause, .stay _, rfl⟩
    · rintro (⟨_, ends, rfl⟩ | ⟨u, first, second, ends, -, -⟩)
      · exact ends_panic.mpr (by simpa using ends_panic.mp ends)
      · exact nomatch (ends_panic.mp ends).2
  | ask r next ih =>
    simp only [bind, Runs, ends_ask, ih]
    constructor
    · rintro ⟨a, _, rfl, ⟨cause, run, rfl⟩ | ⟨u, first, second, run, rest, rfl⟩⟩
      · exact .inl ⟨cause, ⟨a, _, rfl, run⟩, rfl⟩
      · exact .inr ⟨u, ⟨r, a⟩ :: first, second, ⟨a, first, rfl, run⟩, rest, rfl⟩
    · rintro (⟨cause, ⟨a, first, rfl, run⟩, rfl⟩ | ⟨u, _, second, ⟨a, first, rfl, run⟩, rest, rfl⟩)
      · exact ⟨a, first, rfl, .inl ⟨cause, run, rfl⟩⟩
      · exact ⟨a, first ++ second, rfl, .inr ⟨u, first, second, run, rest, rfl⟩⟩

@[simp] theorem runs_done {value v : α} {log : List Exchange} :
    (done value).Runs log v ↔ log = [] ∧ v = value := by
  simp [Runs]

@[simp] theorem not_runs_panic {cause : Panic} {v : α} {log : List Exchange} :
    ¬ (panic cause : Program α).Runs log v := by
  simp [Runs]

theorem runs_ask {r : Request} {next : r.Answer → Program α} {v : α} {log : List Exchange} :
    (ask r next).Runs log v ↔ ∃ a rest, log = ⟨r, a⟩ :: rest ∧ (next a).Runs rest v :=
  ends_ask

theorem runs_bind {p : Program α} {f : α → Program β} {v : β} {log : List Exchange} :
    (p.bind f).Runs log v ↔
      ∃ u first second, p.Runs first u ∧ (f u).Runs second v ∧ log = first ++ second := by
  simp only [Runs, ends_bind, reduceCtorEq, and_false, exists_false, false_or]

/-- Only the first of two programs panics when the second one just ends. -/
theorem ends_bind_done {p : Program α} {g : α → β} {ending : Except Panic β} {log : List Exchange} :
    (p.bind fun u => .done (g u)).Ends log ending ↔
      ∃ former, p.Ends log former ∧ ending = former.map g := by
  rw [ends_bind]
  constructor
  · rintro (⟨cause, run, rfl⟩ | ⟨u, first, second, run, ended, rfl⟩)
    · exact ⟨.error cause, run, rfl⟩
    · obtain ⟨rfl, rfl⟩ := ends_done.mp ended
      exact ⟨.ok u, by rwa [List.append_nil], rfl⟩
  · rintro ⟨former, run, rfl⟩
    cases former with
    | ok u => exact .inr ⟨u, log, [], run, .stay _, by simp⟩
    | error cause => exact .inl ⟨cause, run, rfl⟩

/-- What a program asks and is answered in a world. -/
def heard : Program α → World → List Exchange
  | .done _, _ => []
  | .panic _, _ => []
  | .ask r next, w => ⟨r, (w.answer r).1⟩ :: (next (w.answer r).1).heard (w.answer r).2

/-- A program that a world answers comes to its end with what it has heard. -/
theorem ends_heard (p : Program α) (w : World) : p.Ends (p.heard w) (p.run w).1 := by
  induction p generalizing w with
  | done value => exact .stay _
  | panic cause => exact .stay _
  | ask r next ih => exact .step (ih _ _)

theorem runs_heard {p : Program α} {w : World} {value : α} (ran : (p.run w).1 = .ok value) :
    p.Runs (p.heard w) value := by
  rw [Runs, ← ran]
  exact p.ends_heard w

theorem exists_runs_heard {p : Program α} {w : World}
    (returns : (p.run w).1.toOption.isSome = true) :
    ∃ value, (p.run w).1 = .ok value ∧ p.Runs (p.heard w) value := by
  cases ran : (p.run w).1 with
  | ok value => exact ⟨value, rfl, runs_heard ran⟩
  | error cause => simp [ran, Except.toOption] at returns

end Program

/-! ## Tasks -/

namespace Task
variable {σ τ α β : Type} {s s' : σ} {log : List Exchange} {result : Except Error α}

/-- A task that starts in a state ends with a result in another state after a log. -/
def Runs (t : Task σ α) (s : σ) (log : List Exchange) (result : Except Error α) (s' : σ) : Prop :=
  Program.Runs (t s) log (result, s')

/-- A task that starts in a state panics after a log. -/
def Panics (t : Task σ α) (s : σ) (log : List Exchange) (cause : Panic) : Prop :=
  Program.Ends (t s) log (.error cause)

@[simp] theorem runs_pure {value : α} :
    Runs (pure value : Task σ α) s log result s' ↔ log = [] ∧ result = .ok value ∧ s' = s := by
  show Program.Runs (.done (.ok value, s)) log (result, s') ↔ _
  simp

@[simp] theorem runs_throw {e : Error} :
    Runs (throw e : Task σ α) s log result s' ↔ log = [] ∧ result = .error e ∧ s' = s := by
  show Program.Runs (.done (.error e, s)) log (result, s') ↔ _
  simp

/-- A task followed by another one ends with the error of the first, or with what the second one
makes of its value. -/
theorem runs_bind {t : Task σ β} {f : β → Task σ α} :
    Runs (t >>= f) s log result s' ↔
      (∃ e, Runs t s log (.error e) s' ∧ result = .error e) ∨
      ∃ v s₁ first second, Runs t s first (.ok v) s₁ ∧ Runs (f v) s₁ second result s' ∧
        log = first ++ second := by
  show Program.Runs (Program.bind (t s) fun x => ExceptT.bindCont f x.1 x.2) log (result, s') ↔ _
  rw [Program.runs_bind]
  constructor
  · rintro ⟨⟨one, s₁⟩, first, second, run, rest, rfl⟩
    cases one with
    | ok v => exact .inr ⟨v, s₁, first, second, run, rest, rfl⟩
    | error e =>
      obtain ⟨rfl, same⟩ := Program.runs_done.mp rest
      cases same
      exact .inl ⟨e, by rwa [List.append_nil], rfl⟩
  · rintro (⟨e, run, rfl⟩ | ⟨v, s₁, first, second, run, rest, rfl⟩)
    · exact ⟨(.error e, s'), log, [], run, .stay _, by simp⟩
    · exact ⟨(.ok v, s₁), first, second, run, rest, rfl⟩

/-- A task followed by another one panics when the first one does, or when the second one does with
its value. -/
theorem panics_bind {t : Task σ β} {f : β → Task σ α} {cause : Panic} :
    Panics (t >>= f) s log cause ↔
      Panics t s log cause ∨
      ∃ v s₁ first second, Runs t s first (.ok v) s₁ ∧ Panics (f v) s₁ second cause ∧
        log = first ++ second := by
  show Program.Ends (Program.bind (t s) fun x => ExceptT.bindCont f x.1 x.2) log (.error cause) ↔ _
  rw [Program.ends_bind]
  constructor
  · rintro (⟨_, run, same⟩ | ⟨⟨one, s₁⟩, first, second, run, rest, rfl⟩)
    · exact .inl (Except.error.inj same ▸ run)
    · cases one with
      | ok v => exact .inr ⟨v, s₁, first, second, run, rest, rfl⟩
      | error e => exact nomatch (Program.ends_done.mp rest).2
  · rintro (run | ⟨v, s₁, first, second, run, rest, rfl⟩)
    · exact .inl ⟨cause, run, rfl⟩
    · exact .inr ⟨(.ok v, s₁), first, second, run, rest, rfl⟩

@[simp] theorem runs_ask {r : Request} {answer : Except Error r.Answer} :
    Runs (ask r : Task σ r.Answer) s log answer s' ↔
      ∃ a, log = [⟨r, a⟩] ∧ answer = .ok a ∧ s' = s := by
  show Program.Runs (.ask r fun a => .done (.ok a, s)) log (answer, s') ↔ _
  rw [Program.runs_ask]
  constructor
  · rintro ⟨a, rest, rfl, run⟩
    obtain ⟨rfl, same⟩ := Program.runs_done.mp run
    cases same
    exact ⟨a, rfl, rfl, rfl⟩
  · rintro ⟨a, rfl, rfl, rfl⟩
    exact ⟨a, [], rfl, .stay _⟩

@[simp] theorem runs_ofExcept {e : Except Error α} :
    Runs (ofExcept e : Task σ α) s log result s' ↔ log = [] ∧ result = e ∧ s' = s := by
  cases e <;> simp [ofExcept]

@[simp] theorem runs_get {state : Except Error σ} :
    Runs (get : Task σ σ) s log state s' ↔ log = [] ∧ state = .ok s ∧ s' = s := by
  show Program.Runs (.done (.ok s, s)) log (state, s') ↔ _
  simp

@[simp] theorem runs_modify {f : σ → σ} {done : Except Error PUnit} :
    Runs (modify f : Task σ PUnit) s log done s' ↔ log = [] ∧ done = .ok () ∧ s' = f s := by
  show Program.Runs (.done (.ok (), f s)) log (done, s') ↔ _
  simp

theorem runs_answer (r : Request) {f : r.Answer → Task σ α} :
    Runs (ask r >>= f) s log result s' ↔
      ∃ a rest, log = ⟨r, a⟩ :: rest ∧ Runs (f a) s rest result s' :=
  Program.runs_ask

/-! ### Requests -/

private theorem runs_call (r : Request) {f : r.Answer → Task σ α} {answer : r.Answer}
    (handed : ∀ a rest, Runs (f a) s rest result s' ↔ rest = [] ∧ answer = a ∧ s' = s) :
    Runs (ask r >>= f) s log result s' ↔ log = [⟨r, answer⟩] ∧ s' = s := by
  rw [runs_answer]
  constructor
  · rintro ⟨a, rest, rfl, run⟩
    obtain ⟨rfl, rfl, same⟩ := (handed a rest).mp run
    exact ⟨rfl, same⟩
  · rintro ⟨rfl, same⟩
    exact ⟨answer, [], rfl, (handed answer []).mpr ⟨rfl, rfl, same⟩⟩

@[simp] theorem runs_save {r : Wait.Record} {done : Except Error Unit} :
    Runs (save r : Task σ Unit) s log done s' ↔ log = [⟨.save r, done⟩] ∧ s' = s :=
  runs_call (.save r) fun _ _ => runs_ofExcept

@[simp] theorem runs_find {scope : Scope} {found : Except Error (Option Wait.Record)} :
    Runs (find scope : Task σ _) s log found s' ↔ log = [⟨.find scope, found⟩] ∧ s' = s :=
  runs_call (.find scope) fun _ _ => runs_ofExcept

@[simp] theorem runs_claim {r : Wait.Record} {won : Except Error Bool} :
    Runs (claim r : Task σ Bool) s log won s' ↔ log = [⟨.claim r, won⟩] ∧ s' = s :=
  runs_call (.claim r) fun _ _ => runs_ofExcept

@[simp] theorem runs_reap {now : Instant} {reaped : Except Error (List Wait.Record)} :
    Runs (reap now : Task σ _) s log reaped s' ↔ log = [⟨.reap now, reaped⟩] ∧ s' = s :=
  runs_call (.reap now) fun _ _ => runs_ofExcept

@[simp] theorem runs_load {code : String} {version : Option String} {flow : Except Error Flow} :
    Runs (load code version : Task σ Flow) s log flow s' ↔
      log = [⟨.load code version, flow⟩] ∧ s' = s :=
  runs_call (.load code version) fun _ _ => runs_ofExcept

@[simp] theorem runs_send {scope : Scope} {content : String} {done : Except Error Unit} :
    Runs (send scope content : Task σ Unit) s log done s' ↔
      log = [⟨.send scope content, done⟩] ∧ s' = s :=
  runs_call (.send scope content) fun _ _ => runs_ofExcept

@[simp] theorem runs_clock {now : Except Error Instant} :
    Runs (clock : Task σ Instant) s log now s' ↔ ∃ t, log = [⟨.clock, t⟩] ∧ now = .ok t ∧ s' = s :=
  runs_ask

@[simp] theorem runs_identifier {id : Except Error String} :
    Runs (identifier : Task σ String) s log id s' ↔
      ∃ t, log = [⟨.identifier, t⟩] ∧ id = .ok t ∧ s' = s :=
  runs_ask

@[simp] theorem runs_publish {event : RunEvent} {done : Except Error Unit} :
    Runs (publish event : Task σ Unit) s log done s' ↔
      log = [⟨.publish event, ()⟩] ∧ done = .ok () ∧ s' = s := by
  simp only [publish]
  exact runs_ask.trans ⟨fun ⟨_, h⟩ => h, fun h => ⟨(), h⟩⟩

/-! ### Tasks that go on after a request -/

@[simp] theorem runs_ofExcept_bind {e : Except Error β} {f : β → Task σ α} :
    Runs (ofExcept e >>= f) s log result s' ↔
      (∃ failure, e = .error failure ∧ log = [] ∧ result = .error failure ∧ s' = s) ∨
        ∃ v, e = .ok v ∧ Runs (f v) s log result s' := by
  cases e with
  | ok v =>
    show Runs (f v) s log result s' ↔ _
    simp
  | error failure =>
    show Runs (throw failure) s log result s' ↔ _
    simp

@[simp] theorem runs_get_bind {f : σ → Task σ α} :
    Runs (get >>= f) s log result s' ↔ Runs (f s) s log result s' := Iff.rfl

@[simp] theorem runs_modify_bind {g : σ → σ} {f : PUnit → Task σ α} :
    Runs (modify g >>= f) s log result s' ↔ Runs (f ()) (g s) log result s' := Iff.rfl

@[simp] theorem runs_clock_bind {f : Instant → Task σ α} :
    Runs (clock >>= f) s log result s' ↔
      ∃ now rest, log = ⟨.clock, now⟩ :: rest ∧ Runs (f now) s rest result s' :=
  runs_answer .clock

@[simp] theorem runs_identifier_bind {f : String → Task σ α} :
    Runs (identifier >>= f) s log result s' ↔
      ∃ id rest, log = ⟨.identifier, id⟩ :: rest ∧ Runs (f id) s rest result s' :=
  runs_answer .identifier

@[simp] theorem runs_publish_bind {event : RunEvent} {f : Unit → Task σ α} :
    Runs (publish event >>= f) s log result s' ↔
      ∃ rest, log = ⟨.publish event, ()⟩ :: rest ∧ Runs (f ()) s rest result s' :=
  (runs_answer (.publish event)).trans ⟨fun ⟨_, h⟩ => h, fun h => ⟨(), h⟩⟩

private theorem runs_call_bind {t : Task σ β} {asked : Except Error β → Exchange} {f : β → Task σ α}
    (call : ∀ {log answer s'}, Runs t s log answer s' ↔ log = [asked answer] ∧ s' = s) :
    Runs (t >>= f) s log result s' ↔
      (∃ e, log = [asked (.error e)] ∧ result = .error e ∧ s' = s) ∨
        ∃ v rest, log = asked (.ok v) :: rest ∧ Runs (f v) s rest result s' := by
  rw [runs_bind]
  simp only [call]
  constructor
  · rintro (⟨e, ⟨rfl, rfl⟩, rfl⟩ | ⟨v, _, _, rest, ⟨rfl, rfl⟩, run, rfl⟩)
    · exact .inl ⟨e, rfl, rfl, rfl⟩
    · exact .inr ⟨v, rest, rfl, run⟩
  · rintro (⟨e, rfl, rfl, rfl⟩ | ⟨v, rest, rfl, run⟩)
    · exact .inl ⟨e, ⟨rfl, rfl⟩, rfl⟩
    · exact .inr ⟨v, s, _, rest, ⟨rfl, rfl⟩, run, rfl⟩

@[simp] theorem runs_save_bind {r : Wait.Record} {f : Unit → Task σ α} :
    Runs (save r >>= f) s log result s' ↔
      (∃ e, log = [⟨.save r, .error e⟩] ∧ result = .error e ∧ s' = s) ∨
        ∃ v rest, log = ⟨.save r, .ok v⟩ :: rest ∧ Runs (f v) s rest result s' :=
  runs_call_bind runs_save

@[simp] theorem runs_find_bind {scope : Scope} {f : Option Wait.Record → Task σ α} :
    Runs (find scope >>= f) s log result s' ↔
      (∃ e, log = [⟨.find scope, .error e⟩] ∧ result = .error e ∧ s' = s) ∨
        ∃ v rest, log = ⟨.find scope, .ok v⟩ :: rest ∧ Runs (f v) s rest result s' :=
  runs_call_bind runs_find

@[simp] theorem runs_claim_bind {r : Wait.Record} {f : Bool → Task σ α} :
    Runs (claim r >>= f) s log result s' ↔
      (∃ e, log = [⟨.claim r, .error e⟩] ∧ result = .error e ∧ s' = s) ∨
        ∃ v rest, log = ⟨.claim r, .ok v⟩ :: rest ∧ Runs (f v) s rest result s' :=
  runs_call_bind runs_claim

@[simp] theorem runs_reap_bind {now : Instant} {f : List Wait.Record → Task σ α} :
    Runs (reap now >>= f) s log result s' ↔
      (∃ e, log = [⟨.reap now, .error e⟩] ∧ result = .error e ∧ s' = s) ∨
        ∃ v rest, log = ⟨.reap now, .ok v⟩ :: rest ∧ Runs (f v) s rest result s' :=
  runs_call_bind runs_reap

@[simp] theorem runs_load_bind {code : String} {version : Option String} {f : Flow → Task σ α} :
    Runs (load code version >>= f) s log result s' ↔
      (∃ e, log = [⟨.load code version, .error e⟩] ∧ result = .error e ∧ s' = s) ∨
        ∃ v rest, log = ⟨.load code version, .ok v⟩ :: rest ∧ Runs (f v) s rest result s' :=
  runs_call_bind runs_load

@[simp] theorem runs_send_bind {scope : Scope} {content : String} {f : Unit → Task σ α} :
    Runs (send scope content >>= f) s log result s' ↔
      (∃ e, log = [⟨.send scope content, .error e⟩] ∧ result = .error e ∧ s' = s) ∨
        ∃ v rest, log = ⟨.send scope content, .ok v⟩ :: rest ∧ Runs (f v) s rest result s' :=
  runs_call_bind runs_send

/-! ### Steps that may panic -/

@[simp] theorem runs_ofChecked {checked : Except Panic α} :
    Runs (ofChecked checked : Task σ α) s log result s' ↔
      ∃ v, checked = .ok v ∧ log = [] ∧ result = .ok v ∧ s' = s := by
  cases checked with
  | ok v => simp [ofChecked]
  | error cause =>
    show Program.Runs (.panic cause) log (result, s') ↔ _
    simp

@[simp] theorem runs_ofChecked_bind {checked : Except Panic β} {f : β → Task σ α} :
    Runs (ofChecked checked >>= f) s log result s' ↔
      ∃ v, checked = .ok v ∧ Runs (f v) s log result s' := by
  cases checked with
  | ok v =>
    show Runs (f v) s log result s' ↔ _
    simp
  | error cause =>
    show Program.Runs (.panic cause) log (result, s') ↔ _
    simp

@[simp] theorem panics_ofChecked {checked : Except Panic α} {cause : Panic} :
    Panics (ofChecked checked : Task σ α) s log cause ↔ checked = .error cause ∧ log = [] := by
  cases checked with
  | ok v =>
    show Program.Ends (.done (Except.ok v, s)) log (.error cause) ↔ _
    simp
  | error other =>
    show Program.Ends (.panic other) log (.error cause) ↔ _
    simp [eq_comm, and_comm]

@[simp] theorem panics_ofChecked_bind {checked : Except Panic β} {f : β → Task σ α}
    {cause : Panic} :
    Panics (ofChecked checked >>= f) s log cause ↔
      (checked = .error cause ∧ log = []) ∨ ∃ v, checked = .ok v ∧ Panics (f v) s log cause := by
  cases checked with
  | ok v =>
    show Panics (f v) s log cause ↔ _
    simp
  | error other =>
    show Program.Ends (.panic other) log (.error cause) ↔ _
    simp [eq_comm, and_comm]

section
variable {cause : Panic}

@[simp] theorem not_panics_pure {value : α} : ¬ Panics (pure value : Task σ α) s log cause :=
  fun run => nomatch (Program.ends_done.mp run).2

@[simp] theorem not_panics_throw {e : Error} : ¬ Panics (throw e : Task σ α) s log cause :=
  fun run => nomatch (Program.ends_done.mp run).2

@[simp] theorem not_panics_modify {f : σ → σ} : ¬ Panics (modify f : Task σ PUnit) s log cause :=
  fun run => nomatch (Program.ends_done.mp run).2

theorem panics_answer (r : Request) {f : r.Answer → Task σ α} :
    Panics (ask r >>= f) s log cause ↔
      ∃ a rest, log = ⟨r, a⟩ :: rest ∧ Panics (f a) s rest cause :=
  Program.ends_ask

@[simp] theorem not_panics_ask {r : Request} : ¬ Panics (ask r : Task σ r.Answer) s log cause := by
  intro run
  obtain ⟨a, rest, -, ended⟩ := Program.ends_ask.mp run
  exact nomatch (Program.ends_done.mp ended).2

@[simp] theorem not_panics_ofExcept {e : Except Error α} :
    ¬ Panics (ofExcept e : Task σ α) s log cause := by
  cases e <;> simp [ofExcept]

@[simp] theorem panics_get_bind {f : σ → Task σ α} :
    Panics (get >>= f) s log cause ↔ Panics (f s) s log cause := Iff.rfl

@[simp] theorem panics_modify_bind {g : σ → σ} {f : PUnit → Task σ α} :
    Panics (modify g >>= f) s log cause ↔ Panics (f ()) (g s) log cause := Iff.rfl

@[simp] theorem panics_ofExcept_bind {e : Except Error β} {f : β → Task σ α} :
    Panics (ofExcept e >>= f) s log cause ↔ ∃ v, e = .ok v ∧ Panics (f v) s log cause := by
  cases e with
  | ok v =>
    show Panics (f v) s log cause ↔ _
    simp
  | error failure =>
    show Panics (throw failure) s log cause ↔ _
    simp

@[simp] theorem panics_clock_bind {f : Instant → Task σ α} :
    Panics (clock >>= f) s log cause ↔
      ∃ now rest, log = ⟨.clock, now⟩ :: rest ∧ Panics (f now) s rest cause :=
  panics_answer .clock

@[simp] theorem panics_identifier_bind {f : String → Task σ α} :
    Panics (identifier >>= f) s log cause ↔
      ∃ id rest, log = ⟨.identifier, id⟩ :: rest ∧ Panics (f id) s rest cause :=
  panics_answer .identifier

@[simp] theorem panics_publish_bind {event : RunEvent} {f : Unit → Task σ α} :
    Panics (publish event >>= f) s log cause ↔
      ∃ rest, log = ⟨.publish event, ()⟩ :: rest ∧ Panics (f ()) s rest cause :=
  (panics_answer (.publish event)).trans ⟨fun ⟨_, h⟩ => h, fun h => ⟨(), h⟩⟩

private theorem not_panics_call (r : Request) {f : r.Answer → Task σ α}
    (calm : ∀ a rest, ¬ Panics (f a) s rest cause) : ¬ Panics (ask r >>= f) s log cause := by
  intro run
  obtain ⟨a, rest, -, run⟩ := (panics_answer r).mp run
  exact calm a rest run

@[simp] theorem not_panics_save {r : Wait.Record} :
    ¬ Panics (save r : Task σ Unit) s log cause :=
  not_panics_call (.save r) fun _ _ => not_panics_ofExcept

@[simp] theorem not_panics_find {scope : Scope} :
    ¬ Panics (find scope : Task σ _) s log cause :=
  not_panics_call (.find scope) fun _ _ => not_panics_ofExcept

@[simp] theorem not_panics_claim {r : Wait.Record} :
    ¬ Panics (claim r : Task σ Bool) s log cause :=
  not_panics_call (.claim r) fun _ _ => not_panics_ofExcept

@[simp] theorem not_panics_reap {now : Instant} :
    ¬ Panics (reap now : Task σ _) s log cause :=
  not_panics_call (.reap now) fun _ _ => not_panics_ofExcept

@[simp] theorem not_panics_load {code : String} {version : Option String} :
    ¬ Panics (load code version : Task σ Flow) s log cause :=
  not_panics_call (.load code version) fun _ _ => not_panics_ofExcept

@[simp] theorem not_panics_send {scope : Scope} {content : String} :
    ¬ Panics (send scope content : Task σ Unit) s log cause :=
  not_panics_call (.send scope content) fun _ _ => not_panics_ofExcept

private theorem panics_call_bind {t : Task σ β} {asked : Except Error β → Exchange}
    {f : β → Task σ α}
    (call : ∀ {log answer s'}, Runs t s log answer s' ↔ log = [asked answer] ∧ s' = s)
    (calm : ∀ {log}, ¬ Panics t s log cause) :
    Panics (t >>= f) s log cause ↔
      ∃ v rest, log = asked (.ok v) :: rest ∧ Panics (f v) s rest cause := by
  rw [panics_bind]
  simp only [call, calm, false_or]
  constructor
  · rintro ⟨v, _, _, rest, ⟨rfl, rfl⟩, run, rfl⟩
    exact ⟨v, rest, rfl, run⟩
  · rintro ⟨v, rest, rfl, run⟩
    exact ⟨v, s, _, rest, ⟨rfl, rfl⟩, run, rfl⟩

@[simp] theorem panics_save_bind {r : Wait.Record} {f : Unit → Task σ α} :
    Panics (save r >>= f) s log cause ↔
      ∃ v rest, log = ⟨.save r, .ok v⟩ :: rest ∧ Panics (f v) s rest cause :=
  panics_call_bind runs_save not_panics_save

@[simp] theorem panics_find_bind {scope : Scope} {f : Option Wait.Record → Task σ α} :
    Panics (find scope >>= f) s log cause ↔
      ∃ v rest, log = ⟨.find scope, .ok v⟩ :: rest ∧ Panics (f v) s rest cause :=
  panics_call_bind runs_find not_panics_find

@[simp] theorem panics_claim_bind {r : Wait.Record} {f : Bool → Task σ α} :
    Panics (claim r >>= f) s log cause ↔
      ∃ v rest, log = ⟨.claim r, .ok v⟩ :: rest ∧ Panics (f v) s rest cause :=
  panics_call_bind runs_claim not_panics_claim

@[simp] theorem panics_reap_bind {now : Instant} {f : List Wait.Record → Task σ α} :
    Panics (reap now >>= f) s log cause ↔
      ∃ v rest, log = ⟨.reap now, .ok v⟩ :: rest ∧ Panics (f v) s rest cause :=
  panics_call_bind runs_reap not_panics_reap

@[simp] theorem panics_load_bind {code : String} {version : Option String} {f : Flow → Task σ α} :
    Panics (load code version >>= f) s log cause ↔
      ∃ v rest, log = ⟨.load code version, .ok v⟩ :: rest ∧ Panics (f v) s rest cause :=
  panics_call_bind runs_load not_panics_load

@[simp] theorem panics_send_bind {scope : Scope} {content : String} {f : Unit → Task σ α} :
    Panics (send scope content >>= f) s log cause ↔
      ∃ v rest, log = ⟨.send scope content, .ok v⟩ :: rest ∧ Panics (f v) s rest cause :=
  panics_call_bind runs_send not_panics_send

end

/-! ### Tasks within tasks -/

@[simp] theorem runs_lift {p : StateT σ Program α} :
    Runs (ExceptT.lift p : Task σ α) s log result s' ↔
      ∃ v, result = .ok v ∧ Program.Runs (p s) log (v, s') := by
  show Program.Runs (Program.bind (p s) fun x => .done (.ok x.1, x.2)) log (result, s') ↔ _
  rw [Program.runs_bind]
  constructor
  · rintro ⟨⟨v, t⟩, first, second, run, rest, rfl⟩
    obtain ⟨rfl, same⟩ := Program.runs_done.mp rest
    cases same
    exact ⟨v, rfl, by rwa [List.append_nil]⟩
  · rintro ⟨v, rfl, run⟩
    exact ⟨(v, s'), log, [], run, .stay _, by simp⟩

@[simp] theorem runs_within {get : τ → σ} {set : σ → τ → τ} {t : Task σ α} {u u' : τ} :
    Runs (within get set t) u log result u' ↔
      ∃ part, Runs t (get u) log result part ∧ u' = set part u := by
  show Program.Runs (Program.bind (t (get u)) fun x => .done (x.1, set x.2 u)) log (result, u') ↔ _
  rw [Program.runs_bind]
  constructor
  · rintro ⟨⟨one, part⟩, first, second, run, rest, rfl⟩
    obtain ⟨rfl, same⟩ := Program.runs_done.mp rest
    cases same
    exact ⟨part, by rwa [List.append_nil], rfl⟩
  · rintro ⟨part, run, rfl⟩
    exact ⟨(result, part), log, [], run, .stay _, by simp⟩

@[simp] theorem runs_apart {start : σ} {t : Task σ α} {u u' : τ} {ended : Except Error (α × σ)} :
    Runs (apart start t : Task τ (α × σ)) u log ended u' ↔
      u' = u ∧ ((∃ e part, Runs t start log (.error e) part ∧ ended = .error e) ∨
        ∃ v part, Runs t start log (.ok v) part ∧ ended = .ok (v, part)) := by
  show Program.Runs (Program.bind (t start) _) log (ended, u') ↔ _
  rw [Program.runs_bind]
  constructor
  · rintro ⟨⟨one, part⟩, first, second, run, rest, rfl⟩
    cases one with
    | error e =>
      obtain ⟨rfl, same⟩ := Program.runs_done.mp rest
      cases same
      exact ⟨rfl, .inl ⟨e, part, by rwa [List.append_nil], rfl⟩⟩
    | ok v =>
      obtain ⟨rfl, same⟩ := Program.runs_done.mp rest
      cases same
      exact ⟨rfl, .inr ⟨v, part, by rwa [List.append_nil], rfl⟩⟩
  · rintro ⟨rfl, ⟨e, part, run, rfl⟩ | ⟨v, part, run, rfl⟩⟩
    · exact ⟨(.error e, part), log, [], run, .stay _, by simp⟩
    · exact ⟨(.ok v, part), log, [], run, .stay _, by simp⟩

@[simp] theorem runs_apart_bind {start : σ} {t : Task σ β} {f : β × σ → Task τ α} {u u' : τ} :
    Runs (apart start t >>= f) u log result u' ↔
      (∃ e part, Runs t start log (.error e) part ∧ result = .error e ∧ u' = u) ∨
        ∃ v part front back, Runs t start front (.ok v) part ∧ Runs (f (v, part)) u back result u' ∧
          log = front ++ back := by
  rw [runs_bind]
  simp only [runs_apart]
  constructor
  · rintro (⟨e, ⟨rfl, ⟨_, part, run, same⟩ | ⟨_, _, -, same⟩⟩, rfl⟩ |
      ⟨_, _, front, back, ⟨rfl, ⟨_, _, -, same⟩ | ⟨v, part, run, same⟩⟩, goes, rfl⟩)
    · exact .inl ⟨e, part, Except.error.inj same ▸ run, rfl, rfl⟩
    · contradiction
    · contradiction
    · obtain rfl := Except.ok.inj same
      exact .inr ⟨v, part, front, back, run, goes, rfl⟩
  · rintro (⟨e, part, run, rfl, rfl⟩ | ⟨v, part, front, back, run, goes, rfl⟩)
    · exact .inl ⟨e, ⟨rfl, .inl ⟨e, part, run, rfl⟩⟩, rfl⟩
    · exact .inr ⟨_, u, front, back, ⟨rfl, .inr ⟨v, part, run, rfl⟩⟩, goes, rfl⟩

section
variable {cause : Panic}

@[simp] theorem panics_lift {p : StateT σ Program α} :
    Panics (ExceptT.lift p : Task σ α) s log cause ↔ Program.Ends (p s) log (.error cause) := by
  show Program.Ends (Program.bind (p s) fun x => .done (Except.ok x.1, x.2)) log (.error cause) ↔ _
  simp [Program.ends_bind]

@[simp] theorem panics_within {get : τ → σ} {set : σ → τ → τ} {t : Task σ α} {u : τ} :
    Panics (within get set t) u log cause ↔ Panics t (get u) log cause := by
  show Program.Ends (Program.bind (t (get u)) fun x => .done (x.1, set x.2 u)) log (.error cause) ↔ _
  simp [Program.ends_bind, Panics]

@[simp] theorem panics_apart {start : σ} {t : Task σ α} {u : τ} :
    Panics (apart start t : Task τ (α × σ)) u log cause ↔ Panics t start log cause := by
  show Program.Ends (Program.bind (t start) _) log (.error cause) ↔ _
  rw [Program.ends_bind]
  constructor
  · rintro (⟨_, run, same⟩ | ⟨⟨one, part⟩, first, second, run, rest, rfl⟩)
    · exact Except.error.inj same ▸ run
    · cases one <;> exact nomatch (Program.ends_done.mp rest).2
  · exact fun run => .inl ⟨cause, run, rfl⟩

end

/-! ### Tasks without a state -/

/-- A task without a state ends after a log, with a result or in a panic. -/
def Ends (t : Task Unit α) (log : List Exchange) : Except Panic (Except Error α) → Prop
  | .ok result => Runs t () log result ()
  | .error cause => Panics t () log cause

theorem ends_of_program {t : Task Unit α} {ending : Except Panic (Except Error α × Unit)}
    (ends : Program.Ends (t ()) log ending) : Ends t log (ending.map Prod.fst) := by
  cases ending <;> exact ends

/-- A program that forgets what a task returns ends as the task does. -/
theorem ends_bind_done {t : Task Unit α} {ending : Except Panic Unit} :
    ((t ()).bind fun _ => .done ()).Ends log ending ↔
      ∃ former, Ends t log former ∧ ending = former.map fun _ => () := by
  rw [Program.ends_bind_done (g := fun _ => ())]
  constructor
  · rintro ⟨former, ends, rfl⟩
    exact ⟨_, ends_of_program ends, by cases former <;> rfl⟩
  · rintro ⟨former, ends, rfl⟩
    cases former with
    | ok result => exact ⟨_, ends, rfl⟩
    | error cause => exact ⟨_, ends, rfl⟩

theorem program_of_ends {t : Task Unit α} {ending : Except Panic (Except Error α)}
    (ends : Ends t log ending) : Program.Ends (t ()) log (ending.map fun result => (result, ())) := by
  cases ending <;> exact ends

theorem goes_of_ends {t : Task Unit α} {ending : Except Panic (Except Error α)}
    (ends : Ends t log ending) : ∃ p, Program.Goes (t ()) log p := by
  cases ending <;> exact ⟨_, ends⟩

/-- A task that has been answered goes on with the answer. -/
theorem ends_answer {r : Request} {a : r.Answer} {f : r.Answer → Task Unit α}
    {ending : Except Panic (Except Error α)} :
    Ends (ask r >>= f) (⟨r, a⟩ :: log) ending ↔ Ends (f a) log ending := by
  cases ending <;> exact Program.goes_answered

/-- A task whose search has been answered goes on with the answer. -/
theorem ends_find_bind {scope : Scope} {found : Option Wait.Record}
    {f : Option Wait.Record → Task Unit α} {ending : Except Panic (Except Error α)} :
    Ends (find scope >>= f) (⟨.find scope, .ok found⟩ :: log) ending ↔ Ends (f found) log ending := by
  cases ending <;> exact Program.goes_answered

/-- What is only made of the value of a task is made of it at the end. -/
theorem ends_bind_pure {t : Task Unit α} {g : α → β} {ending : Except Panic (Except Error β)} :
    Ends (t >>= fun v => pure (g v)) log ending ↔
      ∃ former, Ends t log former ∧ ending = former.map (Except.map g) := by
  cases ending with
  | ok result =>
    simp only [Ends, runs_bind, runs_pure]
    constructor
    · rintro (⟨e, run, rfl⟩ | ⟨v, ⟨⟩, first, _, run, ⟨rfl, rfl, -⟩, rfl⟩)
      · exact ⟨.ok (.error e), run, rfl⟩
      · exact ⟨.ok (.ok v), by rwa [List.append_nil], rfl⟩
    · rintro ⟨former, run, same⟩
      rcases former with cause | e | v
      · contradiction
      · exact .inl ⟨e, run, Except.ok.inj same⟩
      · exact .inr ⟨v, (), log, [], run, ⟨rfl, Except.ok.inj same, trivial⟩, (List.append_nil log).symm⟩
  | error cause =>
    simp only [Ends, panics_bind, not_panics_pure, false_and, and_false, exists_false, or_false]
    constructor
    · exact fun run => ⟨.error cause, run, rfl⟩
    · rintro ⟨former, run, same⟩
      rcases former with other | result
      · exact Except.error.inj same ▸ run
      · contradiction

end Task

end Parley
