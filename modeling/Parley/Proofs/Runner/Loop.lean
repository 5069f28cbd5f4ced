import Parley.Proofs.Runner.Steps
/-!
# The rounds of a loop

A loop that can begin (`Loop.Ready`) walks its body in rounds, one for each item and in their order. Each
round starts where the one before has ended, with its own item and index in place of whatever the output
of the loop has become, and the first round that does not go through is the last one (`loop_runs`). A
loop panics when a round does, or before any of them when its items are too many to be listed
(`loop_panics`).
-/
namespace Parley.Runner

namespace Loop

/-- The parameters of a loop can be read and stand for items that can be listed, of which there are not
too many, and the loop has a body. -/
structure Ready (around : Surroundings) (ctx : Context) (call : Call) (params : Params) (turns : Turns)
    (body : Node) : Prop where
  read : parameters Params.decoder call = .ok params
  told : Loop.turns around ctx call.node.id params = .ok turns
  listable : turns.Listable
  fits : turns.length ≤ params.maxIterations
  found : call.flow.bodyEntry? call.node.id = some body

/-- Each round starts in the context that the one before has left, with its item and its index as the
output of the loop. -/
def Chained (id : String) : (index : Nat) → List Json → Context → List Walked → Context → Prop
  | _, _, ctx, [], ctx' => ctx' = ctx
  | index, item :: items, ctx, i :: rounds, ctx' =>
    i.before = ctx.record id (iteration item index) ∧ Chained id (index + 1) items i.after rounds ctx'
  | _, [], _, _ :: _, _ => False

/-- Why the loop does not go on after a round. -/
def roundError (id : String) (index : Nat) : Except Error Walk → Option Error
  | .ok walk => bodyError id index walk
  | .error e => some e

/-- The lines that the rounds leave in the log of the loop. -/
def lines : (index : Nat) → List Walked → List String
  | _, [] => []
  | index, i :: rounds =>
    (match i.ended with
      | .ok walk => walk.visits.map (visitLine (place index))
      | .error _ => []) ++ lines (index + 1) rounds

/-- How the rounds end: each of the items has had one and all have gone through, or the last round is the
first one that has not. -/
inductive Ends (id : String) (index : Nat) (items : List Json) (rounds : List Walked) :
    Except Error Unit → Prop
  | all : rounds.length = items.length → (∀ i ∈ rounds, i.Through) → Ends id index items rounds (.ok ())
  | stopped {front : List Walked} {last : Walked} {e : Error} : rounds = front ++ [last] →
    (∀ i ∈ front, i.Through) → roundError id (index + front.length) last.ended = some e →
    Ends id index items rounds (.error e)

/-- The output of a loop that has gone through. -/
def outcome (count : Nat) : Json := .ofFields [("iterations", .ofNat count)]

/-- What the loop puts out behind its rounds. -/
def conclude (count : Nat) : Except Error Unit → Report → Report
  | .ok (), r => r.withResult (outcome count)
  | .error _, r => r

/-- The rounds of a loop from an index on. -/
structure Rounds (around : Surroundings) (call : Call) (body : String) (index : Nat) (items : List Json)
    (s : NodeState) (log : List Exchange) (rounds : List Walked) (result : Except Error Unit)
    (s' : NodeState) : Prop where
  /-- Each of them walks the body from where it is entered, and tells the node there that it does. -/
  walked : ∀ i ∈ rounds, i.flow = call.flow ∧ i.entry = body ∧ i.appointed = some .loopStart
  ran : ∀ i ∈ rounds, i.Ran around
  chained : Chained call.node.id index items s.context rounds s'.context
  ends : Ends call.node.id index items rounds result
  heard : log = rounds.flatMap Walked.log
  report : s'.report = { s.report with log := s.report.log ++ lines index rounds }

/-- The rounds of a loop from an index on that have gone through before one panics, which is that of the
next item. -/
structure TornRounds (around : Surroundings) (call : Call) (body : String) (index : Nat)
    (items : List Json) (ctx : Context) (log : List Exchange) (rounds : List Walked) (cause : Panic) :
    Prop where
  walked : ∀ i ∈ rounds, i.flow = call.flow ∧ i.entry = body ∧ i.appointed = some .loopStart
  ran : ∀ i ∈ rounds, i.Ran around
  through : ∀ i ∈ rounds, i.Through
  torn : ∃ item last back, items[rounds.length]? = some item ∧
    Chained call.node.id index items ctx rounds last ∧
    Task.Panics (around.nested call.flow body (some .loopStart))
      (last.record call.node.id (iteration item (index + rounds.length))) back cause ∧
    log = rounds.flatMap Walked.log ++ back

variable {around : Surroundings} {call : Call} {body : String} {index : Nat} {id : String}
  {items : List Json} {rounds : List Walked} {ctx ctx' : Context}

/-- What a round finds as the output of the loop. -/
theorem Chained.shows (chained : Chained id index items ctx rounds ctx') :
    ∀ k, (inside : k < rounds.length) → ∃ item, items[k]? = some item ∧
      rounds[k].before.output? id = some (iteration item (index + k)) := by
  induction rounds generalizing index items ctx with
  | nil => simp
  | cons i rounds ih =>
    cases items with
    | nil => exact chained.elim
    | cons item items =>
      obtain ⟨before, later⟩ := chained
      intro k inside
      cases k with
      | zero =>
        refine ⟨item, rfl, ?_⟩
        simp only [List.getElem_cons_zero, before, Context.output?, Context.record, Nat.add_zero]
        exact Keyed.get?_insert_self ..
      | succ k =>
        have shown := ih later k (by simpa using inside)
        simpa [Nat.add_assoc, Nat.add_comm 1] using shown

/-- A round after which the loop goes on has gone through. -/
theorem through_of_roundError {i : Walked} (clean : roundError id index i.ended = none) :
    i.Through := by
  cases ended : i.ended with
  | error e => simp [roundError, ended] at clean
  | ok walk =>
    rw [ended] at clean
    obtain ⟨failed, suspended⟩ := bodyError_eq_none clean
    exact ⟨walk, ended, failed, suspended⟩

theorem not_through_of_roundError {i : Walked} {e : Error}
    (stops : roundError id index i.ended = some e) : ¬ i.Through := by
  rintro ⟨walk, ended, failed, suspended⟩
  simp [roundError, ended, bodyError, failed, suspended] at stops

/-- The round of an item, from a state of the loop on. -/
def round (call : Call) (body : String) (index : Nat) (item : Json) (s : NodeState)
    (log : List Exchange) (ended : Except Error Walk) (after : Context) : Walked where
  flow := call.flow
  entry := body
  appointed := some .loopStart
  before := s.context.record call.node.id (iteration item index)
  log := log
  ended := ended
  after := after

/-- The state of the loop behind a round. -/
def behind (index : Nat) (s : NodeState) (walk : Walk) (after : Context) : NodeState where
  context := after
  report := { s.report with log := s.report.log ++ walk.visits.map (visitLine (place index)) }

section
variable {item : Json} {s s' : NodeState} {log front back : List Exchange}
  {ended : Except Error Walk} {walk : Walk} {after : Context} {result : Except Error Unit} {e : Error}

/-- A round behind which the loop goes on. -/
theorem Rounds.cons (ran : (round call body index item s front (.ok walk) after).Ran around)
    (clean : bodyError call.node.id index walk = none)
    (later : Rounds around call body (index + 1) items (behind index s walk after) back rounds result
      s') :
    Rounds around call body index (item :: items) s (front ++ back)
      (round call body index item s front (.ok walk) after :: rounds) result s' where
  walked := List.forall_mem_cons.mpr ⟨⟨rfl, rfl, rfl⟩, later.walked⟩
  ran := List.forall_mem_cons.mpr ⟨ran, later.ran⟩
  chained := ⟨rfl, later.chained⟩
  ends := by
    have through : (round call body index item s front (.ok walk) after).Through :=
      through_of_roundError clean
    cases later.ends with
    | all each clean => exact .all (by simp [each]) (List.forall_mem_cons.mpr ⟨through, clean⟩)
    | stopped split clean stops =>
      refine .stopped (by rw [split]; rfl) (List.forall_mem_cons.mpr ⟨through, clean⟩) ?_
      rwa [List.length_cons, Nat.add_comm _ 1, ← Nat.add_assoc]
  heard := by rw [List.flatMap_cons, later.heard]; rfl
  report := by
    rw [later.report, lines]
    simp [behind, round]

/-- A round behind which the loop does not go on. -/
theorem Rounds.stop (ran : (round call body index item s log ended after).Ran around)
    (stops : roundError call.node.id index ended = some e) (context : s'.context = after)
    (report : s'.report = { s.report with
      log := s.report.log ++ lines index [round call body index item s log ended after] }) :
    Rounds around call body index (item :: items) s log
      [round call body index item s log ended after] (.error e) s' where
  walked := by simp [round]
  ran := by simpa using ran
  chained := ⟨rfl, by rwa [Chained]⟩
  ends := .stopped (List.nil_append _).symm (by simp) stops
  heard := by simp [round]
  report := report

/-- A round behind which a later one panics. -/
theorem TornRounds.cons {cause : Panic}
    (ran : (round call body index item s front (.ok walk) after).Ran around)
    (clean : bodyError call.node.id index walk = none)
    (later : TornRounds around call body (index + 1) items after back rounds cause) :
    TornRounds around call body index (item :: items) s.context (front ++ back)
      (round call body index item s front (.ok walk) after :: rounds) cause where
  walked := List.forall_mem_cons.mpr ⟨⟨rfl, rfl, rfl⟩, later.walked⟩
  ran := List.forall_mem_cons.mpr ⟨ran, later.ran⟩
  through := List.forall_mem_cons.mpr ⟨through_of_roundError clean, later.through⟩
  torn := by
    obtain ⟨next, last, end', found, chained, panics, rfl⟩ := later.torn
    refine ⟨next, last, end', found, ⟨rfl, chained⟩, ?_, by simp [round]⟩
    rwa [List.length_cons, Nat.add_comm _ 1, ← Nat.add_assoc]

theorem iterate_panics {cause : Panic}
    (run : Task.Panics (iterate around call body index items) s log cause) :
    ∃ rounds, TornRounds around call body index items s.context log rounds cause := by
  induction items generalizing index s log with
  | nil => exact absurd run Task.not_panics_pure
  | cons item rest ih =>
    simp only [iterate, context, Task.panics_modify_bind] at run
    rcases Task.panics_bind.mp run with walked | ⟨walk, s₁, front, back, walked, goes, rfl⟩
    · have walked := Task.panics_within.mp walked
      exact ⟨[], by simp, by simp, by simp, item, s.context, log, rfl, rfl, walked, rfl⟩
    obtain ⟨part, ran, rfl⟩ := Task.runs_within.mp walked
    simp only [logWalk, report, Task.panics_modify_bind] at goes
    split at goes
    · exact absurd goes Task.not_panics_throw
    · next clean =>
      obtain ⟨rounds, later⟩ := ih goes
      exact ⟨_, .cons ran clean later⟩

theorem iterate_rounds (run : Task.Runs (iterate around call body index items) s log result s') :
    ∃ rounds, Rounds around call body index items s log rounds result s' := by
  induction items generalizing index s log with
  | nil =>
    obtain ⟨rfl, rfl, rfl⟩ := Task.runs_pure.mp run
    exact ⟨[], by simp, by simp, rfl, .all rfl (by simp), rfl, by simp [lines]⟩
  | cons item rest ih =>
    simp only [iterate, context, Task.runs_modify_bind] at run
    rcases Task.runs_bind.mp run with ⟨e, walked, rfl⟩ | ⟨walk, s₁, front, back, walked, goes, rfl⟩
    · obtain ⟨part, ran, rfl⟩ := Task.runs_within.mp walked
      exact ⟨[round call body index item s log (.error e) part],
        .stop ran rfl rfl (by simp [lines, round])⟩
    obtain ⟨part, ran, rfl⟩ := Task.runs_within.mp walked
    simp only [logWalk, report, Task.runs_modify_bind, logWalk_report] at goes
    split at goes
    · next e failed =>
      obtain ⟨rfl, rfl, rfl⟩ := Task.runs_throw.mp goes
      rw [List.append_nil]
      exact ⟨[round call body index item s front (.ok walk) part],
        .stop ran failed rfl (by simp [lines, round])⟩
    · next clean =>
      obtain ⟨rounds, later⟩ := ih goes
      exact ⟨_, .cons ran clean later⟩

end

end Loop

/-- A loop that returns without having been able to begin has failed at once; one that can begin goes
through its rounds, and when all of them have gone through it puts out how many there were. -/
theorem loop_runs {around : Surroundings} {call : Call} {s s' : NodeState} {log : List Exchange}
    {result : Except Error Unit} (run : Task.Runs (loop around call) s log result s') :
    ((∀ params turns body, ¬ Loop.Ready around s.context call params turns body) ∧
      ∃ e, result = .error e ∧ log = [] ∧ s' = s) ∨
    ∃ params turns body rounds s₁, Loop.Ready around s.context call params turns body ∧
      Loop.Rounds around call body.id 0 turns.values s log rounds result s₁ ∧
      s'.context = s₁.context ∧ s'.report = Loop.conclude turns.length result s₁.report := by
  simp only [loop, Task.runs_ofExcept_bind, Task.runs_get_bind] at run
  rcases run with ⟨e, unread, rfl, rfl, rfl⟩ | ⟨params, read, ⟨e, untold, rfl, rfl, rfl⟩ |
    ⟨turns, told, run⟩⟩
  · refine .inl ⟨?_, e, rfl, rfl, rfl⟩
    rintro params turns body ⟨read, -⟩
    rw [unread] at read
    contradiction
  · refine .inl ⟨?_, e, rfl, rfl, rfl⟩
    rintro params' turns body ⟨read', told, -⟩
    obtain rfl := Except.ok.inj (read.symm.trans read')
    rw [untold] at told
    contradiction
  obtain ⟨_, listed, run⟩ := Task.runs_ofChecked_bind.mp run
  obtain ⟨listable, same⟩ := Loop.Turns.listed_eq_ok.mp listed
  rw [same] at run
  have known {params' : Loop.Params} {turns' : Loop.Turns} {body : Node}
      (ready : Loop.Ready around s.context call params' turns' body) :
      params' = params ∧ turns' = turns := by
    obtain rfl := Except.ok.inj (read.symm.trans ready.read)
    exact ⟨rfl, Except.ok.inj (ready.told.symm.trans told)⟩
  split at run
  · next many =>
    rcases Task.runs_bind.mp run with ⟨e, ended, rfl⟩ | ⟨_, _, _, _, ended, -⟩
    · obtain ⟨rfl, -, rfl⟩ := Task.runs_throw.mp ended
      refine .inl ⟨?_, e, rfl, rfl, rfl⟩
      intro params' turns' body ready
      obtain ⟨rfl, rfl⟩ := known ready
      exact absurd ready.fits (Nat.not_le.mpr many)
    · exact absurd (Task.runs_throw.mp ended).2.1 (by simp)
  next few =>
  split at run
  · next none =>
    obtain ⟨rfl, rfl, rfl⟩ := Task.runs_throw.mp run
    refine .inl ⟨?_, _, rfl, rfl, rfl⟩
    rintro params' turns' body ⟨-, -, -, -, found⟩
    rw [none] at found
    contradiction
  · next body found =>
    have ready : Loop.Ready around s.context call params turns body :=
      ⟨read, told, listable, Nat.not_lt.mp few, found⟩
    rcases Task.runs_bind.mp run with ⟨e, iterated, rfl⟩ | ⟨_, s₁, front, _, iterated, ended, rfl⟩
    · obtain ⟨rounds, each⟩ := Loop.iterate_rounds iterated
      exact .inr ⟨params, turns, body, rounds, s', ready, each, rfl, rfl⟩
    · obtain ⟨rounds, each⟩ := Loop.iterate_rounds iterated
      obtain ⟨rfl, rfl, rfl⟩ := Task.runs_modify.mp ended
      rw [List.append_nil]
      exact .inr ⟨params, turns, body, rounds, s₁, ready, each, rfl, rfl⟩

/-- The items of a loop that returns can be listed. -/
theorem loop_listable {around : Surroundings} {call : Call} {s s' : NodeState} {log : List Exchange}
    {result : Except Error Unit} {params : Loop.Params} {turns : Loop.Turns}
    (run : Task.Runs (loop around call) s log result s')
    (read : parameters Loop.Params.decoder call = .ok params)
    (told : Loop.turns around s.context call.node.id params = .ok turns) : turns.Listable := by
  simp only [loop, read, told, Task.runs_ofExcept_bind, Task.runs_get_bind, Task.runs_ofChecked_bind,
    reduceCtorEq, false_and, exists_false, false_or, Except.ok.injEq, exists_eq_left'] at run
  obtain ⟨_, listed, -⟩ := run
  exact (Loop.Turns.listed_eq_ok.mp listed).1

/-- A loop panics before its rounds when its items cannot be listed, or in one of its rounds. -/
theorem loop_panics {around : Surroundings} {call : Call} {s : NodeState} {log : List Exchange}
    {cause : Panic} (run : Task.Panics (loop around call) s log cause) :
    ∃ params turns, parameters Loop.Params.decoder call = .ok params ∧
      Loop.turns around s.context call.node.id params = .ok turns ∧
      ((¬ turns.Listable ∧ cause = .capacity ∧ log = []) ∨
        ∃ body rounds, Loop.Ready around s.context call params turns body ∧
          Loop.TornRounds around call body.id 0 turns.values s.context log rounds cause) := by
  simp only [loop, Task.panics_ofExcept_bind, Task.panics_get_bind, Task.panics_ofChecked_bind] at run
  obtain ⟨params, read, turns, told, ⟨unlisted, rfl⟩ | ⟨_, listed, run⟩⟩ := run
  · obtain ⟨many, rfl⟩ := Loop.Turns.listed_eq_error.mp unlisted
    exact ⟨params, turns, read, told, .inl ⟨many, rfl, rfl⟩⟩
  obtain ⟨listable, same⟩ := Loop.Turns.listed_eq_ok.mp listed
  rw [same] at run
  refine ⟨params, turns, read, told, .inr ?_⟩
  split at run
  · rcases Task.panics_bind.mp run with ended | ⟨_, _, _, _, ended, -⟩
    · exact absurd ended Task.not_panics_throw
    · exact absurd (Task.runs_throw.mp ended).2.1 (by simp)
  next few =>
  split at run
  · exact absurd run Task.not_panics_throw
  · next body found =>
    have ready : Loop.Ready around s.context call params turns body :=
      ⟨read, told, listable, Nat.not_lt.mp few, found⟩
    rcases Task.panics_bind.mp run with iterated | ⟨_, _, _, _, -, ended, -⟩
    · obtain ⟨rounds, torn⟩ := Loop.iterate_panics iterated
      exact ⟨body, rounds, ready, torn⟩
    · exact absurd ended Task.not_panics_modify

end Parley.Runner
