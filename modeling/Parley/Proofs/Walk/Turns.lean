import Parley.Run.Walk
import Parley.Proofs.Log
import Parley.Proofs.Flow.Graph
/-!
# The turns of a walk

A walk is a row of turns, one for each node that runs. A turn has its visit, the context that the node
found and the one that it left, and what was asked for it. The frontier says whose turn is next
(`Walk.Turns`). In a flow that has been checked a walk that returns always comes to its end this way
(`Walk.proceed_turns`), and one that panics has come to a node that does (`Walk.proceed_torn`).
-/
namespace Parley

/-- The turn of a node in a walk. -/
structure Turn where
  visit : Visit
  /-- The context in which the node ran. -/
  before : Context
  /-- The context that the node left. -/
  after : Context
  /-- What the node asked for, and what it was answered. -/
  log : List Exchange

namespace Turn

/-- What was asked for the turn: what the node asked for, and that its visit be told. -/
def exchanges (t : Turn) : List Exchange :=
  t.log ++ [⟨.publish (t.visit.event t.after.runId), ()⟩]

/-- The node of the turn was run by the visitor. -/
def Plays (visitor : Visitor) (flow : Flow) (first : Bool) (t : Turn) : Prop :=
  ∃ node arrival report failure, flow.require t.visit.id = .ok node ∧
    t.visit = Walk.visitOf t.visit.level node arrival report (failure.map Error.message) ∧
    Program.Runs (visitor first node arrival t.before) t.log ((report, failure), t.after)

/-- The node of the turn was not run, for as many had run as are allowed. -/
structure Cut (limit : Nat) (t : Turn) : Prop where
  failure : t.visit.failure = some (Walk.limitText limit)
  after : t.after = t.before
  log : t.log = []

end Turn

/-- Each turn starts in the context that the one before has left. -/
def Turn.Chained : Context → List Turn → Context → Prop
  | ctx, [], ctx' => ctx' = ctx
  | ctx, t :: turns, ctx' => t.before = ctx ∧ Chained t.after turns ctx'

/-- What no turn undoes holds before each turn and after all of them. -/
theorem Turn.Chained.keeps (inv : Context → Prop) {ctx ctx' : Context} {turns : List Turn}
    (chained : Chained ctx turns ctx') (holds : inv ctx)
    (keeps : ∀ t ∈ turns, inv t.before → inv t.after) :
    (∀ t ∈ turns, inv t.before) ∧ inv ctx' := by
  induction turns generalizing ctx with
  | nil => exact ⟨by simp, (chained : ctx' = ctx) ▸ holds⟩
  | cons t turns ih =>
    obtain ⟨rfl, rest⟩ := chained
    obtain ⟨first, later⟩ := List.forall_mem_cons.mp keeps
    obtain ⟨each, last⟩ := ih rest (first holds) later
    exact ⟨List.forall_mem_cons.mpr ⟨holds, each⟩, last⟩

theorem Turn.Chained.split {ctx ctx' : Context} {turns later : List Turn}
    (chained : Chained ctx (turns ++ later) ctx') :
    ∃ between, Chained ctx turns between ∧ Chained between later ctx' := by
  induction turns generalizing ctx with
  | nil => exact ⟨ctx, rfl, chained⟩
  | cons t turns ih =>
    obtain ⟨rfl, rest⟩ := chained
    obtain ⟨between, front, back⟩ := ih rest
    exact ⟨between, ⟨rfl, front⟩, back⟩

namespace Walk

/-- The turns that are still to come when `left` more nodes may run, from a context to a context. -/
inductive Turns (flow : Flow) (visitor : Visitor) (limit : Nat) :
    (left : Nat) → (first : Bool) → Frontier → Context → List Turn → Context → Prop
  | stop {left : Nat} {first : Bool} {frontier : Frontier} {ctx : Context} :
    frontier.pop = none → Turns flow visitor limit left first frontier ctx [] ctx
  | cut {first : Bool} {frontier rest : Frontier} {arrival : Arrival} {node : Node}
      {ctx : Context} :
    frontier.pop = some (arrival, rest) → flow.require arrival.id = .ok node →
    Turns flow visitor limit 0 first frontier ctx
      [⟨visitOf rest.level node arrival { id := node.id } (some (limitText limit)), ctx, ctx, []⟩]
      ctx
  | turn {left : Nat} {first : Bool} {frontier rest : Frontier} {arrival : Arrival} {node : Node}
      {ctx ctx₁ ctx₂ : Context} {log : List Exchange} {report : Report} {failure : Option Error}
      {visit : Visit} {turns : List Turn} :
    frontier.pop = some (arrival, rest) → flow.require arrival.id = .ok node →
    Program.Runs (visitor first node arrival ctx) log ((report, failure), ctx₁) →
    visit = visitOf rest.level node arrival report (failure.map Error.message) →
    Turns flow visitor limit left false
      (rest.extend ⟨node.id, visit.report.result⟩ (visit.leadsTo (flow.children node.id)))
      ctx₁ turns ctx₂ →
    Turns flow visitor limit (left + 1) first frontier ctx (⟨visit, ctx, ctx₁, log⟩ :: turns) ctx₂

/-- The turns that come before a node that panics, from a context on, and what that node asks for. -/
inductive TornTurns (flow : Flow) (visitor : Visitor) (cause : Panic) :
    (left : Nat) → (first : Bool) → Frontier → Context → List Turn → List Exchange → Prop
  | torn {left : Nat} {first : Bool} {frontier rest : Frontier} {arrival : Arrival} {node : Node}
      {ctx : Context} {log : List Exchange} :
    frontier.pop = some (arrival, rest) → flow.require arrival.id = .ok node →
    Program.Ends (visitor first node arrival ctx) log (.error cause) →
    TornTurns flow visitor cause (left + 1) first frontier ctx [] log
  | turn {left : Nat} {first : Bool} {frontier rest : Frontier} {arrival : Arrival} {node : Node}
      {ctx ctx₁ : Context} {log back : List Exchange} {report : Report} {failure : Option Error}
      {visit : Visit} {turns : List Turn} :
    frontier.pop = some (arrival, rest) → flow.require arrival.id = .ok node →
    Program.Runs (visitor first node arrival ctx) log ((report, failure), ctx₁) →
    visit = visitOf rest.level node arrival report (failure.map Error.message) →
    TornTurns flow visitor cause left false
      (rest.extend ⟨node.id, visit.report.result⟩ (visit.leadsTo (flow.children node.id)))
      ctx₁ turns back →
    TornTurns flow visitor cause (left + 1) first frontier ctx (⟨visit, ctx, ctx₁, log⟩ :: turns) back

end Walk

/-! ## Frontiers -/

namespace Frontier

def ids (f : Frontier) : List String :=
  (f.pending ++ f.next).map Arrival.id

theorem ids_pop {f rest : Frontier} {a : Arrival} (popped : f.pop = some (a, rest)) :
    f.ids = a.id :: rest.ids := by
  obtain ⟨level, pending, next⟩ := f
  cases pending with
  | cons b pending =>
    obtain ⟨rfl, rfl⟩ : b = a ∧ _ = rest := by simpa [pop] using popped
    rfl
  | nil =>
    cases next with
    | nil => simp [pop] at popped
    | cons b next =>
      obtain ⟨rfl, rfl⟩ : b = a ∧ _ = rest := by simpa [pop] using popped
      simp [ids]

theorem ids_arrive (parent : Parent) (child : String) (l : List Arrival) :
    (arrive parent child l).map Arrival.id =
      if child ∈ l.map Arrival.id then l.map Arrival.id else l.map Arrival.id ++ [child] := by
  induction l with
  | nil => rfl
  | cons a l ih =>
    by_cases same : a.id = child
    · simp [arrive, same]
    · simp only [arrive, same, if_false, List.map_cons, ih, List.mem_cons, Ne.symm same, false_or]
      split <;> simp

/-- The next nodes stay in the order in which they were reached first. -/
theorem ids_arrivals (parent : Parent) (children ids : List String) (next : List Arrival)
    (reached : next.map Arrival.id = distinct ids) :
    (children.foldl (fun next child => arrive parent child next) next).map Arrival.id =
      distinct (ids ++ children) := by
  induction children generalizing ids next with
  | nil => simpa using reached
  | cons child children ih =>
    rw [List.foldl_cons, ih (ids ++ [child]), List.append_assoc, List.singleton_append]
    rw [ids_arrive, distinct_concat, reached]
    simp only [mem_distinct]

private theorem mem_reached {parent : Parent} {children : List String} {id : String}
    {next : List Arrival} (member : id ∈ (children.foldl
      (fun next child => arrive parent child next) next).map Arrival.id) :
    id ∈ next.map Arrival.id ∨ id ∈ children := by
  induction children generalizing next with
  | nil => exact .inl member
  | cons child children ih =>
    rcases ih member with old | new
    · rw [ids_arrive] at old
      split at old
      · exact .inl old
      · rcases List.mem_append.mp old with older | last
        · exact .inl older
        · exact .inr (List.mem_cons.mpr (.inl (List.mem_singleton.mp last)))
    · exact .inr (List.mem_cons_of_mem _ new)

theorem mem_extend {f : Frontier} {parent : Parent} {children : List String} {id : String}
    (member : id ∈ (f.extend parent children).ids) : id ∈ f.ids ∨ id ∈ children := by
  simp only [ids, extend, List.map_append, List.mem_append] at member ⊢
  rcases member with pending | next
  · exact .inl (.inl pending)
  · rcases mem_reached next with old | new
    · exact .inl (.inr old)
    · exact .inr new

end Frontier

theorem Visit.leadsTo_subset {v : Visit} {graph : List String} {id : String}
    (member : id ∈ v.leadsTo graph) : id ∈ graph := by
  unfold leadsTo at member
  split at member
  · contradiction
  · unfold Report.keptChildren at member
    split at member
    · exact member
    · exact (List.mem_filter.mp member).1

/-! ## Walks take turns -/

namespace Walk
variable {flow : Flow} {visitor : Visitor} {limit : Nat}

private theorem runs_announce_bind {α : Type} {v : Visit} {f : Unit → Task Context α}
    {ctx ctx' : Context} {log : List Exchange} {result : Except Error α} :
    Task.Runs (announce v >>= f) ctx log result ctx' ↔
      ∃ rest, log = ⟨.publish (v.event ctx.runId), ()⟩ :: rest ∧
        Task.Runs (f ()) ctx rest result ctx' :=
  Task.runs_publish_bind

section
variable {left : Nat} {frontier rest : Frontier} {arrival : Arrival} {node : Node} {walk : Walk}

private theorem proceed_cut (popped : frontier.pop = some (arrival, rest))
    (found : flow.require arrival.id = .ok node) :
    proceed flow visitor limit 0 frontier walk = do
      let visit := visitOf rest.level node arrival { id := node.id } (some (limitText limit))
      announce visit
      return walk.push visit := by
  unfold proceed
  simp only [popped, found]
  rfl

private theorem proceed_turn (popped : frontier.pop = some (arrival, rest))
    (found : flow.require arrival.id = .ok node) :
    proceed flow visitor limit (left + 1) frontier walk = (do
      let ended ← ExceptT.lift (visitor walk.visits.isEmpty node arrival)
      let visit := visitOf rest.level node arrival ended.1 (ended.2.map Error.message)
      announce visit
      proceed flow visitor limit left
        (rest.extend ⟨node.id, visit.report.result⟩ (visit.leadsTo (flow.children node.id)))
        (walk.push visit)) := by
  rw [proceed]
  simp only [popped, found]
  rfl

end

/-- A walk in a checked flow comes to its end by taking turns. -/
theorem proceed_turns (closed : flow.Closed) {left : Nat} {frontier : Frontier} {walk : Walk}
    {ctx ctx' : Context} {log : List Exchange} {result : Except Error Walk}
    (inside : ∀ id ∈ frontier.ids, id ∈ flow.ids)
    (run : Task.Runs (proceed flow visitor limit left frontier walk) ctx log result ctx') :
    ∃ turns, Turns flow visitor limit left walk.visits.isEmpty frontier ctx turns ctx' ∧
      result = .ok ⟨walk.visits ++ turns.map Turn.visit⟩ ∧
      log = turns.flatMap Turn.exchanges := by
  induction left generalizing frontier walk ctx log with
  | zero =>
    cases popped : frontier.pop with
    | none =>
      simp only [proceed, popped, Task.runs_pure] at run
      obtain ⟨rfl, rfl, rfl⟩ := run
      exact ⟨[], .stop popped, by simp, rfl⟩
    | some next =>
      obtain ⟨arrival, rest⟩ := next
      rw [Frontier.ids_pop popped] at inside
      obtain ⟨node, -, found, -⟩ := Flow.require_ids (inside arrival.id (by simp))
      simp only [proceed_cut popped found, runs_announce_bind, Task.runs_pure] at run
      obtain ⟨_, rfl, rfl, rfl, rfl⟩ := run
      exact ⟨_, .cut popped found, by simp [push], by simp [Turn.exchanges]⟩
  | succ left ih =>
    cases popped : frontier.pop with
    | none =>
      simp only [proceed, popped, Task.runs_pure] at run
      obtain ⟨rfl, rfl, rfl⟩ := run
      exact ⟨[], .stop popped, by simp, rfl⟩
    | some next =>
      obtain ⟨arrival, rest⟩ := next
      rw [Frontier.ids_pop popped] at inside
      obtain ⟨node, -, found, named⟩ := Flow.require_ids (inside arrival.id (by simp))
      rw [proceed_turn popped found, Task.runs_bind] at run
      simp only [Task.runs_lift, reduceCtorEq, false_and, exists_false, false_or,
        Except.ok.injEq, runs_announce_bind] at run
      obtain ⟨_, ctx₁, first, _, ⟨⟨report, failure⟩, rfl, played⟩, ⟨second, rfl, run⟩, rfl⟩ := run
      have onward (parent : Parent) (v : Visit) :
          ∀ id ∈ (rest.extend parent (v.leadsTo (flow.children node.id))).ids, id ∈ flow.ids :=
        fun id member => (Frontier.mem_extend member).elim
          (fun old => inside id (List.mem_cons_of_mem _ old))
          fun new => closed.child (Visit.leadsTo_subset new)
      obtain ⟨turns, taken, rfl, rfl⟩ := ih (onward _ _) run
      have going (v : Visit) : (walk.push v).visits.isEmpty = false := by simp [push]
      rw [going] at taken
      exact ⟨_, .turn popped found played rfl taken, by simp [push], by simp [Turn.exchanges]⟩

private theorem panics_announce_bind {α : Type} {v : Visit} {f : Unit → Task Context α}
    {ctx : Context} {log : List Exchange} {cause : Panic} :
    Task.Panics (announce v >>= f) ctx log cause ↔
      ∃ rest, log = ⟨.publish (v.event ctx.runId), ()⟩ :: rest ∧ Task.Panics (f ()) ctx rest cause :=
  Task.panics_publish_bind

/-- A walk in a checked flow panics at a node that does, when the nodes before it have had their
turns. -/
theorem proceed_torn (closed : flow.Closed) {left : Nat} {frontier : Frontier} {walk : Walk}
    {ctx : Context} {log : List Exchange} {cause : Panic}
    (inside : ∀ id ∈ frontier.ids, id ∈ flow.ids)
    (panics : Task.Panics (proceed flow visitor limit left frontier walk) ctx log cause) :
    ∃ turns back, TornTurns flow visitor cause left walk.visits.isEmpty frontier ctx turns back ∧
      log = turns.flatMap Turn.exchanges ++ back := by
  induction left generalizing frontier walk ctx log with
  | zero =>
    cases popped : frontier.pop with
    | none =>
      simp only [proceed, popped] at panics
      exact absurd panics Task.not_panics_pure
    | some next =>
      obtain ⟨arrival, rest⟩ := next
      rw [Frontier.ids_pop popped] at inside
      obtain ⟨node, -, found, -⟩ := Flow.require_ids (inside arrival.id (by simp))
      simp only [proceed_cut popped found, panics_announce_bind] at panics
      obtain ⟨_, -, panics⟩ := panics
      exact absurd panics Task.not_panics_pure
  | succ left ih =>
    cases popped : frontier.pop with
    | none =>
      simp only [proceed, popped] at panics
      exact absurd panics Task.not_panics_pure
    | some next =>
      obtain ⟨arrival, rest⟩ := next
      rw [Frontier.ids_pop popped] at inside
      obtain ⟨node, -, found, named⟩ := Flow.require_ids (inside arrival.id (by simp))
      rw [proceed_turn popped found, Task.panics_bind] at panics
      simp only [Task.panics_lift, Task.runs_lift, Except.ok.injEq, panics_announce_bind] at panics
      rcases panics with torn | ⟨_, ctx₁, first, _, ⟨⟨report, failure⟩, rfl, played⟩,
        ⟨second, rfl, panics⟩, rfl⟩
      · exact ⟨[], log, .torn popped found torn, rfl⟩
      have onward (parent : Parent) (v : Visit) :
          ∀ id ∈ (rest.extend parent (v.leadsTo (flow.children node.id))).ids, id ∈ flow.ids :=
        fun id member => (Frontier.mem_extend member).elim
          (fun old => inside id (List.mem_cons_of_mem _ old))
          fun new => closed.child (Visit.leadsTo_subset new)
      obtain ⟨turns, back, taken, rfl⟩ := ih (onward _ _) panics
      have going (v : Visit) : (walk.push v).visits.isEmpty = false := by simp [push]
      rw [going] at taken
      exact ⟨_, back, .turn popped found played rfl taken, by simp [Turn.exchanges]⟩

/-! ## What turns do -/

/-- The turns of a walk in a row: the nodes run one after the other, each in the context that the one
before has left, and at most one more than allowed has a turn, in which it does not run. -/
structure Performed (flow : Flow) (visitor : Visitor) (limit : Nat) (ctx : Context)
    (turns : List Turn) (ctx' : Context) : Prop where
  chained : Turn.Chained ctx turns ctx'
  played : ∀ i, (inside : i < turns.length) → i < limit → turns[i].Plays visitor flow (i == 0)
  bounded : turns.length ≤ limit + 1
  cut : (inside : limit < turns.length) → turns[limit].Cut limit

/-- Each turn was run by the visitor or cut off by the limit. -/
theorem Performed.turn {ctx ctx' : Context} {turns : List Turn}
    (performed : Performed flow visitor limit ctx turns ctx') {t : Turn} (member : t ∈ turns) :
    (∃ first, t.Plays visitor flow first) ∨ t.Cut limit := by
  obtain ⟨i, inside, rfl⟩ := List.getElem_of_mem member
  by_cases allowed : i < limit
  · exact .inl ⟨_, performed.played i inside allowed⟩
  · have last : i = limit := by
      have bounded := performed.bounded
      omega
    subst last
    exact .inr (performed.cut inside)

private theorem Turns.chained {left : Nat} {first : Bool} {frontier : Frontier} {ctx ctx' : Context}
    {turns : List Turn} (taken : Turns flow visitor limit left first frontier ctx turns ctx') :
    Turn.Chained ctx turns ctx' := by
  induction taken with
  | stop => rfl
  | cut => exact ⟨rfl, rfl⟩
  | turn _ _ _ _ _ ih => exact ⟨rfl, ih⟩

private theorem Turns.played {left : Nat} {first : Bool} {frontier : Frontier} {ctx ctx' : Context}
    {turns : List Turn} (taken : Turns flow visitor limit left first frontier ctx turns ctx') :
    ∀ i, (inside : i < turns.length) → i < left →
      turns[i].Plays visitor flow (first && i == 0) := by
  induction taken with
  | stop => simp
  | cut => simp
  | @turn left first frontier rest arrival node _ _ _ log report failure visit turns _ found played
      seen _ ih =>
    intro i inside allowed
    obtain ⟨-, named⟩ := Flow.require_mem found
    cases i with
    | zero =>
      refine ⟨node, arrival, report, failure, ?_, ?_, by simpa using played⟩
      · simpa [seen, visitOf, named] using found
      · simp [seen, visitOf]
    | succ i => simpa using ih i (by simpa using inside) (by omega)

private theorem Turns.ended {left : Nat} {first : Bool} {frontier : Frontier} {ctx ctx' : Context}
    {turns : List Turn} (taken : Turns flow visitor limit left first frontier ctx turns ctx') :
    turns.length ≤ left + 1 ∧ ∀ inside : left < turns.length, turns[left].Cut limit := by
  induction taken with
  | stop => simp
  | cut => exact ⟨by simp, fun _ => ⟨rfl, rfl, rfl⟩⟩
  | turn _ _ _ _ _ ih =>
    obtain ⟨bounded, cut⟩ := ih
    exact ⟨by simpa using bounded, fun inside => by simpa using cut (by simpa using inside)⟩

theorem Turns.visited {left : Nat} {first : Bool} {frontier : Frontier} {ctx ctx' : Context}
    {turns : List Turn} (taken : Turns flow visitor limit left first frontier ctx turns ctx')
    {t : Turn} (member : t ∈ turns) : ∃ node arrival report failure,
      flow.require t.visit.id = .ok node ∧
      t.visit = visitOf t.visit.level node arrival report failure := by
  induction taken with
  | stop => contradiction
  | @cut first frontier rest arrival node ctx popped found =>
    obtain rfl := List.mem_singleton.mp member
    obtain ⟨-, named⟩ := Flow.require_mem found
    exact ⟨node, arrival, { id := node.id }, some (limitText limit), by simpa [visitOf, named], rfl⟩
  | @turn left first frontier rest arrival node ctx ctx₁ ctx₂ log report failure visit turns popped
      found played seen later ih =>
    rcases List.mem_cons.mp member with rfl | rest
    · obtain ⟨-, named⟩ := Flow.require_mem found
      exact ⟨node, arrival, report, failure.map Error.message, by simpa [seen, visitOf, named],
        by rw [seen]; rfl⟩
    · exact ih rest

/-- A node that has failed does not report that it ran well. -/
theorem visitOf_success {v : Visit} {level : Nat} {node : Node} {arrival : Arrival} {report : Report}
    {failure : Option String} (seen : v = visitOf level node arrival report failure)
    (failed : v.failure.isSome) : v.report.success = false := by
  subst seen
  obtain ⟨reason, rfl⟩ : ∃ reason, failure = some reason := Option.isSome_iff_exists.mp failed
  rfl

theorem Turns.performed {frontier : Frontier} {ctx ctx' : Context} {turns : List Turn}
    (taken : Turns flow visitor limit limit true frontier ctx turns ctx') :
    Performed flow visitor limit ctx turns ctx' where
  chained := taken.chained
  played := by simpa using taken.played
  bounded := taken.ended.1
  cut := taken.ended.2

/-- The turns that come before a node that panics, in a row, and that node, which is one that may run. -/
structure Torn (flow : Flow) (visitor : Visitor) (limit : Nat) (cause : Panic) (ctx : Context)
    (turns : List Turn) (last : Context) (back : List Exchange) : Prop where
  performed : Performed flow visitor limit ctx turns last
  allowed : turns.length < limit
  panics : ∃ node arrival, flow.require arrival.id = .ok node ∧
    Program.Ends (visitor turns.isEmpty node arrival last) back (.error cause)

private theorem TornTurns.row {cause : Panic} {left : Nat} {first : Bool} {frontier : Frontier}
    {ctx : Context} {turns : List Turn} {back : List Exchange}
    (taken : TornTurns flow visitor cause left first frontier ctx turns back) :
    turns.length < left ∧
      (∀ i, (inside : i < turns.length) → turns[i].Plays visitor flow (first && i == 0)) ∧
      ∃ last, Turn.Chained ctx turns last ∧ ∃ node arrival, flow.require arrival.id = .ok node ∧
        Program.Ends (visitor (first && turns.isEmpty) node arrival last) back (.error cause) := by
  induction taken with
  | torn _ found panics => exact ⟨Nat.succ_pos _, by simp, _, rfl, _, _, found, by simpa using panics⟩
  | @turn left first frontier rest arrival node _ _ log _ report failure visit turns _ found played
      seen _ ih =>
    obtain ⟨fewer, each, last, chained, panics⟩ := ih
    obtain ⟨-, named⟩ := Flow.require_mem found
    refine ⟨Nat.succ_lt_succ fewer, ?_, last, ⟨rfl, chained⟩, by simpa using panics⟩
    intro i inside
    cases i with
    | zero =>
      refine ⟨node, arrival, report, failure, ?_, ?_, by simpa using played⟩
      · simpa [seen, visitOf, named] using found
      · simp [seen, visitOf]
    | succ i => simpa using each i (by simpa using inside)

/-- A walk that is torn off has been entered like any other one. -/
theorem TornTurns.entered {cause : Panic} {left : Nat} {start : Arrival} {ctx : Context}
    {turns : List Turn} {back : List Exchange}
    (taken : TornTurns flow visitor cause left true { pending := [start] } ctx turns back) :
    ∀ t ∈ turns.head?, t.visit.id = start.id := by
  cases taken with
  | torn => simp
  | turn popped found _ seen _ =>
    obtain ⟨rfl, -⟩ : start = _ ∧ _ = _ := by simpa [Frontier.pop] using popped
    rintro _ ⟨⟩
    exact seen ▸ (Flow.require_mem found).2

theorem TornTurns.torn_row {cause : Panic} {frontier : Frontier} {ctx : Context} {turns : List Turn}
    {back : List Exchange}
    (taken : TornTurns flow visitor cause limit true frontier ctx turns back) :
    ∃ last, Torn flow visitor limit cause ctx turns last back := by
  obtain ⟨fewer, each, last, chained, panics⟩ := taken.row
  exact ⟨last, ⟨chained, fun i inside _ => by simpa using each i inside, by omega,
    fun inside => absurd inside (by omega)⟩, fewer, by simpa using panics⟩

end Walk

end Parley
