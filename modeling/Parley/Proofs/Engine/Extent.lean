import Parley.Proofs.Flow.Acyclic
import Parley.Proofs.Engine.Closure
import Mathlib.Algebra.BigOperators.Intervals
import Mathlib.Algebra.Order.BigOperators.Group.Finset
/-!
# How far walks go

What runs on a level of a walk stands at the end of a path of as many edges. In a flow without circles
there are fewer such nodes on every level than on the one before, so a walk has no more levels than the
flow has nodes, and no more nodes run in it than `mostVisits` says. A walk that is allowed so many ends
because nothing is left on its frontier (`Engine.walk_extent`).
-/
namespace Parley

/-! ## The frontier that is left -/

/-- The frontier once the visits have been made. -/
def Frontier.after (flow : Flow) (f : Frontier) : List Visit → Frontier
  | [] => f
  | v :: later =>
    match f.pop with
    | none => f
    | some (_, rest) =>
      (rest.extend ⟨v.id, v.report.result⟩ (v.leadsTo (flow.children v.id))).after flow later

namespace Walk
variable {flow : Flow} {visitor : Visitor} {limit : Nat} {entry : String} {visits : List Visit}

/-- Turns that the limit has not ended go on until nothing is left on the frontier. -/
theorem Turns.emptied {left : Nat} {first : Bool} {frontier : Frontier} {ctx ctx' : Context}
    {turns : List Turn} (taken : Turns flow visitor limit left first frontier ctx turns ctx')
    (allowed : turns.length ≤ left) : (frontier.after flow (turns.map Turn.visit)).pop = none := by
  induction taken with
  | stop last => exact last
  | cut => simp at allowed
  | turn popped found _ seen _ ih =>
    rw [List.map_cons, Frontier.after, popped]
    subst seen
    exact ih (by simpa using allowed)

/-! ## Counting visits -/

/-- How many nodes can run in a walk of a flow without circles: the entry, and on each later level one
node less than there were left for the level before. -/
def mostVisits (nodes : Nat) : Nat := 1 + nodes * (nodes - 1) / 2

/-- What runs on a level is at the end of a path of as many edges. -/
theorem Closure.tails (closure : Closure flow limit entry visits) (inside : entry ∈ flow.ids)
    (level : Nat) : ∀ id ∈ idsAt visits level, id ∈ flow.tails level := by
  induction level with
  | zero =>
    intro id member
    obtain rfl := List.mem_singleton.mp ((closure.arrived 0).subset member)
    exact List.mem_toFinset.mpr inside
  | succ level ih =>
    intro id member
    obtain ⟨v, visit, later, rfl⟩ := mem_idsAt.mp member
    obtain ⟨u, before, here, keeps⟩ := closure.justified v visit level later
    exact Flow.mem_tails_succ.mpr ⟨u.id, ih u.id (mem_idsAt.mpr ⟨u, before, here, rfl⟩), keeps.edge⟩

/-- Each level has one node less to run. -/
theorem Closure.length_idsAt_le (closure : Closure flow limit entry visits)
    (inside : entry ∈ flow.ids) (closed : flow.Closed) (acyclic : flow.Acyclic) (level : Nat) :
    (idsAt visits level).length ≤ flow.nodes.length - level := by
  rw [← List.toFinset_card_of_nodup (closure.nodup level)]
  refine le_trans (Finset.card_le_card ?_) (Flow.card_tails_le closed acyclic level)
  intro id member
  exact closure.tails inside level id (List.mem_toFinset.mp member)

theorem Closure.level_lt (closure : Closure flow limit entry visits) (inside : entry ∈ flow.ids)
    (closed : flow.Closed) (acyclic : flow.Acyclic) :
    ∀ v ∈ visits, v.level < flow.nodes.length := by
  intro v member
  have here : 0 < (idsAt visits v.level).length :=
    List.length_pos_of_mem (mem_idsAt.mpr ⟨v, member, rfl, rfl⟩)
  have few := closure.length_idsAt_le inside closed acyclic v.level
  omega

theorem length_eq_sum_levels {bound : Nat} (below : ∀ v ∈ visits, v.level < bound) :
    visits.length = ∑ level ∈ Finset.range bound, (idsAt visits level).length := by
  induction visits with
  | nil => simp [idsAt]
  | cons v visits ih =>
    obtain ⟨first, later⟩ := List.forall_mem_cons.mp below
    have one (level : Nat) : (idsAt (v :: visits) level).length =
        (idsAt visits level).length + if level = v.level then 1 else 0 := by
      by_cases here : v.level = level
      · simp [idsAt, here]
      · simp [idsAt, here, Ne.symm here]
    simp only [one, Finset.sum_add_distrib, ← ih later, List.length_cons, Finset.sum_ite_eq',
      Finset.mem_range, first, if_true]

private theorem sum_remaining (n : Nat) :
    ∑ level ∈ Finset.range n, (n - level) = (n + 1) * n / 2 := by
  have reflected := Finset.sum_range_reflect (fun level => level + 1) n
  have shifted := Finset.sum_range_succ' (fun level => level) n
  rw [Finset.sum_range_id] at shifted
  calc ∑ level ∈ Finset.range n, (n - level)
      = ∑ level ∈ Finset.range n, (n - 1 - level + 1) :=
        Finset.sum_congr rfl fun level member => by have := Finset.mem_range.mp member; omega
    _ = (n + 1) * n / 2 := by rw [reflected]; simpa using shifted.symm

theorem Closure.length_le (closure : Closure flow limit entry visits) (inside : entry ∈ flow.ids)
    (closed : flow.Closed) (acyclic : flow.Acyclic) :
    visits.length ≤ mostVisits flow.nodes.length := by
  obtain ⟨n, nodes⟩ : ∃ n, flow.nodes.length = n + 1 := by
    have some : 0 < flow.ids.length := List.length_pos_of_mem inside
    exact ⟨flow.nodes.length - 1, by simp [Flow.ids] at some; omega⟩
  have first : (idsAt visits 0).length ≤ 1 := (closure.arrived 0).length_le
  have later : ∀ level ∈ Finset.range n, (idsAt visits (level + 1)).length ≤ n - level := by
    intro level _
    have few := closure.length_idsAt_le inside closed acyclic (level + 1)
    omega
  have sum := Finset.sum_le_sum later
  rw [length_eq_sum_levels (closure.level_lt inside closed acyclic), nodes, Finset.sum_range_succ']
  rw [sum_remaining] at sum
  simp only [mostVisits, Nat.add_sub_cancel]
  omega

/-- How far a walk of a flow without circles goes. -/
structure Extent (flow : Flow) (visitor : Visitor) (limit : Nat) (start : Arrival)
    (turns : List Turn) : Prop where
  /-- There are no more levels than nodes. -/
  levels : ∀ t ∈ turns, t.visit.level < flow.nodes.length
  /-- No node runs twice on a level. -/
  nodup : ∀ level, (idsAt (turns.map Turn.visit) level).Nodup
  few : turns.length ≤ mostVisits flow.nodes.length
  /-- When as many are allowed, the limit stops no node. -/
  unstopped : mostVisits flow.nodes.length ≤ limit →
    turns.length ≤ limit ∧
      ∀ i, (inside : i < turns.length) → turns[i].Plays visitor flow (i == 0)
  /-- The walk then ends because nothing is left to run. -/
  emptied : mostVisits flow.nodes.length ≤ limit →
    (({ pending := [start] } : Frontier).after flow (turns.map Turn.visit)).pop = none

theorem Turns.extent (closed : flow.Closed) (acyclic : flow.Acyclic) {start : Arrival}
    (inside : start.id ∈ flow.ids) {ctx ctx' : Context} {turns : List Turn}
    (taken : Turns flow visitor limit limit true { pending := [start] } ctx turns ctx') :
    Extent flow visitor limit start turns := by
  have levelled := taken.levelled (reached_start flow start) (by simp)
  have closure := levelled.closure taken.entered
  rw [List.nil_append] at closure
  have few : turns.length ≤ mostVisits flow.nodes.length := by
    simpa using closure.length_le inside closed acyclic
  refine ⟨?levels, closure.nodup, few, ?unstopped, ?emptied⟩
  case levels =>
    intro t member
    exact closure.level_lt inside closed acyclic t.visit (List.mem_map_of_mem member)
  case unstopped =>
    intro enough
    refine ⟨few.trans enough, ?_⟩
    intro i bound
    exact taken.performed.played i bound (by omega)
  case emptied => exact fun enough => taken.emptied (few.trans enough)

end Walk

/-- Whatever the nodes of a flow without circles do, a walk from any of them has at most as many levels
as the flow has nodes, and when it is allowed to run `Walk.mostVisits` nodes it ends with nothing left
to run. -/
theorem Engine.walk_extent {engine : Engine} {flow : Flow} {room : Nat} {entry : String}
    {appointed : Option Trigger} {ctx ctx' : Context} {log : List Exchange}
    {result : Except Error Walk} (closed : flow.Closed) (acyclic : flow.Acyclic)
    (inside : entry ∈ flow.ids)
    (run : Task.Runs (engine.walk (room + 1) flow entry appointed) ctx log result ctx') :
    ∃ turns, result = .ok ⟨turns.map Turn.visit⟩ ∧ log = turns.flatMap Turn.exchanges ∧
      Walk.Performed flow (engine.nodeVisitor room flow) engine.config.maxExecutions ctx turns ctx' ∧
      Walk.Extent flow (engine.nodeVisitor room flow) engine.config.maxExecutions
        { id := entry, appointed } turns := by
  obtain ⟨turns, taken, ended, heard⟩ :=
    Walk.proceed_turns closed (by simpa [Frontier.ids] using inside) run
  exact ⟨turns, by simpa using ended, heard, taken.performed, taken.extent closed acyclic inside⟩

/-! ### As many as can be -/

namespace Ladder

/-- Four nodes, each of which leads on to all later ones. -/
def flow : Flow where
  code := "ladder"
  nodes := ["a", "b", "c", "d"].map Ring.node
  edges := [("a", "b"), ("a", "c"), ("a", "d"), ("b", "c"), ("b", "d"), ("c", "d")].map
    fun (source, target) => { source, target }

/-- The walk of the flow from its first node when `limit` nodes may run. -/
def walk (limit : Nat) : Program (Except Error Walk × Context) :=
  (Engine.standard { maxExecutions := limit }).walk 1 flow "a" none <| .start "r" flow <|
    .chatMessage { organization := "org", conversation := "conv" } "hello"

/-- Which nodes run on which levels, and which one fails. -/
def ran (limit : Nat) : List (Nat × String) × Option (String × String) :=
  match ((walk limit).run {}).1 with
  | .ok (.ok walk, _) => (walk.visits.map fun v => (v.level, v.id), walk.failed)
  | _ => ([], none)

end Ladder

/-- Where every node leads on to all later ones, as many nodes run as can at all; when one less is
allowed, the limit stops the last of them. -/
theorem ladder_extent :
    Ladder.flow.Closed ∧ Ladder.flow.Acyclic ∧ "a" ∈ Ladder.flow.ids ∧
      Walk.mostVisits Ladder.flow.nodes.length = 7 ∧
      Ladder.ran 7 = ([(0, "a"), (1, "b"), (1, "c"), (1, "d"), (2, "c"), (2, "d"), (3, "d")], none) ∧
      (Ladder.ran 6).2 = some ("d", Walk.limitText 6) ∧
      ∃ turns ctx, ((Ladder.walk 7).run {}).1 = .ok (.ok ⟨turns.map Turn.visit⟩, ctx) ∧
        (Ladder.walk 7).heard {} = turns.flatMap Turn.exchanges ∧
        Walk.Performed Ladder.flow ((Engine.standard { maxExecutions := 7 }).nodeVisitor 0 Ladder.flow) 7
          (.start "r" Ladder.flow
            (.chatMessage { organization := "org", conversation := "conv" } "hello"))
          turns ctx ∧
        Walk.Extent Ladder.flow ((Engine.standard { maxExecutions := 7 }).nodeVisitor 0 Ladder.flow) 7
          { id := "a" } turns := by
  have closed : Ladder.flow.Closed := by
    unfold Flow.Closed
    decide +kernel
  have acyclic : Ladder.flow.Acyclic :=
    Flow.acyclic_of_rank (fun id => Ladder.flow.ids.idxOf id) (by decide +kernel)
  have inside : "a" ∈ Ladder.flow.ids := by decide +kernel
  obtain ⟨⟨result, ctx⟩, ran, runs⟩ :=
    Program.exists_runs_heard (p := Ladder.walk 7) (w := {}) (by decide +kernel)
  obtain ⟨turns, rfl, heard, performed, extent⟩ := Engine.walk_extent closed acyclic inside runs
  exact ⟨closed, acyclic, inside, by decide +kernel, by decide +kernel, by decide +kernel, turns, ctx,
    ran, heard, performed, extent⟩

end Parley
