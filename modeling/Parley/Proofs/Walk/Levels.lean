import Parley.Proofs.Walk.Turns
import Mathlib.Data.List.Infix
import Mathlib.Data.List.Nodup
/-!
# The levels of a walk

What runs on a level follows from what ran on the level before: the children that its nodes keep, each
once, in the order in which they were reached first (`arrivals`). A walk runs its entry and then one
level after the other, to the end or until as many nodes have run as are allowed (`Closure`).
-/
namespace Parley

/-- Children that a report keeps, whether the graph has them or not. -/
def Kept.Has : Kept → String → Prop
  | .all, _ => True
  | .only ids, id => id ∈ ids

/-- The node of a visit has neither failed nor suspended the run, and it has kept a child that the
graph has. -/
structure Visit.Keeps (flow : Flow) (v : Visit) (child : String) : Prop where
  succeeded : v.failure = none
  went_on : v.report.suspended = false
  edge : ∃ e ∈ flow.edges, e.source = v.id ∧ e.target = child
  kept : v.report.children.Has child

theorem Visit.keeps_iff {flow : Flow} {v : Visit} {child : String} :
    v.Keeps flow child ↔ child ∈ v.leadsTo (flow.children v.id) := by
  unfold leadsTo Report.keptChildren
  constructor
  · rintro ⟨succeeded, wentOn, edge, kept⟩
    have graph := Flow.mem_children.mpr edge
    cases only : v.report.children with
    | all => simpa [succeeded, wentOn] using graph
    | only ids =>
      rw [only] at kept
      simpa [succeeded, wentOn] using ⟨graph, kept⟩
  · intro member
    by_cases stopped : v.failure.isSome || v.report.suspended
    · simp [stopped] at member
    · rw [if_neg stopped] at member
      simp only [Bool.or_eq_true, not_or, Bool.not_eq_true, Option.isSome_eq_false_iff,
        Option.isNone_iff_eq_none] at stopped
      cases only : v.report.children with
      | all =>
        rw [only] at member
        exact ⟨stopped.1, stopped.2, Flow.mem_children.mp member, only ▸ trivial⟩
      | only ids =>
        rw [only] at member
        obtain ⟨graph, kept⟩ := List.mem_filter.mp member
        exact ⟨stopped.1, stopped.2, Flow.mem_children.mp graph,
          only ▸ by simpa [Kept.Has] using kept⟩

namespace Walk

/-- The nodes that ran on a level, in order. -/
def idsAt (visits : List Visit) (level : Nat) : List String :=
  (visits.filter (·.level == level)).map Visit.id

/-- The children that the nodes of a level have kept, in the order in which they were reached
first. -/
def arrivals (flow : Flow) (visits : List Visit) (level : Nat) : List String :=
  distinct ((visits.filter (·.level == level)).flatMap fun v => v.leadsTo (flow.children v.id))

/-- The nodes that are to run on a level. -/
def due (flow : Flow) (entry : String) (visits : List Visit) : Nat → List String
  | 0 => [entry]
  | level + 1 => arrivals flow visits level

/-- The limit has not ended the walk before the level was done. -/
def Done (limit : Nat) (visits : List Visit) (level : Nat) : Prop :=
  visits.length ≤ limit ∨ ∃ v ∈ visits, level < v.level

/-- The levels of a walk follow one another, and on each of them runs what is to run there. -/
structure Levelled (flow : Flow) (limit : Nat) (entry : String) (visits : List Visit) : Prop where
  ordered : visits.Pairwise (·.level ≤ ·.level)
  /-- What runs on a level are the first ones of those that are to run there. -/
  arrived : ∀ level, idsAt visits level <+: due flow entry visits level
  /-- All of them run unless the limit ends the walk before. -/
  complete : ∀ level, Done limit visits level → idsAt visits level = due flow entry visits level

/-- A walk runs the closure of its entry: the entry, and level by level the children that were kept on
the level before. -/
structure Closure (flow : Flow) (limit : Nat) (entry : String) (visits : List Visit) : Prop
    extends Levelled flow limit entry visits where
  /-- The entry is the first to run. -/
  entered : ∃ v rest, visits = v :: rest ∧ v.id = entry ∧ v.level = 0
  /-- What runs later was kept by a node that ran on the level before. -/
  justified : ∀ v ∈ visits, ∀ level, v.level = level + 1 →
    ∃ u ∈ visits, u.level = level ∧ u.Keeps flow v.id
  /-- No node runs twice on a level. -/
  nodup : ∀ level, (idsAt visits level).Nodup
  /-- A child that was kept, by one node or by several of them, runs once on the next level. -/
  once : ∀ u ∈ visits, ∀ child, u.Keeps flow child → Done limit visits (u.level + 1) →
    (idsAt visits (u.level + 1)).count child = 1

variable {flow : Flow} {visitor : Visitor} {limit : Nat} {entry : String} {visits : List Visit}

theorem mem_arrivals {level : Nat} {id : String} :
    id ∈ arrivals flow visits level ↔ ∃ u ∈ visits, u.level = level ∧ u.Keeps flow id := by
  simp [arrivals, mem_distinct, Visit.keeps_iff, and_assoc]

theorem mem_idsAt {level : Nat} {id : String} :
    id ∈ idsAt visits level ↔ ∃ v ∈ visits, v.level = level ∧ v.id = id := by
  simp [idsAt, and_assoc]

theorem nodup_due (level : Nat) : (due flow entry visits level).Nodup := by
  cases level with
  | zero => simp [due]
  | succ level => exact nodup_distinct _

theorem Levelled.closure (levelled : Levelled flow limit entry visits)
    (entered : ∃ v rest, visits = v :: rest ∧ v.id = entry ∧ v.level = 0) :
    Closure flow limit entry visits where
  toLevelled := levelled
  entered := entered
  justified v member level later :=
    mem_arrivals.mp ((levelled.arrived (level + 1)).subset (mem_idsAt.mpr ⟨v, member, later, rfl⟩))
  nodup level := (levelled.arrived level).nodup (nodup_due level)
  once u member child keeps done := by
    refine List.count_eq_one_of_mem ((levelled.arrived _).nodup (nodup_due _)) ?_
    rw [levelled.complete _ done]
    exact mem_arrivals.mpr ⟨u, member, rfl, keeps⟩

/-! ## What a turn preserves -/

/-- A walk has reached a frontier: all levels before it are done, and the frontier has the rest of its
level and what has arrived at the next one. -/
structure Reached (flow : Flow) (entry : String) (past : List Visit) (f : Frontier) : Prop where
  upTo : ∀ v ∈ past, v.level ≤ f.level
  ordered : past.Pairwise (·.level ≤ ·.level)
  done : ∀ level < f.level, idsAt past level = due flow entry past level
  current : idsAt past f.level ++ f.pending.map Arrival.id = due flow entry past f.level
  next : f.next.map Arrival.id = arrivals flow past f.level

section
variable {past : List Visit} {v : Visit} {level : Nat}

private theorem idsAt_push (here : v.level = level) :
    idsAt (past ++ [v]) level = idsAt past level ++ [v.id] := by
  simp [idsAt, here]

private theorem idsAt_push_other (elsewhere : v.level ≠ level) :
    idsAt (past ++ [v]) level = idsAt past level := by
  simp [idsAt, elsewhere]

private theorem arrivals_push_other (elsewhere : v.level ≠ level) :
    arrivals flow (past ++ [v]) level = arrivals flow past level := by
  simp [arrivals, elsewhere]

/-- What is to run on a level does not depend on what runs there or later. -/
private theorem due_push (early : level ≤ v.level) :
    due flow entry (past ++ [v]) level = due flow entry past level := by
  cases level with
  | zero => rfl
  | succ level => exact arrivals_push_other (by omega)

private theorem idsAt_above {bound : Nat} (upTo : ∀ v ∈ past, v.level ≤ bound)
    (above : bound < level) : past.filter (·.level == level) = [] := by
  simp only [List.filter_eq_nil_iff, beq_iff_eq]
  intro v member
  have := upTo v member
  omega

end

theorem reached_start (flow : Flow) (a : Arrival) :
    Reached flow a.id [] { pending := [a] } where
  upTo := by simp
  ordered := .nil
  done := by simp
  current := rfl
  next := rfl

theorem Reached.pop {past : List Visit} {f rest : Frontier} {a : Arrival}
    (reached : Reached flow entry past f) (popped : f.pop = some (a, rest)) :
    Reached flow entry past { rest with pending := a :: rest.pending } := by
  obtain ⟨level, pending, next⟩ := f
  cases pending with
  | cons b pending =>
    obtain ⟨rfl, rfl⟩ : b = a ∧ _ = rest := by simpa [Frontier.pop] using popped
    exact reached
  | nil =>
    cases next with
    | nil => simp [Frontier.pop] at popped
    | cons b next =>
      obtain ⟨rfl, rfl⟩ : b = a ∧ _ = rest := by simpa [Frontier.pop] using popped
      have none := idsAt_above reached.upTo (Nat.lt_succ_self level)
      refine ⟨fun v member => (reached.upTo v member).trans (Nat.le_succ _), reached.ordered, ?_,
        ?_, ?_⟩
      · intro k before
        rcases Nat.lt_succ_iff_lt_or_eq.mp before with earlier | rfl
        · exact reached.done k earlier
        · simpa using reached.current
      · simpa [idsAt, none, due] using reached.next
      · simp [arrivals, none, distinct]

/-- A turn leads from a frontier to the frontier that it extends. -/
theorem Reached.turn {past : List Visit} {rest : Frontier} {a : Arrival} {v : Visit}
    (reached : Reached flow entry past { rest with pending := a :: rest.pending })
    (level : v.level = rest.level) (named : v.id = a.id) (parent : Parent) :
    Reached flow entry (past ++ [v]) (rest.extend parent (v.leadsTo (flow.children v.id))) where
  upTo := by
    intro u member
    rcases List.mem_append.mp member with old | new
    · exact reached.upTo u old
    · exact (List.mem_singleton.mp new ▸ level).le
  ordered := by
    refine List.pairwise_append.mpr ⟨reached.ordered, List.pairwise_singleton .., ?_⟩
    intro u member w last
    rw [List.mem_singleton.mp last, level]
    exact reached.upTo u member
  done k before := by
    have elsewhere : v.level ≠ k := fun same => by simp [Frontier.extend] at before; omega
    rw [idsAt_push_other elsewhere, due_push (by simp [Frontier.extend] at before; omega)]
    exact reached.done k before
  current := by
    simp only [Frontier.extend]
    rw [idsAt_push level, due_push level.ge, ← reached.current]
    simp [named]
  next := by
    refine (Frontier.ids_arrivals parent _ _ _ reached.next).trans ?_
    simp [arrivals, Frontier.extend, level]

/-! ## Whole walks -/

private theorem Reached.stop {past : List Visit} {f : Frontier}
    (reached : Reached flow entry past f) (last : f.pop = none) : Levelled flow limit entry past := by
  have empty : f.pending = [] ∧ f.next = [] := by
    obtain ⟨level, _ | _, _ | _⟩ := f <;> simp_all [Frontier.pop]
  have here : idsAt past f.level = due flow entry past f.level := by
    simpa [empty.1] using reached.current
  have all (level : Nat) : idsAt past level = due flow entry past level := by
    rcases Nat.lt_trichotomy level f.level with before | rfl | after
    · exact reached.done level before
    · exact here
    · obtain ⟨k, rfl⟩ : ∃ k, level = f.level + 1 + k := ⟨_, (Nat.add_sub_cancel' after).symm⟩
      simp only [idsAt, idsAt_above reached.upTo after, List.map_nil]
      cases k with
      | zero => simpa [due, empty.2] using reached.next
      | succ k =>
        have none := idsAt_above reached.upTo (by omega : f.level < f.level + 1 + k)
        simp [due, arrivals, none, distinct]
  exact ⟨reached.ordered, fun level => all level ▸ List.prefix_rfl, fun level _ => all level⟩

/-- A walk that the limit ends with a turn has done the levels before that turn. -/
private theorem Reached.cut {past : List Visit} {f : Frontier} (reached : Reached flow entry past f)
    (long : limit < past.length) : Levelled flow limit entry past where
  ordered := reached.ordered
  arrived level := by
    rcases Nat.lt_trichotomy level f.level with before | rfl | after
    · exact reached.done level before ▸ List.prefix_rfl
    · exact ⟨_, reached.current⟩
    · simp [idsAt, idsAt_above reached.upTo after]
  complete level done := by
    rcases done with short | ⟨v, member, before⟩
    · omega
    · exact reached.done level (before.trans_le (reached.upTo v member))

/-- Turns go on with the levels of a walk. -/
theorem Turns.levelled {left : Nat} {first : Bool} {frontier : Frontier} {ctx ctx' : Context}
    {turns : List Turn} (taken : Turns flow visitor limit left first frontier ctx turns ctx')
    {past : List Visit} (reached : Reached flow entry past frontier)
    (allowed : past.length + left = limit) :
    Levelled flow limit entry (past ++ turns.map Turn.visit) := by
  induction taken generalizing past with
  | stop last => simpa using reached.stop last
  | @cut first frontier rest arrival node ctx popped found =>
    have named := (Flow.require_mem found).2
    have turned := (reached.pop popped).turn (v := visitOf rest.level node arrival { id := node.id }
      (some (limitText limit))) rfl named ⟨node.id, none⟩
    exact turned.cut (by simp; omega)
  | @turn left first frontier rest arrival node ctx ctx₁ ctx₂ log report failure visit turns popped
      found played seen taken ih =>
    have named := (Flow.require_mem found).2
    have turned := (reached.pop popped).turn (v := visit) (by rw [seen]; rfl) (by rw [seen]; exact named)
      ⟨node.id, visit.report.result⟩
    have same : visit.id = node.id := by rw [seen]; rfl
    rw [same] at turned
    simpa using ih turned (by simp; omega)

theorem Turns.entered {left : Nat} {first : Bool} {a : Arrival} {ctx ctx' : Context}
    {turns : List Turn}
    (taken : Turns flow visitor limit left first { pending := [a] } ctx turns ctx') :
    ∃ v rest, turns.map Turn.visit = v :: rest ∧ v.id = a.id ∧ v.level = 0 := by
  cases taken with
  | stop last => simp [Frontier.pop] at last
  | cut popped found =>
    obtain ⟨rfl, rfl⟩ : a = _ ∧ _ = _ := by simpa [Frontier.pop] using popped
    exact ⟨_, _, rfl, (Flow.require_mem found).2, rfl⟩
  | turn popped found _ seen =>
    obtain ⟨rfl, rfl⟩ : a = _ ∧ _ = _ := by simpa [Frontier.pop] using popped
    exact ⟨_, _, rfl, seen ▸ (Flow.require_mem found).2, by rw [seen]; rfl⟩

end Walk

end Parley
