import Parley.Proofs.Flow.Graph
import Mathlib.Data.Finset.Union
import Mathlib.Data.Fintype.EquivFin
import Mathlib.Data.Fintype.Sets
import Mathlib.Order.WellFounded
import Mathlib.Logic.Relation
/-!
# Flows without circles

Among some nodes of a flow without circles there is always one that is no child of the others
(`Flow.Acyclic.exists_source`). So the longer a path of edges is, the fewer nodes there are where it can
end: at least one less for each edge (`Flow.card_tails_le`).
-/
namespace Parley.Flow
variable {flow : Flow}

/-- An edge leads from the one node to the other. -/
def Leads (flow : Flow) (source target : String) : Prop :=
  ∃ e ∈ flow.edges, e.source = source ∧ e.target = target

/-- No path of edges leads back to where it begins. -/
def Acyclic (flow : Flow) : Prop :=
  ∀ id, ¬ Relation.TransGen flow.Leads id id

/-- A flow has no circle when all of its edges lead upwards. -/
theorem acyclic_of_rank (rank : String → Nat)
    (upwards : ∀ e ∈ flow.edges, rank e.source < rank e.target) : flow.Acyclic := by
  have climbs {a b : String} (path : Relation.TransGen flow.Leads a b) : rank a < rank b := by
    induction path with
    | single edge =>
      obtain ⟨e, member, rfl, rfl⟩ := edge
      exact upwards e member
    | tail _ edge ih =>
      obtain ⟨e, member, rfl, rfl⟩ := edge
      exact ih.trans (upwards e member)
  intro id circle
  exact absurd (climbs circle) (lt_irrefl _)

/-- Among some nodes there is one to which no edge leads from any of them. -/
theorem Acyclic.exists_source (acyclic : flow.Acyclic) {nodes : Finset String}
    (inhabited : nodes.Nonempty) :
    ∃ id ∈ nodes, ∀ other ∈ nodes, ¬ flow.Leads other id := by
  let before (a b : { id // id ∈ nodes }) : Prop := Relation.TransGen flow.Leads a.1 b.1
  have : IsTrans _ before := ⟨fun _ _ _ => Relation.TransGen.trans⟩
  have : Std.Irrefl before := ⟨fun a => acyclic a.1⟩
  obtain ⟨first, member⟩ := inhabited
  obtain ⟨least, -, minimal⟩ :=
    (Finite.wellFounded_of_trans_of_irrefl before).has_min Set.univ ⟨⟨first, member⟩, trivial⟩
  refine ⟨least.1, least.2, ?_⟩
  intro other inside edge
  exact minimal ⟨other, inside⟩ trivial (.single edge)

/-- The nodes at which a path of as many edges ends. -/
def tails (flow : Flow) : (edges : Nat) → Finset String
  | 0 => flow.ids.toFinset
  | edges + 1 => (flow.tails edges).biUnion fun id => (flow.children id).toFinset

theorem mem_tails_succ {k : Nat} {id : String} :
    id ∈ flow.tails (k + 1) ↔ ∃ source ∈ flow.tails k, flow.Leads source id := by
  simp only [tails, Finset.mem_biUnion, List.mem_toFinset, mem_children, Leads]

/-- Where a path ends, its last edges make a shorter path that ends there, too. -/
theorem tails_succ_subset (closed : flow.Closed) (k : Nat) : flow.tails (k + 1) ⊆ flow.tails k := by
  induction k with
  | zero =>
    intro id member
    obtain ⟨source, -, edge⟩ := mem_tails_succ.mp member
    exact List.mem_toFinset.mpr (closed.child (mem_children.mpr edge))
  | succ k ih =>
    intro id member
    obtain ⟨source, tail, edge⟩ := mem_tails_succ.mp member
    exact mem_tails_succ.mpr ⟨source, ih tail, edge⟩

theorem tails_succ_ssubset (closed : flow.Closed) (acyclic : flow.Acyclic) {k : Nat}
    (inhabited : (flow.tails k).Nonempty) : flow.tails (k + 1) ⊂ flow.tails k := by
  obtain ⟨source, member, first⟩ := acyclic.exists_source inhabited
  refine (Finset.ssubset_iff_of_subset (tails_succ_subset closed k)).mpr ⟨source, member, ?_⟩
  intro again
  obtain ⟨other, inside, edge⟩ := mem_tails_succ.mp again
  exact first other inside edge

/-- With each edge of a path there is one node less at which it can end. -/
theorem card_tails_le (closed : flow.Closed) (acyclic : flow.Acyclic) (k : Nat) :
    (flow.tails k).card ≤ flow.nodes.length - k := by
  induction k with
  | zero =>
    rw [tails, Nat.sub_zero]
    exact (List.toFinset_card_le _).trans_eq (by simp [ids])
  | succ k ih =>
    by_cases inhabited : (flow.tails k).Nonempty
    · have fewer := Finset.card_lt_card (tails_succ_ssubset closed acyclic inhabited)
      omega
    · have none : flow.tails (k + 1) = ∅ := by
        simp [tails, Finset.not_nonempty_iff_eq_empty.mp inhabited]
      simp [none]

end Parley.Flow
