import Parley.Flow.Shape
import Mathlib.Data.List.Nodup
/-!
# The graph of a flow

The children of a node are the targets of its edges, each once. In a flow that `Flow.validate`
accepts they are nodes themselves.
-/
namespace Parley

theorem mem_distinct {x : String} {l : List String} : x ∈ distinct l ↔ x ∈ l := by
  induction l with
  | nil => simp [distinct]
  | cons y l ih =>
    simp only [distinct, List.mem_cons, List.mem_filter, ih, decide_not, Bool.not_eq_eq_eq_not,
      Bool.not_true, decide_eq_false_iff_not]
    by_cases same : x = y <;> simp [same]

theorem nodup_distinct (l : List String) : (distinct l).Nodup := by
  induction l with
  | nil => exact List.nodup_nil
  | cons y l ih => exact List.nodup_cons.mpr ⟨by simp, ih.filter _⟩

/-- What comes last is left out when it has come before. -/
theorem distinct_concat (l : List String) (x : String) :
    distinct (l ++ [x]) = if x ∈ l then distinct l else distinct l ++ [x] := by
  induction l with
  | nil => rfl
  | cons y l ih =>
    simp only [List.cons_append, distinct, ih, List.mem_cons]
    by_cases old : x ∈ l
    · simp [old]
    · by_cases same : x = y
      · subst same
        simp [old, List.filter_append]
      · simp [old, same, List.filter_append]

namespace Flow
variable {flow : Flow}

theorem mem_children {id child : String} :
    child ∈ flow.children id ↔ ∃ e ∈ flow.edges, e.source = id ∧ e.target = child := by
  simp only [children, outgoing, mem_distinct, List.mem_map, List.mem_filter, beq_iff_eq, and_assoc]

/-- Every edge leads to a node. -/
def Closed (flow : Flow) : Prop := ∀ e ∈ flow.edges, e.target ∈ flow.ids

theorem validate_closed (accepted : flow.validate = .ok ()) : flow.Closed := by
  intro e member
  have sound : flow.danglingEdge? = none := by
    cases dangling : flow.danglingEdge? with
    | none => rfl
    | some fault =>
      cases repeated : (firstRepeated [] flow.ids).map FlowFault.duplicateNode <;>
        simp [validate, fault?, dangling, repeated] at accepted
  have inside := List.findSome?_eq_none_iff.mp sound e member
  simp only [Option.map_eq_none_iff, List.find?_eq_none, ends, List.mem_cons, List.not_mem_nil,
    or_false, Bool.not_eq_eq_eq_not, Bool.not_true, Bool.not_eq_false, List.contains_eq_mem,
    decide_eq_true_eq, forall_eq_or_imp, forall_eq] at inside
  exact inside.2

theorem Closed.child (closed : flow.Closed) {id child : String}
    (member : child ∈ flow.children id) : child ∈ flow.ids := by
  obtain ⟨e, edge, -, rfl⟩ := mem_children.mp member
  exact closed e edge

theorem require_ids {id : String} (member : id ∈ flow.ids) :
    ∃ node ∈ flow.nodes, flow.require id = .ok node ∧ node.id = id := by
  obtain ⟨n, inside, named⟩ := List.mem_map.mp member
  cases found : flow.node? id with
  | none => exact absurd named (by simpa using List.find?_eq_none.mp found n inside)
  | some node =>
    exact ⟨node, List.mem_of_find?_eq_some found, by simp [require, found],
      by simpa using List.find?_some found⟩

theorem require_mem {id : String} {node : Node} (found : flow.require id = .ok node) :
    node ∈ flow.nodes ∧ node.id = id := by
  cases looked : flow.node? id with
  | none => simp [require, looked] at found
  | some n =>
    obtain rfl : n = node := by simpa [require, looked] using found
    exact ⟨List.mem_of_find?_eq_some looked, by simpa using List.find?_some looked⟩

theorem require_inside {id : String} {node : Node} (found : flow.require id = .ok node) :
    id ∈ flow.ids := by
  obtain ⟨member, rfl⟩ := require_mem found
  exact List.mem_map_of_mem member

theorem requireEntry_inside {node : Node} (found : flow.requireEntry = .ok node) :
    node.id ∈ flow.ids := by
  cases looked : flow.entry? with
  | none => simp [requireEntry, looked] at found
  | some n =>
    obtain rfl : n = node := by simpa [requireEntry, looked] using found
    exact List.mem_map_of_mem (List.mem_of_find?_eq_some looked)

private theorem firstRepeated_none {seen l : List String} (none : firstRepeated seen l = none) :
    l.Nodup ∧ ∀ id ∈ l, id ∉ seen := by
  induction l generalizing seen with
  | nil => exact ⟨.nil, by simp⟩
  | cons id l ih =>
    unfold firstRepeated at none
    split at none
    · contradiction
    · next new =>
      obtain ⟨nodup, apart⟩ := ih none
      refine ⟨List.nodup_cons.mpr ⟨fun again => apart id again (List.mem_cons_self ..), nodup⟩, ?_⟩
      intro other member
      rcases List.mem_cons.mp member with rfl | later
      · simpa using new
      · exact fun old => apart other later (List.mem_cons_of_mem _ old)

theorem validate_nodup (accepted : flow.validate = .ok ()) : flow.ids.Nodup := by
  cases repeated : firstRepeated [] flow.ids with
  | none => exact (firstRepeated_none repeated).1
  | some id => simp [validate, fault?, repeated] at accepted

/-- In a flow without a fault the node of an id is the only one that has it. -/
theorem require_eq (accepted : flow.validate = .ok ()) {n node : Node} (member : n ∈ flow.nodes)
    (found : flow.require n.id = .ok node) : node = n := by
  obtain ⟨inside, named⟩ := require_mem found
  exact List.inj_on_of_nodup_map (validate_nodup accepted) inside member named

theorem validate_requireEntry (accepted : flow.validate = .ok ()) :
    ∃ node, flow.requireEntry = .ok node := by
  cases entered : flow.entry? with
  | some node => exact ⟨node, by simp [requireEntry, entered]⟩
  | none =>
    have faulty : flow.fault? ≠ none := by simp [fault?, entered]
    cases fault : flow.fault? with
    | none => exact absurd fault faulty
    | some f => simp [validate, fault] at accepted

end Flow

end Parley
