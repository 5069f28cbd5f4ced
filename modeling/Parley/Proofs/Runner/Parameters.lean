import Parley.Runner.Loop
import Parley.Runner.SubFlow
import Parley.Runner.Finish
import Parley.Runner.SetVariables
import Parley.Proofs.Json.Record
/-!
# Parameters of nodes

The parameters that a node type reads from a faithful value are faithful, and the number of iterations
that a loop is allowed fits a machine word.
-/
namespace Parley
open Parley.Json

/-! ## Decoding values in memory -/

private theorem json_faithful {v w : Json} (faithful : v.Faithful)
    (decoded : Decoder.json .value (.ofJson v) = .ok w) : w.Faithful := by
  obtain rfl : v = w := Except.ok.inj
    ((Decoder.decodes_json rfl faithful.ordered).eq.symm.trans decoded)
  exact faithful

private theorem option_faithful {v : Json} {w : Option Json} (faithful : v.Faithful)
    (decoded : Decoder.option .json .value (.ofJson v) = .ok w) : ∀ u ∈ w, u.Faithful := by
  unfold Decoder.option at decoded
  split at decoded
  · contradiction
  · obtain rfl := Except.ok.inj decoded
    simp
  · cases read : Decoder.json .value (.ofJson v) with
    | error e => simp [read, Functor.map, Except.map] at decoded
    | ok u =>
      obtain rfl : some u = w := by simpa [read, Functor.map, Except.map] using decoded
      rintro u ⟨⟩
      exact json_faithful faithful read

private theorem table_faithful {v : Json} {w : Keyed Json} (faithful : v.Faithful)
    (decoded : Decoder.table .json .value (.ofJson v) = .ok w) : Table w := by
  cases v with
  | obj fields =>
    have table := faithful_obj.mp faithful
    obtain rfl : fields = w :=
      Except.ok.inj ((Decoder.decodes_table rfl table).eq.symm.trans decoded)
    exact table
  | _ => simp [Decoder.table, Document.ofJson] at decoded

private theorem table_sorted {source : Source} {d : Document} {w : Keyed Json}
    (decoded : Decoder.table .json source d = .ok w) : w.Sorted := by
  unfold Decoder.table at decoded
  split at decoded
  · obtain ⟨inner, -, decoded⟩ := bind_eq_ok.mp decoded
    obtain ⟨entries, -, decoded⟩ := bind_eq_ok.mp decoded
    obtain ⟨-, -, made⟩ := bind_eq_ok.mp decoded
    obtain rfl : Keyed.ofList entries = w := Except.ok.inj made
    exact Keyed.sorted_insertAll .nil
  · contradiction

private theorem natural_le {name : String} {source : Source} {d : Document} {n : Nat}
    (decoded : Decoder.natural name source d = .ok n) : n ≤ Text.greatest64 := by
  unfold Decoder.natural at decoded
  split at decoded
  · split at decoded
    · next fits =>
      obtain rfl := Except.ok.inj decoded
      exact Int.toNat_le.mpr fits.2
    · contradiction
  · contradiction

/-- The documents of a record's fields are those of faithful values. -/
def FaithfulFields (field : String → Option Document) : Prop :=
  ∀ key d, field key = some d → ∃ v : Json, d = .ofJson v ∧ v.Faithful

private theorem record_faithful {α : Type} {name : String} {r : Record α} {v : Json} {a : α}
    (faithful : v.Faithful) (decoded : Record.decode name r .value (.ofJson v) = .ok a) :
    ∃ field, FaithfulFields field ∧ r.build .value field = .ok a := by
  refine ⟨_, fun key d found => ?_, Record.built_of_value decoded⟩
  obtain ⟨w, given, rfl⟩ := Option.map_eq_some_iff.mp found
  exact ⟨w, rfl, faithful.part (member?_mem given)⟩

namespace Runner

theorem decode_of_parameters {α : Type} {decoder : Decoder α} {call : Call} {p : α}
    (read : parameters decoder call = .ok p) : call.node.params.decode decoder = .ok p := by
  unfold parameters at read
  split at read
  · next v decoded =>
    obtain rfl := Except.ok.inj read
    exact decoded
  · contradiction

theorem parameters_of_decode {α : Type} {decoder : Decoder α} {call : Call} {p : α}
    (read : call.node.params.decode decoder = .ok p) : parameters decoder call = .ok p := by
  simp only [parameters, read]

variable {call : Call}

/-- The number of iterations that a loop is allowed fits a machine word. -/
theorem loop_limit {v : Json} {p : Loop.Params} (read : v.decode Loop.Params.decoder = .ok p) :
    p.maxIterations ≤ Text.greatest64 := by
  obtain ⟨source, field, built⟩ := Record.exists_built read
  obtain ⟨_, limit, two, bound, rfl⟩ := Record.build_seq.mp built
  obtain ⟨_, count, one, -, rfl⟩ := Record.build_seq.mp two
  obtain ⟨items, -, rfl⟩ := Record.build_map.mp one
  rcases Record.build_withDefault.mp bound with ⟨-, rfl⟩ | ⟨d, -, decoded⟩
  · show 100 ≤ Text.greatest64
    decide
  · exact natural_le decoded

theorem loop_parameters {p : Loop.Params} (faithful : call.node.params.Faithful)
    (read : parameters Loop.Params.decoder call = .ok p) :
    (∀ v ∈ p.items, v.Faithful) ∧ (∀ v ∈ p.count, v.Faithful) ∧ p.maxIterations ≤ Text.greatest64 := by
  obtain ⟨field, values, built⟩ := record_faithful faithful (decode_of_parameters read)
  obtain ⟨_, limit, two, -, rfl⟩ := Record.build_seq.mp built
  obtain ⟨_, count, one, counted, rfl⟩ := Record.build_seq.mp two
  obtain ⟨items, listed, rfl⟩ := Record.build_map.mp one
  have option {name : String} {v : Option Json}
      (built : (Record.optional name .json).build .value field = .ok v) : ∀ u ∈ v, u.Faithful := by
    rcases Record.build_withDefault.mp built with ⟨-, rfl⟩ | ⟨d, found, decoded⟩
    · simp
    · obtain ⟨w, rfl, faithful⟩ := values _ d found
      exact option_faithful faithful decoded
  exact ⟨option listed, option counted, loop_limit (decode_of_parameters read)⟩

theorem subFlow_parameters {p : SubFlow.Params} (faithful : call.node.params.Faithful)
    (read : parameters SubFlow.Params.decoder call = .ok p) : p.params.Faithful := by
  obtain ⟨field, values, built⟩ := record_faithful faithful (decode_of_parameters read)
  obtain ⟨_, params, two, given, rfl⟩ := Record.build_seq.mp built
  obtain ⟨_, version, one, -, rfl⟩ := Record.build_seq.mp two
  obtain ⟨code, -, rfl⟩ := Record.build_map.mp one
  rcases Record.build_withDefault.mp given with ⟨-, rfl⟩ | ⟨d, found, decoded⟩
  · exact faithful_null
  · obtain ⟨w, rfl, faithful⟩ := values _ d found
    exact json_faithful faithful decoded

theorem finish_parameters {p : Finish.Params} (faithful : call.node.params.Faithful)
    (read : parameters Finish.Params.decoder call = .ok p) : Table p.outputs := by
  obtain ⟨field, values, built⟩ := record_faithful faithful (decode_of_parameters read)
  obtain ⟨outputs, given, rfl⟩ := Record.build_map.mp built
  rcases Record.build_withDefault.mp given with ⟨-, rfl⟩ | ⟨d, found, decoded⟩
  · exact table_nil
  · obtain ⟨w, rfl, faithful⟩ := values _ d found
    exact table_faithful faithful decoded

/-- The variables that a node sets are in the order of their names, so each has one value. -/
theorem assignments_sorted {v : Json} {p : SetVariables.Params}
    (read : v.decode SetVariables.Params.decoder = .ok p) : p.assignments.Sorted := by
  obtain ⟨source, field, built⟩ := Record.exists_built read
  obtain ⟨assignments, given, rfl⟩ := Record.build_map.mp built
  obtain ⟨d, -, decoded⟩ := Record.build_required.mp given
  exact table_sorted decoded

theorem setVariables_parameters {p : SetVariables.Params} (faithful : call.node.params.Faithful)
    (read : parameters SetVariables.Params.decoder call = .ok p) : Table p.assignments := by
  obtain ⟨field, values, built⟩ := record_faithful faithful (decode_of_parameters read)
  obtain ⟨assignments, given, rfl⟩ := Record.build_map.mp built
  obtain ⟨d, found, decoded⟩ := Record.build_required.mp given
  obtain ⟨w, rfl, faithful⟩ := values _ d found
  exact table_faithful faithful decoded

end Runner

end Parley
