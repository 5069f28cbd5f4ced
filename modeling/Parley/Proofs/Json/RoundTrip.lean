import Parley.Proofs.Json.Reading
import Parley.Proofs.Json.Record
/-!
# Texts of values are read back

The compact text of a faithful value is read as the document of that value, and what follows the text
is left over (`Document.readsBack`). So what is decoded from a value is decoded from its text, unless the
value is nested too deep for a text (`Decoder.ofText_text`).
-/
namespace Parley

namespace Document
open Parley.Json (write)

private theorem ends_ofJson (v : Json) : (ofJson v).ends = false := by
  cases v <;> rfl

/-- The value is read back from its text in front of whatever may follow it, when there are calls
enough for the text. -/
def ReadsBack (v : Json) : Prop :=
  ∀ fuel rest, Stops rest → 3 * (write v).length ≤ fuel →
    readValue fuel (write v ++ rest) = (ofJson v, rest)

theorem readsBack_iff {v : Json} : ReadsBack v ↔ ReadsAs v (ofJson v) :=
  ⟨fun back => ⟨ends_ofJson v, back⟩, ReadsAs.reads⟩

private theorem readsBack_arr {items : List Json} (all : ∀ v ∈ items, ReadsBack v) :
    ReadsBack (.arr items) := by
  have each : List.Forall₂ ReadsAs items (ofItems items) := by
    induction items with
    | nil => exact .nil
    | cons v vs ih =>
      obtain ⟨first, others⟩ := List.forall_mem_cons.mp all
      exact .cons (readsBack_iff.mp first) (ih others)
  exact readsBack_iff.mpr (readsAs_arr each)

/-- So is an object of values that are read back, in whatever order its keys stand. -/
theorem readsBack_obj {fields : List (String × Json)} (all : ∀ f ∈ fields, ReadsBack f.2) :
    ReadsBack (.obj fields) := by
  have each : List.Forall₂ FieldReadsAs fields (ofFields fields) := by
    induction fields with
    | nil => exact .nil
    | cons f fs ih =>
      obtain ⟨first, others⟩ := List.forall_mem_cons.mp all
      exact .cons ⟨rfl, readsBack_iff.mp first⟩ (ih others)
  exact readsBack_iff.mpr (readsAs_obj each)

/-- The text of a faithful value is read back. -/
theorem readsBack {v : Json} (faithful : v.Faithful) : ReadsBack v := by
  induction v using Json.induct with
  | arr items ih =>
    exact readsBack_arr fun v member => ih v member (Json.faithful_arr.mp faithful v member)
  | obj fields ih =>
    exact readsBack_obj fun f member => ih f member ((Json.faithful_obj.mp faithful).faithful f member)
  | null => exact readsAs_null.reads
  | bool b => exact (readsAs_bool b).reads
  | str s => exact (readsAs_str s).reads
  | int n =>
    intro fuel rest stops enough
    obtain ⟨fuel, rfl⟩ := call_left enough
    rw [write]
    exact readValue_writeInteger (Json.faithful_int.mp faithful) fuel stops
  | float x =>
    intro fuel rest stops enough
    obtain ⟨fuel, rfl⟩ := call_left enough
    rw [write]
    exact Json.faithful_float.mp faithful fuel rest stops

end Document

theorem Decoder.ofText_text {α : Type} {decode : Decoder α} {v : Json} {a : α}
    (back : Document.ReadsBack v) (decodes : Decodes decode (.text Source.textRoom) v a) :
    decode.ofText v.text =
      if v.depth < Source.textRoom then .ok a else .error (.malformed .nestingTooDeep) := by
  rw [Decoder.ofText, Document.read_text (Document.readsBack_iff.mp back)]
  dsimp only
  rw [decodes.eq]
  refine (Source.held_stop _ _ id).trans ?_
  simp [Source.held, Source.holds]

end Parley
