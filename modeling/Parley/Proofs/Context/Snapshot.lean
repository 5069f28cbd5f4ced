import Parley.Context
import Parley.Proofs.Json.RoundTrip
import Parley.Proofs.Json.Record
/-!
# Snapshots are read back

The text of a context is read as that context, unless it is nested deeper than a text may be
(`Context.ofSnapshot_serialize`).
-/
namespace Parley
open Parley.Json

/-! ## Parts of a context -/

theorem Trigger.decodes {source : Source} (room : source.holds 0) (t : Trigger) :
    Decodes Trigger.decoder source t.toJson t := by
  refine Eq.trans ?_ (Source.held_zero room t).symm
  cases t <;> rfl

theorem Operator.toJson_eq (o : Operator) : o.toJson = .obj [("nickname", .str o.nickname),
    ("organization_code", .str o.organization), ("uid", .str o.uid)] := by
  rfl

theorem Operator.decodes {source : Source} (room : source.holds 0) (o : Operator) :
    Decodes Operator.decoder source o.toJson o := by
  rw [Operator.toJson_eq]
  refine Record.decode_held room (by simp) (fun s inside => ?_) fun s inside room => ?_
  · simp only [List.forall_mem_cons, List.not_mem_nil, false_implies, implies_true, and_true]
    exact ⟨Record.reads_of rfl (Decoder.decodes_string inside _),
      Record.reads_of rfl (Decoder.decodes_string inside _),
      Record.reads_of rfl (Decoder.decodes_string inside _)⟩
  · rfl

theorem Scope.toJson_eq (s : Scope) : s.toJson = .obj [("conversation_id", .str s.conversation),
    ("organization_code", .str s.organization), ("origin_conversation_id", .ofString? s.origin?),
    ("topic_id", .ofString? s.topic)] := by
  rfl

theorem Scope.decodes {source : Source} (room : source.holds 0) (scope : Scope) :
    Decodes Scope.decoder source scope.toJson scope := by
  rw [Scope.toJson_eq]
  refine Record.decode_held room (by simp) (fun s inside => ?_) fun s inside room => ?_
  · simp only [List.forall_mem_cons, List.not_mem_nil, false_implies, implies_true, and_true]
    exact ⟨Record.reads_of rfl (Decoder.decodes_string inside _),
      Record.reads_of rfl (Decoder.decodes_string inside _),
      Record.reads_of rfl (Decoder.decodes_option inside _),
      Record.reads_of rfl (Decoder.decodes_option inside _)⟩
  · simp only [List.forall_mem_cons] at room
    obtain ⟨conversation, organization, origin, topic, -⟩ := room
    exact Record.builds_seq (Record.builds_seq (Record.builds_seq
      (Record.builds_map (Record.builds_required rfl organization (Decoder.decodes_string inside _)))
      (Record.builds_required rfl conversation (Decoder.decodes_string inside _)))
      (Record.builds_withDefault rfl origin (Decoder.decodes_option inside _)))
      (Record.builds_withDefault rfl topic (Decoder.decodes_option inside _))

/-! ## Contexts -/

namespace Context
variable {ctx : Context}

/-- A text can tell all that a run remembers. -/
structure Faithful (ctx : Context) : Prop where
  payload : ctx.payload.Faithful
  outputs : Table ctx.outputs
  values : Table ctx.values

/-- How deep the snapshot of a context is nested. -/
def depth (ctx : Context) : Nat :=
  (Json.obj ctx.fields).depth

/-- How deep a text may be nested. -/
def deepestText : Nat := Source.textRoom - 1

private theorem faithful_fields (faithful : ctx.Faithful) : ∀ f ∈ ctx.fields, f.2.Faithful := by
  simp only [fields, List.forall_mem_cons, List.not_mem_nil, false_implies, implies_true, and_true]
  refine ⟨faithful_str _, faithful_str _, faithful_str _, faithful_str _, faithful.payload, ?_, ?_,
    faithful_obj.mpr faithful.outputs, faithful_obj.mpr faithful.values⟩
  · exact faithful_ofFields (by simp)
  · exact faithful_ofFields (by simp)

/-- The fields of a context are decoded as the context, without its text. -/
theorem decodes {source : Source} (room : source.holds 0) (faithful : ctx.Faithful) :
    Decodes decoder source (.obj ctx.fields) { ctx with cached := none } := by
  refine Record.decode_held room (by simp [fields]) (fun s inside => ?_) fun s inside room => ?_
  · simp only [fields, List.forall_mem_cons, List.not_mem_nil, false_implies, implies_true, and_true]
    exact ⟨Record.reads_of rfl (Decoder.decodes_string inside _),
      Record.reads_of rfl (Decoder.decodes_string inside _),
      Record.reads_of rfl (Decoder.decodes_string inside _),
      Record.reads_of rfl (Trigger.decodes inside _),
      Record.reads_of rfl (Decoder.decodes_json inside faithful.payload.ordered),
      Record.reads_of rfl (Operator.decodes inside _),
      Record.reads_of rfl (Scope.decodes inside _),
      Record.reads_of rfl (Decoder.decodes_table inside faithful.outputs),
      Record.reads_of rfl (Decoder.decodes_table inside faithful.values)⟩
  · simp only [fields, List.forall_mem_cons] at room
    obtain ⟨run, code, version, trigger, payload, operator, scope, outputs, values, -⟩ := room
    refine Record.builds_seq (Record.builds_seq (Record.builds_seq (Record.builds_seq
      (Record.builds_seq (Record.builds_seq (Record.builds_seq (Record.builds_seq
        (Record.builds_map ?_) ?_) ?_) ?_) ?_) ?_) ?_) ?_) ?_
    · exact Record.builds_required rfl run (Decoder.decodes_string inside _)
    · exact Record.builds_required rfl code (Decoder.decodes_string inside _)
    · exact Record.builds_required rfl version (Decoder.decodes_string inside _)
    · exact Record.builds_required rfl trigger (Trigger.decodes inside _)
    · exact Record.builds_withDefault rfl payload (Decoder.decodes_json inside faithful.payload.ordered)
    · exact Record.builds_withDefault rfl operator (Operator.decodes inside _)
    · exact Record.builds_required rfl scope (Scope.decodes inside _)
    · exact Record.builds_withDefault rfl outputs (Decoder.decodes_table inside faithful.outputs)
    · exact Record.builds_withDefault rfl values (Decoder.decodes_table inside faithful.values)

/-- The snapshot of a faithful context is read as the context, with the snapshot as its text, exactly
when it is not nested too deep for a text. -/
theorem ofSnapshot_serialize (faithful : ctx.Faithful) :
    ofSnapshot ctx.serialize =
      if ctx.depth ≤ deepestText then .ok { ctx with cached := some ctx.serialize }
      else .error (.json (.malformed .nestingTooDeep)) := by
  have back : Document.ReadsBack (.obj ctx.fields) :=
    Document.readsBack_obj fun f member => Document.readsBack (faithful_fields faithful f member)
  have whole : decoder.ofText ctx.serialize =
      if ctx.depth < Source.textRoom then .ok { ctx with cached := none }
      else .error (.malformed .nestingTooDeep) :=
    Decoder.ofText_text back (decodes rfl faithful)
  rw [ofSnapshot, whole]
  by_cases fits : ctx.depth ≤ deepestText
  · have small : ctx.depth < Source.textRoom := Nat.lt_succ_of_le fits
    rw [if_pos small, if_pos fits]
  · have deep : ¬ ctx.depth < Source.textRoom := fun small => fits (Nat.le_of_lt_succ small)
    rw [if_neg deep, if_neg fits]

end Context

end Parley
