import Parley.Proofs.Json.Record
/-!
# Formats

A format is a decoder of a type together with what its values are written as. What is written is decoded
as what it was written for (`Format.decodes`), whatever is decoded can be written (`Format.ordered`), and
it is written as the value that it was decoded from with all that this value leaves out
(`Format.completes`). The format of a record is put together from those of its fields (`Format.record`).
-/
namespace Parley

/-- How values of a type are read and written. -/
structure Format (α : Type) where
  decode : Decoder α
  write : α → Json
  /-- The value with all that it leaves out. -/
  complete : Json → Json
  decodes {source : Source} {a : α} (room : source.holds 0) (written : (write a).Ordered) :
    Decodes decode source (write a) a
  ordered {source : Source} {d : Document} {a : α} (decoded : decode source d = .ok a) :
    (write a).Ordered
  completes {v : Json} {a : α} (inOrder : v.Ordered) (decoded : decode .value (.ofJson v) = .ok a) :
    write a = complete v

namespace Format

/-! ## Plain values -/

def string : Format String where
  decode := .string
  write := .str
  complete := id
  decodes room _ := Decoder.decodes_string room _
  ordered _ := .str _
  completes {v a} _ decoded := by
    cases v with
    | str s =>
      rw [← Except.ok.inj decoded]
      rfl
    | _ => contradiction

@[simp] theorem decode_string : string.decode = .string := rfl

@[simp] theorem write_string : string.write = .str := rfl

def bool : Format Bool where
  decode := .bool
  write := .bool
  complete := id
  decodes room _ := (Source.held_zero room _).symm
  ordered _ := .bool _
  completes {v a} _ decoded := by
    cases v with
    | bool b =>
      rw [← Except.ok.inj decoded]
      rfl
    | _ => contradiction

@[simp] theorem decode_bool : bool.decode = .bool := rfl

@[simp] theorem write_bool : bool.write = .bool := rfl

/-- Values that stand for themselves. -/
def json : Format Json where
  decode := .json
  write := id
  complete := id
  decodes room written := Decoder.decodes_json room written
  ordered := Document.ordered_toJson
  completes inOrder decoded :=
    Except.ok.inj (decoded.symm.trans (Decoder.decodes_json rfl inOrder).eq)

@[simp] theorem decode_json : json.decode = .json := rfl

@[simp] theorem write_json : json.write = id := rfl

/-- Texts that may be missing; null stands for none. -/
def string? : Format (Option String) where
  decode := .option .string
  write := .ofString?
  complete := id
  decodes room _ := Decoder.decodes_option room _
  ordered _ := Json.ordered_ofString? _
  completes {v a} _ decoded := by
    cases v with
    | null | str s =>
      rw [← Except.ok.inj decoded]
      rfl
    | _ => contradiction

@[simp] theorem decode_string? : string?.decode = .option .string := rfl

@[simp] theorem write_string? : string?.write = .ofString? := rfl

end Format

/-! ## Lists -/

/-- The value with each item of an array changed. -/
def Json.mapItems (change : Json → Json) : Json → Json
  | .arr items => .arr (items.map change)
  | v => v

namespace Format
variable {α : Type} (F : Format α)

private theorem items_held {source : Source} (room : source.holds 0) {as : List α}
    (written : ∀ a ∈ as, (F.write a).Ordered) :
    Decoder.items F.decode source (Document.ofItems (as.map F.write)) =
      source.held (Json.depthItems (as.map F.write)) as := by
  induction as with
  | nil => exact (Source.held_zero room _).symm
  | cons a as ih =>
    obtain ⟨first, later⟩ := List.forall_mem_cons.mp written
    rw [List.map_cons, Document.ofItems, Decoder.items, (F.decodes room first).eq, ih later]
    exact Source.held_bind _ _ a as List.cons

private theorem items_ordered {source : Source} {ds : List Document} {as : List α}
    (decoded : Decoder.items F.decode source ds = .ok as) : ∀ a ∈ as, (F.write a).Ordered := by
  induction ds generalizing as with
  | nil =>
    obtain rfl := Except.ok.inj decoded
    simp
  | cons d ds ih =>
    obtain ⟨b, first, decoded⟩ := bind_eq_ok.mp decoded
    obtain ⟨bs, later, made⟩ := bind_eq_ok.mp decoded
    obtain rfl : b :: bs = as := Except.ok.inj made
    exact List.forall_mem_cons.mpr ⟨F.ordered first, ih later⟩

private theorem items_complete {vs : List Json} {as : List α} (inOrder : ∀ v ∈ vs, v.Ordered)
    (decoded : Decoder.items F.decode .value (Document.ofItems vs) = .ok as) :
    as.map F.write = vs.map F.complete := by
  induction vs generalizing as with
  | nil =>
    obtain rfl := Except.ok.inj decoded
    rfl
  | cons v vs ih =>
    obtain ⟨inOrderFirst, inOrderLater⟩ := List.forall_mem_cons.mp inOrder
    obtain ⟨b, first, decoded⟩ := bind_eq_ok.mp decoded
    obtain ⟨bs, later, made⟩ := bind_eq_ok.mp decoded
    obtain rfl : b :: bs = as := Except.ok.inj made
    rw [List.map_cons, List.map_cons, F.completes inOrderFirst first, ih inOrderLater later]

def list : Format (List α) where
  decode := .list F.decode
  write as := .arr (as.map F.write)
  complete := Json.mapItems F.complete
  decodes {source as} room written := by
    have written : ∀ a ∈ as, (F.write a).Ordered := by simpa using written
    unfold Decodes
    rw [Document.ofJson, Decoder.list, Json.depth]
    refine Source.enter_bind room fun s inside => ?_
    rw [F.items_held inside written]
    exact Source.held_stop _ _ id
  ordered {source d as} decoded := by
    cases d with
    | arr ds stop =>
      obtain ⟨inner, -, decoded⟩ := bind_eq_ok.mp decoded
      obtain ⟨bs, read, decoded⟩ := bind_eq_ok.mp decoded
      obtain ⟨-, -, made⟩ := bind_eq_ok.mp decoded
      obtain rfl : bs = as := Except.ok.inj made
      simpa using F.items_ordered read
    | _ => contradiction
  completes {v as} inOrder decoded := by
    cases v with
    | arr vs =>
      obtain ⟨inner, entered, decoded⟩ := bind_eq_ok.mp decoded
      obtain rfl : .value = inner := Except.ok.inj entered
      obtain ⟨bs, read, decoded⟩ := bind_eq_ok.mp decoded
      obtain ⟨-, -, made⟩ := bind_eq_ok.mp decoded
      obtain rfl : bs = as := Except.ok.inj made
      exact congrArg Json.arr (F.items_complete (Json.ordered_arr.mp inOrder) read)
    | _ => contradiction

@[simp] theorem decode_list : F.list.decode = .list F.decode := rfl

@[simp] theorem write_list (as : List α) : F.list.write as = .arr (as.map F.write) := rfl

end Format

/-! ## Records -/

/-- A field of records of a type. -/
structure Field (ρ : Type) where
  {α : Type}
  name : String
  format : Format α
  /-- What the field is when it is absent. A field without it must be there. -/
  absent : Option α := none
  value : ρ → α

namespace Field
variable {ρ : Type} (f : Field ρ)

/-- The record of the field alone. -/
def record : Record f.α :=
  match f.absent with
  | some a => .withDefault f.name f.format.decode a
  | none => .required f.name f.format.decode

def rule : FieldRule where
  name := f.name
  accepts source d := (fun _ => ()) <$> f.format.decode source d
  optional := f.absent.isSome

/-- What the field of a record is written as. -/
def entry (a : ρ) : String × Json :=
  (f.name, f.format.write (f.value a))

/-- What the field is completed to: the value that is given, or else the one that it has when it is
absent. -/
def filled (given : Option Json) : String × Json :=
  (f.name, (given.map f.format.complete).getD (.ofOption (f.absent.map f.format.write)))

/-- A value that leaves out fields, with all of them. -/
def complete (fields : List (Field ρ)) (v : Json) : Json :=
  .ofFields (fields.map fun f => f.filled (v.member? (fields.map name) f.name))

variable {f}

theorem builds {source : Source} {field : String → Option Document} {a : ρ}
    (found : field f.name = some (.ofJson (f.format.write (f.value a))))
    (room : source.holds 0) (deep : source.holds (f.format.write (f.value a)).depth)
    (written : (f.format.write (f.value a)).Ordered) :
    f.record.build source field = .ok (f.value a) := by
  have decodes := f.format.decodes room written
  unfold record
  split
  · exact Record.builds_withDefault found deep decodes
  · exact Record.builds_required found deep decodes

theorem ordered_of_built {source : Source} {field : String → Option Document} {a : ρ}
    (proper : ∀ b ∈ f.absent, (f.format.write b).Ordered)
    (built : f.record.build source field = .ok (f.value a)) :
    (f.format.write (f.value a)).Ordered := by
  unfold record at built
  split at built
  · next b missing =>
    rcases Record.build_withDefault.mp built with ⟨-, same⟩ | ⟨d, -, decoded⟩
    · exact same ▸ proper b missing
    · exact f.format.ordered decoded
  · obtain ⟨d, -, decoded⟩ := Record.build_required.mp built
    exact f.format.ordered decoded

theorem entry_of_built {given : String → Option Json} {a : ρ}
    (inOrder : ∀ w ∈ given f.name, w.Ordered)
    (built : f.record.build .value (fun key => (given key).map .ofJson) = .ok (f.value a)) :
    f.entry a = f.filled (given f.name) := by
  have read {d : Document} (found : (given f.name).map .ofJson = some d)
      (decoded : f.format.decode .value d = .ok (f.value a)) : f.entry a = f.filled (given f.name) := by
    obtain ⟨w, there, rfl⟩ := Option.map_eq_some_iff.mp found
    rw [filled, there]
    exact congrArg (Prod.mk f.name) (f.format.completes (inOrder w there) decoded)
  unfold record at built
  split at built
  · next b missing =>
    rcases Record.build_withDefault.mp built with ⟨none, same⟩ | ⟨d, found, decoded⟩
    · rw [filled, Option.map_eq_none_iff.mp none, missing, same]
      rfl
    · exact read found decoded
  · obtain ⟨d, found, decoded⟩ := Record.build_required.mp built
    exact read found decoded

end Field

/-! ### Records with given fields -/

/-- All that is told of a record are these fields. -/
structure Field.Tell {ρ : Type} (fields : List (Field ρ)) (decode : Decoder ρ) (write : ρ → Json) :
    Prop where
  decoded : ∃ name r, decode = Record.decode name r ∧ r.rules = fields.map Field.rule ∧
    ∀ source field a, r.build source field = .ok a ↔
      ∀ f ∈ fields, f.record.build source field = .ok (f.value a)
  written : ∀ a, write a = .ofFields (fields.map fun f => f.entry a)
  distinct : (fields.map Field.name).Nodup
  /-- A field that is absent can be written. -/
  proper : ∀ f ∈ fields, ∀ b ∈ f.absent, (f.format.write b).Ordered

namespace Field.Tell
variable {ρ : Type} {fields : List (Field ρ)} {decode : Decoder ρ} {write : ρ → Json}

private theorem names_entry (a : ρ) :
    (fields.map fun f => f.entry a).map Prod.fst = fields.map Field.name := by
  simp [Function.comp_def, entry]

theorem ordered_iff (tell : Tell fields decode write) {a : ρ} :
    (write a).Ordered ↔ ∀ f ∈ fields, (f.format.write (f.value a)).Ordered := by
  rw [tell.written, Json.ordered_ofFields (names_entry a ▸ tell.distinct)]
  simp [entry]

theorem faithful (tell : Tell fields decode write) {a : ρ}
    (each : ∀ f ∈ fields, (f.format.write (f.value a)).Faithful) : (write a).Faithful := by
  rw [tell.written]
  exact Json.faithful_ofFields (by simpa [entry] using each)

private theorem rule_found (distinct : (fields.map Field.name).Nodup) {f : Field ρ}
    (member : f ∈ fields) :
    ((fields.map Field.rule).find? fun rule => rule.name == f.name) = some f.rule := by
  induction fields with
  | nil => exact absurd member List.not_mem_nil
  | cons g fields ih =>
    obtain ⟨alone, distinct⟩ := List.nodup_cons.mp distinct
    rcases List.mem_cons.mp member with rfl | later
    · simp [rule]
    · have other : g.name ≠ f.name := fun same => alone (same ▸ List.mem_map_of_mem later)
      rw [List.map_cons, List.find?_cons_of_neg (by simpa [rule] using other)]
      exact ih distinct later

/-- Each field stands under its name in what a record is written as. -/
private theorem entry_found (distinct : (fields.map Field.name).Nodup) (a : ρ) {f : Field ρ}
    (member : f ∈ fields) :
    Keyed.get? f.name (Keyed.ofList (fields.map fun f => f.entry a)) =
      some (f.format.write (f.value a)) :=
  Keyed.get?_insertAll_of_mem (names_entry a ▸ distinct)
    (List.mem_map_of_mem (f := fun f => f.entry a) member)

theorem decodes (tell : Tell fields decode write) {source : Source} {a : ρ} (room : source.holds 0)
    (written : (write a).Ordered) : Decodes decode source (write a) a := by
  obtain ⟨name, r, rfl, rules, builds⟩ := tell.decoded
  have each := tell.ordered_iff.mp written
  have found {f : Field ρ} (member : f ∈ fields) := entry_found tell.distinct a member
  rw [tell.written]
  -- the object stands in the order of the keys and the record in its own, so the fields of one are
  -- found in the other by name
  refine Record.decode_held room (Keyed.sorted_insertAll .nil).nodup_keys
    (fun s inside e member => ?_) fun s inside deep => (builds ..).mpr fun f member => ?_
  · obtain ⟨f, there, rfl⟩ := List.mem_map.mp
      ((Keyed.mem_insertAll member).resolve_left List.not_mem_nil)
    exact Record.reads_of (rules ▸ rule_found tell.distinct there)
      (f.format.decodes inside (each f there))
  · refine Field.builds ?_ inside (deep _ (Keyed.mem_of_get? (found member))) (each f member)
    rw [Document.lookup_ofFields, found member]
    rfl

theorem ordered (tell : Tell fields decode write) {source : Source} {d : Document} {a : ρ}
    (decoded : decode source d = .ok a) : (write a).Ordered := by
  obtain ⟨name, r, rfl, rules, builds⟩ := tell.decoded
  obtain ⟨s, field, built⟩ := Record.exists_built decoded
  exact tell.ordered_iff.mpr fun f member =>
    ordered_of_built (tell.proper f member) ((builds ..).mp built f member)

theorem completes (tell : Tell fields decode write) {v : Json} {a : ρ} (inOrder : v.Ordered)
    (decoded : decode .value (.ofJson v) = .ok a) : write a = complete fields v := by
  obtain ⟨name, r, rfl, rules, builds⟩ := tell.decoded
  have names : r.rules.map FieldRule.name = fields.map Field.name := by
    simp [rules, Function.comp_def, rule]
  have built := Record.built_of_value decoded
  rw [names] at built
  rw [tell.written]
  exact congrArg Json.ofFields (List.map_congr_left fun f member =>
    entry_of_built (fun w given => inOrder.part (Json.member?_mem given))
      ((builds ..).mp built f member))

end Field.Tell

namespace Format
variable {ρ : Type} {decode : Decoder ρ} {write : ρ → Json} (fields : List (Field ρ))
  (tell : Field.Tell fields decode write)

/-- The format of records with given fields. -/
def record : Format ρ where
  decode := decode
  write := write
  complete := Field.complete fields
  decodes := tell.decodes
  ordered := tell.ordered
  completes := tell.completes

@[simp] theorem decode_record : (record fields tell).decode = decode := rfl

@[simp] theorem write_record : (record fields tell).write = write := rfl

end Format

end Parley
