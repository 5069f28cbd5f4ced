import Parley.Proofs.Json.Value
/-!
# Records

How a record is decoded from the fields of an object. When every field of the object is one of the
record and is decoded as long as there is room for it, the record is decoded as long as there is room
for the object (`Record.decode_held`).
-/
namespace Parley

/-- The decoder gives a value for another one, as long as there is room for it. -/
def Decodes {α : Type} (decode : Decoder α) (source : Source) (v : Json) (a : α) : Prop :=
  decode source (.ofJson v) = source.held v.depth a

theorem Decodes.eq {α : Type} {decode : Decoder α} {source : Source} {v : Json} {a : α}
    (decodes : Decodes decode source v a) : decode source (.ofJson v) = source.held v.depth a :=
  decodes

namespace Decoder
variable {source : Source}

theorem decodes_json (room : source.holds 0) {v : Json} (ordered : v.Ordered) :
    Decodes json source v v :=
  Document.toJson_ofJson room ordered

theorem decodes_string (room : source.holds 0) (s : String) : Decodes string source (.str s) s :=
  (Source.held_zero room s).symm

theorem decodes_option (room : source.holds 0) (s : Option String) :
    Decodes (option string) source (.ofString? s) s := by
  cases source with
  | settings => contradiction
  | _ => cases s <;> exact (Source.held_zero room _).symm

private theorem entries_json (fields : List (String × Document)) :
    entries json source fields = Document.toFields source fields := by
  induction fields with
  | nil => rfl
  | cons f fields ih =>
    rw [entries, Document.toFields, ih]
    rfl

theorem decodes_table (room : source.holds 0) {fields : Keyed Json} (faithful : Json.Table fields) :
    Decodes (table json) source (.obj fields) fields := by
  unfold Decodes
  rw [Document.ofJson, table, Json.depth]
  refine Source.enter_bind room fun s inside => ?_
  rw [entries_json, Document.toFields_ofFields inside fun f member =>
    (faithful.faithful f member).ordered]
  exact (Source.held_stop _ _ Keyed.ofList).trans (by rw [Keyed.ofList_sorted faithful.sorted])

end Decoder

/-! ## Fields of values -/

namespace Json

/-- The values that are in an array or an object. -/
def parts : Json → List Json
  | .arr items => items
  | .obj fields => fields.map Prod.snd
  | _ => []

/-- What a value gives for a field of a record, an array by the order of the names. -/
def member? (names : List String) (key : String) : Json → Option Json
  | .obj fields => Keyed.get? key fields
  | .arr items => (names.zip items).lookup key
  | _ => none

theorem member?_mem {names : List String} {key : String} {v w : Json}
    (given : v.member? names key = some w) : w ∈ v.parts := by
  cases v with
  | obj fields => exact List.mem_map_of_mem (Keyed.mem_of_get? given)
  | arr items =>
    obtain ⟨front, back, whole, -⟩ := List.lookup_eq_some_iff.mp given
    exact (List.of_mem_zip (whole ▸ by simp : (key, w) ∈ names.zip items)).2
  | _ => contradiction

theorem Ordered.part {v w : Json} (ordered : v.Ordered) (member : w ∈ v.parts) : w.Ordered := by
  cases ordered with
  | arr all => exact all w member
  | obj _ all =>
    obtain ⟨f, inside, rfl⟩ := List.mem_map.mp member
    exact all f inside
  | _ => contradiction

theorem Faithful.part {v w : Json} (faithful : v.Faithful) (member : w ∈ v.parts) : w.Faithful := by
  cases v with
  | arr items => exact faithful_arr.mp faithful w member
  | obj fields =>
    obtain ⟨f, inside, rfl⟩ := List.mem_map.mp member
    exact (faithful_obj.mp faithful).faithful f inside
  | _ => contradiction

end Json

namespace Document

theorem lookup_ofFields (key : String) (fields : List (String × Json)) :
    (ofFields fields).lookup key = (Keyed.get? key fields).map ofJson := by
  induction fields with
  | nil => rfl
  | cons f fields ih =>
    by_cases same : f.1 = key
    · simp [ofFields, Keyed.get?, same]
    · have other : (key == f.1) = false := beq_eq_false_iff_ne.mpr (Ne.symm same)
      simp only [ofFields, Keyed.get?, List.lookup_cons, other, same, if_false, ih]

theorem lookup_ofItems (key : String) (names : List String) (items : List Json) :
    (names.zip (ofItems items)).lookup key = ((names.zip items).lookup key).map ofJson := by
  induction items generalizing names with
  | nil => simp [ofItems]
  | cons v items ih =>
    cases names with
    | nil => rfl
    | cons name names =>
      by_cases same : key = name
      · simp [ofItems, same]
      · have other : (key == name) = false := beq_eq_false_iff_ne.mpr same
        simp only [ofItems, List.zip_cons_cons, List.lookup_cons, other, ih]

end Document

namespace Record
variable {α β : Type} {source : Source} {field : String → Option Document}

/-! ## Building -/

theorem build_map {f : α → β} {r : Record α} {b : β} :
    (f <$> r).build source field = .ok b ↔ ∃ a, r.build source field = .ok a ∧ f a = b := by
  show f <$> r.build source field = .ok b ↔ _
  cases r.build source field <;> simp [Functor.map, Except.map]

theorem build_seq {f : Record (α → β)} {r : Record α} {b : β} :
    (f <*> r).build source field = .ok b ↔
      ∃ g a, f.build source field = .ok g ∧ r.build source field = .ok a ∧ g a = b := by
  show (f.build source field >>= fun g => r.build source field >>= fun a => pure (g a)) = .ok b ↔ _
  cases f.build source field <;> cases r.build source field <;>
    simp [bind, Except.bind, pure, Except.pure]

theorem build_required {name : String} {decode : Decoder α} {a : α} :
    (required name decode).build source field = .ok a ↔
      ∃ d, field name = some d ∧ decode source d = .ok a := by
  cases found : field name <;> simp [required, found]

theorem build_withDefault {name : String} {decode : Decoder α} {default a : α} :
    (withDefault name decode default).build source field = .ok a ↔
      (field name = none ∧ default = a) ∨ ∃ d, field name = some d ∧ decode source d = .ok a := by
  cases found : field name <;> simp [withDefault, found]

variable {f : Record (α → β)} {r : Record α} {g : α → β} {a : α} {name : String}
  {decoder : Decoder α} {v : Json}

theorem builds_map (one : r.build source field = .ok a) :
    (g <$> r).build source field = .ok (g a) :=
  build_map.mpr ⟨a, one, rfl⟩

theorem builds_seq (one : f.build source field = .ok g) (two : r.build source field = .ok a) :
    (f <*> r).build source field = .ok (g a) :=
  build_seq.mpr ⟨g, a, one, two, rfl⟩

private theorem decodes_ok (decodes : Decodes decoder source v a) (room : source.holds v.depth) :
    decoder source (.ofJson v) = .ok a :=
  decodes.trans (if_pos room)

theorem builds_required (found : field name = some (.ofJson v)) (room : source.holds v.depth)
    (decodes : Decodes decoder source v a) : (required name decoder).build source field = .ok a :=
  build_required.mpr ⟨_, found, decodes_ok decodes room⟩

theorem builds_withDefault {default : α} (found : field name = some (.ofJson v))
    (room : source.holds v.depth) (decodes : Decodes decoder source v a) :
    (withDefault name decoder default).build source field = .ok a :=
  build_withDefault.mpr (.inr ⟨_, found, decodes_ok decodes room⟩)

/-! ## Decoding -/

/-- What is decoded as a record was built of some fields. -/
theorem exists_built {name : String} {r : Record α} {d : Document} {a : α}
    (decoded : decode name r source d = .ok a) :
    ∃ (s : Source) (field : String → Option Document), r.build s field = .ok a := by
  cases d with
  | obj fields stop | arr items stop =>
    obtain ⟨inner, -, decoded⟩ := bind_eq_ok.mp decoded
    obtain ⟨-, -, built⟩ := bind_eq_ok.mp decoded
    exact ⟨inner, _, built⟩
  | _ => contradiction

/-- Of a value in memory it is built of the fields that the value gives. -/
theorem built_of_value {name : String} {r : Record α} {v : Json} {a : α}
    (decoded : decode name r .value (.ofJson v) = .ok a) :
    r.build .value (fun key => (v.member? (r.rules.map FieldRule.name) key).map .ofJson) = .ok a := by
  cases v with
  | obj fields =>
    obtain ⟨inner, entered, decoded⟩ := bind_eq_ok.mp decoded
    obtain rfl : .value = inner := Except.ok.inj entered
    obtain ⟨-, -, built⟩ := bind_eq_ok.mp decoded
    simpa only [Json.member?, ← Document.lookup_ofFields] using built
  | arr items =>
    obtain ⟨inner, entered, decoded⟩ := bind_eq_ok.mp decoded
    obtain rfl : .value = inner := Except.ok.inj entered
    obtain ⟨-, -, built⟩ := bind_eq_ok.mp decoded
    simpa only [Json.member?, ← Document.lookup_ofItems] using built
  | _ => contradiction

/-- The record reads a field of a name, and with it what the field decodes. -/
def Reads (r : Record β) (source : Source) (f : String × Json) : Prop :=
  ∃ rule, (r.rules.find? fun rule => rule.name == f.1) = some rule ∧
    rule.accepts source (.ofJson f.2) = source.held f.2.depth ()

theorem reads_of {γ : Type} {r : Record β} {key : String} {v : Json} {decode : Decoder γ} {a : γ}
    {optional : Bool} (found : (r.rules.find? fun rule => rule.name == key) =
      some ⟨key, fun source d => (fun _ => ()) <$> decode source d, optional⟩)
    (decodes : Decodes decode source v a) : r.Reads source (key, v) := by
  refine ⟨_, found, ?_⟩
  simp only [decodes.eq]
  exact Source.held_pure _ a fun _ => ()

private theorem checkFields_held {r : Record α} {fields : List (String × Json)}
    (room : source.holds 0) (seen : List String) (unseen : ∀ f ∈ fields, f.1 ∉ seen)
    (reads : ∀ f ∈ fields, r.Reads source f) (distinct : (fields.map Prod.fst).Nodup) :
    checkFields r.rules source none seen (Document.ofFields fields) =
      source.held (Json.depthFields fields) () := by
  induction fields generalizing seen with
  | nil => exact (Source.held_zero room ()).symm
  | cons f fields ih =>
    obtain ⟨first, later⟩ := List.forall_mem_cons.mp reads
    obtain ⟨rule, found, accepts⟩ := first
    obtain ⟨new, rest⟩ := List.nodup_cons.mp distinct
    obtain ⟨unread, unread'⟩ := List.forall_mem_cons.mp unseen
    have tail := ih (f.1 :: seen) (fun g member => ?_) later rest
    · rw [Document.ofFields, checkFields, found]
      simp only [List.contains_eq_mem, unread, decide_false, Bool.false_eq_true, if_false, accepts,
        tail]
      exact Source.held_then _ _ () fun _ => ()
    · have other : g.1 ≠ f.1 := fun same => new (same ▸ List.mem_map_of_mem member)
      simp [other, unread' g member]

/-- An object of which the record reads every field is decoded as the record that is built from
them. -/
theorem decode_held {name : String} {r : Record α} {fields : List (String × Json)} {a : α}
    (room : source.holds 0) (distinct : (fields.map Prod.fst).Nodup)
    (reads : ∀ s : Source, s.holds 0 → ∀ f ∈ fields, r.Reads s f)
    (built : ∀ s : Source, s.holds 0 → (∀ f ∈ fields, s.holds f.2.depth) →
      r.build s (fun key => (Document.ofFields fields).lookup key) = .ok a) :
    Decodes (decode name r) source (.obj fields) a := by
  unfold Decodes
  rw [Document.ofJson, decode, Json.depth]
  refine Source.enter_bind room fun s inside => ?_
  rw [checkFields_held inside [] (by simp) (reads s inside) distinct]
  cases fits : s.holds (Json.depthFields fields)
  · simp only [Source.held, fits]
    rfl
  · simp only [Source.held, fits]
    exact built s inside fun f member => Source.holds_of_le fits (Json.depth_le_depthFields member)

end Record

end Parley
