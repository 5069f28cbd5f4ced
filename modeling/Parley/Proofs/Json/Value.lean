import Parley.Json.Decoder
import Parley.Proofs.Keyed
/-!
# Values in memory and their documents

A value is ordered when its objects stand in the order of their keys, as all objects do that are made or
read. Decoding such a value gives the value. It is faithful when a text can tell all of it: besides, its
integers fit a machine word and its other numbers are read back from their texts. Decoding a text that
tells it gives the value, too, unless it nests too deep for a text.
-/
namespace Parley

namespace Json

/-- What holds of atoms, and of arrays and objects when it holds of what is in them, holds of all
values. -/
@[elab_as_elim]
theorem induct {motive : Json → Prop} (null : motive .null) (bool : ∀ b, motive (.bool b))
    (int : ∀ n, motive (.int n)) (float : ∀ x, motive (.float x)) (str : ∀ s, motive (.str s))
    (arr : ∀ items, (∀ v ∈ items, motive v) → motive (.arr items))
    (obj : ∀ fields, (∀ f ∈ fields, motive f.2) → motive (.obj fields)) (v : Json) : motive v :=
  match v with
  | .null => null
  | .bool b => bool b
  | .int n => int n
  | .float x => float x
  | .str s => str s
  | .arr items => arr items fun v _ => induct null bool int float str arr obj v
  | .obj fields => obj fields fun f _ => induct null bool int float str arr obj f.2
decreasing_by
  all_goals simp_wf
  · have := List.sizeOf_lt_of_mem ‹_›
    omega
  · have := List.sizeOf_lt_of_mem ‹f ∈ fields›
    have : sizeOf f.2 < sizeOf f := by
      cases f
      simp only [Prod.mk.sizeOf_spec]
      omega
    omega

end Json

/-! ## Ordered values -/

namespace Json

/-- All objects in the value stand in the order of their keys. -/
inductive Ordered : Json → Prop
  | null : Ordered .null
  | bool (b : Bool) : Ordered (.bool b)
  | int (n : Int) : Ordered (.int n)
  | float (x : Finite64) : Ordered (.float x)
  | str (s : String) : Ordered (.str s)
  | arr {items : List Json} : (∀ v ∈ items, Ordered v) → Ordered (.arr items)
  | obj {fields : Keyed Json} : fields.Sorted → (∀ f ∈ fields, Ordered f.2) → Ordered (.obj fields)

attribute [simp] Ordered.null Ordered.bool Ordered.int Ordered.float Ordered.str

@[simp] theorem ordered_arr {items : List Json} : Ordered (.arr items) ↔ ∀ v ∈ items, v.Ordered :=
  ⟨fun | .arr all => all, .arr⟩

@[simp] theorem ordered_obj {fields : Keyed Json} :
    Ordered (.obj fields) ↔ fields.Sorted ∧ ∀ f ∈ fields, f.2.Ordered :=
  ⟨fun | .obj sorted all => ⟨sorted, all⟩, fun ⟨sorted, all⟩ => .obj sorted all⟩

/-- An object made of fields under different names is ordered just when their values are. -/
theorem ordered_ofFields {fields : List (String × Json)} (distinct : (fields.map Prod.fst).Nodup) :
    (ofFields fields).Ordered ↔ ∀ f ∈ fields, f.2.Ordered := by
  rw [ofFields, ordered_obj]
  constructor
  · rintro ⟨-, all⟩ f member
    exact all f (Keyed.mem_of_get? (Keyed.get?_insertAll_of_mem distinct member))
  · intro all
    refine ⟨Keyed.sorted_insertAll .nil, fun f member => ?_⟩
    exact (Keyed.mem_insertAll member).elim (fun none => absurd none List.not_mem_nil) (all f)

@[simp] theorem ordered_ofString? (s : Option String) : (ofString? s).Ordered := by
  cases s <;> simp [ofString?]

end Json

/-! ## Faithful values -/

/-- What may follow a value in a text: the end of the text, or what ends an item or a field. -/
def Document.Stops : List Char → Prop
  | [] => True
  | c :: _ => c = ',' ∨ c = ']' ∨ c = '\x7d'

/-- The text of the number is read back as the number. -/
def Finite64.ReadsBack (x : Finite64) : Prop :=
  ∀ fuel rest, Document.Stops rest →
    Document.readValue (fuel + 1) (x.write ++ rest) = (.float x, rest)

/-- A machine word holds the number, signed or unsigned. -/
def FitsWord (n : Int) : Prop :=
  -(Text.greatestSigned64 : Int) - 1 ≤ n ∧ n ≤ Text.greatest64

namespace Json

mutual
/-- A text can tell all of the value. -/
def Faithful : Json → Prop
  | .int n => FitsWord n
  | .float x => x.ReadsBack
  | .arr items => FaithfulItems items
  | .obj fields => Keyed.Sorted fields ∧ FaithfulFields fields
  | _ => True

/-- A text can tell all of the items. -/
def FaithfulItems : List Json → Prop
  | [] => True
  | v :: vs => v.Faithful ∧ FaithfulItems vs

/-- A text can tell all of the fields. -/
def FaithfulFields : List (String × Json) → Prop
  | [] => True
  | (_, v) :: fs => v.Faithful ∧ FaithfulFields fs
end

private theorem faithfulItems_iff {items : List Json} :
    FaithfulItems items ↔ ∀ v ∈ items, v.Faithful := by
  induction items with
  | nil => simp [FaithfulItems]
  | cons v vs ih => simp [FaithfulItems, ih]

private theorem faithfulFields_iff {fields : List (String × Json)} :
    FaithfulFields fields ↔ ∀ f ∈ fields, f.2.Faithful := by
  induction fields with
  | nil => simp [FaithfulFields]
  | cons f fs ih => simp [FaithfulFields, ih]

/-- A table in the order of its keys with faithful values. -/
structure Table (fields : Keyed Json) : Prop where
  sorted : fields.Sorted
  faithful : ∀ f ∈ fields, f.2.Faithful

@[simp] theorem faithful_null : Faithful .null := by simp [Faithful]

@[simp] theorem faithful_bool (b : Bool) : Faithful (.bool b) := by simp [Faithful]

@[simp] theorem faithful_str (s : String) : Faithful (.str s) := by simp [Faithful]

@[simp] theorem faithful_int {n : Int} : Faithful (.int n) ↔ FitsWord n := by simp [Faithful]

@[simp] theorem faithful_float {x : Finite64} : Faithful (.float x) ↔ x.ReadsBack := by
  simp [Faithful]

@[simp] theorem faithful_arr {items : List Json} :
    Faithful (.arr items) ↔ ∀ v ∈ items, v.Faithful := by
  rw [Faithful, faithfulItems_iff]

@[simp] theorem faithful_obj {fields : List (String × Json)} :
    Faithful (.obj fields) ↔ Table fields := by
  rw [Faithful, faithfulFields_iff]
  exact ⟨fun ⟨sorted, faithful⟩ => ⟨sorted, faithful⟩, fun t => ⟨t.sorted, t.faithful⟩⟩

theorem Faithful.ordered {v : Json} (faithful : v.Faithful) : v.Ordered := by
  induction v using Json.induct with
  | arr items ih => exact .arr fun v member => ih v member (faithful_arr.mp faithful v member)
  | obj fields ih =>
    obtain ⟨sorted, values⟩ := faithful_obj.mp faithful
    exact .obj sorted fun f member => ih f member (values f member)
  | _ => constructor

theorem faithful_ofNat {n : Nat} (fits : n ≤ Text.greatest64) : Faithful (.ofNat n) := by
  rw [ofNat, faithful_int]
  exact ⟨by omega, by exact_mod_cast fits⟩

@[simp] theorem faithful_ofString? (s : Option String) : (ofString? s).Faithful := by
  cases s <;> simp [ofString?]

/-! ### Tables -/

theorem table_nil : Table [] := ⟨.nil, by simp⟩

theorem Table.insert {table : Keyed Json} (faithful : Table table) {key : String} {value : Json}
    (new : value.Faithful) : Table (Keyed.insert key value table) where
  sorted := Keyed.sorted_insert faithful.sorted
  faithful f member := by
    rcases Keyed.mem_insert member with rfl | old
    · exact new
    · exact faithful.faithful f old

theorem Table.insertAll {table : Keyed Json} (faithful : Table table)
    {entries : List (String × Json)} (new : ∀ f ∈ entries, f.2.Faithful) :
    Table (Keyed.insertAll table entries) where
  sorted := Keyed.sorted_insertAll faithful.sorted
  faithful f member := (Keyed.mem_insertAll member).elim (faithful.faithful f) (new f)

theorem table_ofList {entries : List (String × Json)} (faithful : ∀ f ∈ entries, f.2.Faithful) :
    Table (Keyed.ofList entries) :=
  table_nil.insertAll faithful

theorem faithful_ofFields {entries : List (String × Json)}
    (faithful : ∀ f ∈ entries, f.2.Faithful) : (ofFields entries).Faithful :=
  faithful_obj.mpr (table_ofList faithful)

theorem Table.get {table : Keyed Json} (faithful : Table table) {key : String} {value : Json}
    (found : Keyed.get? key table = some value) : value.Faithful :=
  faithful.faithful _ (Keyed.mem_of_get? found)

/-! ## Depth -/

mutual
/-- How deep arrays and objects are nested. -/
def depth : Json → Nat
  | .arr items => depthItems items + 1
  | .obj fields => depthFields fields + 1
  | _ => 0

/-- How deep arrays and objects are nested in items. -/
def depthItems : List Json → Nat
  | [] => 0
  | v :: vs => max v.depth (depthItems vs)

/-- How deep arrays and objects are nested in fields. -/
def depthFields : List (String × Json) → Nat
  | [] => 0
  | (_, v) :: fs => max v.depth (depthFields fs)
end

theorem depth_le_depthFields {fields : List (String × Json)} {f : String × Json}
    (member : f ∈ fields) : f.2.depth ≤ depthFields fields := by
  induction fields with
  | nil => simp at member
  | cons head fs ih =>
    rw [depthFields]
    rcases List.mem_cons.mp member with rfl | later
    · exact Nat.le_max_left ..
    · exact Nat.le_trans (ih later) (Nat.le_max_right ..)

end Json

/-! ## Decoding -/

/-- What is worked out in two steps is worked out when both of them are. -/
theorem bind_eq_ok {ε α β : Type} {e : Except ε α} {f : α → Except ε β} {b : β} :
    (e >>= f) = .ok b ↔ ∃ a, e = .ok a ∧ f a = .ok b := by
  cases e <;> simp [bind, Except.bind]

namespace Source

/-- The source has room for a value of a depth. A settings file, which has no null, holds no values. -/
def holds : Source → (depth : Nat) → Bool
  | .value, _ => true
  | .text room, depth => decide (depth < room)
  | .settings, _ => false

/-- The source inside an array or an object. -/
def inside : Source → Source
  | .text room => .text (room - 1)
  | source => source

/-- What decoding gives for a value of a depth. -/
def held {α : Type} (source : Source) (depth : Nat) (value : α) : Except DecodeError α :=
  if source.holds depth then .ok value else .error (.malformed .nestingTooDeep)

variable {α β γ : Type} {source : Source}

theorem held_zero (room : source.holds 0) (value : α) : source.held 0 value = .ok value := by
  simp [held, room]

theorem holds_of_le {depth less : Nat} (room : source.holds depth) (shallow : less ≤ depth) :
    source.holds less := by
  cases source with
  | text room => simp only [holds, decide_eq_true_eq] at *; omega
  | value => rfl
  | settings => contradiction

theorem inside_holds (room : source.holds 1) (depth : Nat) :
    source.inside.holds depth = source.holds (depth + 1) := by
  cases source with
  | text room => simp only [inside, holds, decide_eq_true_eq, decide_eq_decide] at *; omega
  | _ => rfl

/-- Decoding two values has to have room for both of them. -/
theorem held_then (a b : Nat) (x : α) (f : α → β) :
    (source.held a x >>= fun v => source.held b (f v)) = source.held (max a b) (f x) := by
  have both : source.holds (max a b) = (source.holds a && source.holds b) := by
    cases source with
    | text room => simp only [holds, Nat.max_lt, Bool.decide_and]
    | _ => rfl
  unfold held
  rw [both]
  cases source.holds a <;> cases source.holds b <;> rfl

theorem held_pure (depth : Nat) (x : α) (f : α → β) :
    (source.held depth x >>= fun v => pure (f v)) = source.held depth (f x) := by
  unfold held
  cases source.holds depth <;> rfl

theorem held_bind (a b : Nat) (x : α) (y : β) (f : α → β → γ) :
    (source.held a x >>= fun v => source.held b y >>= fun w => pure (f v w)) =
      source.held (max a b) (f x y) := by
  simp only [held_pure]
  exact held_then a b x fun v => f v y

theorem held_stop (depth : Nat) (x : α) (f : α → β) :
    (source.held depth x >>= fun v => stopped none >>= fun _ => pure (f v)) =
      source.held depth (f x) :=
  held_pure depth x f

/-- Decoding what is in an array or an object takes a level. -/
theorem enter_bind {depth : Nat} {value : α} {decode : Source → Except DecodeError α}
    (room : source.holds 0) (inner : ∀ s : Source, s.holds 0 → decode s = s.held depth value) :
    (source.enter >>= decode) = source.held (depth + 1) value := by
  by_cases deeper : source.holds 1
  · have entered : source.enter = .ok source.inside := by
      cases source with
      | text room => simp only [holds, decide_eq_true_eq] at deeper; simp [enter, inside]; omega
      | _ => rfl
    have inside : source.inside.holds 0 := by rw [inside_holds deeper]; exact deeper
    rw [entered]
    refine (inner _ inside).trans ?_
    simp only [held, inside_holds deeper]
  · have refused : source.enter = .error (.malformed .nestingTooDeep) := by
      cases source with
      | text room => simp only [holds, decide_eq_true_eq] at deeper; simp [enter]; omega
      | value => exact absurd rfl deeper
      | settings => contradiction
    have small : ¬ source.holds (depth + 1) := fun holds =>
      deeper (holds_of_le holds (Nat.le_add_left ..))
    rw [refused, held, if_neg small]
    rfl

end Source

namespace Document

private theorem toItems_held {items : List Json} {source : Source} (room : source.holds 0)
    (one : ∀ v ∈ items, toJson source (ofJson v) = source.held v.depth v) :
    toItems source (ofItems items) = source.held (Json.depthItems items) items := by
  induction items with
  | nil => exact (Source.held_zero room _).symm
  | cons v vs ih =>
    obtain ⟨first, later⟩ := List.forall_mem_cons.mp one
    rw [ofItems, toItems, first, ih later]
    exact Source.held_bind _ _ v vs List.cons

private theorem toFields_held {fields : List (String × Json)} {source : Source}
    (room : source.holds 0)
    (one : ∀ f ∈ fields, toJson source (ofJson f.2) = source.held f.2.depth f.2) :
    toFields source (ofFields fields) = source.held (Json.depthFields fields) fields := by
  induction fields with
  | nil => exact (Source.held_zero room _).symm
  | cons f fs ih =>
    obtain ⟨first, later⟩ := List.forall_mem_cons.mp one
    rw [ofFields, toFields, first, ih later]
    exact Source.held_bind _ _ f.2 fs fun v vs => (f.1, v) :: vs

/-- An ordered value is decoded as itself where there is room for its depth. -/
theorem toJson_ofJson {v : Json} {source : Source} (room : source.holds 0) (ordered : v.Ordered) :
    toJson source (ofJson v) = source.held v.depth v := by
  induction v using Json.induct generalizing source with
  | arr items ih =>
    rw [ofJson, toJson, Json.depth]
    refine Source.enter_bind room fun s inside => ?_
    have items := toItems_held inside fun v member =>
      ih v member inside (Json.ordered_arr.mp ordered v member)
    rw [items]
    exact Source.held_stop _ _ Json.arr
  | obj fields ih =>
    obtain ⟨sorted, values⟩ := Json.ordered_obj.mp ordered
    rw [ofJson, toJson, Json.depth]
    refine Source.enter_bind room fun s inside => ?_
    have fields := toFields_held inside fun f member => ih f member inside (values f member)
    rw [fields]
    exact (Source.held_stop _ _ Json.ofFields).trans
      (by rw [Json.ofFields, Keyed.ofList_sorted sorted])
  | _ => exact (Source.held_zero room _).symm

theorem toFields_ofFields {fields : List (String × Json)} {source : Source} (room : source.holds 0)
    (ordered : ∀ f ∈ fields, f.2.Ordered) :
    toFields source (ofFields fields) = source.held (Json.depthFields fields) fields :=
  toFields_held room fun f member => toJson_ofJson room (ordered f member)

/-! ### What is decoded is ordered -/

-- the induction goes along the document, as the decoder does
mutual
theorem ordered_toJson {source : Source} {d : Document} {v : Json} (decoded : toJson source d = .ok v) :
    v.Ordered := by
  cases d with
  | arr items stop =>
    obtain ⟨inner, -, decoded⟩ := bind_eq_ok.mp decoded
    obtain ⟨vs, read, decoded⟩ := bind_eq_ok.mp decoded
    obtain ⟨-, -, made⟩ := bind_eq_ok.mp decoded
    obtain rfl : .arr vs = v := Except.ok.inj made
    exact .arr (ordered_toItems read)
  | obj fields stop =>
    obtain ⟨inner, -, decoded⟩ := bind_eq_ok.mp decoded
    obtain ⟨fs, read, decoded⟩ := bind_eq_ok.mp decoded
    obtain ⟨-, -, made⟩ := bind_eq_ok.mp decoded
    obtain rfl : .ofFields fs = v := Except.ok.inj made
    exact .obj (Keyed.sorted_insertAll .nil) fun f member =>
      (Keyed.mem_insertAll member).elim (fun none => absurd none List.not_mem_nil)
        (ordered_toFields read f)
  | faulty => contradiction
  | _ =>
    obtain rfl := Except.ok.inj decoded
    constructor

theorem ordered_toItems {source : Source} {ds : List Document} {vs : List Json}
    (decoded : toItems source ds = .ok vs) : ∀ v ∈ vs, v.Ordered := by
  cases ds with
  | nil =>
    obtain rfl := Except.ok.inj decoded
    simp
  | cons d ds =>
    obtain ⟨w, first, decoded⟩ := bind_eq_ok.mp decoded
    obtain ⟨ws, later, made⟩ := bind_eq_ok.mp decoded
    obtain rfl : w :: ws = vs := Except.ok.inj made
    exact List.forall_mem_cons.mpr ⟨ordered_toJson first, ordered_toItems later⟩

theorem ordered_toFields {source : Source} {ds : List (String × Document)} {fs : List (String × Json)}
    (decoded : toFields source ds = .ok fs) : ∀ f ∈ fs, f.2.Ordered := by
  cases ds with
  | nil =>
    obtain rfl := Except.ok.inj decoded
    simp
  | cons d ds =>
    obtain ⟨w, first, decoded⟩ := bind_eq_ok.mp decoded
    obtain ⟨ws, later, made⟩ := bind_eq_ok.mp decoded
    obtain rfl : (d.1, w) :: ws = fs := Except.ok.inj made
    exact List.forall_mem_cons.mpr ⟨ordered_toJson first, ordered_toFields later⟩
end

end Document

end Parley
