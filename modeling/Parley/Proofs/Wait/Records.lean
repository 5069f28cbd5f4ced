import Parley.Wait.Store
import Mathlib.Data.List.Nodup
import Mathlib.Data.List.Pairwise
/-!
# What the calls of a store do to its records

Both kinds of stores are the same as far as their records go: saving puts a record in the place of the
one that waits there (`Store.records_save`), claiming takes out the record of one suspension and of no
other (`Store.records_claim`), reaping takes out what has expired (`Store.records_reap`). All that is
assumed is that the records differ in their places and in their identifiers, which every call keeps
as long as an identifier is not used again (`Store.valid_save`).
-/
namespace Parley.Wait

/-- Two records are of one suspension: at one place and under one identifier. -/
def Record.Same (c r : Record) : Prop := c.key = r.key ∧ c.id = r.id

instance (c r : Record) : Decidable (c.Same r) := inferInstanceAs (Decidable (_ ∧ _))

theorem Record.Same.refl (r : Record) : r.Same r := ⟨rfl, rfl⟩

namespace Store

def ids (store : Store) : List String := store.records.map Record.id

/-- No two records wait at one place, and no two have one identifier. -/
structure Valid (store : Store) : Prop where
  places : (store.records.map Record.key).Nodup
  ids : store.ids.Nodup

/-- A record as the store keeps it. -/
def kept (store : Store) (r : Record) : Record :=
  match store with
  | ledger _ => r
  | table _ => Table.rounded r

@[simp] theorem kept_id (store : Store) (r : Record) : (store.kept r).id = r.id := by
  cases store <;> rfl

@[simp] theorem kept_key (store : Store) (r : Record) : (store.kept r).key = r.key := by
  cases store <;> rfl

@[simp] theorem kept_snapshot (store : Store) (r : Record) : (store.kept r).snapshot = r.snapshot := by
  cases store <;> rfl

/-- A saved record takes the place of the one that waited there. -/
theorem records_save (store : Store) (r : Record) :
    (store.save r).records = store.records.filter (fun h => h.key ≠ r.key) ++ [store.kept r] := by
  cases store with
  | ledger l => simp [save, Ledger.save, records, kept, List.filter_map, Function.comp_def]
  | table t => simp [save, Table.save, records, kept, List.filter_map, Function.comp_def]

/-! ## Claiming -/

theorem Valid.same_id {store : Store} (valid : store.Valid) {h r : Record} (one : h ∈ store.records)
    (two : r ∈ store.records) (id : h.id = r.id) : h = r :=
  List.inj_on_of_nodup_map valid.ids one two id

private theorem find_place {l : Ledger} {r : Record} {h : Held}
    (found : (l.held.find? fun h => h.record.key = r.key) = some h) :
    h.record ∈ (ledger l).records ∧ h.record.key = r.key :=
  ⟨List.mem_map_of_mem (List.mem_of_find?_eq_some found), by simpa using List.find?_some found⟩

private theorem find_no_place {l : Ledger} {r : Record}
    (missing : (l.held.find? fun h => h.record.key = r.key) = none) :
    ∀ h ∈ (ledger l).records, h.key ≠ r.key := by
  intro h member
  obtain ⟨held, inside, rfl⟩ := List.mem_map.mp member
  simpa using List.find?_eq_none.mp missing held inside

private theorem isRowOf_eq (r : Record) :
    Table.isRowOf r = fun row => decide (row.record.Same r) := rfl

section
variable {store : Store} (places : (store.records.map Record.key).Nodup)
include places

private theorem same_place {h r : Record} (one : h ∈ store.records) (two : r ∈ store.records)
    (place : h.key = r.key) : h = r :=
  List.inj_on_of_nodup_map places one two place

/-- A claim takes out the record of its suspension and no other one. -/
theorem records_claim (r : Record) :
    (store.claim r).2.records = store.records.filter fun h => ¬ h.Same r := by
  cases store with
  | table t =>
    simp only [claim, Table.claim, isRowOf_eq, records, List.filter_map, Function.comp_def,
      decide_not]
  | ledger l =>
    have keeps (different : ∀ h ∈ (ledger l).records, ¬ h.Same r) :
        (ledger l).records.filter (fun h => ¬ h.Same r) = (ledger l).records :=
      List.filter_eq_self.mpr fun h member => by simpa using different h member
    cases found : l.held.find? fun h => h.record.key = r.key with
    | none =>
      rw [keeps fun h member same => find_no_place found h member same.1]
      simp [claim, Ledger.claim, found]
    | some held =>
      obtain ⟨member, place⟩ := find_place found
      by_cases id : held.record.id = r.id
      · have only : ∀ h ∈ (ledger l).records, h.key = r.key ↔ h.Same r := fun h inside =>
          ⟨fun at_place => ⟨at_place,
            (same_place places inside member (at_place.trans place.symm)) ▸ id⟩, And.left⟩
        calc ((ledger l).claim r).2.records
            = (ledger l).records.filter fun h => ¬ h.key = r.key := by
              simp [claim, Ledger.claim, found, id, records, List.filter_map, Function.comp_def]
          _ = (ledger l).records.filter fun h => ¬ h.Same r :=
              List.filter_congr fun h inside => by simp only [only h inside]
      · rw [keeps fun h inside same =>
          id ((same_place places inside member (same.1.trans place.symm)) ▸ same.2)]
        simp [claim, Ledger.claim, found, id]

/-- A claim succeeds exactly when the record of its suspension is there. -/
theorem claim_won_iff (r : Record) :
    (store.claim r).1 = true ↔ ∃ h ∈ store.records, h.Same r := by
  cases store with
  | table t =>
    have rows : (t.rows.filter (Table.isRowOf r)).length =
        (((table t).records.filter fun h => h.Same r).map Record.key).length := by
      simp only [records, List.filter_map, Function.comp_def, List.length_map, isRowOf_eq]
    have distinct : (((table t).records.filter fun h => h.Same r).map Record.key).Nodup :=
      places.sublist (List.filter_sublist.map _)
    have at_key : ∀ k ∈ ((table t).records.filter fun h => h.Same r).map Record.key,
        k = r.key := by
      intro k member
      obtain ⟨h, inside, rfl⟩ := List.mem_map.mp member
      exact (of_decide_eq_true (List.mem_filter.mp inside).2).1
    simp only [claim, Table.claim, beq_iff_eq, rows]
    constructor
    · intro one
      obtain ⟨k, single⟩ := List.length_eq_one_iff.mp one
      obtain ⟨h, inside, -⟩ := List.mem_map.mp (single ▸ List.mem_singleton_self k)
      exact ⟨h, (List.mem_filter.mp inside).1, of_decide_eq_true (List.mem_filter.mp inside).2⟩
    · rintro ⟨h, member, same⟩
      have inside : h.key ∈ ((table t).records.filter fun h => h.Same r).map Record.key :=
        List.mem_map_of_mem (List.mem_filter.mpr ⟨member, decide_eq_true same⟩)
      rw [List.eq_replicate_of_mem at_key, List.nodup_replicate] at distinct
      have := List.length_pos_of_mem inside
      omega
  | ledger l =>
    cases found : l.held.find? fun h => h.record.key = r.key with
    | none =>
      simp only [claim, Ledger.claim, found, Bool.false_eq_true, false_iff]
      rintro ⟨h, member, same⟩
      exact find_no_place found h member same.1
    | some held =>
      obtain ⟨member, place⟩ := find_place found
      by_cases id : held.record.id = r.id
      · simp only [claim, Ledger.claim, found, id, if_true, true_iff]
        exact ⟨held.record, member, place, id⟩
      · simp only [claim, Ledger.claim, found, id, if_false, Bool.false_eq_true, false_iff]
        rintro ⟨h, inside, same⟩
        exact id ((same_place places inside member (same.1.trans place.symm)) ▸ same.2)

end

theorem mem_of_mem_claim {store : Store} {h r : Record} (left : h ∈ (store.claim r).2.records) :
    h ∈ store.records := by
  cases store with
  | ledger l =>
    obtain ⟨held, inside, rfl⟩ := List.mem_map.mp (show h ∈ (l.claim r).2.held.map _ from left)
    refine List.mem_map_of_mem ?_
    unfold Ledger.claim at inside
    split at inside
    · split at inside
      · exact (List.mem_filter.mp inside).1
      · exact inside
    · exact inside
  | table t =>
    obtain ⟨row, inside, rfl⟩ := List.mem_map.mp left
    exact List.mem_map_of_mem (List.mem_filter.mp inside).1

/-! ## Reaping -/

theorem records_reap (store : Store) (now : Instant) :
    (store.reap now).2.records = store.records.filter fun h => !h.isExpired now := by
  cases store with
  | ledger l => simp [reap, Ledger.reap, records, List.filter_map, Function.comp_def]
  | table t => simp [reap, Table.reap, records, List.filter_map, Function.comp_def]

/-- What is reaped is what has expired. -/
theorem mem_reaped {store : Store} {now : Instant} {r : Record} :
    r ∈ (store.reap now).1 ↔ r ∈ store.records ∧ r.isExpired now = true := by
  cases store with
  | ledger l =>
    simp only [reap, Ledger.reap, Sort.mem_sort, records, List.mem_map, List.mem_filter]
    constructor
    · rintro ⟨h, ⟨member, expired⟩, rfl⟩
      exact ⟨⟨h, member, rfl⟩, expired⟩
    · rintro ⟨⟨h, member, rfl⟩, expired⟩
      exact ⟨h, ⟨member, expired⟩, rfl⟩
  | table t =>
    simp only [reap, Table.reap, Sort.mem_sort, records, List.mem_map, List.mem_filter]
    constructor
    · rintro ⟨h, ⟨member, expired⟩, rfl⟩
      exact ⟨⟨h, member, rfl⟩, expired⟩
    · rintro ⟨⟨h, member, rfl⟩, expired⟩
      exact ⟨h, ⟨member, expired⟩, rfl⟩

/-! ## Stores stay valid -/

theorem Valid.of_sublist {store less : Store} (valid : store.Valid)
    (part : less.records.Sublist store.records) : less.Valid :=
  ⟨valid.places.sublist (part.map _), valid.ids.sublist (part.map _)⟩

theorem valid_save {store : Store} (valid : store.Valid) {r : Record} (new : r.id ∉ store.ids) :
    (store.save r).Valid := by
  have part : (store.records.filter fun h => h.key ≠ r.key).Sublist store.records :=
    List.filter_sublist
  constructor
  · rw [records_save, List.map_append, List.nodup_append']
    refine ⟨valid.places.sublist (part.map _), by simp, ?_⟩
    intro k member
    obtain ⟨h, inside, rfl⟩ := List.mem_map.mp member
    simpa using (List.mem_filter.mp inside).2
  · rw [ids, records_save, List.map_append, List.nodup_append']
    refine ⟨valid.ids.sublist (part.map _), by simp, ?_⟩
    intro id member other
    have same : id = r.id := by simpa using other
    exact new (same ▸ (part.map Record.id).subset member)

end Store

end Parley.Wait
