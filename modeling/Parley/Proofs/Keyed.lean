import Parley.Keyed
/-!
# Tables in order

Tables stay in the order of their keys, and the table of entries that are in order is these entries.
Such a table has each entry under its key (`get?_of_mem`), and a new key adds one entry to any table
(`insert_perm`).
-/
namespace Parley.Keyed
variable {α : Type} {key : String} {value : α} {table : Keyed α}

private theorem lt_of_not_gt {a b : String} (before : ¬ a < b) (other : b ≠ a) : b < a :=
  Decidable.by_contra fun after =>
    other (String.le_antisymm (String.not_lt.mp before) (String.not_lt.mp after))

theorem mem_of_get? (found : get? key table = some value) : (key, value) ∈ table := by
  induction table with
  | nil => simp [get?] at found
  | cons entry rest ih =>
    obtain ⟨k, v⟩ := entry
    by_cases same : k = key
    · obtain rfl : v = value := by simpa [get?, same] using found
      simp [same]
    · exact List.mem_cons_of_mem _ (ih (by simpa [get?, same] using found))

theorem get?_of_mem (sorted : table.Sorted) (member : (key, value) ∈ table) :
    get? key table = some value := by
  induction table with
  | nil => exact absurd member (List.not_mem_nil)
  | cons head rest ih =>
    obtain ⟨k, v⟩ := head
    obtain ⟨first, ordered⟩ := List.pairwise_cons.mp sorted
    rcases List.mem_cons.mp member with same | later
    · obtain ⟨rfl, rfl⟩ := Prod.mk.inj same
      simp [get?]
    · have other : k ≠ key := fun same => String.lt_irrefl key (same ▸ first _ later)
      simp [get?, other, ih ordered later]

theorem Sorted.nodup_keys (sorted : table.Sorted) : table.keys.Nodup := by
  have apart (a b : String × α) (before : a.1 < b.1) : a.1 ≠ b.1 := by
    intro same
    rw [same] at before
    exact String.lt_irrefl _ before
  exact List.pairwise_map.mpr (sorted.imp (apart _ _))

theorem insert_perm (fresh : get? key table = none) :
    (insert key value table).Perm ((key, value) :: table) := by
  induction table with
  | nil => exact .refl _
  | cons head rest ih =>
    obtain ⟨k, v⟩ := head
    have other : k ≠ key := by
      rintro rfl
      simp [get?] at fresh
    simp only [get?, other, if_false] at fresh
    simp only [insert, other, if_false]
    split
    · exact .refl _
    · exact ((ih fresh).cons _).trans (.swap ..)

theorem mem_insert {entry : String × α} (member : entry ∈ insert key value table) :
    entry = (key, value) ∨ entry ∈ table := by
  induction table with
  | nil => simpa [insert] using member
  | cons head rest ih =>
    obtain ⟨k, v⟩ := head
    unfold insert at member
    split at member
    · rcases List.mem_cons.mp member with new | old
      · exact .inl new
      · exact .inr (List.mem_cons_of_mem _ old)
    · split at member
      · exact List.mem_cons.mp member
      · rcases List.mem_cons.mp member with first | later
        · exact .inr (first ▸ List.mem_cons_self ..)
        · exact (ih later).imp_right (List.mem_cons_of_mem _)

theorem sorted_insert (sorted : table.Sorted) : (insert key value table).Sorted := by
  induction table with
  | nil => exact List.pairwise_singleton ..
  | cons head rest ih =>
    obtain ⟨k, v⟩ := head
    obtain ⟨first, ordered⟩ := List.pairwise_cons.mp sorted
    unfold insert
    split
    · next same => exact List.pairwise_cons.mpr ⟨same ▸ first, ordered⟩
    · split
      · next before =>
        refine List.pairwise_cons.mpr ⟨fun entry member => ?_, sorted⟩
        rcases List.mem_cons.mp member with rfl | later
        · exact before
        · exact String.lt_trans before (first entry later)
      · next other notBefore =>
        refine List.pairwise_cons.mpr ⟨fun entry member => ?_, ih ordered⟩
        rcases mem_insert member with rfl | later
        · exact lt_of_not_gt notBefore other
        · exact first entry later

theorem mem_insertAll {entries : List (String × α)} {entry : String × α}
    (member : entry ∈ insertAll table entries) : entry ∈ table ∨ entry ∈ entries := by
  induction entries generalizing table with
  | nil => exact .inl member
  | cons head rest ih =>
    rcases ih member with inserted | later
    · rcases mem_insert inserted with new | old
      · exact .inr (new ▸ List.mem_cons_self ..)
      · exact .inl old
    · exact .inr (List.mem_cons_of_mem _ later)

/-- A key that is under none of the entries keeps its value. -/
theorem get?_insertAll_of_not_mem {entries : List (String × α)} (other : key ∉ entries.map Prod.fst) :
    get? key (insertAll table entries) = get? key table := by
  induction entries generalizing table with
  | nil => rfl
  | cons head rest ih =>
    obtain ⟨first, later⟩ := List.ne_and_not_mem_of_not_mem_cons other
    exact (ih later).trans (get?_insert_of_ne _ _ first)

/-- Of entries under different keys each one is in the table, whatever was there before. -/
theorem get?_insertAll_of_mem {entries : List (String × α)} (distinct : (entries.map Prod.fst).Nodup)
    (member : (key, value) ∈ entries) : get? key (insertAll table entries) = some value := by
  induction entries generalizing table with
  | nil => exact absurd member List.not_mem_nil
  | cons head rest ih =>
    obtain ⟨alone, distinct⟩ := List.nodup_cons.mp distinct
    rcases List.mem_cons.mp member with rfl | later
    · exact (get?_insertAll_of_not_mem alone).trans (get?_insert_self _ _ _)
    · exact ih distinct later

theorem sorted_insertAll {entries : List (String × α)} (sorted : table.Sorted) :
    (insertAll table entries).Sorted := by
  induction entries generalizing table with
  | nil => exact sorted
  | cons head rest ih => exact ih (sorted_insert sorted)

private theorem insert_last (last : ∀ entry ∈ table, entry.1 < key) :
    insert key value table = table ++ [(key, value)] := by
  induction table with
  | nil => rfl
  | cons head rest ih =>
    obtain ⟨k, v⟩ := head
    obtain ⟨before, later⟩ := List.forall_mem_cons.mp last
    have other : k ≠ key := fun same => String.lt_irrefl key (same ▸ before)
    simp only [insert, other, String.lt_asymm before, if_false, ih later, List.cons_append]

private theorem insertAll_sorted {entries : List (String × α)}
    (sorted : (table ++ entries).Sorted) : insertAll table entries = table ++ entries := by
  induction entries generalizing table with
  | nil => simp [insertAll]
  | cons head rest ih =>
    have last : ∀ entry ∈ table, entry.1 < head.1 := fun entry member =>
      (List.pairwise_append.mp sorted).2.2 entry member head (List.mem_cons_self ..)
    calc insertAll table (head :: rest)
        = insertAll (insert head.1 head.2 table) rest := rfl
      _ = insertAll (table ++ [head]) rest := by rw [insert_last last]
      _ = table ++ head :: rest := by rw [ih (by simpa using sorted), ← List.append_cons]

/-- The table of entries in order is these entries. -/
theorem ofList_sorted {entries : List (String × α)} (sorted : Sorted entries) :
    ofList entries = entries :=
  insertAll_sorted sorted

end Parley.Keyed
