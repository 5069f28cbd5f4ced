/-!
# Values under string keys

A table kept in the order of its keys, each key once: `insert` puts an entry at its place or
replaces the value that the key had. Keys are ordered by their code points.
-/
namespace Parley

/-- Values under string keys, in the order of the keys. -/
abbrev Keyed (α : Type) := List (String × α)

namespace Keyed
variable {α β : Type}

def get? (key : String) : Keyed α → Option α
  | [] => none
  | (k, v) :: rest => if k = key then some v else get? key rest

/-- The table with the value under the key, in place of any value it had. -/
def insert (key : String) (value : α) : Keyed α → Keyed α
  | [] => [(key, value)]
  | (k, v) :: rest =>
    if k = key then (key, value) :: rest
    else if key < k then (key, value) :: (k, v) :: rest
    else (k, v) :: insert key value rest

/-- The entries put in one after the other. -/
def insertAll (table : Keyed α) (entries : List (String × α)) : Keyed α :=
  entries.foldl (fun t (k, v) => insert k v t) table

/-- The table of the entries; of two entries under one key the later one counts. -/
def ofList (entries : List (String × α)) : Keyed α :=
  insertAll [] entries

def keys (table : Keyed α) : List String :=
  table.map Prod.fst

/-- Keys stand in strictly ascending order. -/
def Sorted (table : Keyed α) : Prop :=
  table.Pairwise fun a b => a.1 < b.1

theorem get?_insert_self (key : String) (value : α) (table : Keyed α) :
    get? key (insert key value table) = some value := by
  induction table with
  | nil => simp [insert, get?]
  | cons entry rest ih =>
    obtain ⟨k, v⟩ := entry
    by_cases same : k = key
    · simp [insert, get?, same]
    · by_cases before : key < k
      · simp [insert, get?, same, before]
      · simp [insert, get?, same, before, ih]

theorem get?_insert_of_ne {key other : String} (value : α) (table : Keyed α) (h : other ≠ key) :
    get? other (insert key value table) = get? other table := by
  induction table with
  | nil => simp [insert, get?, Ne.symm h]
  | cons entry rest ih =>
    obtain ⟨k, v⟩ := entry
    by_cases same : k = key
    · subst same
      simp [insert, get?, Ne.symm h]
    · by_cases before : key < k
      · simp [insert, get?, same, before, Ne.symm h]
      · simp [insert, get?, same, before, ih]

end Keyed

end Parley
