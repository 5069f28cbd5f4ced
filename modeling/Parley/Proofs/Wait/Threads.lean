import Parley.Proofs.Wait.Records
/-!
# Records of one conversation

The records of a conversation are those of one thread: an organization and a conversation of it. Saving
and claiming a record of one thread leaves all others as they are, with their numbers, and so what is
listed and found there (`Store.Alike`).
-/
namespace Parley

/-- An organization and one of its conversations. -/
abbrev Thread := String × String

/-- The thread to which a scope belongs. -/
def Scope.thread (s : Scope) : Thread := (s.organization, s.conversation)

namespace Wait

/-- The thread to which a record belongs. -/
def Record.thread (r : Record) : Thread := (r.organization, r.conversation)

theorem Record.inScope_iff {r : Record} {s : Scope} : r.inScope s = true ↔ r.thread = s.thread := by
  simp [inScope, thread, Scope.thread]

theorem Record.thread_eq_of_key {r s : Record} (same : r.key = s.key) : r.thread = s.thread := by
  obtain ⟨organization, conversation, -⟩ := Key.mk.inj same
  exact Prod.ext organization conversation

namespace Store
variable {store other third : Store} {scope : Scope} {r : Record}

@[simp] theorem kept_thread (store : Store) (r : Record) : (store.kept r).thread = r.thread := by
  cases store <;> rfl

/-- The stores hold the same of a conversation, under the same numbers. -/
def Alike (scope : Scope) : Store → Store → Prop
  | ledger l, ledger m =>
    (l.held.filter fun h => h.record.inScope scope) = m.held.filter fun h => h.record.inScope scope
  | table t, table u =>
    (t.rows.filter fun h => h.record.inScope scope) = u.rows.filter fun h => h.record.inScope scope
  | _, _ => False

theorem Alike.refl (scope : Scope) (store : Store) : store.Alike scope store := by
  cases store <;> rfl

theorem Alike.trans (one : Alike scope store other) (two : Alike scope other third) :
    Alike scope store third := by
  cases store <;> cases other <;> cases third <;>
    first
    | exact Eq.trans one two
    | exact one.elim
    | exact two.elim

theorem Alike.records (alike : Alike scope store other) :
    (store.records.filter fun r => r.inScope scope) =
      other.records.filter fun r => r.inScope scope := by
  cases store <;> cases other <;> first
    | exact alike.elim
    | simpa [Store.records, List.filter_map, Function.comp_def] using congrArg (List.map _) alike

theorem Alike.list (alike : Alike scope store other) : store.list scope = other.list scope := by
  cases store <;> cases other <;> first
    | exact alike.elim
    | simp only [Store.list, Ledger.list, Table.list, show _ = _ from alike]

theorem Alike.find (alike : Alike scope store other) (now : Instant) :
    store.find now scope = other.find now scope := by
  cases store with
  | ledger l =>
    cases other with
    | ledger m => exact congrArg (List.find? fun r => !r.isExpired now) alike.list
    | table u => exact alike.elim
  | table t =>
    cases other with
    | ledger m => exact alike.elim
    | table u =>
      have fresh (t : Table) : (t.rows.filter fun row =>
            row.record.inScope scope && !row.record.isExpired now) =
          (t.rows.filter fun row => row.record.inScope scope).filter fun row =>
            !row.record.isExpired now := by
        simp [List.filter_filter, Bool.and_comm]
      simp only [Store.find, Table.find, fresh, show _ = _ from alike]

/-! ## Calls for other conversations -/

private theorem inScope_of_key (apart : r.thread ≠ scope.thread) {h : Record}
    (inside : h.inScope scope = true) : h.key ≠ r.key := fun same =>
  apart ((Record.thread_eq_of_key same).symm.trans (Record.inScope_iff.mp inside))

private theorem filter_sub {α : Type} {p q : α → Bool} (l : List α) (sub : ∀ a, p a → q a) :
    (l.filter q).filter p = l.filter p := by
  rw [List.filter_filter]
  refine List.filter_congr fun a _ => ?_
  cases inside : p a with
  | false => rfl
  | true => simp [sub a inside]

/-- A record that is saved in another conversation changes nothing in this one. -/
theorem save_alike (store : Store) (apart : r.thread ≠ scope.thread) :
    Alike scope (store.save r) store := by
  have outside : r.inScope scope = false := by
    simpa using fun inside => apart (Record.inScope_iff.mp inside)
  have rounded : (Table.rounded r).inScope scope = false := outside
  cases store with
  | ledger l =>
    show (Ledger.save l r).held.filter _ = _
    rw [Ledger.save, List.filter_append,
      filter_sub _ fun h inside => by simpa using inScope_of_key apart inside]
    simp [outside]
  | table t =>
    show (Table.save t r).rows.filter _ = _
    rw [Table.save, List.filter_append,
      filter_sub _ fun h inside => by simpa using inScope_of_key apart inside]
    simp [rounded]

/-- So does a record that is claimed there. -/
theorem claim_alike (store : Store) (apart : r.thread ≠ scope.thread) :
    Alike scope (store.claim r).2 store := by
  cases store with
  | ledger l =>
    show (Ledger.claim l r).2.held.filter _ = _
    unfold Ledger.claim
    split
    · split
      · exact filter_sub _ fun h inside => by simpa using inScope_of_key apart inside
      · rfl
    · rfl
  | table t =>
    show (Table.claim t r).2.rows.filter _ = _
    exact filter_sub _ fun h inside => by simp [Table.isRowOf, inScope_of_key apart inside]

/-! ## What is found -/

theorem find_some {now : Instant} (found : store.find now scope = some r) :
    r ∈ store.records ∧ r.thread = scope.thread := by
  cases store with
  | ledger l =>
    have listed := List.mem_of_find?_eq_some (show (l.list scope).find? _ = some r from found)
    simp only [Ledger.list, List.mem_map, Sort.mem_sort, List.mem_filter] at listed
    obtain ⟨h, ⟨held, inside⟩, rfl⟩ := listed
    exact ⟨List.mem_map_of_mem held, Record.inScope_iff.mp inside⟩
  | table t =>
    have listed := List.mem_of_mem_head? (show r ∈ List.head? _ from found)
    simp only [List.mem_map, Sort.mem_sort, List.mem_filter, Bool.and_eq_true] at listed
    obtain ⟨row, ⟨held, inside, -⟩, rfl⟩ := listed
    exact ⟨List.mem_map_of_mem held, Record.inScope_iff.mp inside⟩

theorem find_inTime {now : Instant} (found : store.find now scope = some r) :
    r.isExpired now = false := by
  cases store with
  | ledger l =>
    have fresh := List.find?_some (show (l.list scope).find? _ = some r from found)
    simpa using fresh
  | table t =>
    have listed := List.mem_of_mem_head? (show r ∈ List.head? _ from found)
    simp only [List.mem_map, Sort.mem_sort, List.mem_filter, Bool.and_eq_true] at listed
    obtain ⟨row, ⟨-, -, fresh⟩, rfl⟩ := listed
    simpa using fresh

end Store

end Wait

end Parley
