import Parley.Proofs.Wait.Reference
import Parley.Proofs.Wait.Threads
/-!
# The live part of a store

What a store finds, and what becomes of the records that it finds, follows from the records that have
not expired, in the order in which they were saved. So two stores of one kind that have the same live
records cannot be told apart by looking for runs to take up, and no call makes a difference between
them (`Store.Resembles`), also when one of them is reaped and the other one is not.
-/
namespace Parley.Wait.Store
variable {store other : Store} {rs ss : List Record} {now next : Instant} {scope : Scope}

/-- The records that have not expired. -/
def live (now : Instant) (rs : List Record) : List Record := rs.filter fun r => !r.isExpired now

theorem live_later (le : now.seconds ≤ next.seconds) (rs : List Record) :
    live next rs = live next (live now rs) := by
  unfold live
  rw [List.filter_filter]
  refine List.filter_congr fun r _ => ?_
  cases gone : r.isExpired now with
  | true => simp [Record.isExpired_of_le gone le]
  | false => simp

/-! ## The order of a store -/

def isTable : Store → Bool
  | ledger _ => false
  | table _ => true

/-- A ledger compares the instants at which records were made, a table the seconds. -/
def notEarlier (seconds : Bool) (a b : Record) : Bool :=
  if seconds then Sort.atLeast second a b else !Instant.before a.createdAt b.createdAt

theorem notEarlier_total (seconds : Bool) (a b : Record) :
    notEarlier seconds a b = true ∨ notEarlier seconds b a = true := by
  cases seconds with
  | true =>
    simp only [notEarlier, if_true, Sort.atLeast_iff]
    omega
  | false =>
    simp [notEarlier, Instant.before]
    omega

theorem notEarlier_trans (seconds : Bool) (a b c : Record) (one : notEarlier seconds a b = true)
    (two : notEarlier seconds b c = true) : notEarlier seconds a c = true := by
  cases seconds with
  | true =>
    simp only [notEarlier, if_true, Sort.atLeast_iff] at one two ⊢
    omega
  | false =>
    simp [notEarlier, Instant.before] at one two ⊢
    omega

private theorem newer_notEarlier {a b : Held} (number : a.number < b.number) :
    Ledger.newer b a = notEarlier false b.record a.record := by
  have instants : b.record.createdAt = a.record.createdAt ↔
      b.record.createdAt.seconds = a.record.createdAt.seconds ∧
        b.record.createdAt.nanos = a.record.createdAt.nanos := by
    rw [← Instant.mk.injEq]
  rw [Bool.eq_iff_iff]
  simp [Ledger.newer, notEarlier, Instant.before, number, instants]
  omega

/-- The records that pass a test come in the order in which they were made, and those between which
this order does not decide in the order in which they were saved, all of it from the end. -/
theorem Holds.sorted (holds : store.Holds rs) {p : Record → Bool}
    (same : ∀ r, p (store.kept r) = p r) :
    store.sorted p = (Sort.sort (notEarlier store.isTable) (rs.filter p)).map store.kept := by
  -- both kinds of stores sort what they keep of the records, and what they keep decides the order
  have kept : (Sort.sort (notEarlier store.isTable) (rs.filter p)).map store.kept =
      Sort.sort (notEarlier store.isTable) (store.records.filter p) := by
    rw [Sort.map_sort, holds.records, filter_kept same]
    refine List.pairwise_of_forall fun x y => ?_
    cases store with
    | ledger => rfl
    | table => simp [notEarlier, isTable, Sort.atLeast]
  rw [kept]
  cases store with
  | ledger l =>
    have numbers := List.pairwise_map.mp holds.numbered.ascending
    have newer : (l.held.filter fun h => p h.record).Pairwise fun a b =>
        Ledger.newer b a = notEarlier false b.record a.record :=
      (numbers.imp newer_notEarlier).sublist List.filter_sublist
    rw [Store.sorted, Sort.map_sort newer, Store.records, List.filter_map]
    rfl
  | table t =>
    have numbers := List.pairwise_map.mp holds.numbered.ascending
    have newer : (t.rows.filter fun row => p row.record).Pairwise fun a b =>
        Table.newer b a = notEarlier true b.record a.record :=
      (numbers.imp table_newer).sublist List.filter_sublist
    rw [Store.sorted, Sort.map_sort newer, Store.records, List.filter_map]
    rfl

/-- What is found is the first of the live records of the conversation. -/
theorem Holds.find_live (holds : store.Holds rs) (now : Instant) (scope : Scope) :
    store.find now scope = ((Sort.sort (notEarlier store.isTable)
      ((live now rs).filter (·.inScope scope))).map store.kept).head? := by
  cases store with
  | ledger l =>
    have found : (ledger l).find now scope =
        (((ledger l).sorted (·.inScope scope)).find? fun r => !r.isExpired now) := rfl
    rw [found, holds.sorted fun r => kept_inScope _ r scope, ← List.head?_filter, List.filter_map]
    simp only [Function.comp_def, kept_isExpired]
    rw [Sort.filter_sort_total (notEarlier_total _) (notEarlier_trans _), live, List.filter_filter,
      List.filter_filter]
    simp only [Bool.and_comm]
  | table t =>
    have found : (table t).find now scope =
        ((table t).sorted fun r => r.inScope scope && !r.isExpired now).head? := rfl
    rw [found, holds.sorted fun r => by simp, live, List.filter_filter]

/-- What is reaped is what is no longer live, each record once. -/
theorem reap_perm (store : Store) (now : Instant) :
    (store.reap now).1.Perm (store.records.filter fun r => r.isExpired now) := by
  have reaped : (store.reap now).1 =
      Sort.sort Record.expiresBefore (store.records.filter fun r => r.isExpired now) := by
    cases store <;> simp [Store.reap, Ledger.reap, Table.reap, Store.records, List.filter_map,
      Function.comp_def]
  exact reaped ▸ Sort.sort_perm ..

/-! ## Stores that look alike -/

/-- Stores of one kind that hold the same live records. -/
def Resembles (now : Instant) (store other : Store) : Prop :=
  store.isTable = other.isTable ∧
    ∃ rs ss, store.Holds rs ∧ other.Holds ss ∧ live now rs = live now ss

theorem Holds.resembles (holds : store.Holds rs) (now : Instant) : store.Resembles now store :=
  ⟨rfl, rs, rs, holds, holds, rfl⟩

@[simp] theorem isTable_call (store : Store) (c : Call) :
    (store.call c).2.isTable = store.isTable := by
  cases store <;> cases c <;> rfl

theorem kept_of_isTable (kind : store.isTable = other.isTable) : store.kept = other.kept := by
  cases store <;> cases other <;> first | rfl | simp [isTable] at kind

namespace Resembles

theorem call (alike : store.Resembles now other) (c : Call) :
    (store.call c).2.Resembles now (other.call c).2 := by
  obtain ⟨kind, rs, ss, holds, holds', same⟩ := alike
  refine ⟨by simpa using kind, _, _, holds.call c, holds'.call c, ?_⟩
  have swap (rs : List Record) : live now (rs.filter fun r => !c.takesAway r) =
      (live now rs).filter fun r => !c.takesAway r := by
    simp only [live, List.filter_filter, Bool.and_comm]
  -- a call takes out and adds the same of the live records as of all records
  have apart (rs : List Record) : live now (rs.filter (fun r => !c.takesAway r) ++ c.saved?.toList) =
      (live now rs).filter (fun r => !c.takesAway r) ++ live now c.saved?.toList := by
    rw [← swap, live, List.filter_append]
    rfl
  rw [apart, apart, same]

/-- It makes no difference when what has expired is taken out of one store only. -/
theorem reap (alike : store.Resembles now other) :
    (store.reap now).2.Resembles now other := by
  obtain ⟨kind, rs, ss, holds, holds', same⟩ := alike
  have left := holds.call (.reap now)
  refine ⟨(isTable_call store (.reap now)).trans kind, _, ss, left, holds', ?_⟩
  have rest : rs.filter (fun r => !(Call.reap now).takesAway r) ++ (Call.reap now).saved?.toList =
      live now rs := by
    simp [Call.takesAway, Call.saved?, live]
  rw [rest, ← live_later (Int.le_refl _), same]

theorem later (alike : store.Resembles now other) (le : now.seconds ≤ next.seconds) :
    store.Resembles next other := by
  obtain ⟨kind, rs, ss, holds, holds', same⟩ := alike
  exact ⟨kind, rs, ss, holds, holds', by rw [live_later le rs, same, ← live_later le ss]⟩

theorem find (alike : store.Resembles now other) (scope : Scope) :
    store.find now scope = other.find now scope := by
  obtain ⟨kind, rs, ss, holds, holds', same⟩ := alike
  rw [holds.find_live, holds'.find_live, kind, kept_of_isTable kind, same]

/-- Both stores have the record that is found, so who claims it gets it. -/
theorem claim (alike : store.Resembles now other) {r : Record}
    (found : store.find now scope = some r) :
    (store.claim r).1 = true ∧ (other.claim r).1 = true := by
  have found' := (alike.find scope).symm.trans found
  obtain ⟨-, rs, ss, holds, holds', -⟩ := alike
  exact ⟨(claim_won_iff holds.store_places r).mpr ⟨r, (find_some found).1, .refl r⟩,
    (claim_won_iff holds'.store_places r).mpr ⟨r, (find_some found').1, .refl r⟩⟩

end Resembles

end Parley.Wait.Store
