import Parley.Proofs.Wait.Live
/-!
# What is found first

Whatever calls were made of a store that started without records, the record that is found is the
newest of those that wait in the conversation and have not expired (`Holds.find_newest`), and there
is always one if any waits (`Holds.find_eq_none`). A claim of it succeeds and takes out this record
and no other (`Holds.claim_found`).
-/
namespace Parley.Wait.Store
variable {store : Store} {rs : List Record} {now : Instant} {scope : Scope}

/-- The store after some calls. -/
def after (store : Store) (calls : List Call) : Store :=
  calls.foldl (fun s c => (s.call c).2) store

/-- The store is what some calls have made of one without records. -/
def Reached (calls : List Call) (store : Store) : Prop :=
  store = (ledger {}).after calls ∨ store = (table {}).after calls

theorem Holds.after {past : List Call} (holds : store.Holds (waiting past)) (calls : List Call) :
    (store.after calls).Holds (waiting (past ++ calls)) := by
  induction calls generalizing store past with
  | nil => rwa [List.append_nil]
  | cons c calls ih =>
    have next : (store.call c).2.Holds (waiting (past ++ [c])) :=
      waiting_append past c ▸ holds.call c
    have last := ih next
    rwa [List.append_assoc] at last

/-- After some calls a store holds what waits. -/
theorem Reached.holds {calls : List Call} (reached : Reached calls store) :
    store.Holds (waiting calls) := by
  have memory : (ledger {}).Holds (waiting []) := ⟨rfl, .nil, .nil, nofun⟩
  have kept : (table {}).Holds (waiting []) := ⟨rfl, .nil, .nil, nofun⟩
  rcases reached with rfl | rfl
  · exact memory.after calls
  · exact kept.after calls

/-- The records of a conversation that have not expired. -/
def pending (now : Instant) (scope : Scope) (rs : List Record) : List Record :=
  (live now rs).filter (·.inScope scope)

/-- Of some records in the order in which they were saved this one was made last, or saved last of
those that were made at one time. A table tells times by the second. -/
def Newest (seconds : Bool) (rs : List Record) (r : Record) : Prop :=
  ∃ earlier later, rs = earlier ++ r :: later ∧
    (∀ e ∈ earlier, notEarlier seconds r e = true) ∧ ∀ l ∈ later, ¬ notEarlier seconds l r = true

theorem Holds.find_newest (holds : store.Holds rs) {r : Record}
    (found : store.find now scope = some r) :
    ∃ s, Newest store.isTable (pending now scope rs) s ∧ r = store.kept s := by
  rw [holds.find_live, List.head?_map, Option.map_eq_some_iff] at found
  obtain ⟨s, first, rfl⟩ := found
  exact ⟨s, Sort.head_sort (notEarlier_total _) (notEarlier_trans _) first, rfl⟩

theorem Holds.find_eq_none (holds : store.Holds rs) :
    store.find now scope = none ↔ pending now scope rs = [] := by
  rw [holds.find_live, List.head?_eq_none_iff, List.map_eq_nil_iff]
  constructor
  · intro none
    exact List.perm_nil.mp (none ▸ Sort.sort_perm _ (pending now scope rs)).symm
  · intro none
    show Sort.sort _ (pending now scope rs) = []
    rw [none]
    rfl

/-- The record that is found can be claimed, and all the others stay. -/
theorem Holds.claim_found (holds : store.Holds rs) {r : Record}
    (found : store.find now scope = some r) :
    (store.claim r).1 = true ∧
      (store.claim r).2.records = store.records.filter fun h => h.key ≠ r.key := by
  have places := holds.store_places
  have stored := (find_some found).1
  refine ⟨(claim_won_iff places r).mpr ⟨r, stored, .refl r⟩, ?_⟩
  rw [records_claim places]
  refine List.filter_congr fun h member => ?_
  have same : h.Same r ↔ h.key = r.key := by
    refine ⟨And.left, fun place => ?_⟩
    obtain rfl := List.inj_on_of_nodup_map places member stored place
    exact .refl h
  simp [same]

end Parley.Wait.Store
