import Parley.Proofs.Wait.Records
import Parley.Proofs.Sort
/-!
# One specification of both kinds of stores

What a store has to answer follows from the calls made so far and from nothing else: a record waits
from the call that saves it to the first one that takes it away (`waiting`), and a call asks about the
records that wait (`wanted`). The numbers by which a ledger and a table order what was made in one
second are not part of this. Both answer as they have to (`answers_agree`), unless a record is saved
after one that was made later within the same second: a ledger goes by the part of the second as
well, of which a table knows nothing.
-/
namespace Parley.Wait.Store

/-! ## Calls -/

/-- A call of a store. -/
inductive Call
  | save (r : Record)
  | find (now : Instant) (scope : Scope)
  | claim (r : Record)
  | list (scope : Scope)
  | reap (now : Instant)

/-- What a call gives back. -/
inductive Answer
  | saved
  | found (r : Option Record)
  | claimed (won : Bool)
  | listed (rs : List Record)
  | reaped (rs : List Record)

def call (store : Store) : Call → Answer × Store
  | .save r => (.saved, store.save r)
  | .find now scope => (.found (store.find now scope), store)
  | .claim r => (.claimed (store.claim r).1, (store.claim r).2)
  | .list scope => (.listed (store.list scope), store)
  | .reap now => (.reaped (store.reap now).1, (store.reap now).2)

/-- The answers to calls made one after the other. -/
def answers (store : Store) : List Call → List Answer
  | [] => []
  | c :: calls => (store.call c).1 :: answers (store.call c).2 calls

/-- The record that a call saves. -/
def Call.saved? : Call → Option Record
  | save r => some r
  | _ => none

/-- Two answers are the same. What was made counts by the whole second, and records that expire in
one second may come in any order when they are reaped. -/
def Answer.Agrees : Answer → Answer → Prop
  | saved, saved => True
  | found r, found s => r.map Table.rounded = s.map Table.rounded
  | claimed won, claimed won' => won = won'
  | listed rs, listed ss => rs.map Table.rounded = ss.map Table.rounded
  | reaped rs, reaped ss => rs.map Record.timeout = ss.map Record.timeout ∧
      (rs.map Table.rounded).Perm (ss.map Table.rounded)
  | _, _ => False

/-! ## The specification -/

/-- The call takes a waiting record away: another one is saved at its place, it is claimed by its
place and identifier, or it has expired when records are reaped. -/
def Call.takesAway (r : Record) : Call → Bool
  | save s => r.key = s.key
  | claim c => r.Same c
  | reap now => r.isExpired now
  | find .. | list .. => false

/-- The records that wait after some calls, in the order in which they were saved. -/
def waiting : List Call → List Record
  | [] => []
  | .save r :: later => if later.any (·.takesAway r) then waiting later else r :: waiting later
  | _ :: later => waiting later

/-- The second in which a record was made. -/
def second (r : Record) : Int := r.createdAt.seconds

/-- Records by the second in which they were made, those of one second as they were saved, and all of
it from the end. -/
def newestFirst (rs : List Record) : List Record := (Sort.sort (Sort.below second) rs).reverse

/-- What a call has to answer when some records wait. -/
def wanted (rs : List Record) : Call → Answer
  | .save _ => .saved
  | .find now scope =>
    .found ((newestFirst (rs.filter (·.inScope scope))).find? fun r => !r.isExpired now)
  | .claim c => .claimed (rs.any (·.Same c))
  | .list scope => .listed (newestFirst (rs.filter (·.inScope scope)))
  | .reap now => .reaped (Sort.sort Record.expiresBefore (rs.filter (·.isExpired now)))

/-- What further calls have to answer. -/
def wantedAfter (past : List Call) : List Call → List Answer
  | [] => []
  | c :: calls => wanted (waiting past) c :: wantedAfter (past ++ [c]) calls

/-- The second record was not made earlier within the same second. -/
def InSecond (r s : Record) : Prop :=
  r.createdAt.seconds = s.createdAt.seconds → r.createdAt.nanos ≤ s.createdAt.nanos

instance : DecidableRel InSecond := fun _ _ => inferInstanceAs (Decidable (_ → _))

/-- No record is saved after one that was made later within the same second. -/
def InOrder (calls : List Call) : Prop := (calls.filterMap Call.saved?).Pairwise InSecond

instance (calls : List Call) : Decidable (InOrder calls) :=
  inferInstanceAs (Decidable (List.Pairwise ..))

/-! ## What waits after one more call -/

theorem waiting_append (past : List Call) (c : Call) :
    waiting (past ++ [c]) = (waiting past).filter (fun r => !c.takesAway r) ++ c.saved?.toList := by
  induction past with
  | nil => cases c <;> rfl
  | cons d later ih =>
    cases d with
    | save r =>
      simp only [List.cons_append, waiting, List.any_append, List.any_cons, List.any_nil,
        Bool.or_false, Bool.or_eq_true, ih]
      by_cases gone : later.any (·.takesAway r) = true
      · simp only [gone, true_or, if_true]
      · by_cases taken : c.takesAway r = true <;> simp [gone, taken]
    | _ => exact ih

theorem waiting_sublist (past : List Call) : (waiting past).Sublist (past.filterMap Call.saved?) := by
  induction past with
  | nil => exact .refl _
  | cons c later ih =>
    cases c with
    | save r =>
      simp only [waiting, Call.saved?, List.filterMap_cons]
      split
      · exact ih.cons r
      · exact ih.cons_cons r
    | _ => exact ih

/-! ## Records as a store keeps them -/

section
variable (store : Store) (r : Record)

@[simp] theorem kept_timeout : (store.kept r).timeout = r.timeout := by cases store <;> rfl

@[simp] theorem kept_inScope (scope : Scope) : (store.kept r).inScope scope = r.inScope scope := by
  cases store <;> rfl

@[simp] theorem kept_isExpired (now : Instant) :
    (store.kept r).isExpired now = r.isExpired now := by
  cases store <;> rfl

@[simp] theorem kept_same (c : Record) : (store.kept r).Same c ↔ r.Same c := by
  cases store <;> rfl

@[simp] theorem second_kept : second (store.kept r) = second r := by cases store <;> rfl

@[simp] theorem rounded_kept : Table.rounded (store.kept r) = Table.rounded r := by
  cases store <;> rfl

theorem kept_call (c : Call) : (store.call c).2.kept = store.kept := by
  cases store <;> cases c <;> rfl

end

/-! ## The numbers of the records -/

/-- The numbers under which the records were saved. -/
def numbers : Store → List Nat
  | ledger l => l.held.map Held.number
  | table t => t.rows.map Row.number

/-- The number of the record that is saved next. -/
def nextNumber : Store → Nat
  | ledger l => l.saves + 1
  | table t => t.nextNumber

/-- The numbers go up, and the next one is above all of them. -/
structure Numbered (store : Store) : Prop where
  ascending : store.numbers.Pairwise (· < ·)
  next : ∀ n ∈ store.numbers, n < store.nextNumber

private theorem le_foldl_max (ns : List Nat) (m : Nat) :
    m ≤ ns.foldl max m ∧ ∀ n ∈ ns, n ≤ ns.foldl max m := by
  induction ns generalizing m with
  | nil => simp
  | cons k ns ih =>
    obtain ⟨first, rest⟩ := ih (max m k)
    refine ⟨Nat.le_trans (Nat.le_max_left m k) first, fun n member => ?_⟩
    rcases List.mem_cons.mp member with rfl | later
    · exact Nat.le_trans (Nat.le_max_right m n) first
    · exact rest n later

/-- The next row is numbered above all rows, also above those put in after one that is gone. -/
private theorem lt_nextNumber (t : Table) : ∀ n ∈ (table t).numbers, n < (table t).nextNumber :=
  fun n member => Nat.lt_succ_of_le ((le_foldl_max _ 0).2 n member)

/-- A store in which some of the records are left keeps its numbers in order. -/
private theorem Numbered.of_sublist {store less : Store} (numbered : store.Numbered)
    (part : less.numbers.Sublist store.numbers) (next : ∀ n ∈ less.numbers, n < less.nextNumber) :
    less.Numbered :=
  ⟨numbered.ascending.sublist part, next⟩

private theorem claim_sublist (l : Ledger) (r : Record) :
    (l.claim r).2.held.Sublist l.held ∧ (l.claim r).2.saves = l.saves := by
  unfold Ledger.claim
  split
  · split
    · exact ⟨List.filter_sublist, rfl⟩
    · exact ⟨.refl _, rfl⟩
  · exact ⟨.refl _, rfl⟩

theorem Numbered.save {store : Store} (numbered : store.Numbered) (r : Record) :
    (store.save r).Numbered := by
  have step : ∃ old, old.Sublist store.numbers ∧
      (store.save r).numbers = old ++ [store.nextNumber] := by
    cases store with
    | ledger l =>
      exact ⟨_, (List.filter_sublist (p := fun h : Held => h.record.key ≠ r.key)).map Held.number,
        by simp [Store.save, Ledger.save, numbers, nextNumber]⟩
    | table t =>
      exact ⟨_, (List.filter_sublist (p := fun row : Row => row.record.key ≠ r.key)).map Row.number,
        by simp [Store.save, Table.save, numbers, nextNumber]⟩
  obtain ⟨old, part, eq⟩ := step
  have above : ∀ n ∈ old, n < store.nextNumber := fun n member =>
    numbered.next n (part.subset member)
  constructor
  · rw [eq, List.pairwise_append]
    exact ⟨numbered.ascending.sublist part, List.pairwise_singleton .., fun n member m last =>
      List.mem_singleton.mp last ▸ above n member⟩
  · cases store with
    | table t => exact lt_nextNumber _
    | ledger l =>
      intro n member
      rw [eq, List.mem_append, List.mem_singleton] at member
      have : n ≤ (ledger l).nextNumber := by
        rcases member with earlier | rfl
        · exact Nat.le_of_lt (above n earlier)
        · exact Nat.le_refl _
      exact Nat.lt_succ_of_le this

theorem Numbered.call {store : Store} (numbered : store.Numbered) (c : Call) :
    (store.call c).2.Numbered := by
  cases c with
  | save r => exact numbered.save r
  | find | list => exact numbered
  | claim r =>
    cases store with
    | ledger l =>
      obtain ⟨part, saves⟩ := claim_sublist l r
      refine numbered.of_sublist (part.map _) fun n member => ?_
      have := numbered.next n ((part.map _).subset member)
      simpa only [Store.call, Store.claim, nextNumber, saves] using this
    | table t => exact numbered.of_sublist (List.filter_sublist.map _) (lt_nextNumber _)
  | reap now =>
    cases store with
    | ledger l =>
      have part := List.filter_sublist (l := l.held) (p := fun h => !h.record.isExpired now)
      exact numbered.of_sublist (part.map _) fun n member =>
        numbered.next n ((part.map _).subset member)
    | table t => exact numbered.of_sublist (List.filter_sublist.map _) (lt_nextNumber _)

/-! ## What a store holds -/

/-- A store holds some records, in the order in which they were saved. -/
structure Holds (store : Store) (rs : List Record) : Prop where
  records : store.records = rs.map store.kept
  places : (rs.map Record.key).Nodup
  numbered : store.Numbered

variable {store : Store} {rs : List Record}

theorem Holds.store_places (holds : store.Holds rs) : (store.records.map Record.key).Nodup := by
  have same : store.records.map Record.key = rs.map Record.key := by
    simp [holds.records, Function.comp_def]
  exact same ▸ holds.places

theorem filter_kept {p : Record → Bool} (same : ∀ r, p (store.kept r) = p r) :
    (rs.map store.kept).filter p = (rs.filter p).map store.kept := by
  rw [List.filter_map]
  exact congrArg _ (List.filter_congr fun r _ => same r)

theorem Holds.records_call (holds : store.Holds rs) (c : Call) :
    (store.call c).2.records =
      (rs.filter (fun r => !c.takesAway r) ++ c.saved?.toList).map store.kept := by
  have rest {p : Record → Bool} (same : ∀ r, p (store.kept r) = p r) :
      store.records.filter p = (rs.filter p).map store.kept :=
    holds.records ▸ filter_kept same
  cases c with
  | save r =>
    have := rest (p := fun h => !decide (h.key = r.key)) fun h => by simp
    simp [Store.call, records_save, this, Call.takesAway, Call.saved?]
  | find | list => simp [Store.call, holds.records, Call.takesAway, Call.saved?]
  | claim r =>
    have := rest (p := fun h => !decide (h.Same r)) fun h => by simp
    simp [Store.call, records_claim holds.store_places, this, Call.takesAway, Call.saved?]
  | reap now =>
    have := rest (p := fun h => !h.isExpired now) fun h => by simp
    simp [Store.call, records_reap, this, Call.takesAway, Call.saved?]

private theorem places_call (places : (rs.map Record.key).Nodup) (c : Call) :
    ((rs.filter (fun r => !c.takesAway r) ++ c.saved?.toList).map Record.key).Nodup := by
  have old : ((rs.filter fun r => !c.takesAway r).map Record.key).Nodup :=
    places.sublist (List.filter_sublist.map _)
  cases c with
  | save s =>
    have apart : ∀ r ∈ rs.filter (fun r => !(Call.save s).takesAway r), r.key ≠ s.key :=
      fun r inside => by simpa [Call.takesAway] using (List.mem_filter.mp inside).2
    rw [List.map_append, List.nodup_append']
    refine ⟨old, List.nodup_singleton _, fun k member last => ?_⟩
    obtain ⟨r, inside, rfl⟩ := List.mem_map.mp member
    exact apart r inside (List.mem_singleton.mp last)
  | _ => simpa [Call.saved?] using old

/-- A store goes on holding what waits. -/
theorem Holds.call (holds : store.Holds rs) (c : Call) :
    (store.call c).2.Holds (rs.filter (fun r => !c.takesAway r) ++ c.saved?.toList) where
  records := by rw [holds.records_call, kept_call]
  places := places_call holds.places c
  numbered := holds.numbered.call c

/-! ## What a store answers -/

/-- The records of a store that pass a test, in its own order. -/
def sorted (p : Record → Bool) : Store → List Record
  | ledger l => (Sort.sort Ledger.newer (l.held.filter fun h => p h.record)).map Held.record
  | table t => (Sort.sort Table.newer (t.rows.filter fun row => p row.record)).map Row.record

private theorem ledger_newer {a b : Held} (number : a.number < b.number)
    (order : InSecond a.record b.record) :
    Ledger.newer b a = Sort.atLeast second b.record a.record := by
  have instants : b.record.createdAt = a.record.createdAt ↔
      b.record.createdAt.seconds = a.record.createdAt.seconds ∧
        b.record.createdAt.nanos = a.record.createdAt.nanos := by
    rw [← Instant.mk.injEq]
  unfold InSecond at order
  rw [Bool.eq_iff_iff, Sort.atLeast_iff]
  simp [Ledger.newer, second, Instant.before, number, instants]
  omega

theorem table_newer {a b : Row} (number : a.number < b.number) :
    Table.newer b a = Sort.atLeast second b.record a.record := by
  rw [Bool.eq_iff_iff, Sort.atLeast_iff]
  simp [Table.newer, second, number]
  omega

/-- A store puts its records by the second and, within a second, as they were saved. -/
theorem Holds.sorted_eq (holds : store.Holds rs) (order : rs.Pairwise InSecond)
    {p : Record → Bool} (same : ∀ r, p (store.kept r) = p r) :
    store.sorted p = (newestFirst (rs.filter p)).map store.kept := by
  have kept : (newestFirst (rs.filter p)).map store.kept =
      Sort.sort (Sort.atLeast second) (store.records.filter p) := by
    rw [newestFirst, Sort.reverse_sort, Sort.map_sort, holds.records, filter_kept same]
    exact List.pairwise_of_forall fun x y => by simp [Sort.atLeast]
  rw [kept]
  cases store with
  | ledger l =>
    have numbers := List.pairwise_map.mp holds.numbered.ascending
    have seconds : l.held.Pairwise fun a b => InSecond a.record b.record := by
      have records : l.held.map Held.record = rs := holds.records.trans (List.map_id _)
      exact List.pairwise_map.mp (records ▸ order)
    have newer : (l.held.filter fun h => p h.record).Pairwise fun a b =>
        Ledger.newer b a = Sort.atLeast second b.record a.record :=
      (List.Pairwise.imp₂ (fun _ _ => ledger_newer) numbers seconds).sublist List.filter_sublist
    rw [sorted, Sort.map_sort newer, Store.records, List.filter_map]
    rfl
  | table t =>
    have numbers := List.pairwise_map.mp holds.numbered.ascending
    have newer : (t.rows.filter fun row => p row.record).Pairwise fun a b =>
        Table.newer b a = Sort.atLeast second b.record a.record :=
      (numbers.imp table_newer).sublist List.filter_sublist
    rw [sorted, Sort.map_sort newer, Store.records, List.filter_map]
    rfl

theorem Holds.list (holds : store.Holds rs) (order : rs.Pairwise InSecond) (scope : Scope) :
    store.list scope = (newestFirst (rs.filter (·.inScope scope))).map store.kept := by
  have listed : store.list scope = store.sorted (·.inScope scope) := by cases store <;> rfl
  rw [listed, holds.sorted_eq order fun r => kept_inScope store r scope]

/-- A table passes over what has expired before it puts the rows in order, a ledger afterwards. -/
theorem Holds.find (holds : store.Holds rs) (order : rs.Pairwise InSecond) (now : Instant)
    (scope : Scope) :
    store.find now scope = ((newestFirst (rs.filter (·.inScope scope))).find? fun r =>
      !r.isExpired now).map store.kept := by
  cases store with
  | ledger l =>
    have found : (ledger l).find now scope =
        ((ledger l).list scope).find? fun r => !r.isExpired now := rfl
    rw [found, holds.list order, List.find?_map]
    rfl
  | table t =>
    have found : (table t).find now scope =
        ((table t).sorted fun r => r.inScope scope && !r.isExpired now).head? := rfl
    rw [found, holds.sorted_eq order fun r => by simp, List.head?_map, ← List.head?_filter]
    simp only [newestFirst, List.filter_reverse, Sort.filter_sort, List.filter_filter, Bool.and_comm]

theorem Holds.reap (holds : store.Holds rs) (now : Instant) :
    (store.reap now).1 =
      (Sort.sort Record.expiresBefore (rs.filter (·.isExpired now))).map store.kept := by
  have reaped : (store.reap now).1 =
      Sort.sort Record.expiresBefore (store.records.filter (·.isExpired now)) := by
    cases store <;> simp [Store.reap, Ledger.reap, Table.reap, Store.records, List.filter_map,
      Function.comp_def]
  rw [reaped, holds.records, filter_kept fun r => kept_isExpired store r now, Sort.map_sort]
  exact List.pairwise_of_forall fun x y => by simp [Record.expiresBefore]

theorem Holds.claim (holds : store.Holds rs) (c : Record) :
    (store.claim c).1 = rs.any (·.Same c) := by
  rw [Bool.eq_iff_iff, claim_won_iff holds.store_places, holds.records]
  simp

/-- A store that holds what waits answers as it has to. -/
theorem Holds.answer (holds : store.Holds rs) (order : rs.Pairwise InSecond) (c : Call) :
    (store.call c).1.Agrees (wanted rs c) := by
  cases c with
  | save r => trivial
  | find now scope => simp [Store.call, wanted, Answer.Agrees, holds.find order, Function.comp_def]
  | claim r => exact holds.claim r
  | list scope => simp [Store.call, wanted, Answer.Agrees, holds.list order, Function.comp_def]
  | reap now => simp [Store.call, wanted, Answer.Agrees, holds.reap, Function.comp_def]

/-! ## All calls -/

theorem Holds.answers (past calls : List Call) (holds : store.Holds (waiting past))
    (order : InOrder (past ++ calls)) :
    List.Forall₂ Answer.Agrees (store.answers calls) (wantedAfter past calls) := by
  induction calls generalizing store past with
  | nil => exact .nil
  | cons c calls ih =>
    have so_far : (waiting past).Pairwise InSecond := by
      rw [InOrder, List.filterMap_append] at order
      exact (List.pairwise_append.mp order).1.sublist (waiting_sublist past)
    have after : (store.call c).2.Holds (waiting (past ++ [c])) :=
      waiting_append past c ▸ holds.call c
    exact .cons (holds.answer so_far c)
      (ih (past ++ [c]) after (by rwa [List.append_assoc, List.singleton_append]))

theorem Answer.Agrees.both {a b w : Answer} (one : a.Agrees w) (two : b.Agrees w) : a.Agrees b := by
  cases a <;> cases w <;> first | exact one.elim | skip
  all_goals cases b <;> first | exact two.elim | skip
  case saved => trivial
  case found => exact one.trans two.symm
  case claimed => exact one.trans two.symm
  case listed => exact one.trans two.symm
  case reaped => exact ⟨one.1.trans two.1.symm, one.2.trans two.2.symm⟩

private theorem agree_both {as bs ws : List Answer} (one : List.Forall₂ Answer.Agrees as ws)
    (two : List.Forall₂ Answer.Agrees bs ws) : List.Forall₂ Answer.Agrees as bs := by
  induction one generalizing bs with
  | nil =>
    cases two
    exact .nil
  | cons head _ ih =>
    cases two with
    | cons head' rest => exact .cons (head.both head') (ih rest)

/-- A ledger and a table that start without records answer all calls alike, and both as they have
to. -/
theorem answers_agree (calls : List Call) (order : InOrder calls) :
    List.Forall₂ Answer.Agrees ((ledger {}).answers calls) (wantedAfter [] calls) ∧
    List.Forall₂ Answer.Agrees ((table {}).answers calls) (wantedAfter [] calls) ∧
    List.Forall₂ Answer.Agrees ((ledger {}).answers calls) ((table {}).answers calls) := by
  have memory : (ledger {}).Holds (waiting []) := ⟨rfl, .nil, .nil, nofun⟩
  have kept : (table {}).Holds (waiting []) := ⟨rfl, .nil, .nil, nofun⟩
  have one := memory.answers [] calls order
  have two := kept.answers [] calls order
  exact ⟨one, two, agree_both one two⟩

namespace Calls

/-- A record of a run that waits at a node of one conversation. -/
def record (id node : String) (timeout : Option Int) (createdAt : Instant) : Record where
  id := id
  organization := "o"
  conversation := "c"
  origin := "c"
  node := node
  flowCode := "f"
  flowVersion := "1"
  creator := ""
  timeout := timeout
  snapshot := ""
  createdAt := createdAt

def scope : Scope := { organization := "o", conversation := "c" }

/-- Two records of one second, the second of which takes the place of an older one, a claim that comes
too late, and a claim and a reaping after which the next row gets a number that was in use. -/
def trace : List Call :=
  [.save (record "1" "a" (some 9) ⟨5, 100⟩), .save (record "2" "b" none ⟨5, 200⟩),
    .save (record "3" "a" (some 9) ⟨5, 300⟩), .claim (record "1" "a" (some 9) ⟨5, 100⟩),
    .find ⟨8, 0⟩ scope, .find ⟨9, 0⟩ scope, .list scope, .claim (record "2" "b" none ⟨5, 200⟩),
    .reap ⟨9, 999⟩, .save (record "4" "b" none ⟨5, 300⟩), .list scope]

end Calls

theorem answers_agree_trace : InOrder Calls.trace ∧
    List.Forall₂ Answer.Agrees ((ledger {}).answers Calls.trace) (wantedAfter [] Calls.trace) ∧
    List.Forall₂ Answer.Agrees ((table {}).answers Calls.trace) (wantedAfter [] Calls.trace) ∧
    List.Forall₂ Answer.Agrees ((ledger {}).answers Calls.trace) ((table {}).answers Calls.trace) :=
  have order : InOrder Calls.trace := by decide
  ⟨order, answers_agree Calls.trace order⟩

/-- A record that was made earlier within the second but saved later is behind in a ledger and in
front in a table. -/
example :
    let calls := [.save (Calls.record "1" "a" none ⟨5, 200⟩), .save (Calls.record "2" "b" none ⟨5, 100⟩)]
    let found (store : Store) := ((calls.foldl (fun s c => (s.call c).2) store).find ⟨6, 0⟩
      Calls.scope).map Record.id
    found (ledger {}) = some "1" ∧ found (table {}) = some "2" := by
  decide +kernel

end Parley.Wait.Store
