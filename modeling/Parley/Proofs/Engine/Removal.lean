import Parley.Proofs.Engine.AtMostOnce
/-!
# How long a suspended run waits

A record stays where it was saved until its suspension is claimed, it is reaped, or a record is saved at
its place (`Exchange.Removes`), and it does not come back (`Interleaved.waits`). Of the callers of an
engine only one with a copy of the record claims it, and only what has expired is reaped
(`gone_iff`). What is left is the place: a run that waits at a node of the same name in the same
conversation takes it, whichever run that is (`rival_takes_place`).
-/
namespace Parley

/-- The exchange takes a record out of the store. -/
inductive Exchange.Removes (r : Wait.Record) : Exchange → Prop
  | claimed {c : Wait.Record} (same : r.Same c) : Removes r ⟨.claim c, .ok true⟩
  | reaped {now : Instant} {rs : List Wait.Record} (inside : r ∈ rs) : Removes r ⟨.reap now, .ok rs⟩
  | replaced {s : Wait.Record} (place : s.key = r.key) : Removes r ⟨.save s, .ok ()⟩

namespace Effect
variable {store after : Wait.Store} {x : Exchange} {r : Wait.Record}

theorem reaped_expired {thief : Bool} {now : Instant} {rs : List Wait.Record}
    (effect : Effect thief store ⟨.reap now, .ok rs⟩ after) (inside : r ∈ rs) :
    r ∈ store.records ∧ r.isExpired now = true ∧
      after.records = store.records.filter fun h => !h.isExpired now := by
  cases effect with
  | reaped =>
    obtain ⟨stored, expired⟩ := Wait.Store.mem_reaped.mp inside
    exact ⟨stored, expired, Wait.Store.records_reap store now⟩
  | kept _ _ _ none =>
    obtain rfl : rs = [] := none
    contradiction

theorem removes {thief : Bool} (effect : Effect thief store x after) (valid : store.Valid)
    (new : ∀ s, x.saved? = some s → s.id ∉ store.ids) (member : r ∈ store.records)
    (gone : x.Removes r) : r.id ∉ after.ids := by
  cases gone with
  | claimed same => exact same.2 ▸ (effect.won valid rfl).2
  | @reaped now rs inside =>
    obtain ⟨-, expired, left⟩ := effect.reaped_expired inside
    intro back
    rw [Wait.Store.ids, left] at back
    obtain ⟨h, inside, id⟩ := List.mem_map.mp back
    obtain ⟨stays, unexpired⟩ := List.mem_filter.mp inside
    obtain rfl := valid.same_id stays member id
    simp [expired] at unexpired
  | @replaced s place =>
    cases effect with
    | kept _ none => simp [Exchange.saved?] at none
    | saved =>
      intro back
      rw [Wait.Store.ids, Wait.Store.records_save, List.map_append] at back
      rcases List.mem_append.mp back with old | last
      · obtain ⟨h, left, id⟩ := List.mem_map.mp old
        obtain ⟨stays, apart⟩ := List.mem_filter.mp left
        obtain rfl := valid.same_id stays member id
        simp [place] at apart
      · have id : r.id = s.id := by simpa using last
        exact new s rfl (id ▸ List.mem_map_of_mem member)

theorem remains (effect : Effect false store x after) (valid : store.Valid)
    (member : r ∈ store.records) (stays : ¬ x.Removes r) : r ∈ after.records := by
  refine effect.stays valid member (fun s saves place => ?_) (fun inside => ?_)
    fun c won turn same => ?_
  · exact stays (Exchange.saved?_eq_some.mp saves ▸ .replaced place)
  · obtain ⟨now, rs, rfl, inside⟩ := Exchange.mem_reaped.mp inside
    exact stays (.reaped inside)
  · subst turn
    obtain rfl := effect.claim_won valid member same
    exact stays (.claimed same)

end Effect

namespace Interleaved
variable {α : Type} {w w' : World} {ps ps' : List (Program α)} {log : List (Nat × Exchange)}

theorem stored_known (run : Interleaved w ps log w' ps') (valid : w.store.Valid)
    (fresh : FreshIds w.store log) : w'.store.ids ⊆ w.store.ids ++ savedIds log := by
  induction run with
  | rest => simp
  | meanwhile store _ _ ih => exact store ▸ ih (store ▸ valid) (store ▸ fresh)
  | @turn w w' ps ps' log i r next asks later ih =>
    obtain ⟨kept, rest⟩ := turn_fresh valid fresh
    rw [savedIds_cons, ← List.append_assoc]
    exact List.Subset.trans (ih kept rest)
      (((w.answer_effect r).ids_sublist valid).append_right (savedIds log)).subset

/-- A stored record is there at the end exactly when nothing has taken it out. -/
theorem waits (run : Interleaved w ps log w' ps') (valid : w.store.Valid)
    (fresh : FreshIds w.store log) (honest : w.thief = false) {r : Wait.Record}
    (stored : r ∈ w.store.records) :
    r ∈ w'.store.records ↔ ∀ i x, (i, x) ∈ log → ¬ Exchange.Removes r x := by
  induction run with
  | rest => simpa using stored
  | meanwhile store thief _ ih =>
    exact ih (store ▸ valid) (store ▸ fresh) (thief.trans honest) (store ▸ stored)
  | @turn w w' ps ps' log i q next asks later ih =>
    have effect := honest ▸ w.answer_effect q
    obtain ⟨kept, rest⟩ := turn_fresh valid fresh
    by_cases gone : Exchange.Removes r ⟨q, (w.answer q).1⟩
    · have out : r.id ∉ (w.answer q).2.store.ids := by
        refine effect.removes valid (fun s saves used => ?_) stored gone
        rw [FreshIds, savedIds_cons, saves] at fresh
        exact (List.nodup_append'.mp fresh).2.2 used (by simp)
      have unsaved : r.id ∉ savedIds log := fun again => by
        rw [FreshIds, savedIds_cons] at fresh
        exact (List.nodup_append'.mp fresh).2.2 (List.mem_map_of_mem stored)
          (List.mem_append_right _ again)
      have away : r ∉ w'.store.records := fun back =>
        (List.mem_append.mp (later.stored_known kept rest (List.mem_map_of_mem back))).elim out unsaved
      exact iff_of_false away fun stays => stays i _ (List.mem_cons_self ..) gone
    · rw [ih kept rest (by simpa using honest) (effect.remains valid stored gone)]
      constructor
      · intro stays j x member
        rcases List.mem_cons.mp member with head | tail
        · obtain ⟨-, rfl⟩ := Prod.mk.inj head
          exact gone
        · exact stays j x tail
      · exact fun stays j x member => stays j x (List.mem_cons_of_mem _ member)

theorem reaped_expired (run : Interleaved w ps log w' ps') {i : Nat} {now : Instant}
    {rs : List Wait.Record} (reaps : (i, ⟨.reap now, .ok rs⟩) ∈ log) {r : Wait.Record}
    (inside : r ∈ rs) : r.isExpired now = true := by
  induction run with
  | rest => simp at reaps
  | meanwhile _ _ _ ih => exact ih reaps
  | @turn w w' ps ps' log j q next asks later ih =>
    rcases List.mem_cons.mp reaps with head | tail
    · have effect := w.answer_effect q
      rw [← (Prod.mk.inj head).2] at effect
      exact (effect.reaped_expired inside).2.1
    · exact ih tail

end Interleaved

/-! ## Callers of an engine -/

/-- Why a record no longer waits, told by what happened since it was saved. -/
inductive Gone (engine : Engine) (errands : List Errand) (log late : List (Nat × Exchange))
    (r : Wait.Record) : Prop
  /-- A caller that holds a copy of the record has claimed it. -/
  | claimed {i : Nat} {errand : Errand} {copy : Wait.Record} (sent : errands[i]? = some errand)
      (holds : errand.Holds (own i log) copy) (same : r.Same copy)
      (wins : (i, ⟨.claim copy, .ok true⟩) ∈ late)
  /-- It was reaped, at its own timeout or after it. -/
  | reaped {i : Nat} {now : Instant} {rs : List Wait.Record} {timeout : Int}
      (reaps : (i, ⟨.reap now, .ok rs⟩) ∈ late) (inside : r ∈ rs) (ends : r.timeout = some timeout)
      (passed : timeout ≤ now.seconds)
  /-- Another record was saved at its place. -/
  | replaced {i : Nat} {s : Wait.Record} (saves : (i, ⟨.save s, .ok ()⟩) ∈ late)
      (place : s.key = r.key)

private theorem ends_of_isExpired {r : Wait.Record} {now : Instant} (expired : r.isExpired now = true) :
    ∃ timeout, r.timeout = some timeout ∧ timeout ≤ now.seconds := by
  unfold Wait.Record.isExpired at expired
  split at expired
  · next timeout ends => exact ⟨timeout, ends, of_decide_eq_true expired⟩
  · contradiction

section
variable {engine : Engine} {errands : List Errand} {w w' : World} {early late : List (Nat × Exchange)}
  {rest : List (Program Unit)} {i : Nat} {r : Wait.Record}

/-- Whatever the order in which resumes, dispatches and reaps take turns, a record that was saved is in
the store until a caller with a copy of it claims it, it is reaped at its timeout or later, or a
record is saved at its place. -/
theorem gone_iff (builtIn : engine.BuiltIn)
    (run : Interleaved w (errands.map (Errand.program engine))
      (early ++ (i, ⟨.save r, .ok ()⟩) :: late) w' rest)
    (valid : w.store.Valid) (fresh : FreshIds w.store (early ++ (i, ⟨.save r, .ok ()⟩) :: late))
    (honest : w.thief = false) :
    w'.store.kept r ∉ w'.store.records ↔
      Gone engine errands (early ++ (i, ⟨.save r, .ok ()⟩) :: late) late (w'.store.kept r) := by
  -- the log is cut behind the save: there the record is stored, and what follows decides
  obtain ⟨between, qs, before, after, stored⟩ := run.cut_saved
  have cut : FreshIds w.store ((early ++ [(i, ⟨.save r, .ok ()⟩)]) ++ late) := by simpa using fresh
  obtain ⟨valid', fresh', same⟩ := before.onward valid cut
  rw [run.kept_eq, after.waits valid' fresh' (same.trans honest) stored]
  have inside {j : Nat} {x : Exchange} (member : (j, x) ∈ late) :
      (j, x) ∈ early ++ (i, ⟨.save r, .ok ()⟩) :: late :=
    List.mem_append_right _ (List.mem_cons_of_mem _ member)
  constructor
  · intro removed
    push Not at removed
    obtain ⟨j, x, member, removes⟩ := removed
    cases removes with
    | claimed same =>
      obtain ⟨p, started⟩ := run.started (inside member)
      rw [List.getElem?_map] at started
      obtain ⟨errand, sent, rfl⟩ := Option.map_eq_some_iff.mp started
      obtain ⟨q, gone⟩ := errand_goes run sent
      have mine := Interleaved.mem_own.mpr (inside member)
      exact .claimed sent (errand.holds_of_claim builtIn gone mine) same member
    | reaped listed =>
      obtain ⟨timeout, ends, passed⟩ := ends_of_isExpired (after.reaped_expired member listed)
      exact .reaped member listed ends passed
    | replaced place => exact .replaced member place
  · intro gone stays
    cases gone with
    | claimed _ _ same wins => exact stays _ _ wins (.claimed same)
    | reaped reaps listed => exact stays _ _ reaps (.reaped listed)
    | replaced saves place => exact stays _ _ saves (.replaced place)

end

/-! ### Two runs at one place -/

namespace Rivals

/-- A flow that waits for a message when a message has come and when a window was opened. -/
def flow : Flow where
  code := "survey"
  nodes := [{ id := "start", type := "start", params := .ofFields [("branches", .arr [
        .ofFields [("branch_id", .str "m"), ("trigger_type", .str "chat_message")],
        .ofFields [("branch_id", .str "w"), ("trigger_type", .str "open_chat_window")]])] },
    { id := "wait", type := "wait_message", params := .empty }]
  edges := [{ source := "start", target := "wait", branch := some "m" },
    { source := "start", target := "wait", branch := some "w" }]

def scope : Scope := { organization := "org", conversation := "conv" }

def errands : List Errand :=
  [.dispatch "survey" none (.chatMessage scope "first"),
    .dispatch "survey" none { trigger := .openChatWindow, scope }]

def world : World where
  catalog := .ofFlows [flow]

/-- The second event is dispatched when the first one has been. -/
def course : List (Nat × Exchange) × World × List (Program Unit) :=
  takeTurns (List.replicate 20 0 ++ List.replicate 20 1) world
    (errands.map (Errand.program (.standard {})))

def savedBy (i : Nat) : List Wait.Record := (own i course.1).filterMap Exchange.saved?

def suspendedBy (i : Nat) : List (String × String) :=
  (own i course.1).filterMap fun
    | ⟨.publish (.suspended run _ node), _⟩ => some (run, node)
    | _ => none

end Rivals

/-- The second of two runs takes the place of the first one, which waits without a timeout. Nothing is
claimed and nothing is reaped. -/
theorem rival_takes_place :
    FreshIds Rivals.world.store Rivals.course.1 ∧ wonIds Rivals.course.1 = [] ∧
    (∀ x ∈ Rivals.course.1, x.2.reaped = []) ∧
    ∃ r s one other, Rivals.savedBy 0 = [r] ∧ Rivals.suspendedBy 0 = [(one, "wait")] ∧
      Rivals.savedBy 1 = [s] ∧ Rivals.suspendedBy 1 = [(other, "wait")] ∧ one ≠ other ∧
      r.timeout = none ∧ r ≠ s ∧ Rivals.course.2.1.store.records = [s] := by
  obtain ⟨fresh, unclaimed, unreaped, left⟩ :
      (Rivals.world.store.ids ++ savedIds Rivals.course.1).Nodup ∧ wonIds Rivals.course.1 = [] ∧
      (∀ x ∈ Rivals.course.1, x.2.reaped = []) ∧
      Rivals.course.2.1.store.records = Rivals.savedBy 1 := by
    decide +kernel
  obtain ⟨waits, waits', one, other⟩ :
      (Rivals.savedBy 0).map (fun r => (r.id, r.timeout)) =
        [("00000000-0000-4000-8000-000000000002", none)] ∧
      (Rivals.savedBy 1).map Wait.Record.id = ["00000000-0000-4000-8000-000000000004"] ∧
      Rivals.suspendedBy 0 = [("00000000-0000-4000-8000-000000000001", "wait")] ∧
      Rivals.suspendedBy 1 = [("00000000-0000-4000-8000-000000000003", "wait")] := by
    decide +kernel
  obtain ⟨r, first, facts⟩ := List.map_eq_singleton_iff.mp waits
  obtain ⟨s, second, id'⟩ := List.map_eq_singleton_iff.mp waits'
  obtain ⟨id, endless⟩ := Prod.mk.inj facts
  have apart : r ≠ s := by
    rintro rfl
    simp [id] at id'
  exact ⟨fresh, unclaimed, unreaped, r, s, _, _, first, one, second, other, by simp, endless, apart,
    left.trans second⟩

theorem rivals_gone :
    ∃ early late r, Rivals.course.1 = early ++ (0, ⟨.save r, .ok ()⟩) :: late ∧
      Gone (.standard {}) Rivals.errands Rivals.course.1 late (Rivals.course.2.1.store.kept r) := by
  have fresh : (Rivals.world.store.ids ++ savedIds Rivals.course.1).Nodup := by decide +kernel
  have gone : ∀ r ∈ Rivals.savedBy 0, r.id ∉ Rivals.course.2.1.store.ids := by decide +kernel
  have some_saved : (Rivals.savedBy 0).length = 1 := by decide +kernel
  obtain ⟨r, single⟩ := List.length_eq_one_iff.mp some_saved
  have member : r ∈ Rivals.savedBy 0 := single ▸ List.mem_singleton_self r
  obtain ⟨x, mine, saves⟩ := List.mem_filterMap.mp member
  obtain rfl := Exchange.saved?_eq_some.mp saves
  obtain ⟨early, late, cut⟩ := List.append_of_mem (Interleaved.mem_own.mp mine)
  refine ⟨early, late, r, cut, ?_⟩
  have run : Interleaved Rivals.world (Rivals.errands.map (Errand.program (.standard {})))
      Rivals.course.1 Rivals.course.2.1 Rivals.course.2.2 := Interleaved.ofSchedule _ _ _
  rw [cut] at run fresh ⊢
  refine (gone_iff (Engine.builtIn_standard _) run ⟨by decide, by decide⟩ fresh rfl).mp fun stays => ?_
  have id := List.mem_map_of_mem (f := Wait.Record.id) stays
  rw [Wait.Store.kept_id] at id
  exact gone r member id

end Parley
