import Parley.Run.World
import Parley.Proofs.Invariant
import Parley.Proofs.Wait.Threads
/-!
# Programs that take turns

Several programs run in one world and take turns between their requests, in any order; between the
turns the world may change in everything but the store (`Interleaved`). What a request does to the
store is one of a few effects (`World.answer_effect`), so what holds over all interleavings is shown
for each effect once: of all claims of one suspension at most one succeeds (`Interleaved.won_nodup`),
and the first one does when the record stays until then (`Interleaved.claimed`).
-/
namespace Parley

/-! ## Exchanges with the store -/

namespace Exchange

def won? : Exchange → Option Wait.Record
  | ⟨.claim r, .ok true⟩ => some r
  | _ => none

def reaped : Exchange → List Wait.Record
  | ⟨.reap _, .ok records⟩ => records
  | _ => []

@[simp] theorem won?_claim (r : Wait.Record) (won : Bool) :
    won? ⟨.claim r, .ok won⟩ = if won = true then some r else none := by
  cases won <;> rfl

theorem won?_eq_some {x : Exchange} {r : Wait.Record} :
    x.won? = some r ↔ x = ⟨.claim r, .ok true⟩ := by
  constructor
  · intro wins
    unfold won? at wins
    split at wins
    · rw [Option.some.inj wins]
    · contradiction
  · rintro rfl
    rfl

theorem mem_reaped {x : Exchange} {r : Wait.Record} :
    r ∈ x.reaped ↔ ∃ now records, x = ⟨.reap now, .ok records⟩ ∧ r ∈ records := by
  constructor
  · intro member
    unfold reaped at member
    split at member
    · exact ⟨_, _, rfl, member⟩
    · contradiction
  · rintro ⟨now, records, rfl, member⟩
    exact member

end Exchange

/-- What an exchange does to a store. A thief takes what others find. -/
inductive Effect (thief : Bool) (store : Wait.Store) : Exchange → Wait.Store → Prop
  | saved (r : Wait.Record) : Effect thief store ⟨.save r, .ok ()⟩ (store.save r)
  | claimed (r : Wait.Record) :
      Effect thief store ⟨.claim r, .ok (store.claim r).1⟩ (store.claim r).2
  | reaped (now : Instant) :
      Effect thief store ⟨.reap now, .ok (store.reap now).1⟩ (store.reap now).2
  | stolen (scope : Scope) (r : Wait.Record) (steals : thief = true) :
      Effect thief store ⟨.find scope, .ok (some r)⟩ (store.claim r).2
  | kept (x : Exchange) (saves : x.saved? = none) (wins : ∀ r won, x ≠ ⟨.claim r, .ok won⟩)
      (reaps : x.reaped = []) : Effect thief store x store

/-- A world answers with one of the effects. -/
theorem World.answer_effect (w : World) (r : Request) :
    Effect w.thief w.store ⟨r, (w.answer r).1⟩ (w.answer r).2.store := by
  cases r with
  | save record =>
    simp only [answer, guarded]
    cases w.failure? .save with
    | some e => exact .kept _ rfl (by simp) rfl
    | none => exact .saved record
  | claim record =>
    simp only [answer, guarded]
    cases w.failure? .claim with
    | some e => exact .kept _ rfl (by simp) rfl
    | none => exact .claimed record
  | reap now =>
    simp only [answer, guarded]
    cases w.failure? .reap with
    | some e => exact .kept _ rfl (by simp) rfl
    | none => exact .reaped now
  | find scope =>
    simp only [answer, guarded, find]
    cases w.failure? .find with
    | some e => exact .kept _ rfl (by simp) rfl
    | none =>
      cases w.store.find w.clock scope with
      | none => exact .kept _ rfl (by simp) rfl
      | some r =>
        by_cases steals : w.thief = true
        · simp only [steals, if_true]
          exact .stolen scope r rfl
        · simp only [steals]
          exact .kept _ rfl (by simp) rfl
  | send scope content =>
    simp only [answer, send]
    cases w.outbound <;> exact .kept _ rfl (by simp) rfl
  | _ => exact .kept _ rfl (by simp) rfl

/-- What is found is in the store, and it is a record of the conversation. -/
theorem World.answer_find {w : World} {scope : Scope} {r : Wait.Record}
    (found : (w.answer (.find scope)).1 = .ok (some r)) :
    r ∈ w.store.records ∧ r.thread = scope.thread := by
  cases failure : w.failure? .find with
  | some e => simp [answer, guarded, failure] at found
  | none =>
    cases stored : w.store.find w.clock scope with
    | none => simp [answer, guarded, failure, find, stored] at found
    | some h =>
      obtain rfl : h = r := by simpa [answer, guarded, failure, find, stored] using found
      exact Wait.Store.find_some stored

@[simp] theorem World.answer_thief (w : World) (r : Request) : (w.answer r).2.thief = w.thief := by
  cases r with
  | save record | claim record | reap now =>
    simp only [answer, guarded]
    split <;> rfl
  | find scope =>
    simp only [answer, guarded, find]
    split
    · rfl
    · split
      · rfl
      · split <;> rfl
  | send scope content =>
    simp only [answer, send]
    split <;> rfl
  | _ => rfl

namespace Effect
variable {thief : Bool} {store after : Wait.Store} {x : Exchange}

theorem kept_eq (effect : Effect thief store x after) : after.kept = store.kept := by
  cases effect with
  | kept => rfl
  | _ => cases store <;> rfl

theorem mem (effect : Effect thief store x after) {h : Wait.Record} (member : h ∈ after.records) :
    h ∈ store.records ∨ ∃ r, x = ⟨.save r, .ok ()⟩ ∧ h = store.kept r := by
  cases effect with
  | saved r =>
    rw [Wait.Store.records_save] at member
    rcases List.mem_append.mp member with old | new
    · exact .inl (List.mem_filter.mp old).1
    · exact .inr ⟨r, rfl, List.mem_singleton.mp new⟩
  | claimed | stolen => exact .inl (Wait.Store.mem_of_mem_claim member)
  | reaped now =>
    rw [Wait.Store.records_reap] at member
    exact .inl (List.mem_filter.mp member).1
  | kept => exact .inl member

theorem sublist (effect : Effect thief store x after) (valid : store.Valid)
    (saves : x.saved? = none) : after.records.Sublist store.records := by
  cases effect with
  | saved r => simp [Exchange.saved?] at saves
  | claimed r | stolen scope r => exact Wait.Store.records_claim valid.places r ▸ List.filter_sublist
  | reaped now => exact Wait.Store.records_reap store now ▸ List.filter_sublist
  | kept => exact List.Sublist.refl _

theorem ids_sublist (effect : Effect thief store x after) (valid : store.Valid) :
    after.ids.Sublist (store.ids ++ (x.saved?.map Wait.Record.id).toList) := by
  cases saves : x.saved? with
  | none => simpa [Wait.Store.ids] using (effect.sublist valid saves).map Wait.Record.id
  | some r =>
    obtain rfl := Exchange.saved?_eq_some.mp saves
    cases effect with
    | saved =>
      rw [Wait.Store.ids, Wait.Store.records_save, List.map_append]
      simpa [Wait.Store.ids] using (List.filter_sublist.map Wait.Record.id).append_right [r.id]
    | kept _ none => simp [Exchange.saved?] at none

theorem valid (effect : Effect thief store x after) (valid : store.Valid)
    (new : ∀ r, x.saved? = some r → r.id ∉ store.ids) : after.Valid := by
  cases saves : x.saved? with
  | none => exact valid.of_sublist (effect.sublist valid saves)
  | some r =>
    obtain rfl := Exchange.saved?_eq_some.mp saves
    cases effect with
    | saved => exact Wait.Store.valid_save valid (new r saves)
    | kept _ none => simp [Exchange.saved?] at none

/-- A claim that succeeds finds the record of its suspension and takes it out. -/
theorem won {r : Wait.Record} (effect : Effect thief store x after) (valid : store.Valid)
    (wins : x.won? = some r) : r.id ∈ store.ids ∧ r.id ∉ after.ids := by
  cases effect with
  | saved | reaped | stolen => simp [Exchange.won?] at wins
  | kept _ _ none =>
    rw [Exchange.won?_eq_some] at wins
    exact absurd wins (none r true)
  | claimed c =>
    obtain ⟨success, rfl⟩ : (store.claim c).1 = true ∧ c = r := by simpa using wins
    obtain ⟨h, member, same⟩ := (Wait.Store.claim_won_iff valid.places c).mp success
    refine ⟨same.2 ▸ List.mem_map_of_mem member, ?_⟩
    rw [Wait.Store.ids, Wait.Store.records_claim valid.places]
    intro inside
    obtain ⟨other, left, id⟩ := List.mem_map.mp inside
    obtain ⟨stays, apart⟩ := List.mem_filter.mp left
    obtain rfl := valid.same_id stays member (id.trans same.2.symm)
    simp [same] at apart

theorem claim_won {r c : Wait.Record} {won : Bool}
    (effect : Effect thief store ⟨.claim c, .ok won⟩ after) (valid : store.Valid)
    (member : r ∈ store.records) (same : r.Same c) : won = true := by
  cases effect with
  | claimed => exact (Wait.Store.claim_won_iff valid.places c).mpr ⟨r, member, same⟩
  | kept _ _ none => exact absurd rfl (none c won)

theorem claim_leaves {r c : Wait.Record} {won : Except Error Bool}
    (effect : Effect thief store ⟨.claim c, won⟩ after) (valid : store.Valid)
    (member : r ∈ store.records) (other : ¬ r.Same c) : r ∈ after.records := by
  cases effect with
  | claimed =>
    rw [Wait.Store.records_claim valid.places]
    exact List.mem_filter.mpr ⟨member, by simpa using other⟩
  | kept => exact member

/-- A record stays until its suspension is claimed, when no record is saved in its place, it is not
reaped and nobody steals. -/
theorem stays {r : Wait.Record} (effect : Effect false store x after) (valid : store.Valid)
    (member : r ∈ store.records) (saves : ∀ s, x.saved? = some s → s.key ≠ r.key)
    (reaps : r ∉ x.reaped) (claims : ∀ c won, x = ⟨.claim c, .ok won⟩ → ¬ r.Same c) :
    r ∈ after.records := by
  cases effect with
  | saved s =>
    rw [Wait.Store.records_save]
    have place := saves s rfl
    exact List.mem_append_left _ (List.mem_filter.mpr ⟨member, by simpa using place.symm⟩)
  | claimed c =>
    rw [Wait.Store.records_claim valid.places]
    exact List.mem_filter.mpr ⟨member, by simpa using claims c _ rfl⟩
  | reaped now =>
    rw [Wait.Store.records_reap]
    have fresh : ¬ r.isExpired now = true := fun expired =>
      reaps (Wait.Store.mem_reaped.mpr ⟨member, expired⟩)
    exact List.mem_filter.mpr ⟨member, by simpa using fresh⟩
  | stolen _ _ steals => contradiction
  | kept => exact member

theorem saves {thief : Bool} (effect : Effect thief store ⟨.save r, .ok ()⟩ after) :
    after.kept r ∈ after.records := by
  rw [effect.kept_eq]
  cases effect with
  | saved => simp [Wait.Store.records_save]
  | kept _ none => simp [Exchange.saved?] at none

end Effect

/-! ## Taking turns -/

/-- Programs that take turns in a world, each turn being one request. The log tells whose turn it was
and what was asked and answered. Between the turns everything but the store may change. -/
inductive Interleaved {α : Type} : World → List (Program α) → List (Nat × Exchange) → World →
    List (Program α) → Prop
  | rest (w : World) (ps : List (Program α)) : Interleaved w ps [] w ps
  | turn {w w' : World} {ps ps' : List (Program α)} {log : List (Nat × Exchange)} (i : Nat)
      {r : Request} {next : r.Answer → Program α} (asks : ps[i]? = some (.ask r next))
      (later : Interleaved (w.answer r).2 (ps.set i (next (w.answer r).1)) log w' ps') :
      Interleaved w ps ((i, ⟨r, (w.answer r).1⟩) :: log) w' ps'
  | meanwhile {w between w' : World} {ps ps' : List (Program α)} {log : List (Nat × Exchange)}
      (store : between.store = w.store) (thief : between.thief = w.thief)
      (later : Interleaved between ps log w' ps') : Interleaved w ps log w' ps'

/-- Lets programs take turns in the order of a schedule. A program that has ended passes. -/
def takeTurns {α : Type} : List Nat → World → List (Program α) →
    List (Nat × Exchange) × World × List (Program α)
  | [], w, ps => ([], w, ps)
  | i :: rest, w, ps =>
    match ps[i]? with
    | some (.ask r next) =>
      let later := takeTurns rest (w.answer r).2 (ps.set i (next (w.answer r).1))
      ((i, ⟨r, (w.answer r).1⟩) :: later.1, later.2)
    | _ => takeTurns rest w ps

theorem Interleaved.ofSchedule {α : Type} (schedule : List Nat) (w : World) (ps : List (Program α)) :
    Interleaved w ps (takeTurns schedule w ps).1 (takeTurns schedule w ps).2.1
      (takeTurns schedule w ps).2.2 := by
  induction schedule generalizing w ps with
  | nil => exact .rest w ps
  | cons i rest ih =>
    unfold takeTurns
    split
    · next r next asks => exact .turn i asks (ih _ _)
    · exact ih w ps

theorem takeTurns_scheduled {α : Type} {schedule : List Nat} {w : World} {ps : List (Program α)}
    {i : Nat} {x : Exchange} (turn : (i, x) ∈ (takeTurns schedule w ps).1) : i ∈ schedule := by
  induction schedule generalizing w ps with
  | nil => simp [takeTurns] at turn
  | cons j rest ih =>
    unfold takeTurns at turn
    split at turn
    · rcases List.mem_cons.mp turn with head | tail
      · exact (Prod.mk.inj head).1 ▸ List.mem_cons_self ..
      · exact List.mem_cons_of_mem _ (ih tail)
    · exact List.mem_cons_of_mem _ (ih turn)

/-- A world answers in this way and becomes another one. -/
def World.Answers (w : World) : List Exchange → World → Prop
  | [], w' => w' = w
  | ⟨r, a⟩ :: log, w' => a = (w.answer r).1 ∧ (w.answer r).2.Answers log w'

theorem World.Answers.cons {w v w' : World} {r : Request} {a : r.Answer} {log : List Exchange}
    (answer : w.answer r = (a, v)) (later : v.Answers log w') : w.Answers (⟨r, a⟩ :: log) w' := by
  simp only [Answers, answer, later, and_self]

theorem World.Answers.append {w w' : World} {log more : List Exchange} :
    w.Answers (log ++ more) w' ↔ ∃ v, w.Answers log v ∧ v.Answers more w' := by
  induction log generalizing w with
  | nil => simp [Answers]
  | cons x log ih =>
    obtain ⟨r, a⟩ := x
    simp only [List.cons_append, Answers, ih]
    constructor
    · rintro ⟨answer, v, front, back⟩
      exact ⟨v, ⟨answer, front⟩, back⟩
    · rintro ⟨v, ⟨answer, front⟩, back⟩
      exact ⟨answer, v, front, back⟩

/-- What a program hears is what the world answers. -/
theorem Program.answers_heard {α : Type} (p : Program α) (w : World) :
    w.Answers (p.heard w) (p.run w).2 := by
  induction p generalizing w with
  | done value => rfl
  | panic cause => rfl
  | ask r next ih => exact ⟨rfl, ih _ _⟩

/-- A program hears no other answers than these, and ends in no other way. -/
theorem Program.heard_of_answers {α : Type} {p : Program α} {w w' : World} {log : List Exchange}
    {ending : Except Panic α} (ends : p.Ends log ending) (answers : w.Answers log w') :
    p.heard w = log ∧ p.run w = (ending, w') := by
  induction p generalizing w log with
  | done v =>
    obtain ⟨rfl, rfl⟩ := Program.ends_done.mp ends
    obtain rfl : w' = w := answers
    exact ⟨rfl, rfl⟩
  | panic cause =>
    obtain ⟨rfl, rfl⟩ := Program.ends_panic.mp ends
    obtain rfl : w' = w := answers
    exact ⟨rfl, rfl⟩
  | ask r next ih =>
    obtain ⟨a, rest, rfl, later⟩ := Program.ends_ask.mp ends
    obtain ⟨rfl, answers⟩ := answers
    obtain ⟨heard, ran⟩ := ih _ later answers
    exact ⟨congrArg (List.cons _) heard, ran⟩

/-- What one of the programs asked and was answered. -/
def own (i : Nat) (log : List (Nat × Exchange)) : List Exchange :=
  (log.filter fun x => x.1 = i).map Prod.snd

/-- The identifiers of the records that were saved. -/
def savedIds (log : List (Nat × Exchange)) : List String :=
  log.filterMap fun x => x.2.saved?.map Wait.Record.id

/-- The identifiers of the records whose claims succeeded. -/
def wonIds (log : List (Nat × Exchange)) : List String :=
  log.filterMap fun x => x.2.won?.map Wait.Record.id

theorem savedIds_cons (i : Nat) (x : Exchange) (log : List (Nat × Exchange)) :
    savedIds ((i, x) :: log) = (x.saved?.map Wait.Record.id).toList ++ savedIds log := by
  cases saves : x.saved? <;> simp [savedIds, saves]

theorem wonIds_cons (i : Nat) (x : Exchange) (log : List (Nat × Exchange)) :
    wonIds ((i, x) :: log) = (x.won?.map Wait.Record.id).toList ++ wonIds log := by
  cases wins : x.won? <;> simp [wonIds, wins]

/-- No record is saved under an identifier that was used before. -/
def FreshIds (store : Wait.Store) (log : List (Nat × Exchange)) : Prop :=
  (store.ids ++ savedIds log).Nodup

theorem FreshIds.early {store : Wait.Store} {early late : List (Nat × Exchange)}
    (fresh : FreshIds store (early ++ late)) : FreshIds store early := by
  have part : (savedIds early).Sublist (savedIds (early ++ late)) := by
    simp [savedIds, List.filterMap_append]
  exact fresh.sublist (part.append_left _)

/-- What comes only once in a log comes in one turn. -/
theorem turn_unique {β : Type} {f : Exchange → Option β} {log : List (Nat × Exchange)}
    (distinct : (log.filterMap fun x => f x.2).Nodup) {i j : Nat} {x y : Exchange} {b : β}
    (one : (i, x) ∈ log) (two : (j, y) ∈ log) (first : f x = some b) (second : f y = some b) :
    (i, x) = (j, y) := by
  by_contra other
  have apart := List.pairwise_filterMap.mp distinct
  have symmetric : Std.Symm fun x y : Nat × Exchange =>
      ∀ a, f x.2 = some a → ∀ b, f y.2 = some b → a ≠ b :=
    ⟨fun x y different a first b second => (different b second a first).symm⟩
  exact apart.forall one two other b first b second rfl

/-- A record is in the store from the start, or it is what the store keeps of one that was saved. -/
def Stored (store : Wait.Store) (log : List (Nat × Exchange)) (r : Wait.Record) : Prop :=
  r ∈ store.records ∨ ∃ i s, (i, ⟨.save s, .ok ()⟩) ∈ log ∧ r = store.kept s

/-- A record is in the store behind a log: it was there from the start and nothing has happened, or what
has happened last is that it was saved. -/
inductive StoredBehind (store : Wait.Store) (r : Wait.Record) : List (Nat × Exchange) → Prop
  | start (inside : r ∈ store.records) : StoredBehind store r []
  | saved {front : List (Nat × Exchange)} {i : Nat} {s : Wait.Record} (kept : r = store.kept s) :
    StoredBehind store r (front ++ [(i, ⟨.save s, .ok ()⟩)])

theorem StoredBehind.of_last {store : Wait.Store} {s : Wait.Record} {log : List (Nat × Exchange)} {i : Nat}
    {x : Exchange} (last : log.getLast? = some (i, x)) (saves : x.saved? = some s) :
    StoredBehind store (store.kept s) log := by
  obtain ⟨front, rfl⟩ := List.getLast?_eq_some_iff.mp last
  obtain rfl := Exchange.saved?_eq_some.mp saves
  exact .saved rfl

namespace Interleaved
variable {α : Type} {w w' : World} {ps ps' : List (Program α)} {log : List (Nat × Exchange)}

theorem mem_own {i : Nat} {x : Exchange} : x ∈ own i log ↔ (i, x) ∈ log := by
  simp [own]

theorem started (run : Interleaved w ps log w' ps') {i : Nat} {x : Exchange} (turn : (i, x) ∈ log) :
    ∃ p, ps[i]? = some p := by
  induction run with
  | rest => simp at turn
  | meanwhile _ _ _ ih => exact ih turn
  | @turn w w' ps ps' log j r next asks later ih =>
    rcases List.mem_cons.mp turn with head | tail
    · obtain ⟨rfl, -⟩ := Prod.mk.inj head
      exact ⟨_, asks⟩
    · obtain ⟨p, after⟩ := ih tail
      by_cases mine : j = i
      · exact ⟨_, mine ▸ asks⟩
      · exact ⟨p, by rwa [List.getElem?_set_ne mine] at after⟩

theorem split {early late : List (Nat × Exchange)} (run : Interleaved w ps (early ++ late) w' ps') :
    ∃ between qs, Interleaved w ps early between qs ∧ Interleaved between qs late w' ps' := by
  generalize whole : early ++ late = log at run
  induction run generalizing early with
  | rest w ps =>
    obtain ⟨rfl, rfl⟩ := List.append_eq_nil_iff.mp whole
    exact ⟨w, ps, .rest w ps, .rest w ps⟩
  | meanwhile store thief _ ih =>
    obtain ⟨between, qs, before, after⟩ := ih whole
    exact ⟨between, qs, .meanwhile store thief before, after⟩
  | @turn w w' ps ps' log i r next asks later ih =>
    cases early with
    | nil =>
      obtain rfl := whole
      exact ⟨w, ps, .rest w ps, .turn i asks later⟩
    | cons x early =>
      obtain ⟨rfl, tail⟩ := List.cons.inj whole
      obtain ⟨between, qs, before, after⟩ := ih tail
      exact ⟨between, qs, .turn i asks before, after⟩

theorem trans {between : World} {qs : List (Program α)} {late : List (Nat × Exchange)}
    (before : Interleaved w ps log between qs) (after : Interleaved between qs late w' ps') :
    Interleaved w ps (log ++ late) w' ps' := by
  induction before with
  | rest => exact after
  | turn i asks _ ih => exact .turn i asks (ih after)
  | meanwhile store thief _ ih => exact .meanwhile store thief (ih after)

theorem alone {p q : Program α} {log : List Exchange} (goes : p.Goes log q) (answers : w.Answers log w')
    (front rest : List (Program α)) :
    Interleaved w (front ++ p :: rest) (log.map (front.length, ·)) w' (front ++ q :: rest) := by
  induction goes generalizing w with
  | stay p =>
    obtain rfl : w' = w := answers
    exact .rest w' _
  | @step r next a log q goes ih =>
    obtain ⟨rfl, answers⟩ := answers
    have asks : (front ++ .ask r next :: rest)[front.length]? = some (.ask r next) := by simp
    exact .turn front.length asks (by simpa using ih answers)

/-- Each program goes its own way through its part of the log. -/
theorem own_goes (run : Interleaved w ps log w' ps') {i : Nat} {p : Program α}
    (started : ps[i]? = some p) : ∃ q, ps'[i]? = some q ∧ p.Goes (own i log) q := by
  induction run generalizing p with
  | rest w ps => exact ⟨p, started, .stay p⟩
  | meanwhile _ _ _ ih => exact ih started
  | @turn w w' ps ps' log j r next asks later ih =>
    by_cases mine : j = i
    · subst mine
      obtain rfl := Option.some.inj (started.symm.trans asks)
      have inside : j < ps.length := (List.getElem?_eq_some_iff.mp asks).1
      obtain ⟨q, last, gone⟩ := ih (List.getElem?_set_self inside)
      refine ⟨q, last, ?_⟩
      simpa [own] using Program.Goes.step gone
    · obtain ⟨q, last, gone⟩ := ih (by rwa [List.getElem?_set_ne mine])
      refine ⟨q, last, ?_⟩
      simpa [own, mine] using gone

/-- What holds of the store, as long as each program asks for what is allowed to it, makes the answers
fair that the programs rely on; so they do ask for what is allowed to them, and it holds at the end. -/
theorem relies (inv : Wait.Store → Prop) {fair : Exchange → Prop} {allowed : Nat → Request → Prop}
    (run : Interleaved w ps log w' ps')
    (asks : ∀ i (p : Program α), ps[i]? = some p → p.Asks fair (allowed i) fun _ => True)
    (answers : ∀ (w : World) r, inv w.store → fair ⟨r, (w.answer r).1⟩)
    (keeps : ∀ (w : World) i r, inv w.store → allowed i r → inv (w.answer r).2.store)
    (holds : inv w.store) :
    (∀ i x, (i, x) ∈ log → fair x ∧ allowed i x.1) ∧ inv w'.store ∧
      ∀ i (p : Program α), ps'[i]? = some p → p.Asks fair (allowed i) fun _ => True := by
  induction run with
  | rest => exact ⟨by simp, holds, asks⟩
  | meanwhile store _ _ ih => exact ih asks (store ▸ holds)
  | @turn w w' ps ps' log i r next asking later ih =>
    obtain ⟨allows, goesOn⟩ := asks i _ asking
    have answer := answers w r holds
    have left (j : Nat) (p : Program α) (here : (ps.set i (next (w.answer r).1))[j]? = some p) :
        p.Asks fair (allowed j) fun _ => True := by
      by_cases mine : i = j
      · subst mine
        have inside : i < ps.length := (List.getElem?_eq_some_iff.mp asking).1
        rw [List.getElem?_set_self inside] at here
        exact Option.some.inj here ▸ goesOn _ answer
      · exact asks j p (by rwa [List.getElem?_set_ne mine] at here)
    obtain ⟨turns, last, ready⟩ := ih left (keeps w i r holds allows)
    refine ⟨fun j x member => ?_, last, ready⟩
    rcases List.mem_cons.mp member with head | tail
    · obtain ⟨rfl, rfl⟩ := Prod.mk.inj head
      exact ⟨answer, allows⟩
    · exact turns j x tail

theorem turn_fresh {i : Nat} {r : Request} (valid : w.store.Valid)
    (fresh : FreshIds w.store ((i, ⟨r, (w.answer r).1⟩) :: log)) :
    (w.answer r).2.store.Valid ∧ FreshIds (w.answer r).2.store log := by
  have effect := w.answer_effect r
  simp only [FreshIds, savedIds_cons, ← List.append_assoc] at fresh
  refine ⟨effect.valid valid fun s saves used => ?_,
    fresh.sublist ((effect.ids_sublist valid).append_right _)⟩
  rw [saves] at fresh
  exact (List.nodup_append'.mp (List.nodup_append'.mp fresh).1).2.2 used (by simp)

theorem kept_eq (run : Interleaved w ps log w' ps') : w'.store.kept = w.store.kept := by
  induction run with
  | rest => rfl
  | meanwhile store _ _ ih => rw [ih, store]
  | @turn w w' ps ps' log i r next asks later ih => rw [ih, (w.answer_effect r).kept_eq]

theorem stored (run : Interleaved w ps log w' ps') {h : Wait.Record} (member : h ∈ w'.store.records) :
    Stored w.store log h := by
  induction run with
  | rest => exact .inl member
  | meanwhile store _ _ ih => exact store ▸ ih member
  | @turn w w' ps ps' log i q next asks later ih =>
    have effect := w.answer_effect q
    rcases ih member with here | ⟨j, r, saved, rfl⟩
    · rcases effect.mem here with old | ⟨r, saves, rfl⟩
      · exact .inl old
      · exact .inr ⟨i, r, saves ▸ List.mem_cons_self .., rfl⟩
    · exact .inr ⟨j, r, List.mem_cons_of_mem _ saved, by rw [effect.kept_eq]⟩

theorem found {i : Nat} {scope : Scope} {r : Wait.Record}
    (run : Interleaved w ps ((i, ⟨.find scope, .ok (some r)⟩) :: log) w' ps') : r ∈ w.store.records := by
  generalize cut : (i, (⟨.find scope, .ok (some r)⟩ : Exchange)) :: log = whole at run
  induction run with
  | rest => simp at cut
  | meanwhile store _ _ ih => exact store ▸ ih cut
  | @turn w w' ps ps' rest j q next asks later ih =>
    obtain ⟨-, turn⟩ := Prod.mk.inj (List.cons.inj cut).1
    obtain ⟨rfl, answer⟩ := Sigma.mk.inj turn
    exact (World.answer_find (eq_of_heq answer).symm).1

theorem valid (run : Interleaved w ps log w' ps') (valid : w.store.Valid)
    (fresh : FreshIds w.store log) : w'.store.Valid := by
  induction run with
  | rest => exact valid
  | meanwhile store _ _ ih => exact ih (store ▸ valid) (store ▸ fresh)
  | turn i asks later ih =>
    obtain ⟨kept, rest⟩ := turn_fresh valid fresh
    exact ih kept rest

private theorem won_known (run : Interleaved w ps log w' ps') (valid : w.store.Valid)
    (fresh : FreshIds w.store log) {id : String} (won : id ∈ wonIds log) :
    id ∈ w.store.ids ++ savedIds log := by
  induction run with
  | rest => simp [wonIds] at won
  | meanwhile store _ _ ih =>
    exact store ▸ ih (store ▸ valid) (store ▸ fresh) won
  | @turn w w' ps ps' log i r next asks later ih =>
    have effect := w.answer_effect r
    rw [savedIds_cons, ← List.append_assoc]
    rcases List.mem_append.mp (wonIds_cons i _ log ▸ won) with here | there
    · obtain ⟨c, wins, rfl⟩ := Option.map_eq_some_iff.mp (Option.mem_toList.mp here)
      simp [(effect.won valid wins).1]
    · obtain ⟨kept, rest⟩ := turn_fresh valid fresh
      exact ((effect.ids_sublist valid).append_right _).subset (ih kept rest there)

/-- Of all claims of one suspension at most one succeeds. -/
theorem won_nodup (run : Interleaved w ps log w' ps') (valid : w.store.Valid)
    (fresh : FreshIds w.store log) : (wonIds log).Nodup := by
  induction run with
  | rest => simp [wonIds]
  | meanwhile store _ _ ih => exact ih (store ▸ valid) (store ▸ fresh)
  | @turn w w' ps ps' log i r next asks later ih =>
    obtain ⟨kept, rest⟩ := turn_fresh valid fresh
    rw [wonIds_cons]
    cases wins : Exchange.won? ⟨r, (w.answer r).1⟩ with
    | none => simpa using ih kept rest
    | some c =>
      obtain ⟨stored, gone⟩ := (w.answer_effect r).won valid wins
      have unsaved : c.id ∉ savedIds log := by
        rw [FreshIds, savedIds_cons] at fresh
        exact fun saved => (List.nodup_append'.mp fresh).2.2 stored (List.mem_append_right _ saved)
      have again : c.id ∉ wonIds log := fun second =>
        (List.mem_append.mp (later.won_known kept rest second)).elim gone unsaved
      exact List.nodup_cons.mpr ⟨again, ih kept rest⟩

/-- The first claim of a record that stays until then succeeds. -/
theorem claimed (run : Interleaved w ps log w' ps') (valid : w.store.Valid)
    (fresh : FreshIds w.store log) (honest : w.thief = false) {r : Wait.Record}
    (stored : r ∈ w.store.records)
    (unreplaced : ∀ i s, (i, ⟨.save s, .ok ()⟩) ∈ log → s.key ≠ r.key)
    (unreaped : ∀ i now reaped, (i, ⟨.reap now, .ok reaped⟩) ∈ log → r ∉ reaped)
    {i : Nat} {c : Wait.Record} {won : Bool} (claims : (i, ⟨.claim c, .ok won⟩) ∈ log)
    (same : r.Same c) : ∃ j d, (j, ⟨.claim d, .ok true⟩) ∈ log ∧ r.Same d := by
  induction run with
  | rest => simp at claims
  | meanwhile store thief _ ih =>
    exact ih (store ▸ valid) (store ▸ fresh) (thief.trans honest) (store ▸ stored) unreplaced
      unreaped claims
  | @turn w w' ps ps' log k q next asks later ih =>
    have effect := honest ▸ w.answer_effect q
    obtain ⟨kept, rest⟩ := turn_fresh valid fresh
    by_cases here : ∃ d b, (⟨q, (w.answer q).1⟩ : Exchange) = ⟨.claim d, .ok b⟩ ∧ r.Same d
    · obtain ⟨d, b, turn, again⟩ := here
      rw [turn] at effect
      obtain rfl := effect.claim_won valid stored again
      exact ⟨k, d, by simp [turn], again⟩
    · have stays : r ∈ (w.answer q).2.store.records := by
        refine effect.stays valid stored (fun s saves => ?_) ?_ fun d b turn again =>
          here ⟨d, b, turn, again⟩
        · rw [Exchange.saved?_eq_some] at saves
          exact unreplaced k s (by simp [saves])
        · intro member
          obtain ⟨now, reaped, turn, inside⟩ := Exchange.mem_reaped.mp member
          exact unreaped k now reaped (by simp [turn]) inside
      have left : (i, ⟨.claim c, .ok won⟩) ∈ log := by
        rcases List.mem_cons.mp claims with head | tail
        · exact absurd ⟨c, won, (Prod.mk.inj head).2.symm, same⟩ here
        · exact tail
      obtain ⟨j, d, wins, again⟩ := ih kept rest (by simpa using honest) stays
        (fun i s saved => unreplaced i s (List.mem_cons_of_mem _ saved))
        (fun i now reaped reaps => unreaped i now reaped (List.mem_cons_of_mem _ reaps)) left
      exact ⟨j, d, List.mem_cons_of_mem _ wins, again⟩

end Interleaved

/-! ## Records that are stored on the way -/

namespace Interleaved
variable {α : Type} {w w' : World} {ps ps' : List (Program α)} {log late : List (Nat × Exchange)}
  {r : Wait.Record}

/-- Turns leave a valid store, what is saved later is still new, and nobody becomes a thief. -/
theorem onward (run : Interleaved w ps log w' ps') {late : List (Nat × Exchange)}
    (valid : w.store.Valid) (fresh : FreshIds w.store (log ++ late)) :
    w'.store.Valid ∧ FreshIds w'.store late ∧ w'.thief = w.thief := by
  induction run with
  | rest => exact ⟨valid, fresh, rfl⟩
  | meanwhile store thief _ ih =>
    obtain ⟨valid', fresh', same⟩ := ih (store ▸ valid) (store ▸ fresh)
    exact ⟨valid', fresh', same.trans thief⟩
  | @turn w w' ps ps' log i r next asks later ih =>
    obtain ⟨kept, rest⟩ := turn_fresh valid fresh
    obtain ⟨valid', fresh', same⟩ := ih kept rest
    exact ⟨valid', fresh', same.trans (w.answer_thief r)⟩

theorem saves {i : Nat}
    (run : Interleaved w ps ((i, ⟨.save r, .ok ()⟩) :: log) w' ps') :
    ∃ between qs, Interleaved w ps [(i, ⟨.save r, .ok ()⟩)] between qs ∧
      Interleaved between qs log w' ps' ∧ between.store.kept r ∈ between.store.records := by
  generalize cut : (i, (⟨.save r, .ok ()⟩ : Exchange)) :: log = whole at run
  induction run with
  | rest => simp at cut
  | meanwhile store thief _ ih =>
    obtain ⟨between, qs, before, after, stored⟩ := ih cut
    exact ⟨between, qs, .meanwhile store thief before, after, stored⟩
  | @turn w w' ps ps' rest j q next asks later ih =>
    obtain ⟨head, rfl⟩ := List.cons.inj cut
    have effect := w.answer_effect q
    rw [← (Prod.mk.inj head).2] at effect
    exact ⟨_, _, head ▸ .turn j asks (.rest _ _), later, effect.saves⟩

/-- Behind a save what the store keeps of the record is stored. -/
theorem cut_saved {i : Nat}
    (run : Interleaved w ps (log ++ (i, ⟨.save r, .ok ()⟩) :: late) w' ps') :
    ∃ between qs, Interleaved w ps (log ++ [(i, ⟨.save r, .ok ()⟩)]) between qs ∧
      Interleaved between qs late w' ps' ∧ w.store.kept r ∈ between.store.records := by
  obtain ⟨_, _, earlier, later⟩ := run.split
  obtain ⟨between, qs, saving, after, stored⟩ := later.saves
  have before := earlier.trans saving
  exact ⟨between, qs, before, after, before.kept_eq ▸ stored⟩

theorem cut_stored (stored : StoredBehind w.store r log)
    (run : Interleaved w ps (log ++ late) w' ps') :
    ∃ between qs, Interleaved w ps log between qs ∧ Interleaved between qs late w' ps' ∧
      r ∈ between.store.records := by
  cases stored with
  | start inside => exact ⟨w, ps, .rest w ps, run, inside⟩
  | saved kept =>
    subst kept
    exact cut_saved (by simpa using run)

/-- What is found has been stored. -/
theorem found_stored {i : Nat} {scope : Scope} (run : Interleaved w ps log w' ps')
    (found : (i, ⟨.find scope, .ok (some r)⟩) ∈ log) : Stored w.store log r := by
  obtain ⟨early, late, rfl⟩ := List.mem_iff_append.mp found
  obtain ⟨between, qs, before, after⟩ := run.split
  rcases before.stored after.found with here | ⟨j, s, saved, rfl⟩
  · exact .inl here
  · exact .inr ⟨j, s, List.mem_append_left _ saved, rfl⟩

end Interleaved

theorem StoredBehind.stored {store : Wait.Store} {r : Wait.Record} {log late : List (Nat × Exchange)}
    (behind : StoredBehind store r log) : Stored store (log ++ late) r := by
  cases behind with
  | start inside => exact .inl inside
  | @saved front i s kept => exact .inr ⟨i, s, by simp, kept⟩

/-- An identifier stands for one record, whenever it is in the store. -/
theorem Stored.unique {store : Wait.Store} {r s : Wait.Record} {log : List (Nat × Exchange)}
    (valid : store.Valid) (fresh : FreshIds store log) (one : Stored store log r)
    (other : Stored store log s) (same : r.id = s.id) : r = s := by
  obtain ⟨-, distinct, apart⟩ := List.nodup_append'.mp fresh
  have saved {i : Nat} {t : Wait.Record} (turn : (i, ⟨.save t, .ok ()⟩) ∈ log) :
      (store.kept t).id ∈ savedIds log := by
    rw [Wait.Store.kept_id]
    exact List.mem_filterMap.mpr ⟨_, turn, rfl⟩
  rcases one with here | ⟨i, t, turn, rfl⟩
  · rcases other with there | ⟨j, u, turn', rfl⟩
    · exact valid.same_id here there same
    · exact absurd (saved turn') fun again => apart (List.mem_map_of_mem here) (same ▸ again)
  · rcases other with there | ⟨j, u, turn', rfl⟩
    · exact absurd (saved turn) fun again => apart (List.mem_map_of_mem there) (same ▸ again)
    · have equal := turn_unique (f := fun x => x.saved?.map Wait.Record.id) distinct turn turn' rfl
        (congrArg some (by simpa using same.symm))
      cases equal
      rfl

end Parley
