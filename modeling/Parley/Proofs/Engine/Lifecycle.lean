import Parley.Proofs.Engine.Messages
import Parley.Proofs.Engine.Stretch
/-!
# The life of a run

Callers come one after another, each when those before it have been served (`History`). Each does a
stretch of one run or of none, so a run is where the last stretch has left it when the next caller
comes (`History.resting`): it is started once, and after that a caller goes on with it only with a
record that an earlier stretch of it has saved (`lifecycle`). It is left amid a stretch only when a
caller has panicked. A run with one record at a time goes on from being suspended only, and nothing
follows its end (`IsLife.suspended_of_resumed`, `IsLife.eq_nil_of_end`); a run that waits at two nodes, or
that fails while it waits, goes on when it is over (`goes_on_when_over`).
-/
namespace Parley

/-! ## Phases of a life -/

/-- Where a run is in its life. -/
inductive Phase
  | unborn
  | running
  | waiting
  | ended
deriving DecidableEq

/-- Where an event of a run leads. It is left open whether a run that is over may go on again, and
whether one may that was torn off before its end was told. -/
def Phase.next (again torn : Bool) : Phase → RunEvent → Option Phase
  | .unborn, .started .. => some .running
  | .running, .suspended .. => some .waiting
  | .running, .completed .. | .running, .failed .. => some .ended
  | .waiting, .resumed .. => some .running
  | .ended, .resumed .. => if again then some .running else none
  | .running, .resumed .. => if torn then some .running else none
  | _, _ => none

def Phase.after (again torn : Bool) (events : List RunEvent) : Option Phase :=
  events.foldlM (next again torn) .unborn

/-- A run is not left amid a stretch, unless it may be torn off there. -/
def Phase.Rests (torn : Bool) (phase : Phase) : Prop := phase = .running → torn = true

instance (torn : Bool) (phase : Phase) : Decidable (phase.Rests torn) :=
  inferInstanceAs (Decidable (_ → _))

/-- The events make a life: the run is started, it is suspended and goes on any number of times, and it
is suspended or ends in the end. Whether it may go on after an end is left open, and whether it may be
torn off. -/
def IsLife (again torn : Bool) (events : List RunEvent) : Prop :=
  ∃ phase, Phase.after again torn events = some phase ∧ phase.Rests torn

instance (again torn : Bool) (events : List RunEvent) : Decidable (IsLife again torn events) :=
  decidable_of_iff ((Phase.after again torn events).any fun phase => phase.Rests torn)
    (by simp [IsLife, Option.any_eq_true])

def Status.phase : Status → Phase
  | .suspended _ => .waiting
  | .completed | .failed .. => .ended

theorem Status.phase_ne_running (status : Status) : status.phase ≠ .running := by
  cases status <;> simp [phase]

namespace Phase
variable {again torn : Bool} {events : List RunEvent} {phase later : Phase} {e : RunEvent}

theorem after_concat (here : after again torn events = some phase)
    (leads : phase.next again torn e = some later) :
    after again torn (events ++ [e]) = some later := by
  unfold after at here ⊢
  rw [List.foldlM_append, here]
  simp [leads]

theorem next_status (run flow : String) (status : Status) :
    running.next again torn (status.event run flow) = some status.phase := by
  cases status <;> rfl

theorem last_of_after (here : after again torn events = some phase) :
    events = [] ∧ phase = .unborn ∨ ∃ front last earlier, events = front ++ [last] ∧
      after again torn front = some earlier ∧ earlier.next again torn last = some phase := by
  rcases List.eq_nil_or_concat events with rfl | ⟨front, last, rfl⟩
  · exact .inl ⟨rfl, (Option.some.inj here).symm⟩
  · unfold after at here
    rw [List.concat_eq_append, List.foldlM_append] at here
    obtain ⟨earlier, before, leads⟩ := Option.bind_eq_some_iff.mp here
    exact .inr ⟨front, last, earlier, List.concat_eq_append, before, by simpa using leads⟩

theorem eq_nil_of_unborn (here : after again torn events = some .unborn) : events = [] := by
  rcases last_of_after here with ⟨none, -⟩ | ⟨_, last, earlier, -, -, leads⟩
  · exact none
  · exfalso
    cases earlier <;> cases last <;> cases again <;> cases torn <;> simp [next] at leads

end Phase

namespace IsLife
variable {again torn : Bool} {front rest : List RunEvent} {e : RunEvent}

private theorem cut (life : IsLife again torn (front ++ e :: rest)) :
    ∃ earlier later, Phase.after again torn front = some earlier ∧
      earlier.next again torn e = some later ∧
      (rest.foldlM (Phase.next again torn) later).isSome := by
  obtain ⟨phase, here, -⟩ := life
  unfold Phase.after at here
  simp only [List.foldlM_append, List.foldlM_cons] at here
  obtain ⟨earlier, before, on⟩ := Option.bind_eq_some_iff.mp here
  obtain ⟨later, leads, after⟩ := Option.bind_eq_some_iff.mp on
  exact ⟨earlier, later, before, leads, Option.isSome_iff_exists.mpr ⟨phase, after⟩⟩

/-- Nothing follows the end of a run that may not go on after it. -/
theorem eq_nil_of_end (life : IsLife false false (front ++ e :: rest)) (ends : e.isEnd = true) :
    rest = [] := by
  obtain ⟨earlier, later, -, leads, after⟩ := life.cut
  have stopped : later = .ended := by
    cases earlier <;> cases e <;> simp_all [Phase.next, RunEvent.isEnd]
  cases rest with
  | nil => rfl
  | cons next rest => cases next <;> simp [stopped, Phase.next] at after

/-- Such a run goes on from being suspended only. -/
theorem suspended_of_resumed {run flow node : String}
    (life : IsLife false false (front ++ .resumed run flow node :: rest)) :
    ∃ early run flow node, front = early ++ [.suspended run flow node] := by
  obtain ⟨earlier, later, before, leads, -⟩ := life.cut
  obtain rfl : earlier = .waiting := by cases earlier <;> simp_all [Phase.next]
  rcases Phase.last_of_after before with ⟨-, unborn⟩ | ⟨early, last, phase, rfl, -, stops⟩
  · contradiction
  · cases last with
    | suspended run flow node => exact ⟨early, run, flow, node, rfl⟩
    | _ => cases phase <;> simp [Phase.next] at stops

end IsLife

/-! ## Callers that come one after another -/

/-- What the callers before one of them have asked and were answered. -/
def before (i : Nat) (log : List (Nat × Exchange)) : List (Nat × Exchange) :=
  log.filter fun x => x.1 < i

theorem before_succ {log : List (Nat × Exchange)} (inTurn : (log.map Prod.fst).Pairwise (· ≤ ·))
    (i : Nat) : before (i + 1) log = before i log ++ log.filter fun x => x.1 = i := by
  induction log with
  | nil => rfl
  | cons x log ih =>
    obtain ⟨first, inTurn⟩ := List.pairwise_cons.mp inTurn
    have late (after : i ≤ x.1) : before i log = [] := by
      refine List.filter_eq_nil_iff.mpr fun y member earlier => ?_
      have := first y.1 (List.mem_map_of_mem member)
      have := of_decide_eq_true earlier
      omega
    have rest := ih inTurn
    unfold before at rest late ⊢
    simp only [List.filter_cons, decide_eq_true_eq]
    rcases Nat.lt_trichotomy x.1 i with earlier | now | later
    · rw [if_pos (by omega), if_pos earlier, if_neg (by omega), rest, List.cons_append]
    · rw [if_pos (by omega), if_neg (by omega), if_pos now, rest, late (by omega), List.nil_append,
        List.nil_append]
    · rw [if_neg (by omega), if_neg (by omega), if_neg (by omega), rest]

def Exchange.given? : Exchange → Option String
  | ⟨.identifier, id⟩ => some id
  | _ => none

/-- Callers are served one after another, beginning without records, until each has returned or has
panicked. No identifier is given twice or used twice for a record, and a caller resumes only what an
earlier one has saved. -/
structure History (engine : Engine) (errands : List Errand) (w : World)
    (log : List (Nat × Exchange)) (w' : World) (endings : List (Except Panic Unit)) : Prop where
  served : Interleaved w (errands.map (Errand.program engine)) log w' (endings.map .ended)
  inTurn : (log.map Prod.fst).Pairwise (· ≤ ·)
  empty : w.store.records = []
  fresh : FreshIds w.store log
  given : (log.filterMap fun x => x.2.given?).Nodup
  copies : ∀ i record event, errands[i]? = some (.resume record event) →
    ∃ j s, j < i ∧ (j, ⟨.save s, .ok ()⟩) ∈ log ∧ record = w.store.kept s

/-- A stretch of the run that came before has saved a record, and nobody has claimed it. -/
def Open (run : String) (log : List (Nat × Exchange)) (i : Nat) (id : String) : Prop :=
  (∃ j s, j < i ∧ (j, ⟨.save s, .ok ()⟩) ∈ log ∧ s.id = id ∧ Concerns run (own j log)) ∧
    id ∉ wonIds (before i log)

/-- No stretch of the run saves more than one record, and none that saves one fails. -/
structure Modest (run : String) (log : List (Nat × Exchange)) : Prop where
  single : ∀ i r s, Concerns run (own i log) → (i, ⟨.save r, .ok ()⟩) ∈ log →
    (i, ⟨.save s, .ok ()⟩) ∈ log → r = s
  unfailed : ∀ i r flow node reason, (i, ⟨.save r, .ok ()⟩) ∈ log →
    (i, ⟨.publish (.failed run flow node reason), ()⟩) ∉ log

/-- No stretch of the run has panicked. -/
def Unbroken (run : String) (log : List (Nat × Exchange)) (endings : List (Except Panic Unit)) : Prop :=
  ∀ i cause, endings[i]? = some (.error cause) → ¬ Concerns run (own i log)

theorem Unbroken.of_returned {run : String} {log : List (Nat × Exchange)}
    {endings : List (Except Panic Unit)} (returned : ∀ ending ∈ endings, ending = .ok ()) :
    Unbroken run log endings := by
  intro i cause stopped
  exact nomatch returned _ (List.mem_of_getElem? stopped)

/-- A run of which only one record is saved is modest if it does not fail. -/
theorem Modest.of_one {run : String} {log : List (Nat × Exchange)} {record : Wait.Record}
    {events : List RunEvent} (saves : (log.filterMap fun x => x.2.saved?) = [record])
    (told : milestones run (log.map Prod.snd) = events)
    (succeeds : ∀ flow node reason, .failed run flow node reason ∉ events) : Modest run log where
  single i r s _ one two := by
    have only {i : Nat} {r : Wait.Record} (saved : (i, ⟨.save r, .ok ()⟩) ∈ log) : r = record :=
      List.mem_singleton.mp (saves ▸ List.mem_filterMap.mpr ⟨_, saved, rfl⟩)
    rw [only one, only two]
  unfailed i r flow node reason _ fails := by
    refine succeeds flow node reason (told ▸ mem_milestones.mpr ⟨?_, rfl⟩)
    exact List.mem_map.mpr ⟨_, fails, rfl⟩

/-- Where a run is when the next caller comes. If it may not go on when it is over, it is not over as long
as a record of it is there, which is the only one. -/
structure Resting (again torn : Bool) (run : String) (log : List (Nat × Exchange)) (i : Nat)
    (phase : Phase) : Prop where
  rests : phase.Rests torn
  here : Phase.after again torn (milestones run ((before i log).map Prod.snd)) = some phase
  waits : again = false → ∀ id, Open run log i id → phase ≠ .ended
  alone : again = false → ∀ id other, Open run log i id → Open run log i other → id = other

section
variable {log : List (Nat × Exchange)} {run : String} {i : Nat}

theorem milestones_before_succ (inTurn : (log.map Prod.fst).Pairwise (· ≤ ·)) (run : String) (i : Nat) :
    milestones run ((before (i + 1) log).map Prod.snd) =
      milestones run ((before i log).map Prod.snd) ++ milestones run (own i log) := by
  rw [before_succ inTurn, List.map_append, milestones_append]
  rfl

theorem concerns_before {j : Nat} (concerns : Concerns run (own j log)) (earlier : j < i) :
    Concerns run ((before i log).map Prod.snd) := by
  obtain ⟨e, member⟩ := List.exists_mem_of_ne_nil _ concerns
  obtain ⟨told, same⟩ := mem_milestones.mp member
  refine List.ne_nil_of_mem (mem_milestones.mpr ⟨List.mem_map.mpr ⟨(j, _), ?_, rfl⟩, same⟩)
  exact List.mem_filter.mpr ⟨Interleaved.mem_own.mp told, by simpa using earlier⟩

/-- What is open was open before, or it was saved just now. -/
theorem Open.earlier {id : String} (waits : Open run log (i + 1) id) :
    Open run log i id ∨ ∃ s, (i, ⟨.save s, .ok ()⟩) ∈ log ∧ s.id = id ∧ Concerns run (own i log) := by
  obtain ⟨⟨j, s, come, saved, named, concerns⟩, unclaimed⟩ := waits
  rcases Nat.lt_succ_iff_lt_or_eq.mp come with earlier | rfl
  · have part : (before i log).Sublist (before (i + 1) log) :=
      List.monotone_filter_right _ fun x inside => by
        simp only [decide_eq_true_eq] at inside ⊢
        omega
    exact .inl ⟨⟨j, s, earlier, saved, named, concerns⟩, fun won =>
      unclaimed ((part.filterMap _).subset won)⟩
  · exact .inr ⟨s, saved, named, concerns⟩

section
variable {again torn : Bool} {phase : Phase} {endings : List (Except Panic Unit)}

theorem Resting.first : Resting again torn run log 0 .unborn where
  rests := nofun
  here := by simp [before, milestones, Phase.after]
  waits _ id waits := by
    obtain ⟨⟨j, s, early, -⟩, -⟩ := waits
    omega
  alone _ id other one := by
    obtain ⟨⟨j, s, early, -⟩, -⟩ := one
    omega

theorem Resting.unborn (resting : Resting again torn run log i phase)
    (silent : ¬ Concerns run ((before i log).map Prod.snd)) : phase = .unborn := by
  have here := resting.here
  rw [not_not.mp silent] at here
  exact (Option.some.inj here).symm

theorem Resting.goesOn (resting : Resting again torn run log i phase)
    (concerns : Concerns run ((before i log).map Prod.snd)) {id : String} (isOpen : Open run log i id)
    (flow node : String) : phase.next again torn (.resumed run flow node) = some .running := by
  cases at_phase : phase with
  | unborn => exact absurd (Phase.eq_nil_of_unborn (at_phase ▸ resting.here)) concerns
  | waiting => rfl
  | running => simp [Phase.next, resting.rests at_phase]
  | ended =>
    cases again with
    | true => rfl
    | false => exact absurd at_phase (resting.waits rfl id isOpen)

theorem Resting.quiet (resting : Resting again torn run log i phase)
    (inTurn : (log.map Prod.fst).Pairwise (· ≤ ·)) (quiet : ¬ Concerns run (own i log)) :
    Resting again torn run log (i + 1) phase := by
  have old {id : String} (waits : Open run log (i + 1) id) : Open run log i id :=
    waits.earlier.resolve_right fun ⟨_, _, _, concerns⟩ => quiet concerns
  refine ⟨resting.rests, ?_, fun strict id waits => resting.waits strict id (old waits),
    fun strict id other one two => resting.alone strict id other (old one) (old two)⟩
  rw [milestones_before_succ inTurn, not_not.mp quiet, List.append_nil]
  exact resting.here

/-- A stretch of the run, which begins where the run is, leaves it where the walk has ended or was torn
off. -/
theorem Resting.stretch {first : RunEvent} {last : List RunEvent} {ending : Except Panic Unit}
    (resting : Resting again torn run log i phase) (inTurn : (log.map Prod.fst).Pairwise (· ≤ ·))
    (modest : again = false → Modest run log) (unbroken : torn = false → ∀ cause, ending ≠ .error cause)
    (stretch : Stretch run first last (own i log) ending)
    (begins : phase.next again torn first = some .running)
    (taken : again = false → ∀ id, Open run log i id → id ∈ wonIds (before (i + 1) log)) :
    ∃ phase, Resting again torn run log (i + 1) phase := by
  have told : milestones run (own i log) = first :: last := by simp [stretch.told]
  have new (strict : again = false) {id : String} (waits : Open run log (i + 1) id) :
      ∃ s, (i, ⟨.save s, .ok ()⟩) ∈ log ∧ s.id = id := by
    rcases waits.earlier with old | ⟨s, saved, named, -⟩
    · exact absurd (taken strict id old) waits.2
    · exact ⟨s, saved, named⟩
  have alone (strict : again = false) (id other : String) (one : Open run log (i + 1) id)
      (two : Open run log (i + 1) other) : id = other := by
    obtain ⟨r, saved, rfl⟩ := new strict one
    obtain ⟨s, saved', rfl⟩ := new strict two
    rw [(modest strict).single i r s stretch.concerns saved saved']
  have begun := Phase.after_concat resting.here begins
  cases stretch.stops with
  | torn =>
    refine ⟨.running, fun _ => ?_, ?_, fun _ _ _ => nofun, alone⟩
    · exact (Bool.not_eq_false _).mp fun whole => unbroken whole _ rfl
    · rw [milestones_before_succ inTurn, told, begun]
  | @told flow status incomplete =>
    refine ⟨status.phase, fun amid => absurd amid status.phase_ne_running, ?_, fun strict id waits => ?_,
      alone⟩
    · have ended := Phase.after_concat begun (Phase.next_status run flow status)
      rwa [List.append_assoc, List.singleton_append, ← told, ← milestones_before_succ inTurn] at ended
    · obtain ⟨s, saved, -⟩ := new strict waits
      cases status with
      | suspended node => nofun
      | completed => exact absurd rfl (incomplete s (Interleaved.mem_own.mpr saved))
      | failed node reason =>
        have last : Status.event run flow (.failed node reason) ∈ milestones run (own i log) := by
          simp [told]
        exact absurd (Interleaved.mem_own.mp (mem_milestones.mp last).1)
          ((modest strict).unfailed i s flow node reason saved)

end

end

/-! ## Histories -/

namespace History
variable {engine : Engine} {errands : List Errand} {w w' : World} {log : List (Nat × Exchange)}
  {endings : List (Except Panic Unit)} {run : String} {i : Nat}

theorem valid (history : History engine errands w log w' endings) : w.store.Valid :=
  ⟨by simp [history.empty], by simp [Wait.Store.ids, history.empty]⟩

theorem won (history : History engine errands w log w' endings) : (wonIds log).Nodup := by
  exact history.served.won_nodup history.valid history.fresh

theorem lt_length (history : History engine errands w log w' endings) {x : Exchange} (turn : (i, x) ∈ log) :
    i < errands.length := by
  obtain ⟨p, started⟩ := history.served.started turn
  simpa using (List.getElem?_eq_some_iff.mp started).1

/-- Each caller does nothing of any run, or one stretch of one run. -/
theorem does (history : History engine errands w log w' endings) (builtIn : engine.BuiltIn)
    (inside : i < errands.length) :
    ∃ errand ending, errands[i]? = some errand ∧ endings[i]? = some ending ∧
      errand.Does (own i log) ending := by
  have sent := List.getElem?_eq_getElem inside
  have started : (errands.map (Errand.program engine))[i]? = some (errands[i].program engine) := by
    simp [sent]
  obtain ⟨q, last, gone⟩ := history.served.own_goes started
  rw [List.getElem?_map, Option.map_eq_some_iff] at last
  obtain ⟨ending, stopped, rfl⟩ := last
  exact ⟨_, ending, sent, stopped, Errand.does builtIn gone⟩

theorem held (history : History engine errands w log w' endings) {errand : Errand} {record : Wait.Record}
    (sent : errands[i]? = some errand) (holds : errand.Holds (own i log) record) :
    ∃ j s, j < i ∧ (j, ⟨.save s, .ok ()⟩) ∈ log ∧ record = w.store.kept s := by
  cases errand with
  | reap => exact holds.elim
  | resume r event =>
    obtain rfl : record = r := holds
    exact history.copies i record event sent
  | dispatch code version event =>
    obtain ⟨scope, rest, heard⟩ := holds
    obtain ⟨⟨k, x⟩, tail, cut, rfl, -⟩ := List.map_eq_cons_iff.mp heard
    obtain ⟨early, late, rfl, others, mine, -⟩ := List.filter_eq_cons_iff.mp cut
    obtain rfl : k = i := by simpa using mine
    -- the log is cut at the find: what is found then was saved by whoever came before
    obtain ⟨between, qs, earlier, later⟩ := history.served.split
    rcases earlier.stored later.found with old | ⟨j, s, saved, same⟩
    · simp [history.empty] at old
    · have inTurn := history.inTurn
      rw [List.map_append, List.pairwise_append] at inTurn
      have upTo := inTurn.2.2 j (List.mem_map_of_mem saved) k (by simp)
      have other : j ≠ k := by simpa using others _ saved
      exact ⟨j, s, by omega, List.mem_append_left _ saved, same⟩

/-- A caller that goes on with a run does so with a record that an earlier stretch of it has saved. -/
theorem goesOn (history : History engine errands w log w' endings) (builtIn : engine.BuiltIn)
    {errand : Errand} {record : Wait.Record} {ctx : Context} (sent : errands[i]? = some errand)
    (holds : errand.Holds (own i log) record)
    (read : Context.ofSnapshot record.snapshot = .ok ctx) :
    ∃ j s, j < i ∧ (j, ⟨.save s, .ok ()⟩) ∈ log ∧ record = w.store.kept s ∧
      Concerns ctx.runId (own j log) := by
  obtain ⟨j, s, earlier, saved, rfl⟩ := history.held sent holds
  rw [Wait.Store.kept_snapshot] at read
  obtain ⟨_, _, -, -, does⟩ := history.does builtIn (history.lt_length saved)
  exact ⟨j, s, earlier, saved, rfl, does.concerns (Interleaved.mem_own.mpr saved) read⟩

/-- A run of which something has been told has been given its identifier. -/
theorem born (history : History engine errands w log w' endings) (builtIn : engine.BuiltIn)
    (inside : i ≤ errands.length) (concerns : Concerns run ((before i log).map Prod.snd)) :
    ∃ j < i, (j, ⟨.identifier, run⟩) ∈ log := by
  -- the first caller that tells of the run starts it: to go on, it would need an earlier one
  induction i with
  | zero => exact absurd (by simp [before, milestones]) concerns
  | succ i ih =>
    have earlier (old : Concerns run ((before i log).map Prod.snd)) :
        ∃ j < i + 1, (j, ⟨.identifier, run⟩) ∈ log := by
      obtain ⟨j, before, given⟩ := ih (by omega) old
      exact ⟨j, by omega, given⟩
    obtain ⟨errand, _, sent, -, does⟩ := history.does builtIn inside
    cases does.part run with
    | none quiet =>
      rw [Concerns, milestones_before_succ history.inTurn, not_not.mp quiet, List.append_nil]
        at concerns
      exact earlier concerns
    | starts stretch new => exact ⟨i, by omega, Interleaved.mem_own.mp new⟩
    | goesOn same stretch holds claims readable =>
      obtain ⟨j, s, first, -, -, concerned⟩ := history.goesOn builtIn sent holds readable
      exact earlier (concerns_before (same ▸ concerned) first)

theorem silent (history : History engine errands w log w' endings) (builtIn : engine.BuiltIn)
    (inside : i ≤ errands.length) (new : (i, ⟨.identifier, run⟩) ∈ log) :
    ¬ Concerns run ((before i log).map Prod.snd) := by
  intro concerns
  obtain ⟨j, earlier, given⟩ := history.born builtIn inside concerns
  have same : j = i :=
    congrArg Prod.fst (turn_unique (f := Exchange.given?) history.given given new rfl rfl)
  omega

/-- A record that is claimed now has not been claimed before. -/
theorem isOpen (history : History engine errands w log w' endings) {j : Nat} {s : Wait.Record}
    (early : j < i) (saved : (j, ⟨.save s, .ok ()⟩) ∈ log) (concerned : Concerns run (own j log))
    (wins : (i, ⟨.claim (w.store.kept s), .ok true⟩) ∈ log) : Open run log i s.id := by
  refine ⟨⟨j, s, early, saved, rfl, concerned⟩, fun won => ?_⟩
  obtain ⟨⟨k, x⟩, member, claimed⟩ := List.mem_filterMap.mp won
  obtain ⟨c, claim, id⟩ := Option.map_eq_some_iff.mp claimed
  obtain rfl := Exchange.won?_eq_some.mp claim
  obtain ⟨turn, past⟩ := List.mem_filter.mp member
  have same : k = i := wonIds_unique history.won turn wins (by simpa using id)
  simp [same] at past

/-- Callers leave a run where the next one may start it or go on with it. -/
theorem resting (history : History engine errands w log w' endings) (builtIn : engine.BuiltIn)
    (again torn : Bool) (modest : again = false → Modest run log)
    (unbroken : torn = false → Unbroken run log endings) (inside : i ≤ errands.length) :
    ∃ phase, Resting again torn run log i phase := by
  -- by induction on the callers; what each of them does of this run decides where it is left
  induction i with
  | zero => exact ⟨.unborn, .first⟩
  | succ i ih =>
    obtain ⟨phase, resting⟩ := ih (by omega)
    obtain ⟨errand, ending, sent, stopped, does⟩ := history.does builtIn inside
    have whole {first : RunEvent} {last : List RunEvent}
        (stretch : Stretch run first last (own i log) ending) (strict : torn = false)
        (cause : Panic) : ending ≠ .error cause := by
      rintro rfl
      exact unbroken strict i cause stopped stretch.concerns
    cases does.part run with
    | none quiet => exact ⟨phase, resting.quiet history.inTurn quiet⟩
    | starts stretch new =>
      have silent := history.silent builtIn (by omega) (Interleaved.mem_own.mp new)
      obtain rfl := resting.unborn silent
      refine resting.stretch history.inTurn modest (whole stretch) stretch rfl fun _ id waits => ?_
      obtain ⟨⟨j, _, early, _, _, concerned⟩, -⟩ := waits
      exact absurd (concerns_before concerned early) silent
    | goesOn same stretch holds claims readable =>
      obtain ⟨j, s, early, saved, rfl, concerned⟩ := history.goesOn builtIn sent holds readable
      rw [same] at concerned
      have wins := Interleaved.mem_own.mp claims
      have isOpen := history.isOpen early saved concerned wins
      have begins := resting.goesOn (concerns_before concerned early) isOpen
      refine resting.stretch history.inTurn modest (whole stretch) stretch (begins _ _)
        fun strict id waits => ?_
      -- the record that is claimed is the only one that is left
      obtain rfl := resting.alone strict id s.id waits isOpen
      exact List.mem_filterMap.mpr ⟨_, List.mem_filter.mpr ⟨wins, by simp⟩, by simp⟩

end History

/-- How a run lives while callers are served who have ended in these ways. -/
structure Lifecycle (run : String) (store : Wait.Store) (log : List (Nat × Exchange))
    (endings : List (Except Panic Unit)) : Prop where
  /-- It is started once, and after that it goes on each time after it was suspended or came to an
  end, or after a stretch of it was torn off. -/
  life : IsLife true true (milestones run (log.map Prod.snd))
  /-- Each stretch of it is told with its start and its end, and with its start only if the caller has
  panicked. -/
  stretches : ∀ i ending, endings[i]? = some ending → Concerns run (own i log) →
    ∃ first last, milestones run (own i log) = first :: last ∧
      Stretch.Stops run (own i log) ending last
  /-- Whoever goes on with it has claimed a record that an earlier stretch of it has saved there. -/
  goesOn : ∀ i flow node, (i, ⟨.publish (.resumed run flow node), ()⟩) ∈ log →
    ∃ j s, j < i ∧ (j, ⟨.save s, .ok ()⟩) ∈ log ∧ Concerns run (own j log) ∧ s.node = node ∧
      (i, ⟨.claim (store.kept s), .ok true⟩) ∈ log
  /-- It is suspended or comes to an end before it goes on, and at last, if no stretch of it panics. -/
  whole : Unbroken run log endings → IsLife true false (milestones run (log.map Prod.snd))
  /-- It never goes on after an end, if no stretch of it saves more than one record or fails although it
  has saved one. -/
  ended : Modest run log → IsLife false true (milestones run (log.map Prod.snd))
  /-- If both hold, it goes on only from being suspended. -/
  lawful : Modest run log → Unbroken run log endings →
    IsLife false false (milestones run (log.map Prod.snd))

section
variable {engine : Engine} {errands : List Errand} {w w' : World} {log : List (Nat × Exchange)}
  {endings : List (Except Panic Unit)}

private theorem History.isLife (history : History engine errands w log w' endings)
    (builtIn : engine.BuiltIn) (run : String) (again torn : Bool)
    (modest : again = false → Modest run log) (unbroken : torn = false → Unbroken run log endings) :
    IsLife again torn (milestones run (log.map Prod.snd)) := by
  have all : before errands.length log = log := List.filter_eq_self.mpr fun x member =>
    decide_eq_true (history.lt_length member)
  obtain ⟨phase, resting⟩ := history.resting builtIn again torn modest unbroken (Nat.le_refl _)
  have here := resting.here
  rw [all] at here
  exact ⟨phase, here, resting.rests⟩

private theorem History.stops (history : History engine errands w log w' endings)
    (builtIn : engine.BuiltIn) {run : String} {i : Nat} {ending : Except Panic Unit}
    (stopped : endings[i]? = some ending) (concerns : Concerns run (own i log)) :
    ∃ first last, milestones run (own i log) = first :: last ∧
      Stretch.Stops run (own i log) ending last := by
  obtain ⟨e, member⟩ := List.exists_mem_of_ne_nil _ concerns
  have turn := Interleaved.mem_own.mp (mem_milestones.mp member).1
  obtain ⟨_, other, -, same, does⟩ := history.does builtIn (history.lt_length turn)
  obtain rfl := Option.some.inj (stopped.symm.trans same)
  cases does.part run with
  | none quiet => exact absurd concerns quiet
  | starts stretch => exact ⟨_, _, by rw [stretch.told, if_pos rfl], stretch.stops⟩
  | goesOn _ stretch => exact ⟨_, _, by rw [stretch.told, if_pos rfl], stretch.stops⟩

/-- In every history of callers that are served one after another each run lives in order. -/
theorem lifecycle (history : History engine errands w log w' endings) (builtIn : engine.BuiltIn)
    (run : String) : Lifecycle run w.store log endings where
  life := history.isLife builtIn run true true nofun nofun
  whole unbroken := history.isLife builtIn run true false nofun fun _ => unbroken
  ended modest := history.isLife builtIn run false true (fun _ => modest) nofun
  lawful modest unbroken := history.isLife builtIn run false false (fun _ => modest) fun _ => unbroken
  stretches i ending stopped concerns := history.stops builtIn stopped concerns
  goesOn i flow node told := by
    have mine := Interleaved.mem_own.mpr told
    obtain ⟨errand, _, sent, -, does⟩ := history.does builtIn (history.lt_length told)
    cases does.part run with
    | none quiet => exact absurd (List.ne_nil_of_mem (mem_milestones.mpr ⟨mine, rfl⟩)) quiet
    | starts stretch => exact absurd (stretch.first_of_resumed mine) (by simp)
    | goesOn same stretch holds claims readable =>
      obtain ⟨j, s, early, saved, rfl, concerned⟩ := history.goesOn builtIn sent holds readable
      obtain ⟨-, -, place⟩ := RunEvent.resumed.inj (stretch.first_of_resumed mine)
      have kept : (w.store.kept s).node = s.node := congrArg Wait.Key.node (w.store.kept_key s)
      exact ⟨j, s, early, saved, same ▸ concerned, kept.symm.trans place,
        Interleaved.mem_own.mp claims⟩

end

/-! ### Messages for one flow -/

namespace Chat
variable {flow : Flow} {rs : List Wait.Record}

/-- What is asked and answered while messages come one after another. -/
def asked (flow : Flow) (rs : List Wait.Record) : List (Nat × Exchange) :=
  inTurn 0 (course flow rs)

def told (flow : Flow) (rs : List Wait.Record) : List RunEvent :=
  milestones runId ((asked flow rs).map Prod.snd)

def errands (flow : Flow) (rs : List Wait.Record) : List Errand :=
  sends flow :: rs.map fun _ => sends flow

def endings (flow : Flow) (rs : List Wait.Record) : List (Except Panic Unit) :=
  (course flow rs).map Served.ending

theorem history (goes : Goes flow)
    (waits : AllWait flow rs ((program flow).serve (world flow)).world)
    (fresh : (savedIds (asked flow rs)).Nodup)
    (given : ((asked flow rs).filterMap fun x => x.2.given?).Nodup) :
    History (.standard {}) (errands flow rs) (world flow) (asked flow rs)
      (left (world flow) (course flow rs)) (endings flow rs) where
  served := by
    rw [endings, List.map_map]
    exact course_interleaved goes waits
  inTurn := (inTurn_pairwise 0 _).1
  empty := rfl
  fresh := fresh
  given := given
  copies i record event sent := by
    have member := List.mem_of_getElem? sent
    simp [errands, sends] at member

def once : Flow where
  code := "once"
  nodes := [start, wait]
  edges := [{ source := "start", target := "wait", branch := some "m" }]

def onceWaits : List Wait.Record :=
  [record once "00000000-0000-4000-8000-000000000002" "wait"]

def twice : Flow where
  code := "twice"
  nodes := [start, { wait with id := "a" }, { wait with id := "b" }]
  edges := [{ source := "start", target := "a", branch := some "m" },
    { source := "start", target := "b", branch := some "m" }]

/-- The records with which it waits, the last one first. -/
def twiceWaits : List Wait.Record :=
  [record twice "00000000-0000-4000-8000-000000000003" "b",
    record twice "00000000-0000-4000-8000-000000000002" "a"]

/-- A flow that waits at one node and fails at another one, where code is to be run. -/
def failing : Flow where
  code := "failing"
  nodes := [start, wait, { id := "code", type := "code", params := .ofFields [("code", .str "1")] }]
  edges := [{ source := "start", target := "wait", branch := some "m" },
    { source := "start", target := "code", branch := some "m" }]

def failingWaits : List Wait.Record :=
  [record failing "00000000-0000-4000-8000-000000000002" "wait"]

end Chat

theorem once_lifecycle :
    Lifecycle Chat.runId (Chat.world Chat.once).store (Chat.asked Chat.once Chat.onceWaits)
        [.ok (), .ok ()] ∧
      Modest Chat.runId (Chat.asked Chat.once Chat.onceWaits) ∧
      Unbroken Chat.runId (Chat.asked Chat.once Chat.onceWaits) [.ok (), .ok ()] ∧
      Chat.told Chat.once Chat.onceWaits =
        [.started Chat.runId "once" .chatMessage, .suspended Chat.runId "once" "wait",
          .resumed Chat.runId "once" "wait", .completed Chat.runId "once"] := by
  obtain ⟨fresh, given, told⟩ :
      (savedIds (Chat.asked Chat.once Chat.onceWaits)).Nodup ∧
      ((Chat.asked Chat.once Chat.onceWaits).filterMap fun x => x.2.given?).Nodup ∧
      Chat.told Chat.once Chat.onceWaits =
        [.started Chat.runId "once" .chatMessage, .suspended Chat.runId "once" "wait",
          .resumed Chat.runId "once" "wait", .completed Chat.runId "once"] := by
    decide +kernel
  have saves : ((Chat.asked Chat.once Chat.onceWaits).filterMap fun x => x.2.saved?) =
      Chat.onceWaits := rfl
  have waits : Chat.AllWait Chat.once Chat.onceWaits
      ((Chat.program Chat.once).serve (Chat.world Chat.once)).world :=
    ⟨⟨⟨rfl, rfl, rfl⟩, by decide +kernel, rfl, rfl, rfl, ⟨Chat.wait, rfl⟩⟩, trivial⟩
  have history := Chat.history ⟨rfl, rfl, by decide +kernel⟩ waits fresh given
  have returned : Chat.endings Chat.once Chat.onceWaits = [.ok (), .ok ()] := rfl
  rw [returned] at history
  exact ⟨lifecycle history (Engine.builtIn_standard {}) Chat.runId, .of_one saves told (by simp),
    .of_returned (by simp), told⟩

/-- A run goes on when it is over: one that waits at another node, too, and one that has failed at
another node. -/
theorem goes_on_when_over :
    (History (.standard {}) (Chat.errands Chat.twice Chat.twiceWaits) (Chat.world Chat.twice)
        (Chat.asked Chat.twice Chat.twiceWaits)
        (Chat.left (Chat.world Chat.twice) (Chat.course Chat.twice Chat.twiceWaits))
        [.ok (), .ok (), .ok ()] ∧
      Chat.told Chat.twice Chat.twiceWaits =
        [.started Chat.runId "twice" .chatMessage, .suspended Chat.runId "twice" "a",
          .resumed Chat.runId "twice" "b", .completed Chat.runId "twice",
          .resumed Chat.runId "twice" "a", .completed Chat.runId "twice"] ∧
      ¬ IsLife false true (Chat.told Chat.twice Chat.twiceWaits)) ∧
    (History (.standard {}) (Chat.errands Chat.failing Chat.failingWaits) (Chat.world Chat.failing)
        (Chat.asked Chat.failing Chat.failingWaits)
        (Chat.left (Chat.world Chat.failing) (Chat.course Chat.failing Chat.failingWaits))
        [.ok (), .ok ()] ∧
      Chat.told Chat.failing Chat.failingWaits =
        [.started Chat.runId "failing" .chatMessage,
          .failed Chat.runId "failing" "code"
            "Validation error: node code: no code executor configured",
          .resumed Chat.runId "failing" "wait", .completed Chat.runId "failing"] ∧
      ¬ IsLife false true (Chat.told Chat.failing Chat.failingWaits)) := by
  constructor
  · obtain ⟨fresh, given, told⟩ :
          (savedIds (Chat.asked Chat.twice Chat.twiceWaits)).Nodup ∧
        ((Chat.asked Chat.twice Chat.twiceWaits).filterMap fun x => x.2.given?).Nodup ∧
        Chat.told Chat.twice Chat.twiceWaits =
          [.started Chat.runId "twice" .chatMessage, .suspended Chat.runId "twice" "a",
            .resumed Chat.runId "twice" "b", .completed Chat.runId "twice",
            .resumed Chat.runId "twice" "a", .completed Chat.runId "twice"] := by
      decide +kernel
    have waits : Chat.AllWait Chat.twice Chat.twiceWaits
        ((Chat.program Chat.twice).serve (Chat.world Chat.twice)).world :=
      ⟨⟨⟨rfl, rfl, rfl⟩, by decide +kernel, rfl, rfl, rfl, ⟨{ Chat.wait with id := "b" }, rfl⟩⟩,
        ⟨⟨rfl, rfl, rfl⟩, by decide +kernel, rfl, rfl, rfl, ⟨{ Chat.wait with id := "a" }, rfl⟩⟩,
        trivial⟩
    have history := Chat.history ⟨rfl, rfl, by decide +kernel⟩ waits fresh given
    have returned : Chat.endings Chat.twice Chat.twiceWaits = [.ok (), .ok (), .ok ()] := rfl
    rw [returned] at history
    exact ⟨history, told, by rw [told]; decide⟩
  · obtain ⟨fresh, given, told⟩ :
          (savedIds (Chat.asked Chat.failing Chat.failingWaits)).Nodup ∧
        ((Chat.asked Chat.failing Chat.failingWaits).filterMap fun x => x.2.given?).Nodup ∧
        Chat.told Chat.failing Chat.failingWaits =
          [.started Chat.runId "failing" .chatMessage,
            .failed Chat.runId "failing" "code"
              "Validation error: node code: no code executor configured",
            .resumed Chat.runId "failing" "wait", .completed Chat.runId "failing"] := by
      decide +kernel
    have waits : Chat.AllWait Chat.failing Chat.failingWaits
        ((Chat.program Chat.failing).serve (Chat.world Chat.failing)).world :=
      ⟨⟨⟨rfl, rfl, rfl⟩, by decide +kernel, rfl, rfl, rfl, ⟨Chat.wait, rfl⟩⟩, trivial⟩
    have history := Chat.history ⟨rfl, rfl, by decide +kernel⟩ waits fresh given
    have returned : Chat.endings Chat.failing Chat.failingWaits = [.ok (), .ok ()] := rfl
    rw [returned] at history
    exact ⟨history, told, by rw [told]; decide⟩

end Parley
