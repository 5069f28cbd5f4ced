import Parley.Proofs.Runner.Nesting
import Parley.Proofs.Engine.Pass
/-!
# Nested walks suspend nothing

A walk within a node of another one saves no record and suspends no run, however deep it is nested: it
is entered at a start node, and a node that is to wait in it fails. So does every node around it, up to
the walk outside all others (`Engine.nestedUnsuspended`). A walk that a panic tears off has not suspended
anything before either.
-/
namespace Parley

/-- The walks within a turn, in order. -/
structure Turn.Nests (engine : Engine) (room : Nat) (t : Turn) (inners : List Walked) : Prop where
  ran : ∀ i ∈ inners, Task.Runs (engine.walk room i.flow i.entry i.appointed) i.before i.log i.ended
    i.after
  checked : ∀ i ∈ inners, engine.check i.flow = .ok ()
  entered : ∀ i ∈ inners, i.flow.Entered i.entry
  /-- Before its walks the node itself tells of nothing. -/
  heard : ∃ own, events own = [] ∧ t.log = own ++ inners.flatMap Walked.log
  through : t.visit.failure = none → ∀ i ∈ inners, i.Through

theorem Turn.Nests.told {engine : Engine} {room : Nat} {t : Turn} {inners : List Walked}
    (nests : t.Nests engine room inners) : events t.log = inners.flatMap fun i => events i.log := by
  obtain ⟨own, silent, heard⟩ := nests.heard
  rw [heard, events_append, silent, List.nil_append, events_flatMap]

theorem Walk.failed_isSome {walk : Walk} {v : Visit} (member : v ∈ walk.visits)
    (failed : v.failure.isSome) : walk.failed.isSome := by
  cases first : walk.failed with
  | some f => rfl
  | none =>
    have none := List.findSome?_eq_none_iff.mp first v member
    rw [Option.map_eq_none_iff] at none
    simp [none] at failed

/-- The walks within a node that panics, in order: those that have gone through, and one that is torn
off unless the node panics outside all of them. -/
structure TornNests (engine : Engine) (room : Nat) (log : List Exchange) (cause : Panic)
    (inners : List Walked) (last : Option TornWalk) : Prop where
  ran : ∀ i ∈ inners, Task.Runs (engine.walk room i.flow i.entry i.appointed) i.before i.log i.ended
    i.after
  through : ∀ i ∈ inners, i.Through
  torn : ∀ i ∈ last, Task.Panics (engine.walk room i.flow i.entry i.appointed) i.before i.log cause
  checked : (∀ i ∈ inners, engine.check i.flow = .ok ()) ∧ ∀ i ∈ last, engine.check i.flow = .ok ()
  entered : (∀ i ∈ inners, i.flow.Entered i.entry) ∧ ∀ i ∈ last, i.flow.Entered i.entry
  heard : ∃ own, events own = [] ∧
    log = own ++ inners.flatMap Walked.log ++ last.elim [] TornWalk.log

theorem TornNests.told {engine : Engine} {room : Nat} {log : List Exchange} {cause : Panic}
    {inners : List Walked} {last : Option TornWalk} (nests : TornNests engine room log cause inners last)
    {e : RunEvent} (told : e ∈ events log) :
    (∃ i ∈ inners, e ∈ events i.log) ∨ ∃ i ∈ last, e ∈ events i.log := by
  obtain ⟨own, silent, rfl⟩ := nests.heard
  rw [events_append, events_append, silent, List.nil_append, events_flatMap] at told
  rcases List.mem_append.mp told with inner | torn
  · exact .inl (List.mem_flatMap.mp inner)
  · cases last with
    | none => simp at torn
    | some i => exact .inr ⟨i, rfl, torn⟩

/-- A runner has worked for the turn, on the call that a node gets in a walk with `room` levels below
it. -/
structure Turn.Worked (engine : Engine) (room : Nat) (flow : Flow) (first : Bool) (t : Turn)
    (r : Registration Runner) (call : Call) (result : Except Error Unit) (s : NodeState) : Prop where
  builtin : r ∈ Runner.builtins
  type : r.type = t.visit.type
  flow : call.flow = flow
  first : call.isFirst = first
  nested : room < Engine.deepest → call.maySuspend = false
  ran : Task.Runs (r.runner (engine.around room) call)
    { context := t.before, report := { id := call.node.id } } t.log result s
  ended : t.visit.failure = none → result = .ok ()
  report : t.visit.failure = none → t.visit.report = s.report

theorem Turn.Worked.suspended {engine : Engine} {room : Nat} {flow : Flow} {first : Bool} {t : Turn}
    {r : Registration Runner} {call : Call} {result : Except Error Unit} {s : NodeState}
    (worked : t.Worked engine room flow first r call result s) (suspends : t.visit.suspends = true) :
    s.report.suspended = true := by
  simp only [Visit.suspends, Bool.and_eq_true, Option.isNone_iff_eq_none] at suspends
  rw [← worked.report suspends.1]
  exact suspends.2

namespace Engine
variable {engine : Engine} {flow : Flow} {room limit : Nat} {ctx ctx' : Context} {turns : List Turn}
  {t : Turn}

/-! ## Turns -/

/-- A turn that the visitor has run asked for nothing and failed, or a runner worked for it. -/
theorem plays_worked (builtIn : engine.BuiltIn) {first : Bool}
    (plays : t.Plays (engine.nodeVisitor room flow) flow first) :
    (t.log = [] ∧ t.visit.failure.isSome) ∨
      ∃ r call result s, t.Worked engine room flow first r call result s := by
  obtain ⟨node, arrival, report, failure, found, seen, run⟩ := plays
  rcases visitor_runs run with ⟨-, silent, failed, -⟩ | ⟨r, inputs, result, s, starts, ran, rfl, ended⟩
  · refine .inl ⟨silent, ?_⟩
    rw [seen]
    simpa [Walk.visitOf] using failed
  · right
    obtain ⟨builtin, type⟩ := builtIn.serves starts.served
    have clear (clean : t.visit.failure = none) : failure = none := by
      rw [seen] at clean
      simpa [Walk.visitOf] using clean
    refine ⟨r, nodeCall flow (deepest - room) first node arrival inputs, result, s, builtin, ?type, rfl,
      rfl, ?nested, ran, ?ended, ?report⟩
    case type =>
      rw [type, seen]
      rfl
    case nested =>
      intro nested
      simp only [nodeCall, beq_eq_false_iff_ne]
      omega
    case ended =>
      intro clean
      obtain rfl := clear clean
      exact ended.ok
    case report =>
      intro clean
      obtain rfl := clear clean
      rw [seen]
      rfl

theorem turn_worked (builtIn : engine.BuiltIn)
    (performed : Walk.Performed flow (engine.nodeVisitor room flow) limit ctx turns ctx')
    (member : t ∈ turns) : (t.log = [] ∧ t.visit.failure.isSome) ∨
      ∃ first r call result s, t.Worked engine room flow first r call result s := by
  rcases performed.turn member with ⟨first, plays⟩ | cut
  · rcases plays_worked builtIn plays with idle | worked
    · exact .inl idle
    · exact .inr ⟨first, worked⟩
  · exact .inl ⟨cut.log, by rw [cut.failure]; rfl⟩

theorem turn_nests (builtIn : engine.BuiltIn) (checked : engine.check flow = .ok ())
    (performed : Walk.Performed flow (engine.nodeVisitor room flow) limit ctx turns ctx')
    (member : t ∈ turns) : ∃ inners, t.Nests engine room inners := by
  rcases turn_worked builtIn performed member with ⟨silent, -⟩ | ⟨first, r, call, result, s, worked⟩
  · exact ⟨[], by simp, by simp, by simp, ⟨[], rfl, by simp [silent]⟩, by simp⟩
  · obtain ⟨inners, nests⟩ := (Runner.builtins_nesting r worked.builtin worked.ran).1
    refine ⟨inners, nests.ran, fun i inside => ?_, nests.entered, nests.heard, fun clean =>
      nests.through (worked.ended clean)⟩
    rcases nests.allowed i inside with same | accepted
    · rw [same, worked.flow]
      exact checked
    · exact accepted

theorem torn_nests (builtIn : engine.BuiltIn) (checked : engine.check flow = .ok ()) {first : Bool}
    {node : Node} {arrival : Arrival} {log : List Exchange} {cause : Panic}
    (panics : Program.Ends (engine.nodeVisitor room flow first node arrival ctx) log (.error cause)) :
    ∃ inners last, TornNests engine room log cause inners last := by
  obtain ⟨r, inputs, starts, worked⟩ := visitor_panics.mp panics
  obtain ⟨builtin, -⟩ := builtIn.serves starts.served
  obtain ⟨inners, last, tears⟩ := Runner.builtins_tearing r builtin worked
  have accepted {inner : Flow}
      (allowed : inner = flow ∨ (engine.around room).check inner = .ok ()) :
      engine.check inner = .ok () := allowed.elim (fun same => same ▸ checked) id
  exact ⟨inners, last, tears.ran, tears.through, tears.torn,
    ⟨fun i member => accepted (tears.allowed.1 i member),
      fun i member => accepted (tears.allowed.2 i member)⟩, tears.entered, tears.heard⟩

theorem turn_unsuspended (builtIn : engine.BuiltIn) (nested : room < deepest)
    (performed : Walk.Performed flow (engine.nodeVisitor room flow) limit ctx turns ctx')
    (member : t ∈ turns) : t.visit.suspends = false := by
  rcases turn_worked builtIn performed member with ⟨-, failed⟩ | ⟨first, r, call, result, s, worked⟩
  · simp [Visit.suspends, Option.isSome_iff_ne_none.mp failed]
  · have kept := (Runner.builtins_nesting r worked.builtin worked.ran).2 (worked.nested nested)
    rw [Bool.eq_false_iff]
    intro suspends
    rw [worked.suspended suspends] at kept
    contradiction

/-- In a walk within another one a node that is to wait fails, unless the walk starts with it. -/
theorem turn_waits (builtIn : engine.BuiltIn) (nested : room < deepest) {i : Nat}
    (performed : Walk.Performed flow (engine.nodeVisitor room flow) limit ctx turns ctx')
    (inside : i < turns.length) (later : i ≠ 0)
    (waits : turns[i].visit.type = "wait_message") : turns[i].visit.failure.isSome := by
  by_cases allowed : i < limit
  · rcases plays_worked builtIn (performed.played i inside allowed) with
      ⟨-, failed⟩ | ⟨r, call, result, s, worked⟩
    · exact failed
    have runner : r.runner = Runner.waitMessage :=
      Runner.builtin_runner rfl worked.builtin (worked.type.trans waits)
    have ran := worked.ran
    rw [runner] at ran
    have fails := Runner.waitMessage_fails (worked.first.trans (by simpa using later))
      (worked.nested nested) ran
    rw [Option.isSome_iff_ne_none]
    intro clean
    rw [worked.ended clean] at fails
    contradiction
  · have last : i = limit := by
      have bounded := performed.bounded
      omega
    subst last
    rw [(performed.cut inside).failure]
    rfl

/-- So in a walk that is entered at a start node all nodes that are to wait fail. -/
theorem turns_wait (builtIn : engine.BuiltIn) (nested : room < deepest)
    (valid : flow.validate = .ok ()) {start : Node} (inside : start ∈ flow.nodes)
    (type : start.type = Node.startType)
    (performed : Walk.Performed flow (engine.nodeVisitor room flow) limit ctx turns ctx')
    (entered : ∀ t ∈ turns.head?, t.visit.id = start.id) :
    ∀ t ∈ turns, t.visit.type = "wait_message" → t.visit.failure.isSome := by
  intro t member waits
  obtain ⟨i, short, rfl⟩ := List.getElem_of_mem member
  by_cases first : i = 0
  · subst first
    have named : turns[0].visit.id = start.id := entered _ (by simp [List.head?_eq_getElem?, short])
    rcases performed.turn member with ⟨_, node, arrival, report, failure, found, seen, -⟩ | cut
    · obtain rfl := Flow.require_eq valid inside (named ▸ found)
      rw [seen] at waits
      exact absurd (type.symm.trans waits) (by decide)
    · rw [cut.failure]
      rfl
  · exact turn_waits builtIn nested performed short first waits

theorem turn_unsaved (builtIn : engine.BuiltIn) (nested : room ≤ deepest)
    (performed : Walk.Performed flow (engine.nodeVisitor room flow) limit ctx turns ctx')
    (member : t ∈ turns) (other : t.visit.type ≠ "wait_message") {record : Wait.Record}
    {done : Except Error Unit} : ⟨.save record, done⟩ ∉ t.log := by
  rcases turn_worked builtIn performed member with ⟨silent, -⟩ | ⟨first, r, call, result, s, worked⟩
  · simp [silent]
  · rcases Runner.builtins_work r worked.builtin with ⟨waits, -⟩ | worker
    · exact absurd (worked.type.symm.trans waits) other
    · exact works_unsaved builtIn nested worker worked.ran

/-! ## Walks -/

/-- A nested walk has saved nothing and suspended nothing: a node that was to wait in it, or in a walk
within it, has failed, and the walk has failed with it. -/
structure Unsuspended (log : List Exchange) (ended : Except Error Walk) : Prop where
  unsaved : Unsaved log
  visits : ∀ walk, ended = .ok walk → ∀ v ∈ walk.visits, v.suspends = false
  waits : ∀ walk, ended = .ok walk → ∀ v ∈ walk.visits, v.type = "wait_message" → v.failure.isSome
  reached : ∀ run id success, RunEvent.nodeFinished run id "wait_message" success ∈ events log →
    success = false ∧ ∀ walk, ended = .ok walk → walk.failed.isSome

theorem Unsuspended.suspendedAt {log : List Exchange} {walk : Walk}
    (unsuspended : Unsuspended log (.ok walk)) : walk.suspendedAt = none := by
  have none : walk.visits.find? Visit.suspends = none :=
    List.find?_eq_none.mpr fun v member => by simp [unsuspended.visits walk rfl v member]
  simp [Walk.suspendedAt, none]

/-- The events of a walk are those of its turns: what is told within a turn, and then its visit. -/
theorem events_turns (turns : List Turn) : events (turns.flatMap Turn.exchanges) =
    turns.flatMap fun t => events t.log ++ [t.visit.event t.after.runId] := by
  simp [events_flatMap, Turn.exchanges]

/-- When a node that was to wait is told of within a turn, it has failed, and so has the node of the
turn. -/
theorem turn_reached {inners : List Walked} (nests : t.Nests engine room inners)
    (unsuspended : ∀ i ∈ inners, Unsuspended i.log i.ended) {run id : String} {success : Bool}
    (told : RunEvent.nodeFinished run id "wait_message" success ∈ events t.log) :
    success = false ∧ t.visit.failure.isSome := by
  rw [nests.told] at told
  obtain ⟨i, member, told⟩ := List.mem_flatMap.mp told
  obtain ⟨failed, fails⟩ := (unsuspended i member).reached run id success told
  refine ⟨failed, ?_⟩
  cases clean : t.visit.failure with
  | some reason => rfl
  | none =>
    obtain ⟨walk, ended, through, -⟩ := nests.through clean i member
    have := fails walk ended
    simp [through] at this

/-- When a node that was to wait is told of in a row of turns, it has failed, and so has the node of one
of the turns. -/
theorem turns_reached
    (reports : ∀ t ∈ turns, t.visit.failure.isSome → t.visit.report.success = false)
    (waits : ∀ t ∈ turns, t.visit.type = "wait_message" → t.visit.failure.isSome)
    (reached : ∀ t ∈ turns, ∀ run id success,
      RunEvent.nodeFinished run id "wait_message" success ∈ events t.log →
      success = false ∧ t.visit.failure.isSome)
    {run id : String} {success : Bool}
    (told : RunEvent.nodeFinished run id "wait_message" success ∈
      events (turns.flatMap Turn.exchanges)) :
    success = false ∧ ∃ t ∈ turns, t.visit.failure.isSome := by
  rw [events_turns] at told
  obtain ⟨t, member, told⟩ := List.mem_flatMap.mp told
  rcases List.mem_append.mp told with within | own
  · obtain ⟨failed, fails⟩ := reached t member run id success within
    exact ⟨failed, t, member, fails⟩
  · obtain ⟨-, -, type, told⟩ : run = _ ∧ id = _ ∧ "wait_message" = _ ∧ success = _ := by
      simpa [Visit.event] using own
    have fails := waits t member type.symm
    exact ⟨told.trans (reports t member fails), t, member, fails⟩

/-- A walk within another one, from where a flow or a body is entered, suspends nothing. -/
theorem walk_unsuspended (builtIn : engine.BuiltIn) (nested : room ≤ deepest) {entry : String}
    {appointed : Option Trigger} {log : List Exchange} {ended : Except Error Walk}
    (checked : engine.check flow = .ok ()) (entered : flow.Entered entry)
    (run : Task.Runs (engine.walk room flow entry appointed) ctx log ended ctx') :
    Unsuspended log ended := by
  have unsaved : Unsaved log := fun record done => nested_unsaved builtIn nested run
  induction room generalizing flow entry appointed ctx log ended ctx' with
  | zero =>
    obtain ⟨rfl, rfl, -⟩ := Task.runs_throw.mp run
    exact ⟨unsaved, by simp, by simp, by simp⟩
  | succ room ih =>
    have valid := check_validate checked
    obtain ⟨start, startMember, startType, rfl⟩ := entered
    obtain ⟨turns, taken, rfl, rfl⟩ := walk_turns checked (List.mem_map_of_mem startMember) run
    have performed := taken.performed
    have deep : room < deepest := nested
    have waits : ∀ t ∈ turns, t.visit.type = "wait_message" → t.visit.failure.isSome := by
      obtain ⟨v, rest, visits, entry, -⟩ := taken.entered
      refine turns_wait builtIn deep valid startMember startType performed fun t member => ?_
      obtain ⟨others, rfl⟩ := List.head?_eq_some_iff.mp member
      exact (List.cons.inj visits).1 ▸ entry
    have reached : ∀ t ∈ turns, ∀ run id success,
        RunEvent.nodeFinished run id "wait_message" success ∈ events t.log →
        success = false ∧ t.visit.failure.isSome := by
      intro t member run id success told
      obtain ⟨inners, nests⟩ := turn_nests builtIn checked performed member
      -- the walks within the turn have less room, so this holds of them already
      exact turn_reached nests (fun i inside => ih (by omega) (nests.checked i inside)
        (nests.entered i inside) (nests.ran i inside)
        fun record done => nested_unsaved builtIn (by omega) (nests.ran i inside)) told
    refine ⟨unsaved, ?visits, ?waits, ?reached⟩
    case visits =>
      rintro _ ⟨⟩ v member
      obtain ⟨t, inside, rfl⟩ := List.mem_map.mp member
      exact turn_unsuspended builtIn deep performed inside
    case waits =>
      rintro _ ⟨⟩ v member
      obtain ⟨t, inside, rfl⟩ := List.mem_map.mp member
      exact waits t inside
    case reached =>
      intro run id success told
      have reports : ∀ t ∈ turns, t.visit.failure.isSome → t.visit.report.success = false := by
        intro t member fails
        obtain ⟨node, arrival, report, failure, -, seen⟩ := taken.visited member
        exact Walk.visitOf_success seen fails
      obtain ⟨failed, t, member, fails⟩ := turns_reached reports waits reached told
      refine ⟨failed, ?_⟩
      rintro _ ⟨⟩
      exact Walk.failed_isSome (List.mem_map_of_mem member) fails

/-- What runs within a turn suspends nothing: the node saves no record unless it waits itself, the walks
within it suspend no run, and a node that was to wait in one of them has failed, and this node with
it. -/
structure UnsuspendedTurn (engine : Engine) (room : Nat) (t : Turn) : Prop where
  unsaved : t.visit.type ≠ "wait_message" → Unsaved t.log
  nested : ∃ inners, t.Nests engine room inners ∧ ∀ i ∈ inners, Unsuspended i.log i.ended
  reached : ∀ run id success, RunEvent.nodeFinished run id "wait_message" success ∈ events t.log →
    success = false ∧ t.visit.failure.isSome

theorem turn_unsuspending (builtIn : engine.BuiltIn) (bounded : room ≤ deepest)
    (checked : engine.check flow = .ok ())
    (performed : Walk.Performed flow (engine.nodeVisitor room flow) limit ctx turns ctx')
    (member : t ∈ turns) : UnsuspendedTurn engine room t := by
  obtain ⟨inners, nests⟩ := turn_nests builtIn checked performed member
  have unsuspended : ∀ i ∈ inners, Unsuspended i.log i.ended := fun i inside =>
    walk_unsuspended builtIn bounded (nests.checked i inside) (nests.entered i inside)
      (nests.ran i inside)
  exact ⟨fun other record done => turn_unsaved builtIn bounded performed member other,
    ⟨inners, nests, unsuspended⟩, fun run id success told => turn_reached nests unsuspended told⟩

/-! ## Walks that are torn off -/

/-- A nested walk that is torn off has saved nothing and suspended nothing before: the nodes that were to
wait in it, or in a walk within it, have failed. -/
structure TornUnsuspended (engine : Engine) (room : Nat) (flow : Flow) (ctx : Context)
    (log : List Exchange) (cause : Panic) : Prop where
  unsaved : Unsaved log
  turns : ∃ below turns last back, room = below + 1 ∧
    Walk.Torn flow (engine.nodeVisitor below flow) engine.config.maxExecutions cause ctx turns last
      back ∧
    log = turns.flatMap Turn.exchanges ++ back ∧
    ∀ t ∈ turns, t.visit.suspends = false ∧
      (t.visit.type = "wait_message" → t.visit.failure.isSome)
  reached : ∀ run id success, RunEvent.nodeFinished run id "wait_message" success ∈ events log →
    success = false

/-- What is told within a node that panics is told by walks that have gone through and by one that is
torn off. -/
theorem torn_reached {log : List Exchange} {cause : Panic} {inners : List Walked}
    {last : Option TornWalk} (nests : TornNests engine room log cause inners last)
    (unsuspended : ∀ i ∈ inners, Unsuspended i.log i.ended)
    (torn : ∀ i ∈ last, ∀ run id success,
      RunEvent.nodeFinished run id "wait_message" success ∈ events i.log → success = false)
    {run id : String} {success : Bool}
    (told : RunEvent.nodeFinished run id "wait_message" success ∈ events log) : success = false := by
  rcases nests.told told with ⟨i, member, told⟩ | ⟨i, member, told⟩
  · exact ((unsuspended i member).reached run id success told).1
  · exact torn i member run id success told

/-- A walk within another one that is torn off suspends nothing before. -/
theorem walk_torn_unsuspended (builtIn : engine.BuiltIn) (nested : room ≤ deepest) {entry : String}
    {appointed : Option Trigger} {log : List Exchange} {cause : Panic}
    (checked : engine.check flow = .ok ()) (entered : flow.Entered entry)
    (panics : Task.Panics (engine.walk room flow entry appointed) ctx log cause) :
    TornUnsuspended engine room flow ctx log cause := by
  have unsaved : Unsaved log := fun record done => torn_unsaved builtIn nested panics
  induction room generalizing flow entry appointed ctx log with
  | zero => exact absurd panics Task.not_panics_throw
  | succ room ih =>
    have valid := check_validate checked
    obtain ⟨start, startMember, startType, rfl⟩ := entered
    obtain ⟨turns, last, back, torn, rfl, entered⟩ :=
      walk_torn checked (List.mem_map_of_mem startMember) panics
    have performed := torn.performed
    have deep : room < deepest := nested
    have waits := turns_wait builtIn deep valid startMember startType performed entered
    refine ⟨unsaved, ⟨room, turns, last, back, rfl, torn, rfl, fun t member =>
      ⟨turn_unsuspended builtIn deep performed member, waits t member⟩⟩, ?reached⟩
    intro run id success told
    rw [events_append] at told
    rcases List.mem_append.mp told with before | within
    · refine (turns_reached (fun t member fails => ?_) waits (fun t member run id success told => ?_)
        before).1
      · obtain ⟨i, inside, rfl⟩ := List.getElem_of_mem member
        obtain ⟨node, arrival, report, failure, -, seen, -⟩ :=
          performed.played i inside (Nat.lt_trans inside torn.allowed)
        exact Walk.visitOf_success seen fails
      · exact (turn_unsuspending builtIn (by omega) checked performed member).reached run id success told
    · obtain ⟨node, arrival, -, breaks⟩ := torn.panics
      obtain ⟨inners, last, nests⟩ := torn_nests builtIn checked breaks
      refine torn_reached nests (fun i member => walk_unsuspended builtIn (by omega)
        (nests.checked.1 i member) (nests.entered.1 i member) (nests.ran i member))
        (fun i member => ?_) within
      -- the walk that is torn off within the node has less room, so this holds of it already
      exact (ih (by omega) (nests.checked.2 i member) (nests.entered.2 i member) (nests.torn i member)
        fun record done => torn_unsaved builtIn (by omega) (nests.torn i member)).reached

/-- What runs within a node that panics suspends nothing. -/
structure UnsuspendedTear (engine : Engine) (room : Nat) (log : List Exchange) (cause : Panic) :
    Prop where
  unsaved : Unsaved log
  nested : ∃ inners last, TornNests engine room log cause inners last ∧
    (∀ i ∈ inners, Unsuspended i.log i.ended) ∧
    ∀ i ∈ last, TornUnsuspended engine room i.flow i.before i.log cause
  reached : ∀ run id success, RunEvent.nodeFinished run id "wait_message" success ∈ events log →
    success = false

theorem tear_unsuspending (builtIn : engine.BuiltIn) (bounded : room ≤ deepest)
    (checked : engine.check flow = .ok ()) {first : Bool} {node : Node} {arrival : Arrival}
    {log : List Exchange} {cause : Panic}
    (panics : Program.Ends (engine.nodeVisitor room flow first node arrival ctx) log (.error cause)) :
    UnsuspendedTear engine room log cause := by
  obtain ⟨inners, last, nests⟩ := torn_nests builtIn checked panics
  have gone : ∀ i ∈ inners, Unsuspended i.log i.ended := fun i member =>
    walk_unsuspended builtIn bounded (nests.checked.1 i member) (nests.entered.1 i member)
      (nests.ran i member)
  have torn : ∀ i ∈ last, TornUnsuspended engine room i.flow i.before i.log cause := fun i member =>
    walk_torn_unsuspended builtIn bounded (nests.checked.2 i member) (nests.entered.2 i member)
      (nests.torn i member)
  exact ⟨fun record done => panics_unsaved builtIn bounded panics, ⟨inners, last, nests, gone, torn⟩,
    fun run id success told => torn_reached nests gone (fun i member => (torn i member).reached) told⟩

/-- Nothing that is nested suspends a run. -/
structure NestedUnsuspended (engine : Engine) : Prop where
  /-- This holds of all walks within others, from where a flow or a body is entered. -/
  walk {room : Nat} {flow : Flow} {entry : String} {appointed : Option Trigger} {ctx ctx' : Context}
    {log : List Exchange} {ended : Except Error Walk} : room ≤ deepest →
    engine.check flow = .ok () → flow.Entered entry →
    Task.Runs (engine.walk room flow entry appointed) ctx log ended ctx' → Unsuspended log ended
  /-- Who has walked such a walk does not refuse it because it was suspended. -/
  refused {room : Nat} {flow : Flow} {entry : String} {appointed : Option Trigger}
    {ctx ctx' : Context} {log : List Exchange} {walk : Walk} : room ≤ deepest →
    engine.check flow = .ok () → flow.Entered entry →
    Task.Runs (engine.walk room flow entry appointed) ctx log (.ok walk) ctx' →
    (∀ id index place,
        Runner.Loop.bodyError id index walk ≠ some (.cannotSuspend (.loopBody id place))) ∧
      ∀ id code place,
        Runner.SubFlow.callError id code walk ≠ some (.cannotSuspend (.subFlow code place))
  /-- This holds of the turns of all walks, those within others and those that are not. -/
  turn {room limit : Nat} {flow : Flow} {ctx ctx' : Context} {turns : List Turn} {t : Turn} :
    room ≤ deepest → engine.check flow = .ok () →
    Walk.Performed flow (engine.nodeVisitor room flow) limit ctx turns ctx' → t ∈ turns →
    UnsuspendedTurn engine room t
  /-- Nor has a walk suspended anything that is torn off. -/
  torn {room : Nat} {flow : Flow} {entry : String} {appointed : Option Trigger} {ctx : Context}
    {log : List Exchange} {cause : Panic} : room ≤ deepest → engine.check flow = .ok () →
    flow.Entered entry → Task.Panics (engine.walk room flow entry appointed) ctx log cause →
    TornUnsuspended engine room flow ctx log cause
  /-- And so it is with the nodes that panic, in all walks. -/
  panics {room : Nat} {flow : Flow} {first : Bool} {node : Node} {arrival : Arrival} {ctx : Context}
    {log : List Exchange} {cause : Panic} : room ≤ deepest → engine.check flow = .ok () →
    Program.Ends (engine.nodeVisitor room flow first node arrival ctx) log (.error cause) →
    UnsuspendedTear engine room log cause
  /-- A run has failed when a node was to wait within one of its nodes. -/
  finish {flow : Flow} {entry : String} {ctx : Context} {log : List Exchange}
    {result : Except Error Outcome} : engine.check flow = .ok () → entry ∈ flow.ids →
    Task.Runs (engine.finish flow entry ctx) () log result () →
    ∃ outcome turns, result = .ok outcome ∧ Finishes engine flow entry ctx log outcome turns ∧
      ∀ t ∈ turns, ∀ run id success,
        RunEvent.nodeFinished run id "wait_message" success ∈ events t.log →
        success = false ∧ t.visit.failure.isSome ∧ ∃ node reason, outcome.status = .failed node reason

/-- With the node types of every engine nothing that is nested suspends a run, whatever the flows and
the contexts are and however the nodes that walk are nested. -/
theorem nestedUnsuspended (builtIn : engine.BuiltIn) : NestedUnsuspended engine where
  walk bounded checked entered run := walk_unsuspended builtIn bounded checked entered run
  refused bounded checked entered run := by
    have none := (walk_unsuspended builtIn bounded checked entered run).suspendedAt
    constructor
    · intro id index place
      unfold Runner.Loop.bodyError
      split <;> simp_all
    · intro id code place
      unfold Runner.SubFlow.callError
      split <;> simp_all
  turn bounded checked performed member :=
    turn_unsuspending builtIn bounded checked performed member
  torn bounded checked entered panics := walk_torn_unsuspended builtIn bounded checked entered panics
  panics bounded checked panics := tear_unsuspending builtIn bounded checked panics
  finish checked inside run := by
    obtain ⟨outcome, turns, rfl, finishes⟩ := finish_runs checked inside run
    refine ⟨outcome, turns, rfl, finishes, ?_⟩
    intro t member run id success told
    obtain ⟨failed, fails⟩ := (turn_unsuspending builtIn (Nat.le_refl _) checked finishes.performed
      member).reached run id success told
    refine ⟨failed, fails, ?_⟩
    have visit : t.visit ∈ (⟨outcome.executed⟩ : Walk).visits :=
      finishes.executed ▸ List.mem_map_of_mem member
    obtain ⟨⟨node, reason⟩, first⟩ := Option.isSome_iff_exists.mp (Walk.failed_isSome visit fails)
    refine ⟨node, reason, ?_⟩
    rw [finishes.status]
    simp [Status.ofWalk, first]

end Engine

/-! ### A body that waits -/

namespace Enclosed

/-- Where the body of a node is entered. -/
def bodyStart (parent : String) : Node where
  id := parent ++ "/start"
  type := "start"
  parent := some parent
  params := .ofFields [("branches", .arr [.ofFields
    [("branch_id", .str "b"), ("trigger_type", .str "loop_start")]])]

/-- A node that walks its body once. -/
def once (id : String) : Node where
  id := id
  type := "loop"
  params := .ofFields [("count", .int 1)]

/-- A loop within a loop, with a node in its body that is to wait. -/
def flow : Flow where
  code := "enclosed"
  nodes := [Chat.start, once "outer", bodyStart "outer", once "inner", bodyStart "inner", Chat.wait]
  edges := [{ source := "start", target := "outer", branch := some "m" },
    { source := "outer/start", target := "inner", branch := some "b" },
    { source := "inner/start", target := "wait", branch := some "b" }]

/-- A run of the flow, with a registry that takes older versions for newer ones or not. -/
def run (fallback : Bool) : Program (Except Error Outcome × Unit) :=
  (Engine.standard { fallback }).run flow (.start "r" flow (Chat.message "first")) ()

/-- The nodes that were told of, and whether they ran well. -/
def nodes (fallback : Bool) : List (String × Bool) :=
  (events ((run fallback).heard {})).filterMap fun
    | .nodeFinished _ id _ success => some (id, success)
    | _ => none

def status? (fallback : Bool) : Option Status :=
  ((run fallback).run {}).1.toOption.bind fun result => result.1.toOption.map Outcome.status

end Enclosed

/-- The node that was to wait has failed, and both loops with it. -/
theorem enclosed_unsuspended :
    (∀ fallback, (Engine.standard { fallback }).BuiltIn ∧
      Engine.NestedUnsuspended (.standard { fallback })) ∧
    (∀ fallback, Enclosed.nodes fallback = [("start", true), ("outer/start", true),
      ("inner/start", true), ("wait", false), ("inner", false), ("outer", false)]) ∧
    ∀ fallback, Enclosed.status? fallback = some (.failed "outer" ("Node runner failed: outer: "
      ++ "iteration 0 failed at inner: Node runner failed: inner: iteration 0 failed at wait: "
      ++ "Run cannot suspend here: node wait cannot wait inside a loop body or sub-flow")) := by
  refine ⟨fun fallback => ?_, by decide +kernel, by decide +kernel⟩
  have builtIn := Engine.builtIn_standard { fallback }
  exact ⟨builtIn, Engine.nestedUnsuspended builtIn⟩

end Parley
