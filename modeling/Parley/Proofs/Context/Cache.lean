import Parley.Context
import Mathlib.Data.List.Induction
/-!
# Snapshots are never stale

Contexts come about and are written to one operation after the other (`Context.perform`). Whatever the
order, a snapshot is the text of what the context holds when it is taken, or the very text that the
context was read from when nothing has been written since (`Context.never_stale`). A context that was
made of another one does not change with it.
-/
namespace Parley.Context

/-- The contexts are the same but for the text that is kept with them. -/
def Same (ctx ctx' : Context) : Prop := ctx' = { ctx with cached := ctx'.cached }

theorem Same.refl (ctx : Context) : ctx.Same ctx := rfl

theorem Same.trans {ctx ctx' ctx'' : Context} (one : ctx.Same ctx') (other : ctx'.Same ctx'') :
    ctx.Same ctx'' := by
  unfold Same at *
  rw [other, one]

theorem same_snapshot (ctx : Context) : ctx.Same ctx.snapshot.2 := by
  unfold Context.snapshot
  split <;> rfl

/-! ## Operations -/

/-- An operation on contexts, which have the numbers in which they came about. -/
inductive Operation
  /-- A run starts. -/
  | start (runId : String) (flow : Flow) (event : Event)
  /-- A context is read from a text. -/
  | restore (text : String)
  /-- A flow is entered within the run of a context. -/
  | enter (i : Nat) (flow : Flow) (payload : Json)
  | clone (i : Nat)
  | record (i : Nat) (node : String) (value : Json)
  | setVariable (i : Nat) (name : String) (value : Json)
  /-- An event resumes the run of a context. -/
  | resume (i : Nat) (event : Event)
  | snapshot (i : Nat)

namespace Operation

/-- The context that an operation adds. -/
def made (contexts : List Context) : Operation → Option Context
  | start runId flow event => some (.start runId flow event)
  | restore text => (ofSnapshot text).toOption
  | enter i flow payload => contexts[i]?.map fun ctx => ctx.forSubFlow flow payload
  | clone i => contexts[i]?
  | _ => none

/-- What an operation makes of the context of a number. -/
def act (op : Operation) (number : Nat) (ctx : Context) : Context :=
  match op with
  | record i node value => if i = number then ctx.record node value else ctx
  | setVariable i name value => if i = number then ctx.setVariable name value else ctx
  | resume i event => if i = number then ctx.resumedBy event else ctx
  | snapshot i => if i = number then ctx.snapshot.2 else ctx
  | _ => ctx

/-- The number of the context that an operation writes to. -/
def writes : Operation → Option Nat
  | record i .. | setVariable i .. | resume i _ => some i
  | _ => none

end Operation

/-- The contexts after an operation. One on a context that is not there does nothing. -/
def perform (contexts : List Context) (op : Operation) : List Context :=
  contexts.mapIdx op.act ++ (op.made contexts).toList

/-- The contexts after some operations. -/
def after (ops : List Operation) : List Context :=
  ops.foldl perform []

variable {contexts : List Context} {ctx : Context} {ops more : List Operation} {op : Operation}
  {i : Nat} {text : String}

/-- A context after an operation is what the operation has made of one that was there, or the one that
it has added. -/
theorem getElem?_perform :
    (perform contexts op)[i]? = some ctx ↔
      (∃ before, contexts[i]? = some before ∧ op.act i before = ctx) ∨
        i = contexts.length ∧ op.made contexts = some ctx := by
  rcases Nat.lt_or_ge i contexts.length with old | new
  · have apart : i ≠ contexts.length := Nat.ne_of_lt old
    rw [perform, List.getElem?_append_left (by simpa using old), List.getElem?_mapIdx,
      Option.map_eq_some_iff]
    simp [apart]
  · rw [perform, List.getElem?_append_right (by simpa using new), List.length_mapIdx]
    have none : contexts[i]? = none := List.getElem?_eq_none new
    rcases Nat.eq_or_lt_of_le new with rfl | beyond
    · cases op.made contexts <;> simp
    · have short : (op.made contexts).toList.length ≤ i - contexts.length := by
        have one : (op.made contexts).toList.length ≤ 1 := by cases op.made contexts <;> simp
        omega
      simp [List.getElem?_eq_none short, none, Nat.ne_of_gt beyond]

theorem after_concat : after (ops ++ [op]) = perform (after ops) op := by
  simp [after]

theorem act_written (written : op.writes = some i) : (op.act i ctx).cached = none := by
  cases op <;> simp_all [Operation.writes, Operation.act, Context.record, Context.setVariable, resumedBy]

/-- What is not written to keeps everything but the text, which may be made. -/
theorem act_unwritten (ctx : Context) (unwritten : op.writes ≠ some i) :
    op.act i ctx = ctx ∨ op.act i ctx = ctx.snapshot.2 := by
  cases op with
  | snapshot j =>
    by_cases same : j = i
    · exact .inr (if_pos same)
    · exact .inl (if_neg same)
  | record j | setVariable j | resume j =>
    refine .inl (if_neg fun same => unwritten ?_)
    rw [← same]
    rfl
  | _ => exact .inl rfl

/-! ## Contexts that were read from a text -/

/-- The context of a number was read from a text, or cloned from one that was, and nothing has been
written to it since. -/
inductive FromText : List Operation → Nat → String → Prop
  | restored {ops : List Operation} {text : String} {ctx : Context} : ofSnapshot text = .ok ctx →
      FromText (ops ++ [.restore text]) (after ops).length text
  | cloned {ops : List Operation} {i : Nat} {text : String} : FromText ops i text →
      FromText (ops ++ [.clone i]) (after ops).length text
  | kept {ops : List Operation} {op : Operation} {i : Nat} {text : String} : FromText ops i text →
      op.writes ≠ some i → FromText (ops ++ [op]) i text

theorem length_after_concat :
    (after (ops ++ [op])).length = (after ops).length + (op.made (after ops)).toList.length := by
  simp [after_concat, perform]

theorem FromText.lt (told : FromText ops i text) : i < (after ops).length := by
  induction told with
  | restored read =>
    rw [length_after_concat]
    simp [Operation.made, read, Except.toOption]
  | @cloned ops i text _ ih =>
    rw [length_after_concat]
    simp [Operation.made, List.getElem?_eq_getElem ih]
  | kept _ _ ih =>
    rw [length_after_concat]
    omega

/-- A context that was there is one from a text as long as it is not written to, and a new one is when it
was read from it or cloned from such a context. -/
theorem fromText_concat :
    FromText (ops ++ [op]) i text ↔ (op.writes ≠ some i ∧ FromText ops i text) ∨
      i = (after ops).length ∧ ((op = .restore text ∧ ∃ ctx, ofSnapshot text = .ok ctx) ∨
        ∃ j, op = .clone j ∧ FromText ops j text) := by
  constructor
  · intro told
    generalize whole : ops ++ [op] = history at told
    cases told with
    | restored read =>
      obtain ⟨rfl, last⟩ := List.append_inj' whole rfl
      exact .inr ⟨rfl, .inl ⟨List.singleton_inj.mp last, _, read⟩⟩
    | cloned earlier =>
      obtain ⟨rfl, last⟩ := List.append_inj' whole rfl
      exact .inr ⟨rfl, .inr ⟨_, List.singleton_inj.mp last, earlier⟩⟩
    | kept earlier unwritten =>
      obtain ⟨rfl, last⟩ := List.append_inj' whole rfl
      exact .inl ⟨List.singleton_inj.mp last ▸ unwritten, earlier⟩
  · rintro (⟨unwritten, told⟩ | ⟨rfl, ⟨rfl, ctx, read⟩ | ⟨j, rfl, told⟩⟩)
    · exact .kept told unwritten
    · exact .restored read
    · exact .cloned told

theorem fromText_old (old : i < (after ops).length) :
    FromText (ops ++ [op]) i text ↔ op.writes ≠ some i ∧ FromText ops i text := by
  simp [fromText_concat, Nat.ne_of_lt old]

theorem fromText_new : FromText (ops ++ [op]) (after ops).length text ↔
    (op = .restore text ∧ ∃ ctx, ofSnapshot text = .ok ctx) ∨
      ∃ j, op = .clone j ∧ FromText ops j text := by
  have absent : ¬ FromText ops (after ops).length text := fun told => Nat.lt_irrefl _ told.lt
  simp [fromText_concat, absent]

/-! ## The text that is kept -/

theorem cached_of_ofSnapshot (read : ofSnapshot text = .ok ctx) : ctx.cached = some text := by
  unfold ofSnapshot at read
  split at read
  · rw [← Except.ok.inj read]
  · contradiction

/-- The text that is kept with a context is the one that it was read from, if it was and has not been
written to, and else the text of what it holds. -/
structure Current (ops : List Operation) (i : Nat) (ctx : Context) : Prop where
  told : ∀ text, FromText ops i text → ofSnapshot text = .ok ctx
  made : (∀ text, ¬ FromText ops i text) → ∀ text, ctx.cached = some text → text = ctx.serialize

theorem Current.of_blank (blank : ctx.cached = none) (untold : ∀ text, ¬ FromText ops i text) :
    Current ops i ctx :=
  ⟨fun text told => absurd told (untold text),
    fun _ text kept => absurd (blank.symm.trans kept) (by simp)⟩

theorem Current.snapshot (current : Current ops i ctx) : Current ops i ctx.snapshot.2 := by
  unfold Context.snapshot
  split
  · exact current
  · next empty =>
    refine ⟨fun text told => ?_, fun _ text kept => ?_⟩
    · rw [cached_of_ofSnapshot (current.told text told)] at empty
      contradiction
    · exact (Option.some.inj kept).symm

/-- What an operation makes of a context is current when the context was. -/
theorem Current.act (old : i < (after ops).length) (current : Current ops i ctx) :
    Current (ops ++ [op]) i (op.act i ctx) := by
  by_cases written : op.writes = some i
  · exact .of_blank (act_written written) fun text told => ((fromText_old old).mp told).1 written
  · have same (text : String) : FromText (ops ++ [op]) i text ↔ FromText ops i text := by
      rw [fromText_old old, and_iff_right written]
    have kept {ctx : Context} (current : Current ops i ctx) : Current (ops ++ [op]) i ctx :=
      ⟨fun text told => current.told text ((same text).mp told),
        fun none => current.made fun text told => none text ((same text).mpr told)⟩
    rcases act_unwritten ctx written with unchanged | snapshot
    · rw [unchanged]
      exact kept current
    · rw [snapshot]
      exact kept current.snapshot

/-- What an operation adds is current. -/
theorem current_made (before : ∀ j ctx, (after ops)[j]? = some ctx → Current ops j ctx)
    (made : op.made (after ops) = some ctx) : Current (ops ++ [op]) (after ops).length ctx := by
  cases op with
  | start =>
    obtain rfl := Option.some.inj made
    exact .of_blank rfl fun text told => by simpa using fromText_new.mp told
  | enter =>
    obtain ⟨_, -, rfl⟩ := Option.map_eq_some_iff.mp made
    exact .of_blank rfl fun text told => by simpa using fromText_new.mp told
  | restore read =>
    have decoded : ofSnapshot read = .ok ctx := by
      cases result : ofSnapshot read with
      | ok ctx' => simpa [Operation.made, result, Except.toOption] using made
      | error e => simp [Operation.made, result, Except.toOption] at made
    refine ⟨fun text told => ?_, fun none => ?_⟩
    · rcases fromText_new.mp told with ⟨same, -⟩ | ⟨j, same, -⟩
      · cases same
        exact decoded
      · contradiction
    · exact absurd (fromText_new.mpr (.inl ⟨rfl, ctx, decoded⟩)) (none read)
  | clone j =>
    have current := before j ctx made
    refine ⟨fun text told => ?_, fun none => current.made fun text told => ?_⟩
    · rcases fromText_new.mp told with ⟨same, -⟩ | ⟨k, same, told⟩
      · contradiction
      · cases same
        exact current.told text told
    · exact none text (fromText_new.mpr (.inr ⟨j, rfl, told⟩))
  | _ => contradiction

/-- After any operations each text that is kept is current. -/
theorem current_after (ops : List Operation) :
    ∀ i ctx, (after ops)[i]? = some ctx → Current ops i ctx := by
  induction ops using List.reverseRecOn with
  | nil => simp [after]
  | append_singleton ops op ih =>
    intro i ctx found
    rw [after_concat] at found
    rcases getElem?_perform.mp found with ⟨before, there, rfl⟩ | ⟨rfl, made⟩
    · exact (ih i before there).act (List.getElem?_eq_some_iff.mp there).1
    · exact current_made ih made

/-! ## Contexts of their own -/

/-- A context that is not written to keeps everything but the text. -/
theorem same_foldl (unwritten : ∀ op ∈ more, op.writes ≠ some i) (found : contexts[i]? = some ctx) :
    ∃ ctx', (more.foldl perform contexts)[i]? = some ctx' ∧ ctx.Same ctx' := by
  induction more generalizing contexts ctx with
  | nil => exact ⟨ctx, found, .refl ctx⟩
  | cons op more ih =>
    obtain ⟨first, later⟩ := List.forall_mem_cons.mp unwritten
    obtain ⟨ctx', found', same⟩ := ih later (getElem?_perform.mpr (.inl ⟨ctx, found, rfl⟩))
    refine ⟨ctx', found', Same.trans ?_ same⟩
    rcases act_unwritten ctx first with unchanged | snapshot
    · rw [unchanged]
      exact .refl ctx
    · rw [snapshot]
      exact same_snapshot ctx

/-- A context that is made of another one and not written to stays as it was made. -/
theorem made_stays (made : op.made (after ops) = some ctx)
    (unwritten : ∀ op ∈ more, op.writes ≠ some (after ops).length) :
    ∃ ctx', (after (ops ++ op :: more))[(after ops).length]? = some ctx' ∧ ctx.Same ctx' := by
  have there : (perform (after ops) op)[(after ops).length]? = some ctx :=
    getElem?_perform.mpr (.inr ⟨rfl, made⟩)
  simpa [after] using same_foldl unwritten there

/-- What holds of contexts after some operations. -/
structure NeverStale (ops : List Operation) : Prop where
  /-- The snapshot of a context that was read from a text and not written to is that text, which is
  decoded as the context, -/
  restored : ∀ i text, FromText ops i text → ∃ ctx, (after ops)[i]? = some ctx ∧
    ctx.snapshot.1 = text ∧ ofSnapshot text = .ok ctx
  /-- and that of any other context is the text of what it holds. -/
  serialized : ∀ i ctx, (after ops)[i]? = some ctx → (∀ text, ¬ FromText ops i text) →
    ctx.snapshot.1 = ctx.serialize
  /-- A clone stays what the other context was, unless it is written to itself, -/
  cloned : ∀ i ctx more, (after ops)[i]? = some ctx →
    (∀ op ∈ more, op.writes ≠ some (after ops).length) →
    ∃ ctx', (after (ops ++ .clone i :: more))[(after ops).length]? = some ctx' ∧ ctx.Same ctx'
  /-- and so does the context of a flow that was entered. -/
  entered : ∀ i ctx flow payload more, (after ops)[i]? = some ctx →
    (∀ op ∈ more, op.writes ≠ some (after ops).length) →
    ∃ ctx', (after (ops ++ .enter i flow payload :: more))[(after ops).length]? = some ctx' ∧
      (ctx.forSubFlow flow payload).Same ctx'

/-- No snapshot is ever stale, and no context sees what is written to another one. -/
theorem never_stale (ops : List Operation) : NeverStale ops where
  restored i text told := by
    obtain ⟨ctx, there⟩ : ∃ ctx, (after ops)[i]? = some ctx :=
      ⟨_, List.getElem?_eq_getElem told.lt⟩
    have read := (current_after ops i ctx there).told text told
    refine ⟨ctx, there, ?_, read⟩
    simp [Context.snapshot, cached_of_ofSnapshot read]
  serialized i ctx there none := by
    have made := (current_after ops i ctx there).made none
    unfold Context.snapshot
    split
    · next text kept => exact made text kept
    · rfl
  cloned i ctx more there := made_stays there
  entered i ctx flow payload more there := made_stays (by simp [Operation.made, there])

end Parley.Context
