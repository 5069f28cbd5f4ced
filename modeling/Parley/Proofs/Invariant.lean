import Parley.Proofs.Log
/-!
# Invariants of tasks

As long as it is answered fairly, a program asks for nothing but what is allowed and ends with a value
that is good (`Program.Asks`). A task keeps an invariant of its state when it does so from every state
that has it, one that fails not less than one that ends with a value (`Task.Keeps`). What panics has
asked for what is allowed, too.
-/
namespace Parley

/-! ## Programs -/

namespace Program
variable {α β : Type} {fair : Exchange → Prop} {allowed : Request → Prop} {good : α → Prop}
  {better : β → Prop}

/-- With fair answers the program asks for what is allowed and for nothing else, and its value is
good. -/
def Asks (fair : Exchange → Prop) (allowed : Request → Prop) (good : α → Prop) : Program α → Prop
  | .done v => good v
  | .panic _ => True
  | .ask r next => allowed r ∧ ∀ a, fair ⟨r, a⟩ → (next a).Asks fair allowed good

theorem Asks.bind {p : Program α} {f : α → Program β} (first : p.Asks fair allowed good)
    (rest : ∀ v, good v → (f v).Asks fair allowed better) : (p.bind f).Asks fair allowed better := by
  induction p with
  | done v => exact rest v first
  | panic cause => trivial
  | ask r next ih => exact ⟨first.1, fun a answer => ih a (first.2 a answer)⟩

theorem Asks.mono {fewer : Exchange → Prop} {more : Request → Prop} {good' : α → Prop}
    {p : Program α} (asks : p.Asks fair allowed good) (fairer : ∀ x, fewer x → fair x)
    (weaker : ∀ r, allowed r → more r) (weak : ∀ v, good v → good' v) : p.Asks fewer more good' := by
  induction p with
  | done v => exact weak v asks
  | panic cause => trivial
  | ask r next ih => exact ⟨weaker r asks.1, fun a answer => ih a (asks.2 a (fairer _ answer))⟩

/-- What has been asked was allowed, and so is what will be. -/
theorem Asks.goes {p q : Program α} {log : List Exchange} (asks : p.Asks fair allowed good)
    (gone : p.Goes log q) (answers : ∀ x ∈ log, fair x) :
    (∀ x ∈ log, allowed x.1) ∧ q.Asks fair allowed good := by
  induction gone with
  | stay => exact ⟨by simp, asks⟩
  | step _ ih =>
    obtain ⟨answer, others⟩ := List.forall_mem_cons.mp answers
    obtain ⟨later, last⟩ := ih (asks.2 _ answer) others
    exact ⟨List.forall_mem_cons.mpr ⟨asks.1, later⟩, last⟩

end Program

/-! ## Tasks -/

namespace Task
variable {σ τ α β : Type} {inv : σ → Prop} {fair : Exchange → Prop} {allowed : Request → Prop}
  {good : α → Prop}

/-- With fair answers the task asks for what is allowed only and keeps the invariant, and its value is
good. -/
def Keeps (inv : σ → Prop) (fair : Exchange → Prop) (allowed : Request → Prop) (good : α → Prop)
    (t : Task σ α) : Prop :=
  ∀ s, inv s → Program.Asks fair allowed
    (fun ended : Except Error α × σ => inv ended.2 ∧ ∀ v, ended.1 = .ok v → good v) (t s)

theorem Keeps.run {t : Task σ α} (keeps : Keeps inv fair allowed good t) {s s' : σ}
    {log : List Exchange} {result : Except Error α} (kept : inv s) (answers : ∀ x ∈ log, fair x)
    (run : Runs t s log result s') :
    (∀ x ∈ log, allowed x.1) ∧ inv s' ∧ ∀ v, result = .ok v → good v :=
  (keeps s kept).goes run answers

/-- What a task has asked that panics was allowed. -/
theorem Keeps.panics {t : Task σ α} (keeps : Keeps inv fair allowed good t) {s : σ}
    {log : List Exchange} {cause : Panic} (kept : inv s) (answers : ∀ x ∈ log, fair x)
    (panics : Panics t s log cause) : ∀ x ∈ log, allowed x.1 :=
  ((keeps s kept).goes panics answers).1

theorem Keeps.ends {t : Task Unit α} {held : Unit → Prop} (keeps : Keeps held fair allowed good t)
    {log : List Exchange} {ending : Except Panic (Except Error α)} (kept : held ())
    (answers : ∀ x ∈ log, fair x) (ends : Ends t log ending) : ∀ x ∈ log, allowed x.1 := by
  cases ending with
  | ok result => exact (keeps.run kept answers ends).1
  | error cause => exact keeps.panics kept answers ends

theorem Keeps.mono {fewer : Exchange → Prop} {more : Request → Prop} {t : Task σ α}
    (keeps : Keeps inv fair allowed good t) (fairer : ∀ x, fewer x → fair x)
    (weaker : ∀ r, allowed r → more r) : Keeps inv fewer more good t :=
  fun s kept => (keeps s kept).mono fairer weaker fun _ => id

theorem Keeps.ignore {t : Task σ α} (keeps : Keeps inv fair allowed good t) :
    Keeps inv fair allowed (fun _ => True) t :=
  fun s kept => (keeps s kept).mono (fun _ => id) (fun _ => id) fun _ ended =>
    ⟨ended.1, fun _ _ => trivial⟩

theorem keeps_somewhere {t : Task σ α}
    (keeps : ∀ s, inv s → Keeps inv fair allowed good t) : Keeps inv fair allowed good t :=
  fun s kept => keeps s kept s kept

theorem keeps_pure {v : α} (holds : good v) : Keeps inv fair allowed good (pure v : Task σ α) :=
  fun _ kept => ⟨kept, by rintro _ ⟨⟩; exact holds⟩

theorem keeps_throw (e : Error) : Keeps inv fair allowed good (throw e : Task σ α) :=
  fun _ kept => ⟨kept, nofun⟩

theorem keeps_bind {first : β → Prop} {t : Task σ β} {f : β → Task σ α}
    (one : Keeps inv fair allowed first t)
    (rest : ∀ v, first v → Keeps inv fair allowed good (f v)) :
    Keeps inv fair allowed good (t >>= f) := by
  refine fun s kept => (one s kept).bind ?_
  rintro ⟨result, s₁⟩ ⟨between, holds⟩
  cases result with
  | ok v => exact rest v (holds v rfl) s₁ between
  | error e => exact ⟨between, nofun⟩

theorem keeps_ofExcept {e : Except Error α} (holds : ∀ v, e = .ok v → good v) :
    Keeps inv fair allowed good (ofExcept e : Task σ α) := by
  cases e with
  | ok v => exact keeps_pure (holds v rfl)
  | error e => exact keeps_throw e

theorem keeps_ofChecked {checked : Except Panic α} (holds : ∀ v, checked = .ok v → good v) :
    Keeps inv fair allowed good (ofChecked checked : Task σ α) := by
  cases checked with
  | ok v => exact keeps_pure (holds v rfl)
  | error cause => exact fun _ _ => trivial

theorem keeps_get : Keeps inv fair allowed inv (get : Task σ σ) :=
  fun _ kept => ⟨kept, by rintro _ ⟨⟩; exact kept⟩

theorem keeps_modify {f : σ → σ} (keeps : ∀ s, inv s → inv (f s)) :
    Keeps inv fair allowed (fun _ => True) (modify f : Task σ PUnit) :=
  fun s kept => ⟨keeps s kept, fun _ _ => trivial⟩

theorem keeps_ask (r : Request) (allows : allowed r) :
    Keeps inv fair allowed (fun a => fair ⟨r, a⟩) (ask r : Task σ r.Answer) :=
  fun _ kept => ⟨allows, fun _ answer => ⟨kept, by rintro _ ⟨⟩; exact answer⟩⟩

theorem keeps_call {r : Request} (allows : allowed r) {f : r.Answer → Except Error α}
    (holds : ∀ a, fair ⟨r, a⟩ → ∀ v, f a = .ok v → good v) :
    Keeps inv fair allowed good (ask r >>= fun a => ofExcept (f a) : Task σ α) :=
  keeps_bind (keeps_ask r allows) fun a answer => keeps_ofExcept (holds a answer)

theorem keeps_call_any {r : Request} (allows : allowed r) {f : r.Answer → Except Error α} :
    Keeps inv fair allowed (fun _ => True) (ask r >>= fun a => ofExcept (f a) : Task σ α) :=
  keeps_call allows fun _ _ _ _ => trivial

/-- A task that goes on with a value keeps the invariant when it does with that value. -/
theorem keeps_ofExcept_bind {e : Except Error β} {f : β → Task σ α}
    (rest : ∀ v, e = .ok v → Keeps inv fair allowed good (f v)) :
    Keeps inv fair allowed good (ofExcept e >>= f) :=
  keeps_bind (keeps_ofExcept fun _ same => same) rest

theorem keeps_ofChecked_bind {checked : Except Panic β} {f : β → Task σ α}
    (rest : ∀ v, checked = .ok v → Keeps inv fair allowed good (f v)) :
    Keeps inv fair allowed good (ofChecked checked >>= f) :=
  keeps_bind (keeps_ofChecked fun _ same => same) rest

theorem keeps_guard {c : Prop} [Decidable c] {e : Error} {t : Task σ α}
    (rest : ¬ c → Keeps inv fair allowed good t) :
    Keeps inv fair allowed good (if c then throw e >>= fun _ : PUnit => t else t) := by
  split
  · have none : Keeps inv fair allowed (fun _ => False) (throw e : Task σ PUnit) := keeps_throw e
    exact keeps_bind none fun _ never => never.elim
  · next passed => exact rest passed

theorem keeps_lift {p : StateT σ Program α}
    (keeps : ∀ s, inv s → Program.Asks fair allowed (fun ended => inv ended.2 ∧ good ended.1) (p s)) :
    Keeps inv fair allowed good (ExceptT.lift p) :=
  fun s kept => (keeps s kept).bind fun _ ended =>
    ⟨ended.1, by rintro _ ⟨⟩; exact ended.2⟩

theorem keeps_within {part : τ → Prop} {get : τ → σ} {set : σ → τ → τ} {t : Task σ α}
    (inside : ∀ u, part u → inv (get u)) (outside : ∀ u s, part u → inv s → part (set s u))
    (keeps : Keeps inv fair allowed good t) : Keeps part fair allowed good (within get set t) :=
  fun u kept => (keeps (get u) (inside u kept)).bind fun _ ended =>
    ⟨outside u _ kept ended.1, ended.2⟩

theorem keeps_apart {part : τ → Prop} {start : σ} {t : Task σ α} (starts : inv start)
    (keeps : Keeps inv fair allowed good t) :
    Keeps part fair allowed (fun ended => good ended.1 ∧ inv ended.2)
      (apart start t : Task τ (α × σ)) := by
  refine fun u kept => (keeps start starts).bind ?_
  rintro ⟨result, last⟩ ⟨after, holds⟩
  cases result with
  | ok v => exact ⟨kept, by rintro _ ⟨⟩; exact ⟨holds v rfl, after⟩⟩
  | error e => exact ⟨kept, nofun⟩

end Task

end Parley
