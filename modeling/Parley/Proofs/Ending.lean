import Parley.Proofs.Log
/-!
# Programs that come to their end

A program that is answered fairly comes to its end, with a value or in a panic, after a bounded number
of requests (`Program.EndsIn`), so however far it has gone, it has asked no more often
(`Program.EndsIn.goes`). A task has a bound that holds whatever its state is (`Task.EndsIn`): the bounds
of its parts, summed up.
-/
namespace Parley

/-! ## Programs -/

namespace Program
variable {α β : Type} {fair : Exchange → Prop} {good : α → Prop} {better : β → Prop} {n m : Nat}

/-- With fair answers the program asks at most a number of times, and its value is good. -/
def EndsIn (fair : Exchange → Prop) (good : α → Prop) : Program α → Nat → Prop
  | .done v, _ => good v
  | .panic _, _ => True
  | .ask _ _, 0 => False
  | .ask r next, n + 1 => ∀ a, fair ⟨r, a⟩ → (next a).EndsIn fair good n

theorem EndsIn.mono {p : Program α} (ends : p.EndsIn fair good n) (more : n ≤ m) :
    p.EndsIn fair good m := by
  induction p generalizing n m with
  | done v => exact ends
  | panic cause => trivial
  | ask r next ih =>
    cases n with
    | zero => exact ends.elim
    | succ n =>
      obtain ⟨m, rfl⟩ : ∃ k, m = k + 1 := ⟨m - 1, by omega⟩
      exact fun a answer => ih a (ends a answer) (by omega)

theorem EndsIn.bind {p : Program α} {f : α → Program β} (first : p.EndsIn fair good n)
    (rest : ∀ v, good v → (f v).EndsIn fair better m) : (p.bind f).EndsIn fair better (n + m) := by
  induction p generalizing n with
  | done v => exact (rest v first).mono (by omega)
  | panic cause => trivial
  | ask r next ih =>
    cases n with
    | zero => exact first.elim
    | succ n =>
      rw [Nat.succ_add]
      exact fun a answer => ih a (first a answer)

/-- However far the program has gone, it has asked no more often than its bound says. -/
theorem EndsIn.goes {p q : Program α} {log : List Exchange} (ends : p.EndsIn fair good n)
    (gone : p.Goes log q) (answers : ∀ x ∈ log, fair x) : log.length ≤ n := by
  induction gone generalizing n with
  | stay => exact Nat.zero_le n
  | step _ ih =>
    obtain ⟨answer, others⟩ := List.forall_mem_cons.mp answers
    cases n with
    | zero => exact ends.elim
    | succ n => exact Nat.succ_le_succ (ih (ends _ answer) others)

end Program

/-! ## Tasks -/

namespace Task
variable {σ τ α β : Type} {fair : Exchange → Prop} {good : α → Prop} {n m : Nat}

/-- Whatever its state is, the task asks at most a number of times when it is answered fairly, and its
value is good if it has one. -/
def EndsIn (fair : Exchange → Prop) (good : α → Prop) (n : Nat) (t : Task σ α) : Prop :=
  ∀ s, (t s).EndsIn fair (fun ended => ∀ v, ended.1 = .ok v → good v) n

theorem EndsIn.mono {t : Task σ α} (ends : EndsIn fair good n t) (more : n ≤ m) :
    EndsIn fair good m t :=
  fun s => (ends s).mono more

theorem endsIn_pure {v : α} (holds : good v) : EndsIn fair good n (pure v : Task σ α) :=
  fun _ => by rintro _ ⟨⟩; exact holds

theorem endsIn_throw (e : Error) : EndsIn fair good n (throw e : Task σ α) :=
  fun _ => nofun

theorem endsIn_bind {first : β → Prop} {t : Task σ β} {f : β → Task σ α}
    (one : EndsIn fair first n t) (rest : ∀ v, first v → EndsIn fair good m (f v)) :
    EndsIn fair good (n + m) (t >>= f) := by
  refine fun s => (one s).bind ?_
  rintro ⟨result, s₁⟩ holds
  cases result with
  | ok v => exact rest v (holds v rfl) s₁
  | error e => exact (endsIn_throw e).mono (Nat.zero_le m) s₁

theorem endsIn_ask {r : Request} : EndsIn fair (fun _ => True) (n + 1) (ask r : Task σ r.Answer) :=
  fun _ _ _ _ _ => trivial

theorem endsIn_ofExcept {e : Except Error α} :
    EndsIn fair (fun _ => True) n (ofExcept e : Task σ α) := by
  cases e <;> exact fun _ _ _ => trivial

theorem endsIn_modify {f : σ → σ} : EndsIn fair (fun _ => True) n (modify f : Task σ PUnit) :=
  fun _ _ _ => trivial

/-! ### Tasks that go on -/

theorem endsIn_ofExcept_bind {e : Except Error β} {f : β → Task σ α}
    (rest : ∀ v, e = .ok v → EndsIn fair good n (f v)) :
    EndsIn fair good n (ofExcept e >>= f) := by
  cases e with
  | ok v => exact rest v rfl
  | error e => exact endsIn_throw e

theorem endsIn_ofChecked_bind {checked : Except Panic β} {f : β → Task σ α}
    (rest : ∀ v, checked = .ok v → EndsIn fair good n (f v)) :
    EndsIn fair good n (ofChecked checked >>= f) := by
  cases checked with
  | ok v => exact rest v rfl
  | error cause => exact fun _ => trivial

theorem endsIn_get_bind {f : σ → Task σ α} (rest : ∀ s, EndsIn fair good n (f s)) :
    EndsIn fair good n (get >>= f) :=
  fun s => rest s s

theorem endsIn_modify_bind {g : σ → σ} {f : PUnit → Task σ α}
    (rest : EndsIn fair good n (f ())) : EndsIn fair good n (modify g >>= f) :=
  fun s => rest (g s)

theorem endsIn_guard {c : Prop} [Decidable c] {e : Error} {t : Task σ α}
    (rest : ¬ c → EndsIn fair good n t) :
    EndsIn fair good n (if c then throw e >>= fun _ : PUnit => t else t) := by
  split
  · exact fun s => endsIn_throw e s
  · next passed => exact rest passed

theorem endsIn_ask_bind {r : Request} {f : r.Answer → Task σ α}
    (rest : ∀ a, fair ⟨r, a⟩ → EndsIn fair good n (f a)) :
    EndsIn fair good (n + 1) (ask r >>= f) :=
  fun s a answer => rest a answer s

theorem endsIn_call_bind {r : Request} {g : r.Answer → Except Error β} {f : β → Task σ α}
    (rest : ∀ a, fair ⟨r, a⟩ → ∀ v, g a = .ok v → EndsIn fair good n (f v)) :
    EndsIn fair good (n + 1) ((ask r >>= fun a => ofExcept (g a)) >>= f) := by
  rw [bind_assoc]
  exact endsIn_ask_bind fun a answer => endsIn_ofExcept_bind (rest a answer)

/-! ### Tasks within tasks -/

theorem endsIn_lift {p : StateT σ Program α}
    (ends : ∀ s, (p s).EndsIn fair (fun _ => True) n) :
    EndsIn fair (fun _ => True) n (ExceptT.lift p) :=
  fun s => (ends s).bind (m := 0) fun _ _ _ _ => trivial

theorem endsIn_within {get : τ → σ} {set : σ → τ → τ} {t : Task σ α} (ends : EndsIn fair good n t) :
    EndsIn fair good n (within get set t) :=
  fun u => (ends (get u)).bind (m := 0) fun _ holds => holds

theorem endsIn_apart {start : σ} {t : Task σ α} (ends : EndsIn fair good n t) :
    EndsIn fair (fun _ => True) n (apart start t : Task τ (α × σ)) := by
  refine fun u => (ends start).bind (m := 0) ?_
  rintro ⟨result, last⟩ -
  cases result with
  | ok v => exact fun _ _ => trivial
  | error e => exact fun _ _ => trivial

end Task

end Parley
