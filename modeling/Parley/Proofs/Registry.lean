import Parley.Runner.Builtin
import Parley.Proofs.Registry.Fallback
import Mathlib.Data.List.Nodup
/-!
# What serves a node

A runner that serves a type and a version is registered (`Registry.resolve_mem`), so what holds of the
runners of all built-in types holds of every runner that a node of a flow can have. A type has one
runner only (`Runner.builtin_runner`).
-/
namespace Parley

namespace Registry
variable {ρ : Type}

/-- What serves a type and a version is one of the registrations of the type. -/
theorem lookup_kept {registry : Registry ρ} {type version : String} {r : Registration ρ}
    (found : registry.lookup type version = some r) :
    r ∈ registry.registrations ∧ r.type = type := by
  unfold lookup at found
  split at found
  · next s exact_one =>
    obtain rfl := Option.some.inj found
    exact ⟨List.mem_of_find?_eq_some exact_one, (isFor_iff.mp (List.find?_some exact_one)).1⟩
  · split at found
    · split at found
      · obtain ⟨c, best, rfl⟩ := Option.map_eq_some_iff.mp found
        obtain ⟨kept, same, -⟩ := mem_older.mp (newest_greatest best).1
        exact ⟨kept, same⟩
      · contradiction
    · contradiction

theorem lookup_of_resolve {registry : Registry ρ} {type version : String} {r : Registration ρ}
    (found : registry.resolve type version = .ok r) : registry.lookup type version = some r := by
  unfold resolve at found
  split at found
  · next s served => rw [served, Except.ok.inj found]
  · contradiction

theorem resolve_mem {registry : Registry ρ} {type version : String} {r : Registration ρ}
    (found : registry.resolve type version = .ok r) : r ∈ registry.registrations :=
  (lookup_kept (lookup_of_resolve found)).1

theorem resolve_type {registry : Registry ρ} {type version : String} {r : Registration ρ}
    (found : registry.resolve type version = .ok r) : r.type = type :=
  (lookup_kept (lookup_of_resolve found)).2

end Registry

namespace Runner

/-- What serves a type in the built-in registry is one of the built-in registrations. -/
theorem builtin_mem {fallback : Bool} {type version : String} {r : Registration Runner}
    (found : (builtin fallback).resolve type version = .ok r) : r ∈ builtins :=
  (Registry.mem_registrations.mp (Registry.resolve_mem found)).mem

private theorem builtins_nodup : (builtins.map Registration.type).Nodup := by
  simp [builtins, firstVersion, Node.startType, SubFlow.endType]

/-- A built-in registration of a type has the runner of the first one that is found for the type. -/
theorem builtin_runner {type : String} {runner : Runner} {r : Registration Runner}
    (first : (builtins.find? fun s => s.type == type).map Registration.runner = some runner)
    (member : r ∈ builtins) (same : r.type = type) : r.runner = runner := by
  obtain ⟨s, found, rfl⟩ := Option.map_eq_some_iff.mp first
  have served : s.type = type := by simpa using List.find?_some found
  rw [List.inj_on_of_nodup_map builtins_nodup member (List.mem_of_find?_eq_some found)
    (same.trans served.symm)]

end Runner

end Parley
