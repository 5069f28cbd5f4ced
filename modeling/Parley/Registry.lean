import Parley.Keyed
import Parley.Sort
import Parley.Error
/-!
# The registry of node types

Runners are registered for a type and a version; registering again for the same pair replaces. With
fallback, a version `v` and a number that is not registered stands for the greatest registered
smaller one of the type.
-/
namespace Parley

/-- What is said about a node type. -/
structure NodeMeta where
  description : String
  /-- The parameters that a node must have. -/
  required : List String := []
  outputs : List String := []
  /-- A node can be run by itself. -/
  debuggable : Bool := false
deriving DecidableEq

/-- What is said about a node type, as a value. -/
def NodeMeta.toJson (m : NodeMeta) : Json :=
  .ofFields [("description", .str m.description), ("required_params", .ofStrings m.required),
    ("outputs", .ofStrings m.outputs), ("supports_debug", .bool m.debuggable)]

/-- A runner that is registered for a type and a version. -/
structure Registration (ρ : Type) where
  type : String
  version : String
  info : NodeMeta
  runner : ρ

/-- The runners by type and version. -/
structure Registry (ρ : Type) where
  fallback : Bool := false
  registrations : List (Registration ρ) := []

namespace Registry
variable {ρ : Type}

/-- The registration is that of a type and a version. -/
def isFor (type version : String) (r : Registration ρ) : Bool :=
  r.type == type && r.version == version

/-- Registers a runner in place of the one of its type and version. -/
def register (registry : Registry ρ) (r : Registration ρ) : Registry ρ :=
  { registry with
    registrations := registry.registrations.filter (fun s => !isFor r.type r.version s) ++ [r] }

/-- The number of a version `v` and a number. -/
def versionNumber? (version : String) : Option Nat :=
  match version.toList with
  | 'v' :: digits => Text.readNatural Text.greatest32 digits
  | _ => none

/-- The registration of the greatest number, the last one of several. -/
def newest : List (Nat × Registration ρ) → Option (Nat × Registration ρ)
  | [] => none
  | c :: rest => some (rest.foldl (fun best c => if c.1 < best.1 then best else c) c)

/-- The registrations of a type with the numbers of their versions, below a number. -/
def older (registry : Registry ρ) (type : String) (limit : Nat) : List (Nat × Registration ρ) :=
  registry.registrations.filterMap fun r =>
    if r.type == type then
      match versionNumber? r.version with
      | some n => if n < limit then some (n, r) else none
      | none => none
    else none

/-- The registration that serves a type and a version. -/
def lookup (registry : Registry ρ) (type version : String) : Option (Registration ρ) :=
  match registry.registrations.find? (isFor type version) with
  | some r => some r
  | none =>
    if registry.fallback then
      match versionNumber? version with
      | some n => (newest (registry.older type n)).map Prod.snd
      | none => none
    else none

/-- The registration that serves a type and a version, which must be there. -/
def resolve (registry : Registry ρ) (type version : String) : Except Error (Registration ρ) :=
  match registry.lookup type version with
  | some r => .ok r
  | none => .error (.unknownNodeType type version)

/-- What is said about the node type that serves a type and a version. -/
def info? (registry : Registry ρ) (type version : String) : Option NodeMeta :=
  (registry.lookup type version).map Registration.info

/-- All registrations, by type and then by version. -/
def sorted (registry : Registry ρ) : List (Registration ρ) :=
  let before (a b : Registration ρ) : Bool :=
    decide (a.type < b.type) || (a.type == b.type && decide (a.version < b.version))
  Sort.sort before registry.registrations

end Registry

end Parley
