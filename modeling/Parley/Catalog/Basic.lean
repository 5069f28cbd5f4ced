import Parley.Catalog.Version
import Parley.Flow.Shape
import Parley.Sort
/-!
# The catalog of flows

Flows by code and version. A flow that is put in takes the place of the one of the same code and
version; without a version the latest one is meant.
-/
namespace Parley

/-- Flows under their codes and, for each code, under their versions. -/
structure Catalog where
  codes : Keyed (Keyed Flow) := []

namespace Catalog

def insert (catalog : Catalog) (flow : Flow) : Catalog where
  codes :=
    let versions := (Keyed.get? flow.code catalog.codes).getD []
    Keyed.insert flow.code (Keyed.insert flow.version flow versions) catalog.codes

/-- The catalog of the flows put in one after the other. -/
def ofFlows (flows : List Flow) : Catalog :=
  flows.foldl insert {}

def byVersion (flows : List Flow) : List Flow :=
  Sort.sort (fun a b => Version.before a.version b.version) flows

/-- All flows, by code and then by version. -/
def flows (catalog : Catalog) : List Flow :=
  catalog.codes.flatMap fun (_, versions) => byVersion (versions.map Prod.snd)

/-- The later of two flows, the second one unless the first comes after it. -/
def later (a b : Flow) : Flow :=
  if Version.before b.version a.version then a else b

def latest : List Flow → Option Flow
  | [] => none
  | flow :: rest => some (rest.foldl later flow)

/-- The flow of a code and a version, or the latest one of the code. -/
def load (catalog : Catalog) (code : String) (version : Option String) : Except Error Flow :=
  match Keyed.get? code catalog.codes with
  | none => .error (.flowNotFound code)
  | some versions =>
    let found := match version with
      | some v => Keyed.get? v versions
      | none => latest (versions.map Prod.snd)
    match found with
    | some flow => .ok flow
    | none => .error (.flowNotFound (code ++ "@" ++ version.getD "latest"))

end Catalog

end Parley
