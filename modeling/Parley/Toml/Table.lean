import Parley.Toml.Lexeme
import Parley.Json.Document
/-!
# Tables under construction

A settings file fills its tables from several places: by headers, by dotted keys and by listing
tables under one name. How a table came to be decides where it may still be filled, so no value is
set twice and no table is opened twice.
-/
namespace Parley.Toml

/-- How a table came to be. -/
inductive Origin
  /-- By a header of its own, or as the whole file. -/
  | header
  /-- On the way to the table of a header. -/
  | passed
  /-- On the way of a dotted key. -/
  | dotted
deriving DecidableEq

/-- What stands under a name. -/
inductive Node
  | value (d : Document)
  | table (origin : Origin) (entries : List (String × Node))
  /-- Tables listed under one name, the last one first. -/
  | tables (items : List (List (String × Node)))

/-- What stands in a table under its names. -/
abbrev Entries := List (String × Node)

namespace Entries

/-- The entries with another node under a name that is there. -/
def replace (name : String) (node : Node) (entries : Entries) : Entries :=
  entries.map fun (key, old) => if key = name then (key, node) else (key, old)

/-- Changes the table at the end of a path. Tables that are missing on the way are made in the way
`origin`; of listed tables the last one is meant. A dotted key does not go into a table with a
header. -/
def within (origin : Origin) (change : Origin → Entries → Option Entries) :
    (path : List String) → Origin → Entries → Option Entries
  | [], made, entries => change made entries
  | name :: path, _, entries =>
    match entries.lookup name with
    | none => do
      let inner ← within origin change path origin []
      return entries ++ [(name, .table origin inner)]
    | some (.table made inner) =>
      if origin = .dotted ∧ made = .header then none
      else do
        let inner ← within origin change path made inner
        return entries.replace name (.table made inner)
    | some (.tables (last :: before)) => do
      let last ← within origin change path .header last
      return entries.replace name (.tables (last :: before))
    | some _ => none

/-- Sets a value under a key of the table at the end of a path. The key must be new, and its dotted
part leads to tables made by dotted keys only. -/
def set (path : List String) (key : Key) (d : Document) (entries : Entries) : Option Entries :=
  let setLast (made : Origin) (table : Entries) : Option Entries :=
    if decide (made = .dotted) = key.path.isEmpty ∨ (table.lookup key.last).isSome then none
    else some (table ++ [(key.last, .value d)])
  within .passed (within .dotted setLast key.path) path .header entries

/-- Opens the table of a header. It must be new, or have been passed on the way to others only. -/
def openTable (key : Key) (entries : Entries) : Option Entries :=
  let add (_ : Origin) (table : Entries) : Option Entries :=
    match table.lookup key.last with
    | none => some (table ++ [(key.last, .table .header [])])
    | some (.table .passed inner) => some (table.replace key.last (.table .header inner))
    | some _ => none
  within .passed add key.path .header entries

/-- Opens a further one of the tables listed under a header. -/
def openItem (key : Key) (entries : Entries) : Option Entries :=
  let add (_ : Origin) (table : Entries) : Option Entries :=
    match table.lookup key.last with
    | none => some (table ++ [(key.last, .tables [[]])])
    | some (.tables items) => some (table.replace key.last (.tables ([] :: items)))
    | some _ => none
  within .passed add key.path .header entries

end Entries

/-! ## Finished tables -/

mutual
/-- The document of what stands under a name. -/
def Node.document : Node → Document
  | .value d => d
  | .table _ entries => .obj (fields entries) none
  | .tables items => .arr (listed items).reverse none

def fields : List (String × Node) → List (String × Document)
  | [] => []
  | (name, node) :: rest => (name, node.document) :: fields rest

/-- The documents of listed tables, the last one first. -/
def listed : List (List (String × Node)) → List Document
  | [] => []
  | entries :: rest => .obj (fields entries) none :: listed rest
end

def Entries.document (entries : Entries) : Document :=
  .obj (fields entries) none

end Parley.Toml
