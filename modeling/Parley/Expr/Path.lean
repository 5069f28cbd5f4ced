import Parley.Context
import Parley.Text.Blank
import Parley.Text.Natural
/-!
# Paths

An expression is a path: a root and then fields by `.name` and items by `[index]`. The root is
`trigger` for the payload, `variables` for the variables, or the id of a node for its output.
`Path.parse` reads a path, `Path.write` is its plainest text, and `Path.follow` goes along it.
-/
namespace Parley

/-- One step of a path. -/
inductive Segment
  | field (name : List Char)
  | index (i : Nat)
deriving DecidableEq

/-- A root and the steps from it. -/
structure Path where
  root : List Char
  segments : List Segment
deriving DecidableEq

namespace Path
open Parley.Text

/-! ## Reading and writing -/

def isMark (c : Char) : Bool := c == '.' || c == '['

def spanName (cs : List Char) : List Char × List Char :=
  cs.span fun c => !isMark c

/-- Splits a text at its first closing bracket. -/
def splitBracket : List Char → Option (List Char × List Char)
  | [] => none
  | c :: cs =>
    if c = ']' then some ([], cs)
    else match splitBracket cs with
      | some (inside, rest) => some (c :: inside, rest)
      | none => none

/-- The index that stands between brackets: a machine word, with white space around it and a sign
`+` before it if any. -/
def readIndex (inside : List Char) : Option Nat :=
  readNatural greatest64 (trim inside)

/-- Reads the first step of a text, and what follows it. -/
def readSegment : List Char → Option (Segment × List Char)
  | '.' :: rest =>
    match spanName rest with
    | ([], _) => none
    | (name, rest) => some (.field name, rest)
  | '[' :: rest =>
    match splitBracket rest with
    | none => none
    | some (inside, rest) =>
      match readIndex inside with
      | none => none
      | some i => some (.index i, rest)
  | _ => none

/-- Reads steps up to the end of the text. Every step takes a character, so `fuel` is enough when it
is at least the length of the text. -/
def readSegments : (fuel : Nat) → List Char → Option (List Segment)
  | _, [] => some []
  | 0, _ :: _ => none
  | fuel + 1, cs =>
    match readSegment cs with
    | none => none
    | some (s, rest) =>
      match readSegments fuel rest with
      | none => none
      | some ss => some (s :: ss)

/-- Reads a path from a whole text. -/
def parse (cs : List Char) : Option Path :=
  match spanName cs with
  | ([], _) => none
  | (root, rest) =>
    match readSegments rest.length rest with
    | none => none
    | some segments => some ⟨root, segments⟩

def writeSegment : Segment → List Char
  | .field name => '.' :: name
  | .index i => '[' :: writeNatural i ++ [']']

def write (p : Path) : List Char :=
  p.root ++ p.segments.flatMap writeSegment

/-! ## Following -/

def step (v : Json) : Segment → Option Json
  | .field name => v.field? (String.ofList name)
  | .index i => v.item? i

/-- The value at the end of the steps. -/
def stepAll (v : Json) : List Segment → Option Json
  | [] => some v
  | s :: ss =>
    match step v s with
    | none => none
    | some w => stepAll w ss

/-- The value that a root stands for. -/
def rootValue (ctx : Context) (root : List Char) : Option Json :=
  if root = "trigger".toList then some ctx.payload
  else if root = "variables".toList then some (.obj ctx.values)
  else ctx.output? (String.ofList root)

/-- The value at the end of a path. -/
def follow (ctx : Context) (p : Path) : Option Json :=
  match rootValue ctx p.root with
  | none => none
  | some v => stepAll v p.segments

/-- The value of an expression, white space around it aside. -/
def resolve (ctx : Context) (expr : List Char) : Except Error Json :=
  let path := trim expr
  match parse path with
  | none => .error (.unresolved (String.ofList path))
  | some p =>
    match follow ctx p with
    | none => .error (.unresolved (String.ofList path))
    | some v => .ok v

end Path

/-- How the expressions of a run are resolved. -/
abbrev Resolver := Context → List Char → Except Error Json

end Parley
