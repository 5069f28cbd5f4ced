import Parley.Expr.Path
/-!
# Templates

A template is a text with placeholders: two opening braces, an expression without braces, two
closing braces. `Template.split` cuts a text into pieces by itself; `Template.render` then fills in
values, and what comes from a value is not looked at again.
-/
namespace Parley

/-- A piece of a template. -/
inductive Piece
  | literal (text : List Char)
  | placeholder (expr : List Char)
deriving DecidableEq

namespace Template
open Parley.Text

/-! ## Pieces -/

def isBrace (c : Char) : Bool := c == '\x7b' || c == '\x7d'

/-- The expression between the braces of a placeholder: white space around it is left away, and where
there is nothing else the last of it is the expression. -/
def expression (inside : List Char) : List Char :=
  match trim inside with
  | [] => inside.drop (inside.length - 1)
  | expr => expr

/-- The expression of the placeholder that a text starts with, and the length of the placeholder. -/
def placeholder? : List Char → Option (List Char × Nat)
  | '\x7b' :: '\x7b' :: rest =>
    let inside := rest.takeWhile fun c => !isBrace c
    match rest.drop inside.length with
    | '\x7d' :: '\x7d' :: _ =>
      if inside.isEmpty then none else some (expression inside, inside.length + 4)
    | _ => none
  | _ => none

def consChar (c : Char) : List Piece → List Piece
  | .literal text :: rest => .literal (c :: text) :: rest
  | pieces => .literal [c] :: pieces

/-- The pieces of a text of which the first `skip` characters are used up. -/
def splitFrom : (skip : Nat) → List Char → List Piece
  | _, [] => []
  | skip + 1, _ :: cs => splitFrom skip cs
  | 0, c :: cs =>
    match placeholder? (c :: cs) with
    | some (expr, length) => .placeholder expr :: splitFrom (length - 1) cs
    | none => consChar c (splitFrom 0 cs)

/-- The pieces of a text, placeholders from the left. -/
def split (cs : List Char) : List Piece :=
  splitFrom 0 cs

/-! ## Rendering -/

/-- The text of a value inside a template: nothing for null, a string as it is, and otherwise its
compact text. -/
def display : Json → List Char
  | .null => []
  | .str s => s.toList
  | v => v.write

/-- The text of pieces, placeholders from the left. -/
def fill (resolver : Resolver) (ctx : Context) : List Piece → Except Error (List Char)
  | [] => .ok []
  | .literal text :: rest => do
    let after ← fill resolver ctx rest
    return text ++ after
  | .placeholder expr :: rest => do
    let value ← resolver ctx expr
    let after ← fill resolver ctx rest
    return display value ++ after

/-- The value of a template: of one that is a single placeholder, white space aside, the value
itself, and otherwise a text. -/
def render (resolver : Resolver) (ctx : Context) (template : List Char) : Except Error Json :=
  match split (trim template) with
  | [.placeholder expr] => resolver ctx expr
  | _ => do
    let text ← fill resolver ctx (split template)
    return .str (String.ofList text)

end Template

end Parley
