import Parley.Expr.Template
/-!
# Parameters

A parameter is a value in which some leaves stand for others: an object with the one key `$ref`
stands for the value of an expression, and a string with two opening braces is a template. All else
is literal.
-/
namespace Parley.Param

/-- Two opening braces stand next to each other. -/
def hasBraces : List Char → Bool
  | [] => false
  | [_] => false
  | a :: b :: rest => (a == '\x7b' && b == '\x7b') || hasBraces (b :: rest)

def resolveString (resolver : Resolver) (ctx : Context) (s : String) : Except Error Json :=
  if hasBraces s.toList then Template.render resolver ctx s.toList else .ok (.str s)

def resolveReference (resolver : Resolver) (ctx : Context) : Json → Except Error Json
  | .str expr => resolver ctx expr.toList
  | other => .error (.invalid (.reference other))

mutual
def resolve (resolver : Resolver) (ctx : Context) : Json → Except Error Json
  | .str s => resolveString resolver ctx s
  | .arr items => do
    let items ← resolveItems resolver ctx items
    return .arr items
  | .obj fields =>
    match fields with
    | [("$ref", expr)] => resolveReference resolver ctx expr
    | fields => do
      let fields ← resolveFields resolver ctx fields
      return .obj fields
  | v => .ok v

/-- The values of items, from the left. -/
def resolveItems (resolver : Resolver) (ctx : Context) : List Json → Except Error (List Json)
  | [] => .ok []
  | v :: vs => do
    let w ← resolve resolver ctx v
    let ws ← resolveItems resolver ctx vs
    return w :: ws

/-- The values of fields, in the order of the keys. -/
def resolveFields (resolver : Resolver) (ctx : Context) :
    List (String × Json) → Except Error (List (String × Json))
  | [] => .ok []
  | (k, v) :: fs => do
    let w ← resolve resolver ctx v
    let ws ← resolveFields resolver ctx fs
    return (k, w) :: ws
end

end Parley.Param
