import Parley.Run.World
import Parley.Expr.Path
/-!
# Scripted code

Executors that run no code: they repeat what they are given, fail, or take the code itself for the
value that it would come to.
-/
namespace Parley.Simulation

def repeating : CodeExecutor := fun language code inputs =>
  .ok (.ofFields [("language", .str language), ("code", .str code), ("inputs", inputs)])

def failing (text : String) : CodeExecutor := fun _ _ _ => .error (.codeFailed text)

/-- The text behind a mark at the start of another. -/
def behind (mark text : List Char) : Option (List Char) :=
  if mark.isPrefixOf text then some (text.drop mark.length) else none

/-- A code is a JSON text behind `json:`, a failure behind `fail:`, and is otherwise repeated. -/
def scripted : CodeExecutor := fun language code inputs =>
  match behind "json:".toList code.toList, behind "fail:".toList code.toList with
  | some text, _ =>
    match Json.parse (String.ofList text) with
    | .ok v => .ok v
    | .error _ => .error (.codeFailed "bad json")
  | none, some reason => .error (.codeFailed (String.ofList reason))
  | none, none => repeating language code inputs

/-- Refuses every expression that starts with an exclamation mark. -/
def wary (resolver : Resolver) : Resolver
  | _, '!' :: rest => .error (.invalid (.other ("rejected " ++ String.ofList rest)))
  | ctx, expr => resolver ctx expr

end Parley.Simulation
