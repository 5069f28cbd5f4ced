import Parley.Location
/-!
# Variables in settings

A settings file can name variables of its environment as `$` and a name in braces. Each is replaced
by its value once, before the file is read; what a value brings in is not looked at again.
-/
namespace Parley

/-- The value of each variable that is set. -/
abbrev Environment := String → Option String

namespace Environment

/-- The name of the variable that a text starts with and the length of what names it. A name without
a closing brace goes on to the end of the text. -/
def reference? : List Char → Option (List Char × Nat)
  | '$' :: '\x7b' :: rest =>
    let name := rest.takeWhile (· != '\x7d')
    some (name, name.length + 3)
  | _ => none

/-- What a variable is replaced by: its value, or when it is not set its name in braces. -/
def replacement (env : Environment) (name : List Char) : List Char :=
  match env (String.ofList name) with
  | some value => value.toList
  | none => ['$', '\x7b'] ++ name ++ ['\x7d']

/-- The text with its variables replaced, of which the first `skip` characters are used up. -/
def expandFrom (env : Environment) : (skip : Nat) → List Char → List Char
  | _, [] => []
  | skip + 1, _ :: cs => expandFrom env skip cs
  | 0, c :: cs =>
    match reference? (c :: cs) with
    | some (name, length) => env.replacement name ++ expandFrom env (length - 1) cs
    | none => c :: expandFrom env 0 cs

/-- The text with its variables replaced. -/
def expand (env : Environment) (text : String) : String :=
  String.ofList (expandFrom env 0 text.toList)

/-- The names of the variables in a text of which the first `skip` characters are used up. -/
def mentionedFrom : (skip : Nat) → List Char → List String
  | _, [] => []
  | skip + 1, _ :: cs => mentionedFrom skip cs
  | 0, c :: cs =>
    match reference? (c :: cs) with
    | some (name, length) => String.ofList name :: mentionedFrom (length - 1) cs
    | none => mentionedFrom 0 cs

/-- The names of the variables in a text. -/
def mentioned (text : String) : List String :=
  mentionedFrom 0 text.toList

def homeVariable : String := "HOME"

/-- A path with `~` for the home folder at its start, when the environment has one. -/
def expandHome (env : Environment) (path : String) : String :=
  match path.toList, env homeVariable with
  | '~' :: '/' :: rest, some home => Location.join home (String.ofList rest)
  | _, _ => path

end Environment

end Parley
