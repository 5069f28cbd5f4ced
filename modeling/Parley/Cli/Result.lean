import Parley.Error
import Parley.Panic
/-!
# Results

What the program leaves behind: a code, what it puts out and what it complains about.
-/
namespace Parley.Cli

/-- The result of the program. -/
structure Result where
  code : Nat := 0
  output : String := ""
  complaint : String := ""
deriving DecidableEq

/-- Why a command failed: what went wrong, and the causes of it from the nearest on. -/
structure Failure where
  text : String
  causes : List String := []
deriving DecidableEq

namespace Failure

/-- The text of an error that an error is about, where it says more than that. -/
def causesOf : Error → List String
  | .io text => [text]
  | .json e => [e.message]
  | _ => []

def ofError (e : Error) : Failure :=
  ⟨e.message, causesOf e⟩

/-- The failure of what was being done when the error came up. -/
def during (doing : String) (e : Error) : Failure :=
  ⟨doing, e.message :: causesOf e⟩

/-- A text of several lines with the further lines indented. -/
def indent (blanks : String) (text : String) : String :=
  ("\n" ++ blanks).intercalate (text.splitOn "\n")

/-- Causes on lines of their own, with numbers from `n` on. -/
def numbered : (n : Nat) → List String → String
  | _, [] => ""
  | n, cause :: rest =>
    let number := toString n
    let blanks := String.ofList (List.replicate (5 - number.length) ' ')
    "\n" ++ blanks ++ number ++ ": " ++ indent "       " cause ++ numbered (n + 1) rest

def complaint (f : Failure) : String :=
  let causes := match f.causes with
    | [] => ""
    | [cause] => "\n\nCaused by:\n    " ++ indent "    " cause
    | causes => "\n\nCaused by:" ++ numbered 0 causes
  "Error: " ++ f.text ++ causes ++ "\n"

end Failure

namespace Result

/-- The result of a command that failed after it had put something out. -/
def failed (output : String) (f : Failure) : Result :=
  { code := 1, output, complaint := f.complaint }

def usage : String :=
  "Usage: flowrun [--config FILE] run|waits|reap|validate|config [OPTIONS]\n"

/-- The result of arguments that cannot be read. -/
def misused : Result :=
  { code := 2, complaint := usage }

/-- The result of a command that panicked. -/
def panicked (cause : Panic) : Result :=
  { code := 101, complaint := cause.message ++ "\n" }

/-- A text as lines of their own. -/
def lines (texts : List String) : String :=
  String.join (texts.map (· ++ "\n"))

end Result

end Parley.Cli
