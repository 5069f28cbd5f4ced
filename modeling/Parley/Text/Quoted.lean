import Parley.Text.Hidden
/-!
# Quoted text

The form in which a text is shown inside a message: between quotes, with escapes for quotes,
backslashes and the characters that do not show.
-/
namespace Parley.Text

/-- The digits of a number in base sixteen, in lower case. -/
def writeHex (n : Nat) : List Char :=
  Nat.toDigits 16 n

/-- A character as it stands inside a quoted text. -/
def escapeChar (c : Char) : List Char :=
  if c = '"' then ['\\', '"']
  else if c = '\\' then ['\\', '\\']
  else if c = '\n' then ['\\', 'n']
  else if c = '\r' then ['\\', 'r']
  else if c = '\t' then ['\\', 't']
  else if c = '\x00' then ['\\', '0']
  else if isHidden c then ['\\', 'u', '\x7b'] ++ writeHex c.toNat ++ ['\x7d']
  else [c]

def quoted (s : String) : String :=
  String.ofList (['"'] ++ s.toList.flatMap escapeChar ++ ['"'])

end Parley.Text
