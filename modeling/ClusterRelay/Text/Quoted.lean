import ClusterRelay.Text.Numeral
import ClusterRelay.Text.Unmarked

/-!
# Quoted texts

A text between double quotes, fit for one line of a log. The quote and the backslash are preceded
by a backslash; NUL, tab, line feed and carriage return have a letter of their own; every other
character that leaves no mark is spelled out by its code point in braces.
-/

namespace ClusterRelay.Text

/-- One character of a quoted text. -/
def quotedChar (c : Char) : List Char :=
  if c = '"' then ['\\', '"']
  else if c = '\\' then ['\\', '\\']
  else if c = '\n' then ['\\', 'n']
  else if c = '\r' then ['\\', 'r']
  else if c = '\t' then ['\\', 't']
  else if c = '\x00' then ['\\', '0']
  else if isUnmarked c then
    ['\\', 'u', '\x7b'] ++ (hexadecimal 1 c.toNat).toList ++ ['\x7d']
  else [c]

/-- A text between double quotes, with everything escaped that would not show. -/
def quoted (s : String) : String :=
  String.ofList ('"' :: s.toList.flatMap quotedChar ++ ['"'])

def quotedList (ss : List String) : String :=
  "[" ++ ", ".intercalate (ss.map quoted) ++ "]"

end ClusterRelay.Text
