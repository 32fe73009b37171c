import ClusterRelay.Json.Value
import ClusterRelay.Text.Numeral

/-!
# Writing JSON

Two layouts of one text. The compact layout has no blanks at all. The tall layout gives every item
and every member a line of its own, indented by two spaces for each level, and puts one space
behind the colon; empty containers stay on one line.

In strings the quote, the backslash and the control characters below the space are escaped, the
latter by a letter where there is one. All other characters stand for themselves.
-/

namespace ClusterRelay.Json

/-- One character of a string. -/
def escaped (c : Char) : List Char :=
  if c = '"' then ['\\', '"']
  else if c = '\\' then ['\\', '\\']
  else if c = '\x08' then ['\\', 'b']
  else if c = '\x0c' then ['\\', 'f']
  else if c = '\n' then ['\\', 'n']
  else if c = '\r' then ['\\', 'r']
  else if c = '\t' then ['\\', 't']
  else if c.toNat < 0x20 then ['\\', 'u'] ++ (Text.hexadecimal 4 c.toNat).toList
  else [c]

def string (s : String) : List Char :=
  '"' :: s.toList.flatMap escaped ++ ['"']

/-- How the parts of a container are laid out: what stands after its opening bracket or a comma,
and before its closing bracket, at each level, and what stands after a colon. -/
structure Layout where
  lineBreak : Nat → List Char
  afterColon : List Char

def Layout.compact : Layout := ⟨fun _ => [], []⟩

/-- A line for each item, two spaces for each level. -/
def Layout.tall : Layout := ⟨fun level => '\n' :: List.replicate (2 * level) ' ', [' ']⟩

mutual

/-- The characters of a document that stands at a level of nesting. -/
def Document.chars (layout : Layout) (level : Nat) : Document → List Char
  | .null => "null".toList
  | .bool true => "true".toList
  | .bool false => "false".toList
  | .number n => (Text.decimal n).toList
  | .text s => string s
  | .array [] => ['[', ']']
  | .array (d :: ds) =>
    '[' :: layout.lineBreak (level + 1) ++ d.chars layout (level + 1) ++
      Document.itemChars layout (level + 1) ds ++ layout.lineBreak level ++ [']']
  | .object [] => ['{', '}']
  | .object ((name, d) :: ds) =>
    '{' :: layout.lineBreak (level + 1) ++ string name ++ ':' :: layout.afterColon ++
      d.chars layout (level + 1) ++ Document.memberChars layout (level + 1) ds ++
      layout.lineBreak level ++ ['}']

/-- The characters of the items of an array after the first, each behind a comma. -/
def Document.itemChars (layout : Layout) (level : Nat) : List Document → List Char
  | [] => []
  | d :: ds =>
    ',' :: layout.lineBreak level ++ d.chars layout level ++ Document.itemChars layout level ds

/-- The characters of the members of an object after the first, each behind a comma. -/
def Document.memberChars (layout : Layout) (level : Nat) : List (String × Document) → List Char
  | [] => []
  | (name, d) :: ds =>
    ',' :: layout.lineBreak level ++ string name ++ ':' :: layout.afterColon ++
      d.chars layout level ++ Document.memberChars layout level ds

end

def Document.render (layout : Layout) (d : Document) : String :=
  String.ofList (d.chars layout 0)

def Document.compact (d : Document) : String := d.render .compact

def Document.tall (d : Document) : String := d.render .tall

end ClusterRelay.Json
