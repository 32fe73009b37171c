/-!
# JSON values

Two types. A `Document` is what this library writes: its numbers are natural and its texts are
texts. A `Value` is what a JSON text can hold, and that is more: there are numbers that are not
natural, and there are strings and numbers that denote nothing, because a surrogate has no partner
or because the number exceeds every double. The library's records use natural numbers alone, so of
another number only its being there is kept.

A value that denotes nothing does no harm where nobody looks at it. `Value.Sound` says that a value
can be looked at as a whole: nothing in it is without meaning, and it is not nested too deeply.
-/

namespace ClusterRelay.Json

/-- A JSON value as this library writes it. -/
inductive Document where
  | null
  | bool (b : Bool)
  | number (n : Nat)
  | text (s : String)
  | array (items : List Document)
  | object (members : List (String × Document))
deriving Inhabited

/-- A JSON value as it can be read. -/
inductive Value where
  | null
  | bool (b : Bool)
  /-- A number written with digits alone. -/
  | number (n : Nat)
  /-- Any other number within the range of doubles. -/
  | otherNumber
  | text (s : String)
  /-- A string or number without meaning, or an object one of whose names is such a string. -/
  | meaningless
  | array (items : List Value)
  | object (members : List (String × Value))
deriving Inhabited

mutual

/-- A document, seen as a value that was read. -/
def Document.toValue : Document → Value
  | .null => .null
  | .bool b => .bool b
  | .number n => .number n
  | .text s => .text s
  | .array items => .array (Document.toValues items)
  | .object members => .object (Document.toMembers members)

def Document.toValues : List Document → List Value
  | [] => []
  | d :: ds => d.toValue :: Document.toValues ds

def Document.toMembers : List (String × Document) → List (String × Value)
  | [] => []
  | (name, d) :: ds => (name, d.toValue) :: Document.toMembers ds

end

mutual

/-- Nothing in the value is without meaning, and it is nested to at most `depth` levels. -/
def Value.sound (depth : Nat) : Value → Bool
  | .null | .bool _ | .number _ | .otherNumber | .text _ => true
  | .meaningless => false
  | .array items => 0 < depth && Value.allSound (depth - 1) items
  | .object members => 0 < depth && Value.membersSound (depth - 1) members

def Value.allSound (depth : Nat) : List Value → Bool
  | [] => true
  | v :: vs => v.sound depth && Value.allSound depth vs

def Value.membersSound (depth : Nat) : List (String × Value) → Bool
  | [] => true
  | (_, v) :: vs => v.sound depth && Value.membersSound depth vs

end

/-- The number of levels to which a text may be nested where every value in it is looked at. -/
def maxDepth : Nat := 127

end ClusterRelay.Json
