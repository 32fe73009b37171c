import ClusterRelay.Json.Reader

/-!
# Records in JSON

How the members of a JSON object, or the items of a JSON array, become the fields of a record.

A record that is *plain* can be written either way. As an object, its members may come in any
order, a member whose name the record does not know is passed over without a look at its value, and
none that it knows may come twice. As an array, its items are the fields in the order of their
declaration; only a tail of fields that have defaults may be missing.

A record that is *joined* to another one, whose members stand among its own, has to be an object,
and all values that do not belong to the record itself are looked at.
-/

namespace ClusterRelay.Json

variable {α : Type}

/-- A way to understand a value. -/
abbrev Decoder (α : Type) := Value → Option α

namespace Decoder

def text : Decoder String
  | .text s => some s
  | _ => none

def bool : Decoder Bool
  | .bool b => some b
  | _ => none

def uint16 : Decoder UInt16
  | .number n => if n < UInt16.size then some (UInt16.ofNat n) else none
  | _ => none

def uint32 : Decoder UInt32
  | .number n => if n < UInt32.size then some (UInt32.ofNat n) else none
  | _ => none

def uint64 : Decoder UInt64
  | .number n => if n < UInt64.size then some (UInt64.ofNat n) else none
  | _ => none

def list (item : Decoder α) : Decoder (List α)
  | .array items => items.mapM item
  | _ => none

/-- A value or `null`. -/
def nullable (decode : Decoder α) : Decoder (Option α)
  | .null => some none
  | v => (decode v).map some

/-- One of several words: as a text, or as the name of the one member of an object, whose value is
`null` then. -/
def word (words : List (String × α)) : Decoder α
  | .text s => words.lookup s
  | .object [(s, .null)] => words.lookup s
  | _ => none

end Decoder

/-- The members of an object as they were read. -/
abbrev Members := List (String × Value)

namespace Members

def values (ms : Members) (name : String) : List Value :=
  ms.filterMap fun m => if m.1 = name then some m.2 else none

/-- A member that has to be there, once. -/
def required (ms : Members) (name : String) (decode : Decoder α) : Option α :=
  match ms.values name with
  | [v] => decode v
  | _ => none

/-- A member that may be missing, but is not there twice. -/
def optional (ms : Members) (name : String) (default : α) (decode : Decoder α) : Option α :=
  match ms.values name with
  | [] => some default
  | [v] => decode v
  | _ => none

/-- The members with other names than these. -/
def others (ms : Members) (own : List String) : Members :=
  ms.filter fun m => !own.contains m.1

end Members

/-- The next item of an array, which has to be there, and the items after it. -/
def nextItem (decode : Decoder α) : List Value → Option (α × List Value)
  | [] => none
  | v :: vs => (decode v).map (·, vs)

/-- The next item of an array, or a default behind its end, and the items after it. -/
def nextItemOr (default : α) (decode : Decoder α) : List Value → Option (α × List Value)
  | [] => some (default, [])
  | v :: vs => (decode v).map (·, vs)

/-- Nothing may be left of an array. -/
def ended (a : α) : List Value → Option α
  | [] => some a
  | _ :: _ => none

end ClusterRelay.Json
