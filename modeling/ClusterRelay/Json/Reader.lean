import ClusterRelay.Json.Token

/-!
# Reading JSON

The tokens of a text are taken in one by one by a machine that keeps the containers which are still
open, the innermost first. Each token either fits what the machine waits for or ends the reading in
failure; a text is read if the machine has exactly one value, and nothing open, when the tokens are
used up.

The machine does not recurse, so texts may be nested as deeply as they like.
-/

namespace ClusterRelay.Json

/-- A container that is still open: what it holds so far, the latest first. An object also has the
name of the member whose value comes next, and says whether all its names denote texts. -/
inductive Frame where
  | array (items : List Value)
  | object (members : List (String × Value)) (named : Bool) (name : String)

/-- What the machine waits for. -/
inductive Awaited where
  | value
  | itemOrEnd
  | name
  | nameOrEnd
  | colon
  | commaOrEnd
  /-- Nothing: the text is complete, with this value. -/
  | nothing (v : Value)

/-- The reader, between two tokens. -/
structure Reader where
  frames : List Frame := []
  awaited : Awaited := .value

namespace Reader

/-- The value of an object with these members, the latest first. -/
def objectValue (members : List (String × Value)) (named : Bool) : Value :=
  if named then .object members.reverse else .meaningless

/-- A value is complete: it goes into the innermost container, or it is the whole text. -/
def accept (frames : List Frame) (v : Value) : Reader :=
  match frames with
  | [] => ⟨[], .nothing v⟩
  | .array items :: outer => ⟨.array (v :: items) :: outer, .commaOrEnd⟩
  | .object members named name :: outer =>
    ⟨.object ((name, v) :: members) named name :: outer, .commaOrEnd⟩

/-- The name of a member is there. -/
def acceptName (frames : List Frame) (name : Option String) : Option Reader :=
  match frames with
  | .object members named _ :: outer =>
    some ⟨.object members (named && name.isSome) (name.getD "") :: outer, .colon⟩
  | _ => none

/-- A token where a value may begin. -/
def beginValue (frames : List Frame) : Token → Option Reader
  | .scalar v => some (accept frames v)
  | .string (some s) => some (accept frames (.text s))
  | .string none => some (accept frames .meaningless)
  | .leftBracket => some ⟨.array [] :: frames, .itemOrEnd⟩
  | .leftBrace => some ⟨.object [] true "" :: frames, .nameOrEnd⟩
  | _ => none

/-- A token that ends the innermost container. -/
def close (frames : List Frame) : Token → Option Reader
  | .rightBracket =>
    match frames with
    | .array items :: outer => some (accept outer (.array items.reverse))
    | _ => none
  | .rightBrace =>
    match frames with
    | .object members named _ :: outer => some (accept outer (objectValue members named))
    | _ => none
  | _ => none

/-- What a comma leads to in the innermost container. -/
def afterComma (frames : List Frame) : Option Reader :=
  match frames with
  | .array _ :: _ => some ⟨frames, .value⟩
  | .object _ _ _ :: _ => some ⟨frames, .name⟩
  | [] => none

/-- Takes in one token. -/
def feed (r : Reader) (t : Token) : Option Reader :=
  match r.awaited, t with
  | .value, t => beginValue r.frames t
  | .itemOrEnd, .rightBracket => close r.frames .rightBracket
  | .itemOrEnd, t => beginValue r.frames t
  | .name, .string s => acceptName r.frames s
  | .nameOrEnd, .string s => acceptName r.frames s
  | .nameOrEnd, .rightBrace => close r.frames .rightBrace
  | .colon, .colon => some ⟨r.frames, .value⟩
  | .commaOrEnd, .comma => afterComma r.frames
  | .commaOrEnd, t => close r.frames t
  | _, _ => none

def feedAll (r : Reader) : List Token → Option Reader
  | [] => some r
  | t :: ts =>
    match r.feed t with
    | some r => r.feedAll ts
    | none => none

def result (r : Reader) : Option Value :=
  match r.awaited with
  | .nothing v => some v
  | _ => none

end Reader

/-- The value of a JSON text, if it is one. -/
def Value.ofChars (cs : List Char) : Option Value := do
  let tokens ← Token.ofChars cs
  let reader ← ({} : Reader).feedAll tokens
  reader.result

def Value.ofText (s : String) : Option Value := Value.ofChars s.toList

/-- The value of a JSON text all of which is to be looked at. -/
def Value.wholeOfText (s : String) : Option Value :=
  match Value.ofText s with
  | some v => if v.sound maxDepth then some v else none
  | none => none

end ClusterRelay.Json
