import ClusterRelay.Json.Members
import ClusterRelay.Mutation
import ClusterRelay.Text.Blank

/-!
# Lines of input

The input of the forwarding command is a text of lines, each of them a mutation as a JSON record. A
line ends at a line feed, and a carriage return in front of the line feed belongs to the line's end
too. Input comes in chunks that have nothing to do with its lines.
-/

namespace ClusterRelay.CommandLine

open Json (Value Members Decoder)

/-- The mutation that a JSON value describes; key and value are texts. -/
def mutationOfValue : Decoder Mutation
  | .object ms => do
    let container ← Members.required ms "container" Decoder.text
    let key ← Members.required ms "key" Decoder.text
    let value ← Members.required ms "value" Decoder.text
    some ⟨container, key.toUTF8, value.toUTF8⟩
  | .array items => do
    let (container, items) ← Json.nextItem Decoder.text items
    let (key, items) ← Json.nextItem Decoder.text items
    let (value, items) ← Json.nextItem Decoder.text items
    Json.ended ⟨container, key.toUTF8, value.toUTF8⟩ items
  | _ => none

/-- What a line of input amounts to. -/
inductive InputLine where
  /-- It holds blank characters only. -/
  | blank
  | mutation (mutation : Mutation)
  /-- It is a text, but no mutation. -/
  | malformed
  /-- It is not UTF-8. -/
  | garbled
deriving DecidableEq

namespace InputLine

def ofText (s : String) : InputLine :=
  if Text.allBlank s then .blank
  else
    match (Value.ofText s).bind mutationOfValue with
    | some m => .mutation m
    | none => .malformed

def ofBytes (line : ByteArray) : InputLine :=
  match String.fromUTF8? line with
  | some s => ofText s
  | none => .garbled

end InputLine

/-- The input, between two chunks: the bytes of a line that is not complete yet. -/
structure LineReader where
  left : List UInt8 := []
deriving DecidableEq, Repr

namespace LineReader

/-- The bytes of a line that ended at a line feed, without a carriage return at their end. -/
def withoutReturn (line : List UInt8) : List UInt8 :=
  if line.getLast? = some 13 then line.dropLast else line

/-- Takes in one chunk and yields the lines that it completes. -/
def feed (r : LineReader) (chunk : ByteArray) : List ByteArray × LineReader :=
  let parts := (r.left ++ chunk.toList).splitOn 10
  (parts.dropLast.map fun line => ⟨(withoutReturn line).toArray⟩, ⟨parts.getLastD []⟩)

/-- What is left when the input ends is a line of its own, unless nothing is left. -/
def finish (r : LineReader) : List ByteArray :=
  if r.left = [] then [] else [⟨r.left.toArray⟩]

end LineReader

def linesOfInput (input : ByteArray) : List ByteArray :=
  let (lines, r) := ({} : LineReader).feed input
  lines ++ r.finish

end ClusterRelay.CommandLine
