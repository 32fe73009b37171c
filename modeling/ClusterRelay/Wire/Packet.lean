import ClusterRelay.Credentials
import ClusterRelay.Fault
import ClusterRelay.Mutation
import ClusterRelay.Wire.Word

/-!
# Packets and how they are written

A link sends two kinds of packet: the handshake, which presents the group and its password, and
one merge for each mutation. A packet is written as a *body*: the version, the tag of its kind,
then its fields, each field a length followed by that many bytes. A *frame* is a body behind its
own length in four bytes.

Texts have lengths of two bytes, keys and values lengths of four, and no body is longer than
`maxBody`. What does not fit is refused, and nothing is written.
-/

namespace ClusterRelay.Wire

/-- The version of the format, the first byte of every body. -/
def version : UInt8 := 1

/-- The greatest length of a body, in bytes: sixteen mebibytes. -/
def maxBody : Nat := 16 * 1024 * 1024

/-- The kinds of packet. -/
inductive Tag where
  /-- Merge one entry, as opposed to a write by a user. -/
  | merge
  /-- Present the group, as the first packet of a connection. -/
  | auth
deriving DecidableEq, Repr

namespace Tag

def toByte : Tag → UInt8
  | merge => 1
  | auth => 2

/-- The kind of packet that a byte stands for. -/
def ofByte? (b : UInt8) : Option Tag :=
  if b = 1 then some merge else if b = 2 then some auth else none

@[simp] theorem ofByte?_toByte (t : Tag) : ofByte? t.toByte = some t := by cases t <;> rfl

theorem ofByte?_eq_some {b : UInt8} {t : Tag} (h : ofByte? b = some t) : b = t.toByte := by
  unfold ofByte? at h
  split at h
  · next hb => cases h; exact hb
  · split at h
    · next hb => cases h; exact hb
    · cases h

end Tag

/-- What travels from one cluster to another. -/
inductive Packet where
  | merge (mutation : Mutation)
  | auth (credentials : Credentials)
deriving DecidableEq, Inhabited

namespace Packet

def tag : Packet → Tag
  | merge _ => .merge
  | auth _ => .auth

end Packet

/-- A field with a length of two bytes; `what` names it in the refusal of a longer one. -/
def field16 (what : String) (bytes : ByteArray) : Except Fault ByteArray :=
  if bytes.size < 65536 then .ok (word16 bytes.size ++ bytes)
  else .error (.encoding (what ++ " too long: " ++ Text.decimal bytes.size ++ " bytes"))

/-- A field with a length of four bytes; `what` names it in the refusal of a longer one. -/
def field32 (what : String) (bytes : ByteArray) : Except Fault ByteArray :=
  if bytes.size < 4294967296 then .ok (word32 bytes.size ++ bytes)
  else .error (.encoding (what ++ " too long: " ++ Text.decimal bytes.size ++ " bytes"))

/-- The first two bytes of the body of a packet. -/
def header (t : Tag) : ByteArray := ⟨#[version, t.toByte]⟩

@[simp] theorem size_header (t : Tag) : (header t).size = 2 := rfl

/-- The body of a packet, whatever its length. -/
def Packet.body : Packet → Except Fault ByteArray
  | .merge m => do
    let container ← field16 "container name" m.container.toUTF8
    let key ← field32 "key" m.key
    let value ← field32 "value envelope" m.value
    .ok (header .merge ++ (container ++ (key ++ value)))
  | .auth c => do
    let group ← field16 "group name" c.group.toUTF8
    let password ← field16 "group password" c.password.toUTF8
    .ok (header .auth ++ (group ++ password))

/-- A body behind its length. -/
def framed (body : ByteArray) : ByteArray := word32 body.size ++ body

/-- The frame of a packet: its body, if that is not too long, behind its length. -/
def Packet.frame (p : Packet) : Except Fault ByteArray := do
  let body ← p.body
  if body.size ≤ maxBody then .ok (framed body) else .error (.oversize body.size maxBody)

end ClusterRelay.Wire
