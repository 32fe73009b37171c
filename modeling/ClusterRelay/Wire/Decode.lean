import ClusterRelay.Wire.Packet

/-!
# How packets are read

Reading is the exact inverse of writing: a body is taken apart field by field, each field has to be
there in full, texts have to be UTF-8, and nothing may be left over. The first thing that is amiss
is reported as a `Defect`.
-/

namespace ClusterRelay.Wire

/-- The parts of a frame, as the report of a defect names them. -/
inductive Part where
  | lengthPrefix
  | header
  | containerNameLength
  | containerName
  | keyLength
  | key
  | valueLength
  | value
  | groupNameLength
  | groupName
  | passwordLength
  | password
deriving DecidableEq, Repr

def Part.name : Part → String
  | lengthPrefix => "length prefix"
  | header => "header"
  | containerNameLength => "container name length"
  | containerName => "container name"
  | keyLength => "key length"
  | key => "key"
  | valueLength => "value length"
  | value => "value envelope"
  | groupNameLength => "group name length"
  | groupName => "group name"
  | passwordLength => "group password length"
  | password => "group password"

/-- What is amiss with bytes that are no packet. -/
inductive Defect where
  /-- The bytes end before this part is complete. -/
  | truncated (part : Part)
  /-- The version is another one. -/
  | unsupportedVersion (version : UInt8)
  /-- The tag stands for no kind of packet. -/
  | unknownTag (tag : UInt8)
  /-- This part has to be a text, and is not UTF-8. -/
  | notText (part : Part)
  /-- That many bytes follow the packet. -/
  | trailing (count : Nat)
  /-- The frame announces another length than it has. -/
  | wrongLength (announced present : Nat)
deriving DecidableEq, Repr

def Defect.message : Defect → String
  | truncated part => "truncated packet: missing " ++ part.name
  | unsupportedVersion v => "unsupported wire version " ++ Text.decimal v.toNat
  | unknownTag t => "unknown operation tag 0x" ++ Text.hexadecimal 2 t.toNat
  | notText part => part.name ++ " is not valid UTF-8"
  | trailing count => Text.decimal count ++ " trailing bytes after packet"
  | wrongLength announced present =>
    "length prefix says " ++ Text.decimal announced ++ " bytes, frame has " ++ Text.decimal present

def Defect.fault (d : Defect) : Fault := .decoding d.message

/-- The kind of packet that a byte stands for, or the defect of a byte that stands for none. -/
def Tag.ofByte (b : UInt8) : Except Defect Tag :=
  match Tag.ofByte? b with
  | some t => .ok t
  | none => .error (.unknownTag b)

/-- The first `n` bytes and the rest. -/
def take (n : Nat) (part : Part) (bytes : ByteArray) : Except Defect (ByteArray × ByteArray) :=
  if n ≤ bytes.size then .ok (bytes.extract 0 n, bytes.extract n bytes.size)
  else .error (.truncated part)

/-- A field of bytes: a length of `width` bytes, then the field itself. -/
def takeField (width : Nat) (lengthPart part : Part) (bytes : ByteArray) :
    Except Defect (ByteArray × ByteArray) := do
  let (length, rest) ← take width lengthPart bytes
  take (number length) part rest

/-- A field of text: a length of two bytes, then the text in UTF-8. -/
def takeText (lengthPart part : Part) (bytes : ByteArray) :
    Except Defect (String × ByteArray) := do
  let (raw, rest) ← takeField 2 lengthPart part bytes
  match String.fromUTF8? raw with
  | some text => .ok (text, rest)
  | none => .error (.notText part)

/-- A mutation at the head of a string of bytes. -/
def takeMutation (bytes : ByteArray) : Except Defect (Mutation × ByteArray) := do
  let (container, rest) ← takeText .containerNameLength .containerName bytes
  let (key, rest) ← takeField 4 .keyLength .key rest
  let (value, rest) ← takeField 4 .valueLength .value rest
  .ok (⟨container, key, value⟩, rest)

/-- Credentials at the head of a string of bytes. -/
def takeCredentials (bytes : ByteArray) : Except Defect (Credentials × ByteArray) := do
  let (group, rest) ← takeText .groupNameLength .groupName bytes
  let (password, rest) ← takeText .passwordLength .password rest
  .ok (⟨group, password⟩, rest)

def takeHeader (bytes : ByteArray) : Except Defect (Tag × ByteArray) := do
  let (head, rest) ← take 2 .header bytes
  if head.get! 0 ≠ version then .error (.unsupportedVersion (head.get! 0))
  else
    let tag ← Tag.ofByte (head.get! 1)
    .ok (tag, rest)

def takePacket (bytes : ByteArray) : Except Defect (Packet × ByteArray) := do
  let (tag, rest) ← takeHeader bytes
  match tag with
  | .merge =>
    let (mutation, rest) ← takeMutation rest
    .ok (.merge mutation, rest)
  | .auth =>
    let (credentials, rest) ← takeCredentials rest
    .ok (.auth credentials, rest)

/-- The packet that a body holds. -/
def Packet.ofBody (body : ByteArray) : Except Defect Packet := do
  let (packet, rest) ← takePacket body
  if rest.size = 0 then .ok packet else .error (.trailing rest.size)

def Packet.ofFrame (frame : ByteArray) : Except Defect Packet := do
  let (length, body) ← take 4 .lengthPrefix frame
  if number length = body.size then Packet.ofBody body
  else .error (.wrongLength (number length) body.size)

end ClusterRelay.Wire
