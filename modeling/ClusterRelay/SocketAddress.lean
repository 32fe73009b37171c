import ClusterRelay.Text.Numeral

/-!
# Socket addresses

The address that a node listens on is an IP address and a port. It is read in two passes: first as a
proper socket address, `a.b.c.d:port` or `[v6]:port`, and failing that as a host and a port around
the last colon, where the host may be an IPv6 address without brackets or an IPv4 address in the old
notation, with fewer than four parts or with parts in octal or hexadecimal. Host names are no
addresses.
-/

namespace ClusterRelay

inductive Ip where
  /-- Four numbers of eight bits. -/
  | v4 (octets : List Nat)
  /-- Eight numbers of sixteen bits. -/
  | v6 (groups : List Nat)
deriving DecidableEq, Repr

structure SocketAddress where
  ip : Ip
  port : Nat
deriving DecidableEq, Repr

namespace Ip

/-- A part of a dotted IPv4 address: at most three digits, no leading zero, at most 255. -/
def octet? (cs : List Char) : Option Nat :=
  if 1 < cs.length ∧ cs.head? = some '0' ∨ 3 < cs.length then none
  else (Text.digits? cs).bind fun n => if n ≤ 255 then some n else none

/-- The four parts of a dotted IPv4 address. -/
def octets? (cs : List Char) : Option (List Nat) :=
  let parts := cs.splitOn '.'
  if parts.length = 4 then parts.mapM octet? else none

/-- The number written by hexadecimal digits, at least one. -/
def hexNumber? (cs : List Char) : Option Nat :=
  if cs = [] then none
  else (cs.mapM Text.hexValue?).map fun ds => ds.foldl (fun n d => 16 * n + d) 0

/-- A group of an IPv6 address: one to four hexadecimal digits. -/
def group? (cs : List Char) : Option Nat :=
  if 4 < cs.length then none else hexNumber? cs

/-- The groups between colons; the last part may be a dotted IPv4 address, which makes two. -/
def groups? : List (List Char) → Option (List Nat)
  | [] => some []
  | [last] =>
    match group? last with
    | some g => some [g]
    | none =>
      match octets? last with
      | some [a, b, c, d] => some [a * 256 + b, c * 256 + d]
      | _ => none
  | part :: parts => do
    let g ← group? part
    let gs ← groups? parts
    some (g :: gs)

/-- The groups of one side of a double colon. -/
def side? (cs : List Char) : Option (List Nat) :=
  if cs = [] then some [] else groups? (cs.splitOn ':')

/-- The text before the first double colon and the text after it. -/
def splitDouble? : List Char → Option (List Char × List Char)
  | ':' :: ':' :: rest => some ([], rest)
  | c :: rest => (splitDouble? rest).map fun (before, after) => (c :: before, after)
  | [] => none

/-- The groups of an IPv6 address. A double colon stands for one group of zeros or more. -/
def v6Groups? (cs : List Char) : Option (List Nat) :=
  match splitDouble? cs with
  | none =>
    match side? cs with
    | some gs => if gs.length = 8 then some gs else none
    | none => none
  | some (before, after) =>
    if '.' ∈ before then none
    else
      match side? before, side? after with
      | some front, some back =>
        if front.length + back.length < 8 then
          some (front ++ List.replicate (8 - front.length - back.length) 0 ++ back)
        else none
      | _, _ => none

/-- The groups of an IPv6 address that may have a scope, a number of thirty-two bits behind a
percent sign. A scope makes no difference here. -/
def scopedV6Groups? (cs : List Char) : Option (List Nat) :=
  match cs.splitOn '%' with
  | [address] => v6Groups? address
  | [address, scope] =>
    match Text.digits? scope with
    | some n => if n < UInt32.size then v6Groups? address else none
    | none => none
  | _ => none

/-- A part of an IPv4 address in the old notation. -/
def oldPart? : List Char → Option Nat
  | '0' :: 'x' :: cs => hexNumber? cs
  | '0' :: 'X' :: cs => hexNumber? cs
  | '0' :: cs =>
    if cs.all fun c => '0' ≤ c ∧ c ≤ '7' then
      some (cs.foldl (fun n c => 8 * n + Text.digitValue c) 0)
    else none
  | cs => Text.digits? cs

/-- An IPv4 address in the old notation: the last part fills all bytes that are left. -/
def oldV4? (cs : List Char) : Option (List Nat) := do
  let parts ← (cs.splitOn '.').mapM oldPart?
  match parts with
  | [a] => if a < 4294967296 then some (bytes a) else none
  | [a, b] => if a < 256 ∧ b < 16777216 then some (bytes (a * 16777216 + b)) else none
  | [a, b, c] =>
    if a < 256 ∧ b < 256 ∧ c < 65536 then some (bytes (a * 16777216 + b * 65536 + c)) else none
  | [a, b, c, d] => if a < 256 ∧ b < 256 ∧ c < 256 ∧ d < 256 then some [a, b, c, d] else none
  | _ => none
where
  bytes (n : Nat) : List Nat := [n / 16777216, n / 65536 % 256, n / 256 % 256, n % 256]

/-- The place and length of the first of the longest runs of zeros, given the run that ends here
and the best one before. -/
def longestZeros : List Nat → Nat → Nat × Nat → Nat × Nat → Nat × Nat
  | [], _, current, best => if best.2 < current.2 then current else best
  | g :: gs, place, current, best =>
    if g = 0 then
      longestZeros gs (place + 1) (if current.2 = 0 then (place, 1) else (current.1, current.2 + 1))
        best
    else
      longestZeros gs (place + 1) (0, 0) (if best.2 < current.2 then current else best)

def joined (gs : List Nat) : String := ":".intercalate (gs.map (Text.hexadecimal 1))

def dotted (octets : List Nat) : String := ".".intercalate (octets.map Text.decimal)

/-- The notation of an IP address. In IPv6 the longest run of two zeros or more is left out, and an
IPv4 address that is mapped into IPv6 stays dotted. -/
def written : Ip → String
  | .v4 octets => dotted octets
  | .v6 [0, 0, 0, 0, 0, 0xffff, a, b] =>
    "::ffff:" ++ dotted [a / 256, a % 256, b / 256, b % 256]
  | .v6 groups =>
    let (place, length) := longestZeros groups 0 (0, 0) (0, 0)
    if length < 2 then joined groups
    else joined (groups.take place) ++ "::" ++ joined (groups.drop (place + length))

/-- An IPv4 address that a node can listen on: all of its addresses, the node itself, a multicast
group, or everybody. -/
def canListenV4 (octets : List Nat) : Bool :=
  octets = [0, 0, 0, 0] || octets = [255, 255, 255, 255] ||
    match octets with
    | o :: _ => o = 127 || (224 ≤ o && o < 240)
    | [] => false

/-- An address that a node can listen on. In IPv6, beside the mapped addresses, only the node itself
and all of its addresses are among them. -/
def canListen : Ip → Bool
  | .v4 octets => canListenV4 octets
  | .v6 [0, 0, 0, 0, 0, 0xffff, a, b] => canListenV4 [a / 256, a % 256, b / 256, b % 256]
  | .v6 groups => groups.take 7 = [0, 0, 0, 0, 0, 0, 0] && groups.getLastD 0 ≤ 1

end Ip

namespace SocketAddress

/-- The text before the last colon and the text after it. -/
def splitLast? (cs : List Char) : Option (List Char × List Char) :=
  let tail := (cs.reverse.takeWhile (· ≠ ':')).reverse
  match cs.take (cs.length - tail.length) with
  | [] => none
  | front => some (front.dropLast, tail)

/-- A port in a proper socket address: digits alone. -/
def port? (cs : List Char) : Option Nat :=
  (Text.digits? cs).bind fun n => if n ≤ 65535 then some n else none

/-- A proper socket address. -/
def proper? (cs : List Char) : Option SocketAddress := do
  let (host, port) ← splitLast? cs
  let port ← port? port
  match host with
  | '[' :: inner =>
    if inner.getLast? = some ']' then
      let groups ← Ip.scopedV6Groups? inner.dropLast
      some ⟨.v6 groups, port⟩
    else none
  | host =>
    let octets ← Ip.octets? host
    some ⟨.v4 octets, port⟩

/-- A host in digits and a port, which may have a plus sign. -/
def loose? (cs : List Char) : Option SocketAddress := do
  let (host, port) ← splitLast? cs
  let port ← Text.unsigned? 65535 port
  match Ip.oldV4? host with
  | some octets => some ⟨.v4 octets, port⟩
  | none =>
    let groups ← Ip.scopedV6Groups? host
    some ⟨.v6 groups, port⟩

/-- The socket address that a text names. -/
def ofText (s : String) : Option SocketAddress :=
  (proper? s.toList).or (loose? s.toList)

end SocketAddress

/-- The address on which a node comes to listen, given a text. -/
def listenOn (s : String) : Option SocketAddress :=
  (SocketAddress.ofText s).filter (·.ip.canListen)

end ClusterRelay
