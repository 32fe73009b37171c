import ClusterRelay.Fault
import ClusterRelay.Text.Blank

/-!
# Endpoints

Where a cluster member listens: a host and a port. Settings name endpoints by target texts of four
shapes, `host`, `host:port`, `[host]` and `[host]:port`; blanks around them do not count. A text
without brackets and with two colons or more is a host as a whole, which lets a bare IPv6 address
stand without brackets. Where the port is left out the caller's own port takes its place.
-/

namespace ClusterRelay

structure Endpoint where
  host : String
  port : UInt16
deriving DecidableEq, Repr, Inhabited

namespace Endpoint

/-- Why a target text names no endpoint. -/
inductive Flaw where
  | emptyTarget
  | unclosedBracket
  | textAfterBracket
  | emptyHost
  | zeroPort
  | badPort
deriving DecidableEq, Repr

def Flaw.message : Flaw → String
  | emptyTarget => "empty target"
  | unclosedBracket => "missing closing bracket"
  | textAfterBracket => "unexpected characters after bracket"
  | emptyHost => "empty host"
  | zeroPort => "port must be non-zero"
  | badPort => "port is not a number in 1..=65535"

/-- The text before the first `mark` and the text after it. -/
def splitAt? (mark : Char) (cs : List Char) : Option (List Char × List Char) :=
  match cs.dropWhile (· ≠ mark) with
  | [] => none
  | _ :: after => some (cs.takeWhile (· ≠ mark), after)

/-- Takes a trimmed target text apart into its host and, if it has one, the text of its port. -/
def split (cs : List Char) : Except Flaw (List Char × Option (List Char)) :=
  match cs with
  | [] => .error .emptyTarget
  | '[' :: inner =>
    match splitAt? ']' inner with
    | none => .error .unclosedBracket
    | some (host, []) => .ok (host, none)
    | some (host, ':' :: port) => .ok (host, some port)
    | some _ => .error .textAfterBracket
  | cs =>
    if cs.count ':' = 1 then
      match splitAt? ':' cs with
      | some (host, port) => .ok (host, some port)
      | none => .ok (cs, none)
    else .ok (cs, none)

/-- The port that a text names: a number from 1 to 65535. -/
def portOf (cs : List Char) : Except Flaw UInt16 :=
  match Text.unsigned? 65535 cs with
  | none => .error .badPort
  | some 0 => .error .zeroPort
  | some n => .ok (UInt16.ofNat n)

def ofChars (cs : List Char) (defaultPort : UInt16) : Except Flaw Endpoint :=
  match split (Text.trimmed cs) with
  | .error flaw => .error flaw
  | .ok ([], _) => .error .emptyHost
  | .ok (host, none) => .ok ⟨String.ofList host, defaultPort⟩
  | .ok (host, some port) =>
    match portOf port with
    | .error flaw => .error flaw
    | .ok port => .ok ⟨String.ofList host, port⟩

/-- The endpoint that a target text names. A flawed text is quoted as it was given, untrimmed. -/
def ofTarget (target : String) (defaultPort : UInt16) : Except Fault Endpoint :=
  match ofChars target.toList defaultPort with
  | .ok endpoint => .ok endpoint
  | .error flaw => .error (.target target flaw.message)

/-- The notation of an endpoint; a host that holds a colon is put in brackets. -/
def written (e : Endpoint) : List Char :=
  let host := e.host.toList
  let port := ':' :: (Text.decimal e.port.toNat).toList
  if ':' ∈ host then '[' :: host ++ ']' :: port else host ++ port

instance : ToString Endpoint where
  toString e := String.ofList e.written

end Endpoint

end ClusterRelay
