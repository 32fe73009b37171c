import ClusterRelay.Credentials
import ClusterRelay.Endpoint
import ClusterRelay.Pacing

/-!
# Settings

What a node has to know before it can replicate: who it is, how much it may hold back for each
link, and the links themselves, one for each peer cluster. `NodeSettings.check` decides whether
settings can be put to use; of several violations it reports the first, taking the capacity before
the links, the links in order, and within a link the name before the targets.
-/

namespace ClusterRelay

structure LinkSettings where
  name : String
  credentials : Credentials
  targets : List String
  attempts : UInt32 := 10
  delayMillis : UInt64 := 1000
  backoff : Backoff := .fixed
deriving DecidableEq, Repr, Inhabited

/-- The port on which a node listens if its settings name none. -/
def defaultPort : UInt16 := 5701

/-- The number of mutations that a link holds back if its settings name none. -/
def defaultCapacity : UInt64 := 100000

structure NodeSettings where
  nodeId : String
  port : UInt16 := defaultPort
  capacity : UInt64 := defaultCapacity
  links : List LinkSettings := []
deriving DecidableEq, Repr, Inhabited

/-- The schedule that the link's settings ask for. -/
def LinkSettings.schedule (l : LinkSettings) : Schedule :=
  Schedule.ofSettings l.attempts l.delayMillis l.backoff

/-- The text for diagnostics of a link's settings. It is the same for all passwords. -/
def LinkSettings.diagnostic (l : LinkSettings) : String :=
  "LinkConfig \x7b name: " ++ Text.quoted l.name ++
    ", credentials: " ++ l.credentials.diagnostic ++
    ", targets: " ++ Text.quotedList l.targets ++
    ", connect_attempts: " ++ Text.decimal l.attempts.toNat ++
    ", connect_delay_ms: " ++ Text.decimal l.delayMillis.toNat ++
    ", backoff: " ++ (match l.backoff with | .fixed => "Fixed" | .exponential => "Exponential") ++
    " \x7d"

/-- Why settings cannot be put to use. -/
inductive Violation where
  | zeroCapacity
  | emptyName
  | repeatedName (name : String)
  | noTargets (name : String)
  | zeroAttempts (name : String)
  | badTarget (fault : Fault)
deriving DecidableEq, Repr

def Violation.fault : Violation → Fault
  | zeroCapacity => .settings "queue_capacity must be at least 1"
  | emptyName => .settings "link name must not be empty"
  | repeatedName name => .settings ("duplicate link name: " ++ name)
  | noTargets name => .settings ("link " ++ name ++ " has no targets")
  | zeroAttempts name => .settings ("link " ++ name ++ " connect_attempts must be at least 1")
  | badTarget fault => fault

/-- The fault of the first target that names no endpoint. -/
def firstBadTarget (port : UInt16) : List String → Option Fault
  | [] => none
  | target :: targets =>
    match Endpoint.ofTarget target port with
    | .error fault => some fault
    | .ok _ => firstBadTarget port targets

namespace LinkSettings

/-- The first violation in a link's settings, `earlier` being the names of the links before it. -/
def violation? (l : LinkSettings) (port : UInt16) (earlier : List String) : Option Violation :=
  if l.name = "" then some .emptyName
  else if l.name ∈ earlier then some (.repeatedName l.name)
  else if l.targets = [] then some (.noTargets l.name)
  else if l.attempts = 0 then some (.zeroAttempts l.name)
  else (firstBadTarget port l.targets).map .badTarget

end LinkSettings

/-- The first violation in a list of links, `earlier` being the names of the links before them. -/
def linksViolation? (port : UInt16) (earlier : List String) : List LinkSettings → Option Violation
  | [] => none
  | l :: ls =>
    match l.violation? port earlier with
    | some v => some v
    | none => linksViolation? port (l.name :: earlier) ls

namespace NodeSettings

/-- The first violation in the settings of a node. -/
def violation? (n : NodeSettings) : Option Violation :=
  if n.capacity = 0 then some .zeroCapacity else linksViolation? n.port [] n.links

/-- Refuses settings that cannot be put to use. -/
def check (n : NodeSettings) : Except Fault Unit :=
  match n.violation? with
  | some v => .error v.fault
  | none => .ok ()

end NodeSettings

end ClusterRelay
