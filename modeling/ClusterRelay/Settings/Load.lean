import ClusterRelay.Log
import ClusterRelay.Settings.Json

/-!
# Where settings come from

A node looks for a settings file first. If there is none, or it cannot be used, the settings are put
together from variables of the environment: the node's own, and at most one link.

A variable whose value is not UTF-8 counts as unset. A number that cannot be read is reported and
then counts as unset too.
-/

namespace ClusterRelay

/-- The variables of the environment with their raw values. -/
structure Environment where
  bindings : List (String × ByteArray)

namespace Environment

/-- The value of a variable that is set to a text. -/
def get? (env : Environment) (name : String) : Option String :=
  (env.bindings.lookup name).bind String.fromUTF8?

/-- The value of a variable, or what stands in for it. -/
def getOr (env : Environment) (name fallback : String) : String :=
  (env.get? name).getD fallback

/-- The number that a variable is set to, if it is at most `bound`, and what is to be said of a
value that is no such number. -/
def number? (env : Environment) (name : String) (bound : Nat) : Option Nat × List LogLine :=
  match env.get? name with
  | none => (none, [])
  | some raw =>
    match Text.unsigned? bound raw.toList with
    | some n => (some n, [])
    | none => (none, [.warn ("Ignoring invalid " ++ name ++ "=" ++ Text.quoted raw)])

end Environment

/-- The targets named in a text, separated by commas; blanks around them do not count. -/
def targetsOf (raw : String) : List String :=
  ((raw.toList.splitOn ',').map Text.trimmed).filterMap fun cs =>
    if cs = [] then none else some (String.ofList cs)

/-- The one link that the environment may ask for. -/
def LinkSettings.ofEnvironment (env : Environment) : List LinkSettings :=
  match targetsOf (env.getOr "GRIDWAN_TARGETS" "") with
  | [] => []
  | targets =>
    let group := env.getOr "GRIDWAN_GROUP_NAME" "dev"
    [{ name := env.getOr "GRIDWAN_LINK_NAME" group
       credentials := ⟨group, env.getOr "GRIDWAN_GROUP_PASSWORD" "dev-pass"⟩
       targets }]

namespace NodeSettings

/-- The settings that the environment asks for; a node without a name takes the host's. -/
def ofEnvironment (env : Environment) (hostName : String) : NodeSettings × List LogLine :=
  let (port, portLines) := env.number? "GRIDWAN_PORT" 65535
  let (capacity, capacityLines) := env.number? "GRIDWAN_QUEUE_CAPACITY" (UInt64.size - 1)
  ({ nodeId := env.getOr "GRIDWAN_NODE_ID" hostName
     port := (port.map UInt16.ofNat).getD defaultPort
     capacity := (capacity.map UInt64.ofNat).getD defaultCapacity
     links := LinkSettings.ofEnvironment env }, portLines ++ capacityLines)

/-- What is found in the place of the settings file. -/
inductive Source where
  | absent
  | unreadable
  | file (bytes : ByteArray)

/-- The settings that a source describes, or what is to be said of a source of no use. -/
def ofSource : Source → Except (List LogLine) NodeSettings
  | .absent => .error []
  | .unreadable =>
    .error [.error ("Failed to read wan.json: " ++ LogLine.unstated ++ ", using environment")]
  | .file bytes =>
    match String.fromUTF8? bytes with
    | none =>
      .error [.error ("Failed to read wan.json: " ++ LogLine.unstated ++ ", using environment")]
    | some text =>
      match ofText text with
      | some settings => .ok settings
      | none =>
        .error [.error ("Failed to parse wan.json: " ++ LogLine.unstated ++ ", using environment")]

/-- The settings that a node starts from. -/
def load (source : Source) (env : Environment) (hostName : String) : NodeSettings × List LogLine :=
  match ofSource source with
  | .ok settings =>
    (settings, [.info ("Loaded WAN config: node_id=" ++ settings.nodeId ++ ", links=" ++
      Text.decimal settings.links.length)])
  | .error lines =>
    let (settings, envLines) := ofEnvironment env hostName
    let standalone : List LogLine :=
      if settings.links = [] then
        [.info ("No WAN targets configured, running standalone: node_id=" ++ settings.nodeId)]
      else []
    (settings, lines ++ envLines ++ standalone)

end NodeSettings

end ClusterRelay
