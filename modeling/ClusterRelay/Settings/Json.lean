import ClusterRelay.Json.Members
import ClusterRelay.Json.Printer
import ClusterRelay.Settings.Basic

/-!
# Settings in JSON

How settings are written in a file. The settings of a node are a plain record; those of a link are
joined to its credentials, whose members stand among the link's own.
-/

namespace ClusterRelay

open Json (Document Value Members Decoder)

namespace Endpoint

def document (e : Endpoint) : Document :=
  .object [("host", .text e.host), ("port", .number e.port.toNat)]

def ofValue : Decoder Endpoint
  | .object ms => do
    let host ← Members.required ms "host" Decoder.text
    let port ← Members.required ms "port" Decoder.uint16
    some ⟨host, port⟩
  | .array items => do
    let (host, items) ← Json.nextItem Decoder.text items
    let (port, items) ← Json.nextItem Decoder.uint16 items
    Json.ended ⟨host, port⟩ items
  | _ => none

end Endpoint

namespace Credentials

def members (c : Credentials) : List (String × Document) :=
  [("group_name", .text c.group), ("password", .text c.password)]

def document (c : Credentials) : Document := .object c.members

/-- The credentials that stand among the members of a record. -/
def ofMembers (ms : Members) : Option Credentials := do
  let group ← Members.required ms "group_name" Decoder.text
  let password ← Members.required ms "password" Decoder.text
  some ⟨group, password⟩

end Credentials

/-- The words for the ways in which delays develop. -/
def Backoff.words : List (String × Backoff) :=
  [("fixed", .fixed), ("exponential", .exponential)]

def Backoff.toWord : Backoff → String
  | .fixed => "fixed"
  | .exponential => "exponential"

namespace LinkSettings

def document (l : LinkSettings) : Document :=
  .object ([("name", .text l.name)] ++ l.credentials.members ++
    [("targets", .array (l.targets.map .text)),
      ("connect_attempts", .number l.attempts.toNat),
      ("connect_delay_ms", .number l.delayMillis.toNat),
      ("backoff", .text l.backoff.toWord)])

/-- The names of a link's own members, without those of its credentials. -/
def ownNames : List String :=
  ["name", "targets", "connect_attempts", "connect_delay_ms", "backoff"]

/-- The settings of a link that a JSON value describes; `depth` is the number of levels to which
the values that are not the link's own may be nested. -/
def ofValue (depth : Nat) : Decoder LinkSettings
  | .object ms => do
    let others := Members.others ms ownNames
    if Value.membersSound depth others then
      let name ← Members.required ms "name" Decoder.text
      let targets ← Members.required ms "targets" (Decoder.list Decoder.text)
      let attempts ← Members.optional ms "connect_attempts" 10 Decoder.uint32
      let delayMillis ← Members.optional ms "connect_delay_ms" 1000 Decoder.uint64
      let backoff ← Members.optional ms "backoff" .fixed (Decoder.word Backoff.words)
      let credentials ← Credentials.ofMembers others
      some { name, credentials, targets, attempts, delayMillis, backoff }
    else none
  | _ => none

end LinkSettings

namespace NodeSettings

def document (n : NodeSettings) : Document :=
  .object [("node_id", .text n.nodeId),
    ("local_port", .number n.port.toNat),
    ("queue_capacity", .number n.capacity.toNat),
    ("links", .array (n.links.map LinkSettings.document))]

/-- The links in the settings of a node: they are the third level of the text. -/
def linksOfValue : Decoder (List LinkSettings) :=
  Decoder.list (LinkSettings.ofValue (Json.maxDepth - 3))

def ofValue : Decoder NodeSettings
  | .object ms => do
    let nodeId ← Members.required ms "node_id" Decoder.text
    let port ← Members.optional ms "local_port" defaultPort Decoder.uint16
    let capacity ← Members.optional ms "queue_capacity" defaultCapacity Decoder.uint64
    let links ← Members.optional ms "links" [] linksOfValue
    some { nodeId, port, capacity, links }
  | .array items => do
    let (nodeId, items) ← Json.nextItem Decoder.text items
    let (port, items) ← Json.nextItemOr defaultPort Decoder.uint16 items
    let (capacity, items) ← Json.nextItemOr defaultCapacity Decoder.uint64 items
    let (links, items) ← Json.nextItemOr [] linksOfValue items
    Json.ended { nodeId, port, capacity, links } items
  | _ => none

def ofText (s : String) : Option NodeSettings := do
  ofValue (← Value.ofText s)

end NodeSettings

end ClusterRelay
