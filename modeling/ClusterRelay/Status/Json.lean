import ClusterRelay.Json.Members
import ClusterRelay.Json.Printer
import ClusterRelay.Status.Basic

/-!
# Status in JSON

How a status is reported. The report of a node and the counters are plain records; the status of a
link is joined to its counters, whose members stand behind the link's own.
-/

namespace ClusterRelay

open Json (Document Value Members Decoder)

/-- The words for the states of a link. -/
def LinkState.words : List (String × LinkState) :=
  [("running", .running), ("stopped", .stopped)]

def LinkState.toWord : LinkState → String
  | .running => "running"
  | .stopped => "stopped"

/-- A text, or `null` in its place. -/
def textOrNull : Option String → Document
  | some s => .text s
  | none => .null

namespace Counters

def members (c : Counters) : List (String × Document) :=
  [("sent", .number c.sent.toNat),
    ("send_failures", .number c.sendFailures.toNat),
    ("connect_failures", .number c.connectFailures.toNat),
    ("connections_established", .number c.connectionsEstablished.toNat),
    ("faults", .number c.faults.toNat),
    ("retry_depth", .number c.retryDepth.toNat),
    ("in_flight", .bool c.inFlight),
    ("active_target", textOrNull c.activeTarget),
    ("last_fault", textOrNull c.lastFault)]

def document (c : Counters) : Document := .object c.members

/-- The counters that stand among the members of a record. -/
def ofMembers (ms : Members) : Option Counters := do
  let sent ← Members.required ms "sent" Decoder.uint64
  let sendFailures ← Members.required ms "send_failures" Decoder.uint64
  let connectFailures ← Members.required ms "connect_failures" Decoder.uint64
  let connectionsEstablished ← Members.required ms "connections_established" Decoder.uint64
  let faults ← Members.required ms "faults" Decoder.uint64
  let retryDepth ← Members.required ms "retry_depth" Decoder.uint64
  let inFlight ← Members.required ms "in_flight" Decoder.bool
  let activeTarget ← Members.optional ms "active_target" none (Decoder.nullable Decoder.text)
  let lastFault ← Members.optional ms "last_fault" none (Decoder.nullable Decoder.text)
  some { sent, sendFailures, connectFailures, connectionsEstablished, faults, retryDepth, inFlight,
         activeTarget, lastFault }

def ofValue : Decoder Counters
  | .object ms => ofMembers ms
  | .array items => do
    let (sent, items) ← Json.nextItem Decoder.uint64 items
    let (sendFailures, items) ← Json.nextItem Decoder.uint64 items
    let (connectFailures, items) ← Json.nextItem Decoder.uint64 items
    let (connectionsEstablished, items) ← Json.nextItem Decoder.uint64 items
    let (faults, items) ← Json.nextItem Decoder.uint64 items
    let (retryDepth, items) ← Json.nextItem Decoder.uint64 items
    let (inFlight, items) ← Json.nextItem Decoder.bool items
    let (activeTarget, items) ← Json.nextItem (Decoder.nullable Decoder.text) items
    let (lastFault, items) ← Json.nextItem (Decoder.nullable Decoder.text) items
    Json.ended { sent, sendFailures, connectFailures, connectionsEstablished, faults, retryDepth,
                 inFlight, activeTarget, lastFault } items
  | _ => none

end Counters

namespace LinkStatus

def document (s : LinkStatus) : Document :=
  .object ([("name", .text s.name),
    ("state", .text s.state.toWord),
    ("targets", .array (s.targets.map .text)),
    ("queue_depth", .number s.queueDepth.toNat),
    ("queue_capacity", .number s.queueCapacity.toNat),
    ("offered", .number s.offered.toNat),
    ("evicted", .number s.evicted.toNat)] ++ s.counters.members)

/-- The names of a link's own members, without those of its counters. -/
def ownNames : List String :=
  ["name", "state", "targets", "queue_depth", "queue_capacity", "offered", "evicted"]

/-- The status of a link that a JSON value describes; `depth` is the number of levels to which the
values that are not the link's own may be nested. -/
def ofValue (depth : Nat) : Decoder LinkStatus
  | .object ms => do
    let others := Members.others ms ownNames
    if Value.membersSound depth others then
      let name ← Members.required ms "name" Decoder.text
      let state ← Members.required ms "state" (Decoder.word LinkState.words)
      let targets ← Members.required ms "targets" (Decoder.list Decoder.text)
      let queueDepth ← Members.required ms "queue_depth" Decoder.uint64
      let queueCapacity ← Members.required ms "queue_capacity" Decoder.uint64
      let offered ← Members.required ms "offered" Decoder.uint64
      let evicted ← Members.required ms "evicted" Decoder.uint64
      let counters ← Counters.ofMembers others
      some { name, state, targets, queueDepth, queueCapacity, offered, evicted, counters }
    else none
  | _ => none

/-- The status of a link that is the whole of a JSON text. -/
def ofText (s : String) : Option LinkStatus := do
  ofValue (Json.maxDepth - 1) (← Value.ofText s)

end LinkStatus

namespace RelayStatus

def document (s : RelayStatus) : Document :=
  .object [("node_id", .text s.nodeId),
    ("replication_enabled", .bool s.replicationEnabled),
    ("link_count", .number s.linkCount.toNat),
    ("links", .array (s.links.map LinkStatus.document))]

/-- The links in the report of a node: they are the third level of the text. -/
def linksOfValue : Decoder (List LinkStatus) :=
  Decoder.list (LinkStatus.ofValue (Json.maxDepth - 3))

def ofValue : Decoder RelayStatus
  | .object ms => do
    let nodeId ← Members.required ms "node_id" Decoder.text
    let replicationEnabled ← Members.required ms "replication_enabled" Decoder.bool
    let linkCount ← Members.required ms "link_count" Decoder.uint64
    let links ← Members.required ms "links" linksOfValue
    some { nodeId, replicationEnabled, linkCount, links }
  | .array items => do
    let (nodeId, items) ← Json.nextItem Decoder.text items
    let (replicationEnabled, items) ← Json.nextItem Decoder.bool items
    let (linkCount, items) ← Json.nextItem Decoder.uint64 items
    let (links, items) ← Json.nextItem linksOfValue items
    Json.ended { nodeId, replicationEnabled, linkCount, links } items
  | _ => none

def ofText (s : String) : Option RelayStatus := do
  ofValue (← Value.ofText s)

end RelayStatus

end ClusterRelay
