import ClusterRelay.Link

/-!
# The relay

All links of a node. Every mutation that the node commits is offered to each of them. The links
share nothing, so what happens to one of them does not touch the others.
-/

namespace ClusterRelay

/-- The links of a node, in the order of its settings. -/
structure Relay where
  settings : NodeSettings
  links : List Link

/-- What can happen to a relay. -/
inductive RelayEvent where
  | commit (mutation : Mutation)
  | offerTo (name : String) (mutation : Mutation)
  | stopLink (name : String)
  | stop
  /-- Something else happens to the forwarder of the link at this place. -/
  | forwarder (place : Nat) (event : Event)

namespace Relay

/-- The links that settings ask for, all of them or none. -/
def linksOf (n : NodeSettings) : List LinkSettings → Outcome (List Link)
  | [] => .done []
  | l :: ls => do
    let link ← Link.ofSettings l n.port n.capacity.toNat
    let links ← linksOf n ls
    .done (link :: links)

/-- Checks the settings, makes every link, and starts them. -/
def start (n : NodeSettings) : Outcome (Relay × List LogLine) := do
  .ofExcept n.check
  let links ← linksOf n n.links
  .done (⟨n, links.map fun l => (l.onForwarder .start).1⟩,
    links.map Link.announcement ++ [.info "WAN replication started"])

def link? (r : Relay) (name : String) : Option Link := r.links.find? (·.name = name)

/-- Every link goes through the same operation, and the notes follow in the order of the links. -/
def onLinks (f : Link → Link × List Note) : List Link → List Link × List Note
  | [] => ([], [])
  | l :: ls =>
    let (l, notes) := f l
    let (ls, others) := onLinks f ls
    (l :: ls, notes ++ others)

/-- The first link with a name goes through an operation. -/
def onNamed (name : String) (f : Link → Link × List Note) : List Link → List Link × List Note
  | [] => ([], [])
  | l :: ls =>
    if l.name = name then
      let (l, notes) := f l
      (l :: ls, notes)
    else
      let (ls, notes) := onNamed name f ls
      (l :: ls, notes)

/-- The link at a place goes through an operation. -/
def onPlace (f : Link → Link × List Note) : Nat → List Link → List Link × List Note
  | _, [] => ([], [])
  | 0, l :: ls =>
    let (l, notes) := f l
    (l :: ls, notes)
  | n + 1, l :: ls =>
    let (ls, notes) := onPlace f n ls
    (l :: ls, notes)

/-- The relay with other links, and notes beside it. -/
def withLinks (r : Relay) (result : List Link × List Note) : Relay × List Note :=
  ({ r with links := result.1 }, result.2)

def commit (r : Relay) (m : Mutation) : Relay × List Note :=
  r.withLinks (onLinks (·.offer m) r.links)

def stop (r : Relay) : Relay × List Note :=
  r.withLinks (onLinks Link.stop r.links)

def step (r : Relay) : RelayEvent → Relay × List Note
  | .commit m => r.commit m
  | .offerTo name m => r.withLinks (onNamed name (·.offer m) r.links)
  | .stopLink name => r.withLinks (onNamed name Link.stop r.links)
  | .stop => r.stop
  | .forwarder place e => r.withLinks (onPlace (·.onForwarder e) place r.links)

def run (r : Relay) : List RelayEvent → Relay × List Note
  | [] => (r, [])
  | e :: es =>
    let (r, notes) := r.step e
    let (r, others) := r.run es
    (r, notes ++ others)

/-- A link is joined, and its fault logged if it has one to tell. -/
def joinLink (l : Link) : Link × List Note :=
  match l.join with
  | (.ok (), l) => (l, [])
  | (.error fault, l) => (l, [.logged (l.say .error fault.message)])

def join (r : Relay) : Relay × List Note :=
  r.withLinks (onLinks joinLink r.links)

/-- The link with a name is joined; without such a link there is nothing to tell. -/
def joinNamed (r : Relay) (name : String) : Option (Except Fault Unit) × Relay :=
  match r.link? name with
  | none => (none, r)
  | some l =>
    (some l.join.1, (r.withLinks (onNamed name (fun l => (l.join.2, [])) r.links)).1)

/-- No link has anything queued, in flight or waiting to be retried. -/
def isIdle (r : Relay) : Bool := r.links.all Link.isIdle

def status (r : Relay) : RelayStatus where
  nodeId := r.settings.nodeId
  replicationEnabled := !r.links.isEmpty
  linkCount := UInt64.ofNat r.links.length
  links := r.links.map Link.status

end Relay

end ClusterRelay
