import ClusterRelay.CommandLine.Forwarding
import ClusterRelay.CommandLine.Reception
import ClusterRelay.CommandLine.Request
import ClusterRelay.Switchboard
import Std.Async.DNS
import Std.Async.Signal
import Std.Async.TCP

/-!
# The program

The outer layer: files, streams, sockets, signals and the clock. All that it does is to turn what
happens outside into events of the machines of the library, and their answers into effects. The
program goes round and round; in each round it looks what has happened outside, lets the links
work, and sleeps for a moment.
-/

namespace ClusterRelay.Program

open CommandLine
open Std.Async (Async AsyncTask)
open Std.Async.TCP.Socket (Client Server)

/-! ## Surroundings -/

/-- Writes lines to the log; what is only of use for finding errors is left out. -/
def say (lines : List LogLine) : IO Unit := do
  for line in lines do
    if line.level ≠ .debug then IO.eprintln line.shown

def leave (exit : Exit) : IO UInt32 := do
  IO.print exit.output
  (← IO.getStdout).flush
  if let some complaint := exit.complaint? then IO.eprintln complaint.shown
  return exit.code

def variableNames : List String :=
  ["GRIDWAN_BIND_ADDR", "GRIDWAN_DATA_DIR", "GRIDWAN_GROUP_NAME", "GRIDWAN_GROUP_PASSWORD",
    "GRIDWAN_LINK_NAME", "GRIDWAN_NODE_ID", "GRIDWAN_PORT", "GRIDWAN_QUEUE_CAPACITY",
    "GRIDWAN_TARGETS"]

def environment : IO Environment := do
  let bindings ← variableNames.filterMapM fun name => do
    return (← IO.getEnv name).map fun value => (name, value.toUTF8)
  return ⟨bindings⟩

/-- What is found in the place of the settings file of a directory. -/
def sourceIn (directory : String) : IO NodeSettings.Source := do
  try
    return .file (← IO.FS.readBinFile (directory / "wan.json"))
  catch
    | .noFileOrDirectory .. => return .absent
    | _ => return .unreadable

/-- The name of the host. -/
def hostName : IO String := do
  try
    return String.ofList (Text.trimmed (← IO.FS.readFile "/proc/sys/kernel/hostname").toList)
  catch _ => return "localhost"

/-- What became of a task, if it has finished. -/
def outcome? {α : Type} (task : AsyncTask α) : BaseIO (Option (Except IO.Error α)) := do
  let task : Task (Except IO.Error α) := task
  if ← IO.hasFinished task then return some (← IO.wait task) else return none

def interruption : IO (AsyncTask Int) := do
  let waiter ← Std.Async.Signal.Waiter.mk .sigint false
  waiter.wait

/-- The length of a round in which nothing happens, in milliseconds. -/
def pause : UInt32 := 5

/-! ## Sockets of links -/

/-- The socket of a connection, with the read and the write that are under way. -/
structure Wire where
  client : Client
  reading : Option (AsyncTask (Option ByteArray))
  writing : Option (Nat × AsyncTask Unit) := none

/-- The connections of the program, and its attempts to connect. The socket of a connection has the
connection's place. -/
structure Sockets where
  board : Switchboard := {}
  attempts : List (Endpoint × Credentials × AsyncTask Client) := []
  wires : Array (Option Wire) := #[]

def socketAddress (a : SocketAddress) : Std.Net.SocketAddress :=
  let port := UInt16.ofNat a.port
  match a.ip with
  | .v4 octets =>
    let octet (i : Nat) := UInt8.ofNat (octets.getD i 0)
    .v4 ⟨.ofParts (octet 0) (octet 1) (octet 2) (octet 3), port⟩
  | .v6 groups =>
    let group (i : Nat) := UInt16.ofNat (groups.getD i 0)
    .v6 ⟨.ofParts (group 0) (group 1) (group 2) (group 3) (group 4) (group 5) (group 6) (group 7),
      port⟩

/-- The address of a host that the operating system knows by name. -/
def namedAddress (port : UInt16) : Std.Net.IPAddr → Std.Net.SocketAddress
  | .v4 ip => .v4 ⟨ip, port⟩
  | .v6 ip => .v6 ⟨ip, port⟩

def addressOf (e : Endpoint) : Async Std.Net.SocketAddress := do
  if let some a := SocketAddress.ofText (toString e) then return socketAddress a
  let found ← Std.Async.DNS.getAddrInfo e.host ""
  match found.toList with
  | ip :: _ => return namedAddress e.port ip
  | [] => throw (IO.userError "unknown host")

def connect (e : Endpoint) : Async Client := do
  let address ← addressOf e
  let client ← Client.mk
  client.connect address
  return client

/-- Asks for what a peer sends next. -/
def listenTo (client : Client) : IO (AsyncTask (Option ByteArray)) :=
  Async.toIO (client.recv? 65536)

namespace Sockets

/-- Something happens to a connection. -/
def happen (s : Sockets) (conn : ConnId) (e : OutletEvent) : Sockets :=
  { s with board := s.board.onOutlet conn (·.step e) }

def answer (s : Sockets) : Call → IO (Answers × Sockets)
  | .dial e credentials => do
    let (conn, board) := s.board.dial e
    let s := { s with board }
    if conn.isSome || s.attempts.any (·.1 = e) then return ({ dial := .done conn }, s)
    let attempt ← Async.toIO (connect e)
    return ({}, { s with attempts := (e, credentials, attempt) :: s.attempts })
  | .probe conn => return ({ probe := .ok (s.board.isLive conn) }, s)
  | .submit conn frame => return ({}, s.happen conn (.submit frame))
  | .release conn =>
    if s.board.isLive conn then return ({}, s)
    else return ({}, { s.happen conn .letGo with wires := s.wires.setIfInBounds conn none })

/-- Looks what became of the attempts to connect. -/
def settle (s : Sockets) : IO Sockets := do
  let attempts := s.attempts
  let mut s := { s with attempts := [] }
  for (e, credentials, attempt) in attempts do
    match ← outcome? attempt with
    | none => s := { s with attempts := (e, credentials, attempt) :: s.attempts }
    | some (.error _) => s := { s with board := s.board.connectFailed e }
    | some (.ok client) =>
      let (made, board) := s.board.connected e credentials
      s := { s with board }
      if made.isOk then
        let wire : Wire := { client, reading := some (← listenTo client) }
        s := { s with wires := s.wires.push (some wire) }
  return s

/-- Looks what became of the read that is under way on a connection. -/
def hear (s : Sockets) (conn : ConnId) (wire : Wire) : IO (Sockets × Wire) := do
  let some reading := wire.reading | return (s, wire)
  match ← outcome? reading with
  | none => return (s, wire)
  | some (.ok (some bytes)) =>
    return (s.happen conn (.hear bytes), { wire with reading := some (← listenTo wire.client) })
  | some _ => return (s.happen conn .loseReader, { wire with reading := none })

/-- Looks what became of the write that is under way on a connection. -/
def written (s : Sockets) (conn : ConnId) (wire : Wire) : IO (Sockets × Wire) := do
  let some (count, writing) := wire.writing | return (s, wire)
  match ← outcome? writing with
  | none => return (s, wire)
  | some (.ok ()) => return (s.happen conn (.write count), { wire with writing := none })
  | some (.error _) => return (s.happen conn (.failWrite 0), { wire with writing := none })

/-- Begins the next write on a connection, if none is under way and there is something to write. -/
def write (s : Sockets) (conn : ConnId) (wire : Wire) : IO (Sockets × Wire) := do
  if wire.writing.isSome then return (s, wire)
  let s := s.happen conn (.write 0)
  match (s.board.outlets[conn]?).map Outlet.writer with
  | some (.writing left) =>
    let writing ← Async.toIO (wire.client.send left)
    return (s, { wire with writing := some (left.size, writing) })
  | _ => return (s, wire)

/-- One round of the network. -/
def attend (s : Sockets) : IO Sockets := do
  let mut s ← s.settle
  for conn in [0:s.wires.size] do
    if let some (some wire) := s.wires[conn]? then
      let (s₁, wire) ← s.hear conn wire
      let (s₂, wire) ← s₁.written conn wire
      let (s₃, wire) ← s₂.write conn wire
      s := { s₃ with wires := s₃.wires.setIfInBounds conn (some wire) }
  return s

end Sockets

/-! ## Forwarding -/

structure Sender where
  forwarding : Forwarding
  sockets : Sockets := {}
  reader : LineReader := {}
  /-- The time of the next look at the links. -/
  nextLook : Nat := 0

namespace Sender

/-- Something happens to the command. -/
def happen (s : Sender) (e : ForwardingEvent) : IO Sender := do
  let (forwarding, remarks) := s.forwarding.step e
  say (remarks.filterMap Remark.line?)
  return { s with forwarding }

def stepsPerRound : Nat := 1000

/-- The link at a place works for so many steps at most. -/
def work (place : Nat) : Nat → Sender → IO Sender
  | 0, s => return s
  | fuel + 1, s => do
    let some l := s.forwarding.relay.links[place]? | return s
    if !l.forwarder.ready then return s
    let (answers, sockets) ← match l.forwarder.call? with
      | some call => s.sockets.answer call
      | none => pure ({}, s.sockets)
    work place fuel (← { s with sockets }.happen (.work place answers))

/-- A chunk of input arrives; an empty one is the end of the input. -/
def takeIn (s : Sender) (chunk : ByteArray) : IO Sender := do
  let (lines, reader) := if chunk.isEmpty then (s.reader.finish, {}) else s.reader.feed chunk
  let mut s := { s with reader }
  for line in lines do s ← s.happen (.line line)
  if chunk.isEmpty then s.happen .endOfInput else return s

/-- One round, at a time, with the chunks of input that have arrived. -/
def round (s : Sender) (now : Nat) (chunks : Array ByteArray) (interrupted : Bool) :
    IO Sender := do
  let mut s ← s.happen (.elapse now)
  for chunk in chunks do s ← s.takeIn chunk
  if interrupted then s ← s.happen .interrupt
  for place in [0:s.forwarding.relay.links.length] do s ← s.work place stepsPerRound
  s := { s with sockets := ← s.sockets.attend }
  if s.nextLook ≤ now then
    s ← { s with nextLook := now + Forwarding.lookEvery }.happen .look
  s.happen .conclude

end Sender

/-- Reads the input up to the end of a line. It is asked for bytes one by one: asked for more, it
would make everybody wait until there are as many. -/
partial def readLine (input : IO.FS.Stream) (line : ByteArray) : IO ByteArray := do
  let next ← input.read 1
  let line := line ++ next
  if next.isEmpty || next[0]? = some 10 then return line else readLine input line

partial def readInput (input : IO.FS.Stream) (chunks : IO.Ref (Array ByteArray)) : IO Unit := do
  let line ← readLine input ByteArray.empty
  chunks.modify (·.push line)
  unless line.isEmpty do readInput input chunks

/-- Round after round, up to the end of the command. -/
partial def Sender.rounds (s : Sender) (start : Nat) (chunks : IO.Ref (Array ByteArray))
    (interrupted : AsyncTask Int) : IO UInt32 := do
  let s ← s.round ((← IO.monoMsNow) - start) (← chunks.swap #[]) (← outcome? interrupted).isSome
  match s.forwarding.exit? with
  | some exit => leave exit
  | none =>
    IO.sleep pause
    s.rounds start chunks interrupted

def forward (env : Environment) (directory : String) (drainSeconds : UInt64) : IO UInt32 := do
  let (settings, lines) := NodeSettings.load (← sourceIn directory) env (← hostName)
  say lines
  let (result, remarks) := Forwarding.start settings drainSeconds.toNat
  say (remarks.filterMap Remark.line?)
  match result with
  | .error exit => leave exit
  | .ok forwarding =>
    let interrupted ← interruption
    let chunks ← IO.mkRef #[]
    let _ ← IO.asTask (readInput (← IO.getStdin) chunks) .dedicated
    Sender.rounds { forwarding } (← IO.monoMsNow) chunks interrupted

/-! ## Receiving -/

/-- A peer and its session; what is not read yet is on its way. -/
structure Visitor where
  client : Client
  session : Ingest.Session
  reading : AsyncTask (Option ByteArray)

def shownBytes (bytes : ByteArray) : String := (String.fromUTF8? bytes).getD "<binary>"

def mergeLine (a : Ingest.Applied) : LogLine :=
  .info ("[WAN-RX] merge group=" ++ Text.quoted a.group ++ " container=" ++
    Text.quoted a.mutation.container ++ " key=" ++ shownBytes a.mutation.key ++ " value=" ++
    shownBytes a.mutation.value)

/-- The line about a peer that is gone. -/
def farewell (s : Ingest.Session) (ending : Wire.StreamEnd) : LogLine :=
  match s.result ending with
  | .ok n => .info ("[WAN-RX] peer disconnected after " ++ Text.decimal n.toNat ++ " updates")
  | .error fault => .warn ("[WAN-RX] dropping peer: " ++ fault.message)

/-- Looks whether a peer has sent something. A peer is gone when its stream has ended or its session
was refused. -/
def Visitor.hear (v : Visitor) : IO (Option Visitor) := do
  match ← outcome? v.reading with
  | none => return some v
  | some (.ok (some chunk)) =>
    let session := v.session.feed chunk
    say (session.lines.extract v.session.lines.size session.lines.size).toList
    say ((session.applied.extract v.session.applied.size session.applied.size).map mergeLine).toList
    match session.stage with
    | .refused _ =>
      say [farewell session .finished]
      return none
    | _ => return some { v with session, reading := ← listenTo v.client }
  | some (.ok none) =>
    say [farewell v.session .finished]
    return none
  | some (.error e) =>
    say [farewell v.session (.failed (toString e))]
    return none

/-- Round after round, up to the end of the command. -/
partial def serve (r : Reception) (server : Server) (next : AsyncTask Client)
    (visitors : List Visitor) (interrupted : AsyncTask Int) : IO UInt32 := do
  let mut visitors := visitors
  let mut next := next
  match ← outcome? next with
  | none => pure ()
  | some result =>
    next ← Async.toIO server.accept
    match result with
    | .ok client =>
      visitors := { client, session := r.greet, reading := ← listenTo client } :: visitors
    | .error _ => say [.warn "[WAN-RX] accept failed"]
  visitors ← visitors.filterMapM Visitor.hear
  if (← outcome? interrupted).isSome then
    let (r, remarks) := r.interrupt
    say (remarks.filterMap Remark.line?)
    if let some exit := r.exit? then return ← leave exit
  IO.sleep pause
  serve r server next visitors interrupted

def shownAddress : Std.Net.SocketAddress → String
  | .v4 a => toString a.addr ++ ":" ++ Text.decimal a.port.toNat
  | .v6 a => "[" ++ toString a.addr ++ "]:" ++ Text.decimal a.port.toNat

def bindTo (a : SocketAddress) : IO Server := do
  let server ← Server.mk
  server.bind (socketAddress a)
  server.listen 128
  return server

def receive (address : String) (credentials : Credentials) : IO UInt32 := do
  let (result, remarks) := Reception.start address credentials
  match result with
  | .error complaint => leave (.failure complaint)
  | .ok r =>
    match ← (bindTo r.address).toBaseIO with
    | .error _ => leave (.failure .other)
    | .ok server =>
      let interrupted ← interruption
      say [Ingest.Listener.announcement (shownAddress (← server.getSockName))]
      say (remarks.filterMap Remark.line?)
      serve r server (← Async.toIO server.accept) [] interrupted

/-- How the program is used. -/
def usage : String :=
  "Usage:\n" ++
  "  receive [--bind ADDRESS] [--group-name NAME] [--group-password PASSWORD]\n" ++
  "      Listens for peers and logs every mutation that they send.\n" ++
  "  forward [--data-dir DIRECTORY] [--drain-timeout-secs SECONDS]\n" ++
  "      Sends the mutations on the lines of the input to every link.\n" ++
  "  help\n" ++
  "      Shows this text.\n"

end ClusterRelay.Program

open ClusterRelay CommandLine in
def main (args : List String) : IO UInt32 := do
  let env ← Program.environment
  match Request.ofWords env args with
  | .help => Program.leave { code := 0, output := Program.usage }
  | .misuse =>
    IO.eprint Program.usage
    Program.leave .misuse
  | .run (.receive address credentials) => Program.receive address credentials
  | .run (.forward directory drainSeconds) => Program.forward env directory drainSeconds
