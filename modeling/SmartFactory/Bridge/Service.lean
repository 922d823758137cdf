import SmartFactory.Lib.ThreadPool

/-!
# `SmartFactory.Bridge.Service`: the service of the Go bridge (`internal/bridge/service.go`)

The methods of `Service` run on goroutines of their own: one for each HTTP request, and the
loops that `StartBridge` launches. Each of them is written as a position in its code, and
`exec` runs one goroutine up to its next position. A section under `s.mu` is one step. So
is every call that waits or that reaches the network, every `go` statement and every use of
`bridgeWG`. `SmartFactory.Pool` interleaves the steps.

What the network answers is an `Outcome`. `State` adds to the fields of `Service` what
happened outside of it: which listeners, channels, connections and clients were made and
closed, and which frames were written. They are numbered in the order in which they were
made; the listener and the stop channel of one `StartBridge` are made together and share
their number, the number of the run.

The payload of a frame is its sequence number: the sensor values and the timestamp of the
frame do not matter for the order of the steps.
-/

set_option autoImplicit false

namespace SmartFactory.Bridge

/-- `config.Mapping`. -/
structure Mapping where
  messagePackID : String
  nodeIDString : String
  typeCode : UInt8
  enabled : Bool
  deriving DecidableEq

/-- `config.Config`. -/
structure Config where
  endpointURL : String
  namespaceURI : String
  tcpPort : Int
  mappings : List Mapping
  deriving DecidableEq

/-- `config.Default`. -/
def defaultConfig : Config :=
  { endpointURL := "opc.tcp://localhost:4840"
    namespaceURI := "urn:binary-sensors-demo"
    tcpPort := 9000
    mappings := [] }

/-- `Service`, without its mutex and its configuration path. -/
structure Service where
  cfg : Config
  client : Option Nat
  namespaceIdx : UInt16
  opcConnected : Bool
  lastErr : String
  bridgeRunning : Bool
  listener : Option Nat
  clients : List Nat
  bridgeStop : Option Nat
  bridgeWG : Nat
  seq : UInt64
  deriving DecidableEq

/-- The service and what it did to the world. -/
structure State extends Service where
  /-- How often `StartBridge` made a listener and a stop channel. -/
  runs : Nat
  closedListeners : List Nat
  closedStops : List Nat
  /-- How many connections `Accept` returned. -/
  accepted : Nat
  closedConns : List Nat
  /-- The frames that were written, as pairs of a connection and a sequence number. -/
  sent : List (Nat × UInt64)
  /-- How often `opcua.NewClient` returned a client. -/
  newClients : Nat
  /-- The clients whose `Connect` succeeded. -/
  dialled : List Nat
  closedClients : List Nat
  deriving DecidableEq

/-- `NewService`. -/
def newService (cfg : Config) : State :=
  { cfg := cfg, client := none, namespaceIdx := 0, opcConnected := false, lastErr := ""
    bridgeRunning := false, listener := none, clients := [], bridgeStop := none
    bridgeWG := 0, seq := 0, runs := 0, closedListeners := [], closedStops := []
    accepted := 0, closedConns := [], sent := [], newClients := 0, dialled := []
    closedClients := [] }

/-! ### Goroutines -/

/-- Positions in `StartBridge`. The run is known once the listener is open. -/
inductive StartBridge where
  | enter
  | listenFailed (err : String)
  | clearErr (run : Nat)
  | wgAdd (run : Nat)
  | goAccept (run : Nat)
  | goTick (run : Nat)
  deriving DecidableEq

/-- Positions in `StopBridge`. After the locked section it works on the listener, the
channel and the clients that it took from the service. -/
inductive StopBridge where
  | enter
  | closeListener (ln ch : Option Nat) (clients : List Nat)
  | closeStop (ch : Option Nat) (clients : List Nat)
  | closeConns (ch : Option Nat) (clients : List Nat)
  | wait (ch : Option Nat)
  deriving DecidableEq

/-- Positions in `Connect`. -/
inductive Connect where
  | enter
  | clearErr
  | newClient
  | dial (c : Nat)
  | findNamespace (c : Nat)
  | closeClient (c : Nat) (err : String)
  | setErr (err : String)
  | install (c : Nat) (ns : UInt16)
  deriving DecidableEq

/-- Positions in `acceptLoop`. -/
inductive AcceptLoop where
  | accept
  | record (conn : Nat)
  | goWatch (conn : Nat)
  deriving DecidableEq

/-- Positions in `watchDisconnect`. -/
inductive WatchDisconnect where
  | read
  | forget
  | close
  deriving DecidableEq

/-- Positions in `tickLoop`, those in `readFrame` and `broadcast` included. `stop` is the
channel that the loop read when it began. -/
inductive TickLoop where
  | init
  | select (stop : Option Nat)
  | state (stop : Option Nat) (cl : Nat)
  | setLost (cl : Nat)
  | clearConnected (cl : Nat)
  | goStop
  | leave
  | readClient (stop : Option Nat)
  | resolve (stop : Option Nat)
  | draw (stop : Option Nat)
  | broadcast (stop : Option Nat) (seq : UInt64)
  | setErr (stop : Option Nat) (err : String)
  deriving DecidableEq

/-- A goroutine. The `cause` of a `StopBridge` is the run whose `tickLoop` launched it; a
request has none. -/
inductive Goroutine where
  | startBridge (pos : StartBridge)
  | stopBridge (cause : Option Nat) (pos : StopBridge)
  | connect (pos : Connect)
  | disconnect
  | setConfig (cfg : Config)
  | saveConfig
  | acceptLoop (run : Nat) (pos : AcceptLoop)
  | watchDisconnect (conn : Nat) (pos : WatchDisconnect)
  | tickLoop (run : Nat) (pos : TickLoop)
  | finished (err : Option String)
  deriving DecidableEq

/-- What the library calls of a step return. -/
inductive Outcome where
  | ok
  | fail (err : String)
  /-- `select` takes the case of the stop channel. -/
  | stopped
  /-- `select` takes the case of the ticker. -/
  | ticked
  /-- `cl.State()` is `opcua.Connected`, or it is not. -/
  | state (connected : Bool)
  /-- The namespace index that was found. -/
  | namespaceIndex (ns : UInt16)
  /-- The connections whose `Write` fails. -/
  | writes (failing : List Nat)
  deriving DecidableEq

/-- The result of a step: the state, the goroutine at its next position and the goroutines
that it launched. -/
abbrev Result := Option (State × Goroutine × List Goroutine)

/-- Go on at the next position. -/
def next (s : State) (g : Goroutine) : Result := some (s, g, [])

/-! ### The methods -/

/-- `StartBridge`. -/
def execStartBridge (s : State) : StartBridge → Outcome → Result
  | .enter, o =>
      if s.bridgeRunning then next s (.finished (some "bridge already running"))
      else if !s.opcConnected || s.client = none then
        next s (.finished (some "OPC UA not connected"))
      else if s.cfg.tcpPort ≤ 0 || s.cfg.tcpPort > 65535 then
        next s (.finished (some "invalid tcp port"))
      else match o with
        | .ok => next { s with
            listener := some s.runs
            bridgeRunning := true
            clients := []
            bridgeStop := some s.runs
            runs := s.runs + 1 } (.startBridge (.clearErr s.runs))
        | .fail err => next s (.startBridge (.listenFailed err))
        | _ => none
  -- `setErr` and `clearErr` take the mutex again, after the locked section has ended.
  | .listenFailed err, _ => next { s with lastErr := err } (.finished (some err))
  | .clearErr run, _ => next { s with lastErr := "" } (.startBridge (.wgAdd run))
  | .wgAdd run, _ => next { s with bridgeWG := s.bridgeWG + 2 } (.startBridge (.goAccept run))
  -- The loops are launched one after the other, so the first may run before the second.
  | .goAccept run, _ => some (s, .startBridge (.goTick run), [.acceptLoop run .accept])
  | .goTick run, _ => some (s, .finished none, [.tickLoop run .init])

/-- `StopBridge`. -/
def execStopBridge (s : State) (cause : Option Nat) : StopBridge → Outcome → Result
  | .enter, _ =>
      if !s.bridgeRunning then next s (.finished none)
      else next { s with
          bridgeStop := none
          listener := none
          bridgeRunning := false
          clients := [] }
        (.stopBridge cause (.closeListener s.listener s.bridgeStop s.clients))
  | .closeListener ln ch clients, _ =>
      next { s with closedListeners := ln.toList ++ s.closedListeners }
        (.stopBridge cause (.closeStop ch clients))
  | .closeStop ch clients, _ =>
      next { s with closedStops := ch.toList ++ s.closedStops }
        (.stopBridge cause (.closeConns ch clients))
  -- The connections of the snapshot, whatever `clients` of the service is by now.
  | .closeConns ch (c :: clients), _ =>
      next { s with closedConns := c :: s.closedConns }
        (.stopBridge cause (.closeConns ch clients))
  | .closeConns ch [], _ => next s (.stopBridge cause (.wait ch))
  -- The counter has no run: it also counts the loops of a run that began meanwhile.
  | .wait _, _ => if s.bridgeWG = 0 then next s (.finished none) else none

/-- `Connect`. -/
def execConnect (s : State) : Connect → Outcome → Result
  | .enter, _ =>
      if s.bridgeRunning then
        next s (.finished (some "stop the bridge before reconnecting"))
      else next { s with
          closedClients := s.client.toList ++ s.closedClients
          client := none
          opcConnected := false } (.connect .clearErr)
  | .clearErr, _ => next { s with lastErr := "" } (.connect .newClient)
  | .newClient, .ok =>
      next { s with newClients := s.newClients + 1 } (.connect (.dial s.newClients))
  | .newClient, .fail err => next s (.connect (.setErr err))
  | .dial c, .ok => next { s with dialled := c :: s.dialled } (.connect (.findNamespace c))
  -- Only a failed `FindNamespace` closes the new client; after a failed `Connect` it is dropped.
  | .dial _, .fail err => next s (.connect (.setErr err))
  | .findNamespace c, .namespaceIndex ns => next s (.connect (.install c ns))
  | .findNamespace c, .fail err => next s (.connect (.closeClient c err))
  | .closeClient c err, _ =>
      next { s with closedClients := c :: s.closedClients } (.connect (.setErr err))
  | .setErr err, _ => next { s with lastErr := err } (.finished (some err))
  -- The second locked section checks neither `bridgeRunning` nor the client it replaces.
  | .install c ns, _ =>
      next { s with client := some c, namespaceIdx := ns, opcConnected := true }
        (.finished none)
  | _, _ => none

/-- `Disconnect`. -/
def execDisconnect (s : State) (o : Outcome) : Result :=
  if s.bridgeRunning then next s (.finished (some "stop the bridge first"))
  else match s.client, o with
    -- The session is closed under the mutex; the fields are cleared even when that fails.
    | none, _ => next { s with opcConnected := false } (.finished none)
    | some c, .ok =>
        next { s with
          closedClients := c :: s.closedClients, client := none, opcConnected := false }
          (.finished none)
    | some c, .fail err =>
        next { s with
          closedClients := c :: s.closedClients, client := none, opcConnected := false }
          (.finished (some err))
    | some _, _ => none

/-- `acceptLoop`. A closed listener accepts nothing. -/
def execAcceptLoop (s : State) (run : Nat) : AcceptLoop → Outcome → Result
  | .accept, .ok =>
      if run ∈ s.closedListeners then none
      else next { s with accepted := s.accepted + 1 } (.acceptLoop run (.record s.accepted))
  | .accept, .fail _ => next { s with bridgeWG := s.bridgeWG - 1 } (.finished none)
  -- `bridgeRunning` is not checked again between `Accept` and the append.
  | .record conn, _ =>
      next { s with clients := s.clients ++ [conn] } (.acceptLoop run (.goWatch conn))
  | .goWatch conn, _ => some (s, .acceptLoop run .accept, [.watchDisconnect conn .read])
  | _, _ => none

/-- `watchDisconnect`. -/
def execWatchDisconnect (s : State) (conn : Nat) : WatchDisconnect → Outcome → Result
  | .read, .ok => next s (.watchDisconnect conn .read)
  | .read, .fail _ => next s (.watchDisconnect conn .forget)
  | .forget, _ =>
      next { s with clients := s.clients.erase conn } (.watchDisconnect conn .close)
  | .close, _ => next { s with closedConns := conn :: s.closedConns } (.finished none)
  | _, _ => none

/-- A write to the connection succeeds: it is not closed and the network takes the frame. -/
def State.writable (s : State) (failing : List Nat) (conn : Nat) : Bool :=
  conn ∉ s.closedConns && conn ∉ failing

/-- `broadcast`. -/
def State.broadcast (s : State) (seq : UInt64) (failing : List Nat) : State :=
  { s with
    clients := s.clients.filter (s.writable failing)
    closedConns := s.clients.filter (fun c => !s.writable failing c) ++ s.closedConns
    sent := s.sent ++ (s.clients.filter (s.writable failing)).map (fun c => (c, seq)) }

/-- `tickLoop`. The case of the stop channel is taken when the channel is closed, and a nil
channel never is. -/
def execTickLoop (s : State) (run : Nat) : TickLoop → Outcome → Result
  -- The loop takes the channel that is there when it first gets the mutex, which may be none
  -- or the one of a later run.
  | .init, _ => next s (.tickLoop run (.select s.bridgeStop))
  | .select (some stop), .stopped =>
      if stop ∈ s.closedStops then next s (.tickLoop run .leave) else none
  | .select stop, .ticked =>
      match s.bridgeRunning && s.opcConnected, s.client with
      | true, some cl => next s (.tickLoop run (.state stop cl))
      | _, _ => next s (.tickLoop run (.select stop))
  | .state stop _, .state true => next s (.tickLoop run (.readClient stop))
  | .state _ cl, .state false => next s (.tickLoop run (.setLost cl))
  -- Three steps of their own: nothing compares the client with the one that was observed.
  | .setLost cl, _ =>
      next { s with lastErr := "OPC UA connection lost" } (.tickLoop run (.clearConnected cl))
  | .clearConnected _, _ => next { s with opcConnected := false } (.tickLoop run .goStop)
  | .goStop, _ => some (s, .tickLoop run .leave, [.stopBridge (some run) .enter])
  | .leave, _ => next { s with bridgeWG := s.bridgeWG - 1 } (.finished none)
  -- `readFrame`. A frame that cannot be encoded has used up its number.
  | .readClient stop, _ =>
      match s.client with
      | none => next s (.tickLoop run (.setErr stop "no client"))
      | some _ => next s (.tickLoop run (.resolve stop))
  | .resolve stop, .ok => next s (.tickLoop run (.draw stop))
  | .resolve stop, .fail err => next s (.tickLoop run (.setErr stop err))
  | .draw stop, .ok =>
      next { s with seq := s.seq + 1 } (.tickLoop run (.broadcast stop (s.seq + 1)))
  | .draw stop, .fail err =>
      next { s with seq := s.seq + 1 } (.tickLoop run (.setErr stop err))
  | .broadcast stop seq, .writes failing =>
      next (s.broadcast seq failing) (.tickLoop run (.select stop))
  | .setErr stop err, _ => next { s with lastErr := err } (.tickLoop run (.select stop))
  | _, _ => none

/-- One step of a goroutine. A `SetConfig` first stores the configuration and then writes
the file. -/
def exec (s : State) : Goroutine → Outcome → Result
  | .startBridge pos, o => execStartBridge s pos o
  | .stopBridge cause pos, o => execStopBridge s cause pos o
  | .connect pos, o => execConnect s pos o
  | .disconnect, o => execDisconnect s o
  | .setConfig cfg, _ => next { s with cfg := cfg } .saveConfig
  | .saveConfig, .ok => next s (.finished none)
  | .saveConfig, .fail err => next s (.finished (some err))
  | .saveConfig, _ => none
  | .acceptLoop run pos, o => execAcceptLoop s run pos o
  | .watchDisconnect conn pos, o => execWatchDisconnect s conn pos o
  | .tickLoop run pos, o => execTickLoop s run pos o
  | .finished _, _ => none

/-- The requests of the HTTP interface start at these positions. -/
def isRequest : Goroutine → Bool
  | .startBridge .enter | .stopBridge none .enter | .connect .enter | .disconnect
  | .setConfig _ => true
  | _ => false

/-- The service with its goroutines. -/
abbrev System := Pool State Goroutine

/-- A new request, or one step of one goroutine. -/
abbrev Move := SmartFactory.Move Goroutine Outcome

/-- One move of the system. -/
def step (p : System) (m : Move) : Option System := p.move isRequest exec m

/-- The system before the first request. -/
def boot (cfg : Config) : System := ⟨newService cfg, []⟩

end SmartFactory.Bridge
