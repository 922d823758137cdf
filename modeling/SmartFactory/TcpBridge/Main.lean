import SmartFactory.TcpBridge.Clients
import SmartFactory.Lib.Run

/-!
# `SmartFactory.TcpBridge.Main`: the main loop of the C bridge

The loop of `main` in `src/opcua_tcp_bridge.c`. A `Turn` is what the loop sees in one turn: the
clock, the answers of the server, what `select` and the calls of the sockets return.

The OPC UA client is a library. It has a session or none (`UA_Client_getState`), it gets one from
`UA_Client_connect` and may lose it at any time. The sessions are numbered.

`lastAttempt` and `broadcasts` are no variables of the program. They say what has happened: the
last attempt to connect, and for each frame what was known when it was sent.
-/

set_option autoImplicit false

namespace SmartFactory.TcpBridge

open MessagePack (Bytes)
open Bridge (NodeID ReadValue statusCodeGood utf8)

/-! ### The answers of the server -/

/-- `UA_NodeClass`, as far as the bridge asks for it. -/
inductive NodeClass where
  | object | variable
  deriving DecidableEq

/-- `UA_ReferenceDescription`, as far as the bridge reads it. -/
structure ReferenceDescription where
  namespaceIndex : UInt16
  name : Bytes
  nodeId : NodeID

/-- `UA_BrowseResult`. -/
structure BrowseResult where
  statusCode : UInt32
  references : List ReferenceDescription

/-- `UA_BrowseResponse`. -/
structure BrowseResponse where
  serviceResult : UInt32
  results : List BrowseResult

/-- The answers to one attempt to connect. `browse` is what each call of
`UA_Client_Service_browse` returns for a start node and a class. -/
structure Replies where
  connect : UInt32
  namespaceGetIndex : UInt32 × UInt16
  browse : Nat → NodeID → NodeClass → BrowseResponse

/-- The characters up to the first zero, which `strcmp` compares. -/
def cString (bs : Bytes) : Bytes := bs.takeWhile (· ≠ 0)

/-- `browseToNode`, from the answer on. -/
def browseToNode (bResp : BrowseResponse) (nsIdx : UInt16) (browseName : String) :
    Option NodeID :=
  if bResp.serviceResult = statusCodeGood then
    match bResp.results with
    | [] => none
    | result :: _ =>
        if result.statusCode = statusCodeGood then
          (result.references.find? fun ref => ref.namespaceIndex = nsIdx ∧ 0 < ref.name.length ∧
            cString ref.name = utf8 browseName).map ReferenceDescription.nodeId
        else none
  else none

/-- `UA_NODEID_NUMERIC(0, UA_NS0ID_OBJECTSFOLDER)`. -/
def objectsFolder : NodeID := ⟨0, .numeric 85⟩

/-- `UA_NODEID_NULL`. -/
def nullNodeId : NodeID := ⟨0, .numeric 0⟩

/-- `findSensorsFolder`. -/
def findSensorsFolder (r : Replies) (nsIdx : UInt16) : Option NodeID :=
  browseToNode (r.browse 0 objectsFolder .object) nsIdx "Sensors"

/-- The node of a sensor. -/
def findSensor (r : Replies) (nsIdx : UInt16) (sensorsFolderId : NodeID) (i : Fin sensorCount) :
    Option NodeID :=
  browseToNode (r.browse (i + 1) sensorsFolderId .variable) nsIdx (sensorBrowseNames i)

/-- The loop over the sensors: the node ids, and whether all of them have been found. -/
def resolveSensors (r : Replies) (nsIdx : UInt16) (sensorsFolderId : NodeID) :
    List (Fin sensorCount) → (Fin sensorCount → NodeID) → (Fin sensorCount → NodeID) × Bool
  | [], sensorNodeIds => (sensorNodeIds, true)
  | i :: is, sensorNodeIds =>
      match findSensor r nsIdx sensorsFolderId i with
      | none => (Function.update sensorNodeIds i nullNodeId, false)
      | some nodeId =>
          resolveSensors r nsIdx sensorsFolderId is (Function.update sensorNodeIds i nodeId)

/-! ### Reading -/

/-- One turn of the loop of `readSensors`. An empty array has no data that can be read. -/
def readSensor (r : ReadValue) : Option Bool :=
  if r.ret ≠ statusCodeGood then some false
  else
    match r.value with
    | some (.scalar (.boolean b)) => some b
    | some (.array .boolean [] _) => none
    | some (.array .boolean (.boolean b :: _) _) => some b
    | _ => some false

/-- `readSensors`. `read` is what each read returns for a node. -/
def readSensors (seqCounter timestampMs : UInt64) (read : Fin sensorCount → NodeID → ReadValue)
    (sensorNodeIds : Fin sensorCount → NodeID) : Option SensorSnapshot :=
  if ∀ i, (readSensor (read i (sensorNodeIds i))).isSome then
    some ⟨fun i => (readSensor (read i (sensorNodeIds i))).getD false, seqCounter + 1, timestampMs⟩
  else none

/-! ### The loop -/

/-- What was known when a frame was sent: the session that the loop had found active, the last
attempt to connect and the nodes that were read. -/
structure Broadcast where
  session : Option Nat
  attempt : Option (Nat × Replies)
  nodes : Fin sensorCount → NodeID

/-- The variables of `main`. -/
structure Main where
  running : Bool
  nsIdx : UInt16
  sensorNodeIds : Fin sensorCount → NodeID
  sensorNodeIdsResolved : Bool
  lastUpdateMs : UInt64
  reconnectBackoffMs : UInt64
  lastReconnectAttemptMs : UInt64
  seqCounter : UInt64
  clients : Clients
  /-- The session that is active. -/
  session : Option Nat
  /-- The number of the next session. -/
  sessions : Nat
  lastAttempt : Option (Nat × Replies)
  broadcasts : List Broadcast

/-- `UA_UINT16_MAX`. -/
def uint16Max : UInt16 := 0xffff

/-- `UPDATE_INTERVAL_MS`. -/
def updateIntervalMs : UInt64 := 300

/-- What `select` finds. When it returns, `listen` is what `accept` returns, if the listening
socket is ready, and `recv` what `recv` returns for the clients that are. -/
inductive Select where
  | interrupted
  | failed
  | ready (listen : Option Int) (recv : Fin maxClients → Option Int)

/-- One turn of the loop. The session may be lost before the loop looks at it first, before it
looks again, and after that. -/
structure Turn where
  nowMs : UInt64
  lostFirst : Bool
  replies : Replies
  lostThen : Bool
  select : Select
  lostLast : Bool
  timestampMs : UInt64
  read : Fin sensorCount → NodeID → ReadValue
  sent : Fin maxClients → Int

/-- What the loop waits for after another attempt that failed. -/
def backoff (reconnectBackoffMs : UInt64) : UInt64 :=
  if reconnectBackoffMs < 10000 then reconnectBackoffMs * 2 else 10000

namespace Main

/-- The start of the loop. -/
def init : Main where
  running := true
  nsIdx := uint16Max
  sensorNodeIds _ := nullNodeId
  sensorNodeIdsResolved := false
  lastUpdateMs := 0
  reconnectBackoffMs := 1000
  lastReconnectAttemptMs := 0
  seqCounter := 0
  clients := Clients.init
  session := none
  sessions := 0
  lastAttempt := none
  broadcasts := []

/-- The session may have been lost. -/
def lose (m : Main) (lost : Bool) : Main := if lost then { m with session := none } else m

/-- The lookup of the sensors in the folder. -/
def resolve (m : Main) (r : Replies) (sensorsFolderId : NodeID) : Main :=
  let found := resolveSensors r m.nsIdx sensorsFolderId (List.finRange sensorCount) m.sensorNodeIds
  { m with
    sensorNodeIds := found.1
    sensorNodeIdsResolved := found.2
    reconnectBackoffMs := if found.2 then 1000 else backoff m.reconnectBackoffMs }

/-- An attempt to connect: `UA_Client_disconnect`, `connectToServer` and the lookups. -/
def attempt (m : Main) (r : Replies) : Main :=
  let m := { m with session := none, lastAttempt := some (m.sessions, r) }
  if r.connect = statusCodeGood then
    let m := { m with session := some m.sessions, sessions := m.sessions + 1 }
    if r.namespaceGetIndex.1 = statusCodeGood then
      let m := { m with nsIdx := r.namespaceGetIndex.2 }
      match findSensorsFolder r m.nsIdx with
      | some sensorsFolderId => m.resolve r sensorsFolderId
      | none => { m with reconnectBackoffMs := backoff m.reconnectBackoffMs }
    else { m with reconnectBackoffMs := backoff m.reconnectBackoffMs }
  else { m with reconnectBackoffMs := backoff m.reconnectBackoffMs }

/-- The loop tries to connect now. -/
def attempts (m : Main) (nowMs : UInt64) : Bool :=
  (m.nsIdx = uint16Max || m.session.isNone || !m.sensorNodeIdsResolved) &&
    m.reconnectBackoffMs ≤ nowMs - m.lastReconnectAttemptMs

/-- The first part of a turn. -/
def connect (m : Main) (t : Turn) : Main :=
  if m.attempts t.nowMs then
    { m.attempt t.replies with lastReconnectAttemptMs := t.nowMs }
  else m

/-- The clients that are ready. -/
def readyOps (listen : Option Int) (recv : Fin maxClients → Option Int) : List Clients.Op :=
  listen.toList.map .accept ++ (List.finRange maxClients).map fun i => .check i (recv i)

/-- The loop sends a frame now. -/
def sends (m : Main) (nowMs : UInt64) : Bool :=
  m.nsIdx ≠ uint16Max && m.session.isSome && m.sensorNodeIdsResolved &&
    updateIntervalMs ≤ nowMs - m.lastUpdateMs

/-- The last part of a turn. -/
def publish (m : Main) (t : Turn) : Option Main :=
  if m.sends t.nowMs then do
    let snapshot ← readSensors m.seqCounter t.timestampMs t.read m.sensorNodeIds
    let clients ← m.clients.step (.broadcast snapshot t.sent)
    some { m.lose t.lostLast with
      clients
      seqCounter := snapshot.seq
      lastUpdateMs := t.nowMs
      broadcasts := m.broadcasts ++ [⟨m.session, m.lastAttempt, m.sensorNodeIds⟩] }
  else some (m.lose t.lostLast)

/-- The end of `main`. -/
def shutdown (m : Main) : Option Main := do
  let clients ← m.clients.step .shutdown
  some { m with clients, running := false, session := none }

/-- One turn of the loop. -/
def turn (m : Main) (t : Turn) : Option Main :=
  let m := ((m.lose t.lostFirst).connect t).lose t.lostThen
  match t.select with
  | .interrupted => some m
  | .failed => m.shutdown
  | .ready listen recv => do
      let clients ← Run.run Clients.step m.clients (readyOps listen recv)
      { m with clients }.publish t

/-- What happens next: a turn of the loop, or the end of it after a signal. -/
inductive Event where
  | turn (t : Turn)
  | signal

/-- One event. -/
def step (m : Main) (e : Event) : Option Main :=
  if m.running then
    match e with
    | .turn t => m.turn t
    | .signal => m.shutdown
  else none

end Main

end SmartFactory.TcpBridge
