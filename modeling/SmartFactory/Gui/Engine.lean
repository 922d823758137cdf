import SmartFactory.Bridge.BridgeEngine
import SmartFactory.Bridge.QtNodeId
import SmartFactory.Lib.Run

/-!
# `SmartFactory.Gui.Engine`: the bridge of the Qt program

The methods and slots of `BridgeEngine` in `src/gui/BridgeEngine.cpp`; `encodeFrame` is in
`SmartFactory.Bridge.BridgeEngine`. What the OPC UA client and the sockets answer is an argument of
the method that asks. Each method returns the signals that it emits.

The sockets are numbered as they come. `sockets`, `connectedState` and `written` are no members of
the class: they say how many there have been, which are in `ConnectedState`, and what has been
written to them.
-/

set_option autoImplicit false

namespace SmartFactory.Gui

open Bridge (SensorMapping Mapping NodeID ReadValue statusCodeGood parseNodeId encodeFrame)
open MessagePack (Bytes)

/-- The signals of the engine. -/
inductive Signal where
  | statusChanged (status : String)
  | errorOccurred (error : String)
  | clientCountChanged (count : Nat)
  deriving DecidableEq

/-- `UA_SecureChannelState`, as far as the engine asks for it. -/
inductive SecureChannelState where
  | opened | other
  deriving DecidableEq

/-- `UA_SessionState`, as far as the engine asks for it. -/
inductive SessionState where
  | activated | other
  deriving DecidableEq

/-- What `UA_Client_getState` stores. -/
structure ClientState where
  chState : SecureChannelState
  sessState : SessionState
  connStatus : UInt32

/-- The condition in `onTick`. -/
def ClientState.lost (s : ClientState) : Bool :=
  s.chState ≠ .opened || s.sessState ≠ .activated || s.connStatus ≠ statusCodeGood

/-- What the client answers to one attempt to connect: whether `UA_Client_new` makes one, and what
`UA_Client_connect` and `UA_Client_NamespaceGetIndex` return. -/
structure Answers where
  created : Bool
  connect : UInt32
  namespaceGetIndex : UInt32 × UInt16

/-- What the engine sees when its timer fires. -/
structure Tick where
  state : ClientState
  timestampMs : UInt64
  read : Nat → NodeID → ReadValue

/-- `BridgeEngine`. -/
structure Engine where
  endpointUrl : String
  namespaceUri : String
  tcpPort : UInt16
  mappings : List SensorMapping
  /-- `m_client` is not null. -/
  client : Bool
  /-- `m_timer` is active. -/
  timer : Bool
  /-- `m_tcpServer` is listening. -/
  tcpServer : Bool
  clients : List Nat
  opcUaConnected : Bool
  bridgeRunning : Bool
  sequence : UInt64
  namespaceIndex : UInt16
  sockets : Nat
  connectedState : Nat → Bool
  written : Nat → List Bytes

/-- `UA_NodeId_init`. -/
def nodeIdInit : NodeID := ⟨0, .numeric 0⟩

namespace Engine

/-- The constructor. -/
def init : Engine where
  endpointUrl := ""
  namespaceUri := ""
  tcpPort := 9000
  mappings := []
  client := false
  timer := false
  tcpServer := false
  clients := []
  opcUaConnected := false
  bridgeRunning := false
  sequence := 0
  namespaceIndex := 0xffff
  sockets := 0
  connectedState _ := false
  written _ := []

/-- `updateStatus`. -/
def updateStatus (e : Engine) : List Signal :=
  if e.bridgeRunning then
    [.statusChanged ("Bridge running | " ++ toString e.clients.length ++ " client(s)")]
  else if e.opcUaConnected then [.statusChanged "OPC UA connected"]
  else [.statusChanged "Disconnected"]

/-! ### Mappings -/

/-- The node id of a text, as `parseNodeId` leaves it. -/
def nodeIdOf (nodeIdString : String) : NodeID := (parseNodeId nodeIdString).getD nodeIdInit

/-- A mapping of the table as the engine keeps it. -/
def sensorMapping (m : Mapping) : SensorMapping where
  messagePackId := m.messagePackID
  nodeIdString := m.nodeIDString
  typeCode := m.typeCode
  enabled := m.enabled
  nodeId := if m.nodeIDString = "" then nodeIdInit else nodeIdOf m.nodeIDString

/-- `setMappings`. -/
def setMappings (e : Engine) (mappings : List Mapping) : Engine :=
  { e with mappings := mappings.map sensorMapping }

/-- The loop of `resolveNodeIds`: the mappings, and whether all texts are node ids. -/
def resolveMappings : List SensorMapping → List SensorMapping × Bool
  | [] => ([], true)
  | m :: ms =>
      if m.nodeIdString = "" then
        let rest := resolveMappings ms
        ({ m with nodeId := nodeIdInit } :: rest.1, rest.2)
      else match parseNodeId m.nodeIdString with
        | none => ({ m with nodeId := nodeIdInit } :: ms, false)
        | some nodeId =>
            let rest := resolveMappings ms
            ({ m with nodeId } :: rest.1, rest.2)

/-! ### The OPC UA connection -/

section
variable (statusCodeName : UInt32 → String)

/-- `connectToOpcUa`. -/
def connectToOpcUa (e : Engine) (a : Answers) : Engine × List Signal :=
  if !e.client && !a.created then (e, [.errorOccurred "Failed to create OPC UA client"])
  else
    -- The client is made once and kept, also when one of the next calls fails.
    let e := { e with client := true }
    if a.connect ≠ statusCodeGood then
      let e := { e with opcUaConnected := false }
      (e, .errorOccurred ("Connect failed: " ++ statusCodeName a.connect) :: e.updateStatus)
    else if a.namespaceGetIndex.1 ≠ statusCodeGood then
      let e := { e with opcUaConnected := false }
      (e, .errorOccurred ("Namespace not found: " ++ statusCodeName a.namespaceGetIndex.1) ::
        e.updateStatus)
    else
      -- The connection is up only when all texts are node ids.
      let resolved := resolveMappings e.mappings
      let e := { e with
        namespaceIndex := a.namespaceGetIndex.2
        mappings := resolved.1
        opcUaConnected := resolved.2 }
      (e, (if resolved.2 then [] else [.errorOccurred "Failed to resolve node IDs"]) ++
        e.updateStatus)

end

/-- `disconnectFromOpcUa`. -/
def disconnectFromOpcUa (e : Engine) : Engine × List Signal :=
  let e := { e with opcUaConnected := false, client := false }
  (e, e.updateStatus)

/-! ### The bridge -/

/-- `startBridge`. `listenError` is the error of `listen`, if it fails. -/
def startBridge (e : Engine) (listenError : Option String) : Engine × List Signal :=
  if e.bridgeRunning then (e, [])
  else if !e.client || !e.opcUaConnected then (e, [.errorOccurred "OPC UA not connected"])
  else match listenError with
    | some error =>
        ({ e with tcpServer := false }, [.errorOccurred ("TCP listen failed: " ++ error)])
    | none =>
        let e := { e with tcpServer := true, bridgeRunning := true, timer := true }
        (e, e.updateStatus ++
          [.statusChanged ("Bridge running on port " ++ toString e.tcpPort.toNat)])

/-- `stopBridge`. A socket whose end is reported while it is disconnected is taken out of the list
under the loop, which then does not come to every socket: `visited` are those that it comes to. -/
def stopBridge (e : Engine) (visited : List Nat) : Engine × List Signal :=
  let e := { e with
    bridgeRunning := false
    timer := false
    tcpServer := false
    connectedState := fun sock =>
      e.connectedState sock && !(decide (sock ∈ e.clients) && decide (sock ∈ visited))
    clients := [] }
  (e, .clientCountChanged 0 :: e.updateStatus)

/-! ### The clients -/

/-- One turn of the loop of `onAcceptConnection`. -/
def acceptSocket (e : Engine) : Engine :=
  { e with
    sockets := e.sockets + 1
    connectedState := Function.update e.connectedState e.sockets true
    clients := e.clients ++ [e.sockets] }

/-- `onAcceptConnection`, when so many connections are pending. -/
def onAcceptConnection : Nat → Engine → Engine × List Signal
  | 0, e => (e, [])
  | pending + 1, e =>
      let e := e.acceptSocket
      let rest := onAcceptConnection pending e
      (rest.1, .clientCountChanged e.clients.length :: rest.2)

/-- `onClientDisconnected`. -/
def onClientDisconnected (e : Engine) (sock : Nat) : Engine × List Signal :=
  let e := { e with clients := e.clients.filter (· ≠ sock) }
  (e, [.clientCountChanged e.clients.length])

/-- A turn of the last loop of `onTick`. -/
def writeTo (frame : Bytes) (e : Engine) (sock : Nat) : Engine :=
  if e.connectedState sock then
    { e with written := Function.update e.written sock (e.written sock ++ [frame]) }
  else e

/-- `onTick`. There is no result where `encodeFrame` has none. -/
def onTick (e : Engine) (t : Tick) : Option (Engine × List Signal) :=
  if !e.client || !e.opcUaConnected || !e.bridgeRunning then some (e, [])
  else if t.state.lost then
    let e := { e with opcUaConnected := false }
    some (e, .errorOccurred "OPC UA connection lost" :: e.updateStatus)
  else do
    let frame ← encodeFrame e.mappings e.sequence t.timestampMs t.read
    let e := { e with sequence := e.sequence + 1 }
    if frame = [] then some (e, []) else some (e.clients.foldl (writeTo frame) e, [])

end Engine

end SmartFactory.Gui
