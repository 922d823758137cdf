import SmartFactory.Gui.Engine
import SmartFactory.Gui.NodeSelection
import SmartFactory.Bridge.ConfigFormat

/-!
# `SmartFactory.Gui.Window`: the main window of the Qt program

The buttons of `MainWindow` in `src/gui/MainWindow.cpp`, the slots that the engine signals to, the
dialog for the nodes, and the two files that the window keeps its configuration in. `MainWindow` of
`SmartFactory.Bridge.ConfigFormat` is what the user can edit.

`step` is one event: a click, an edit, or what the timer and the sockets report. A button that is
not enabled cannot be clicked, and a `QTimer` and a `QTcpServer` only report while they are active.
A message box or a dialog blocks the window but not the timer and the sockets. The engine has
nothing left to do then but to show its status, so that what comes meanwhile is taken to come after
it.
-/

set_option autoImplicit false

namespace SmartFactory.Gui

open Bridge (DiscoveredNode MainWindow PortSpin JsonValue jsonValue jsonToObject jsonToArray
  jsonToInt sensorMappingFromJson trimSpace onLoadConfig onSaveConfig encodeFrame)
open Run (run)

/-- `QJsonValue::toString` with a default. -/
def jsonToStringOr (defaultValue : String) : Option JsonValue → String
  | some (.string s) => s
  | _ => defaultValue

/-- What `setupUi` shows. -/
def setupUi : MainWindow where
  endpointEdit := "opc.tcp://localhost:4840"
  namespaceEdit := "urn:binary-sensors-demo"
  portSpin := .ofInt 9000
  mappingTable := []

/-- `autoLoadConfig`, of a file that can be read. -/
def autoLoadConfig (w : MainWindow) (doc : JsonValue) : MainWindow :=
  let root := jsonToObject doc
  let mappings := (jsonToArray (jsonValue root "mappings")).map fun v =>
    sensorMappingFromJson (jsonToObject v)
  { endpointEdit := jsonToStringOr w.endpointEdit (jsonValue root "endpointUrl")
    namespaceEdit := jsonToStringOr w.namespaceEdit (jsonValue root "namespaceUri")
    portSpin := .ofInt (jsonToInt w.portSpin.value (jsonValue root "tcpPort"))
    mappingTable := if mappings = [] then w.mappingTable else mappings }

/-- `autoSaveConfig`. It writes what `onSaveConfig` writes. -/
def autoSaveConfig (w : MainWindow) : JsonValue := onSaveConfig w

/-- `m_cachedDiscoveredNodes`, `m_cachedDiscoveryEndpoint` and `m_cachedDiscoveryNamespace`. -/
structure DiscoveryCache where
  nodes : List DiscoveredNode
  endpoint : String
  namespaceUri : String

/-- The texts that come from libraries: `UA_StatusCode_name` and `QString::toLower`. -/
structure Library where
  statusCodeName : UInt32 → String
  toLower : String → String

/-- `MainWindow`, with its engine. -/
structure Window where
  engine : Engine
  form : MainWindow
  cache : DiscoveryCache
  connectButton : Bool
  disconnectButton : Bool
  startButton : Bool
  stopButton : Bool
  /-- `m_endpointEdit`, `m_namespaceEdit` and `m_portSpin` are enabled. -/
  edits : Bool
  statusLabel : String
  clientLabel : String
  /-- The message boxes that have been shown. -/
  warnings : List String

/-- What happens. -/
inductive Event where
  | connect (a : Answers)
  | disconnect (visited : List Nat)
  | startBridge (a : Answers) (listenError : Option String)
  | stopBridge (visited : List Nat)
  | edited (form : MainWindow)
  | loaded (doc : JsonValue)
  /-- The button "Select node..." of a row, what is done in the dialog, and how it is closed. -/
  | selectNode (row : Nat) (inDialog : List NodeSelectionDialog.Event) (accepted : Bool)
  | timeout (t : Tick)
  | newConnection (pending : Nat)
  /-- A socket leaves `ConnectedState`. -/
  | socketClosed (sock : Nat)
  /-- A socket emits `disconnected`. -/
  | disconnected (sock : Nat)

namespace Window

/-- `updateUiState`. -/
def updateUiState (w : Window) : Window :=
  let connected := w.engine.opcUaConnected
  let running := w.engine.bridgeRunning
  { w with
    connectButton := !connected && !running
    disconnectButton := connected || running
    startButton := connected && !running
    stopButton := running
    edits := !running }

/-- `onStatusChanged`, `onErrorOccurred` and `onClientCountChanged`. -/
def receive (w : Window) : Signal → Window
  | .statusChanged status => { w with statusLabel := status }
  | .errorOccurred error => { w with warnings := w.warnings ++ [error] }
  | .clientCountChanged count => { w with clientLabel := "TCP clients: " ++ toString count }

/-- A call of a method of the engine. -/
def call (w : Window) (r : Engine × List Signal) : Window :=
  r.2.foldl receive { w with engine := r.1 }

/-- The constructor. `file` is what `autoLoadConfig` finds. -/
def init (file : Option JsonValue) : Window :=
  updateUiState
    { engine := Engine.init
      form := file.elim setupUi (autoLoadConfig setupUi)
      cache := ⟨[], "", ""⟩
      connectButton := true
      disconnectButton := true
      startButton := true
      stopButton := true
      edits := true
      statusLabel := ""
      clientLabel := ""
      warnings := [] }

/-- What `onConnect` and `onStartBridge` hand to the engine. -/
def configure (w : Window) : Window :=
  let engine := { w.engine with
    endpointUrl := trimSpace w.form.endpointEdit
    namespaceUri := trimSpace w.form.namespaceEdit
    tcpPort := UInt16.ofInt w.form.portSpin.value }
  { w with engine := engine.setMappings w.form.mappingsFromTable }

/-- The dialog as `onSelectNode` opens it. -/
def openDialog (w : Window) : NodeSelectionDialog :=
  let endpoint := trimSpace w.form.endpointEdit
  let namespaceUri := trimSpace w.form.namespaceEdit
  let cached :=
    if endpoint = w.cache.endpoint ∧ namespaceUri = w.cache.namespaceUri then w.cache.nodes else []
  .init endpoint namespaceUri cached

/-- What `onSelectNode` does when the dialog has been accepted. -/
def acceptNode (w : Window) (row : Nat) (dlg : NodeSelectionDialog) : Window :=
  let w := { w with cache := ⟨dlg.nodes, dlg.endpointUrl, dlg.namespaceUri⟩ }
  if dlg.selectedNodeIdString = "" then w
  else
    let form := { w.form with
      mappingTable := w.form.mappingTable.modify row fun m => { m with
        nodeIDString := dlg.selectedNodeIdString
        messagePackID :=
          if m.messagePackID = "" then dlg.selectedBrowseName else m.messagePackID } }
    { w with form }

section
variable (lib : Library)

/-- `onConnect`. -/
def onConnect (w : Window) (a : Answers) : Window :=
  let w := w.configure
  (w.call (w.engine.connectToOpcUa lib.statusCodeName a)).updateUiState

/-- `onDisconnect`. -/
def onDisconnect (w : Window) (visited : List Nat) : Window :=
  let w := w.call (w.engine.stopBridge visited)
  (w.call w.engine.disconnectFromOpcUa).updateUiState

/-- `onStartBridge`. -/
def onStartBridge (w : Window) (a : Answers) (listenError : Option String) : Window :=
  let w := w.configure
  let w :=
    if !w.engine.opcUaConnected then w.call (w.engine.connectToOpcUa lib.statusCodeName a) else w
  let w := if w.engine.opcUaConnected then w.call (w.engine.startBridge listenError) else w
  w.updateUiState

/-- `onStopBridge`. -/
def onStopBridge (w : Window) (visited : List Nat) : Window :=
  (w.call (w.engine.stopBridge visited)).updateUiState

/-- `onSelectNode`. Only an enabled "OK" accepts the dialog. -/
def onSelectNode (w : Window) (row : Nat) (inDialog : List NodeSelectionDialog.Event)
    (accepted : Bool) : Option Window :=
  match run (NodeSelectionDialog.step lib.toLower) w.openDialog inDialog with
  | none => none
  | some dlg =>
      if accepted then if dlg.okButton then some (w.acceptNode row dlg) else none else some w

/-- What the user may edit. The table is always enabled. -/
def allows (w : Window) (form : MainWindow) : Bool :=
  w.edits || (decide (form.endpointEdit = w.form.endpointEdit) &&
    decide (form.namespaceEdit = w.form.namespaceEdit) &&
    decide (form.portSpin = w.form.portSpin))

/-- One event. -/
def step (w : Window) : Event → Option Window
  | .connect a => if w.connectButton then some (w.onConnect lib a) else none
  | .disconnect visited => if w.disconnectButton then some (w.onDisconnect visited) else none
  | .startBridge a listenError =>
      if w.startButton then some (w.onStartBridge lib a listenError) else none
  | .stopBridge visited => if w.stopButton then some (w.onStopBridge visited) else none
  | .edited form => if w.allows form then some { w with form } else none
  | .loaded doc => some { w with form := onLoadConfig doc }
  | .selectNode row inDialog accepted =>
      if row < w.form.mappingTable.length then w.onSelectNode lib row inDialog accepted else none
  | .timeout t => if w.engine.timer then (w.engine.onTick t).map w.call else none
  | .newConnection pending =>
      if w.engine.tcpServer then some (w.call (Engine.onAcceptConnection pending w.engine))
      else none
  | .socketClosed sock =>
      if w.engine.connectedState sock then
        some { w with engine := { w.engine with
          connectedState := Function.update w.engine.connectedState sock false } }
      else none
  | .disconnected sock =>
      if sock < w.engine.sockets ∧ w.engine.connectedState sock = false then
        some (w.call (w.engine.onClientDisconnected sock))
      else none

end

/-! ### The frames of a run -/

/-- A frame that the engine makes. -/
structure Frame where
  sequence : UInt64
  timestampMs : UInt64
  mappings : List Bridge.SensorMapping
  bytes : MessagePack.Bytes

/-- The frame of an event. -/
def frameOf (w : Window) : Event → Option Frame
  | .timeout t =>
      if w.engine.client && w.engine.opcUaConnected && w.engine.bridgeRunning && !t.state.lost then
        (encodeFrame w.engine.mappings w.engine.sequence t.timestampMs t.read).map
          (⟨w.engine.sequence + 1, t.timestampMs, w.engine.mappings, ·⟩)
      else none
  | _ => none

end Window

end SmartFactory.Gui
