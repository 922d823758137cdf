import SmartFactory.Gui.Window
import SmartFactory.Proofs.Gui.Engine

/-!
# `SmartFactory.Proofs.Gui.Window`: the buttons and the frames of the main window

The window refreshes its buttons after each click, but not when the timer finds that the connection
is lost. `buttons_of_run` is that they are right all the same: a running bridge has the same buttons
with and without a connection. So the bridge is only started on a connection, and `onStartBridge`
never makes one itself.

`blocks_of_run` numbers the frames of all bridges that are started in one window, and says which of
them a socket gets. `history_of_frame` traces a frame back to the clicks that led to it: a
connection that succeeded and has not been given up or lost since, and a start after it, from whose
table the nodes of the frame are taken.
-/

set_option autoImplicit false

namespace SmartFactory.Gui

open Bridge (MainWindow JsonValue Mapping SensorMapping statusCodeGood encodeFrame)
open MessagePack (Bytes)
open Run (run outputs outputs_concat run_induction last_of_step exists_set_of_run)
open Subscription (outputsSince outputsSince_concat outputsSince_suffix)

/-! ### Clicks -/

/-- The events that end a connection. -/
def Event.breaks : Event → Bool
  | .disconnect _ => true
  | .timeout t => t.state.lost
  | _ => false

/-- The events that end a bridge. -/
def Event.stops : Event → Bool
  | .disconnect _ | .stopBridge _ => true
  | _ => false

/-- A click that connects. -/
def Event.Connects (w : Window) : Event → Prop
  | .connect a => a.Good w.engine.client ∧ Engine.Resolvable w.configure.engine.mappings
  | _ => False

/-- A click that starts a bridge with these mappings. -/
def Event.Starts (mappings : List SensorMapping) (w : Window) : Event → Prop
  | .startBridge _ listenError => listenError = none ∧ w.engine.opcUaConnected = true ∧
      w.configure.engine.mappings = mappings
  | _ => False

namespace Window

variable {w w' : Window} {lib : Library} {ev : Event}

/-! ### Calls of the engine -/

/-- The window receives the signals of a call from the first on. -/
theorem call_cons (w : Window) (e : Engine) (s : Signal) (ss : List Signal) :
    w.call (e, s :: ss) = (w.receive s).call (e, ss) := by
  cases s <;> rfl

/-- The last signal is received last. -/
theorem call_concat (w : Window) (e : Engine) (ss : List Signal) (s : Signal) :
    w.call (e, ss ++ [s]) = (w.call (e, ss)).receive s := by
  rw [call, List.foldl_append]
  rfl

/-- A call changes nothing but the engine and what is shown. -/
theorem call_eq (w : Window) (r : Engine × List Signal) :
    w.call r = { w with
      engine := r.1
      statusLabel := (w.call r).statusLabel
      clientLabel := (w.call r).clientLabel
      warnings := (w.call r).warnings } := by
  obtain ⟨e, ss⟩ := r
  induction ss generalizing w with
  | nil => rfl
  | cons s ss ih =>
      rw [call_cons, ih]
      cases s <;> rfl

/-- A call leaves the engine that it returns. -/
@[simp] theorem call_engine (w : Window) (r : Engine × List Signal) : (w.call r).engine = r.1 := by
  rw [call_eq]

/-- No call changes the form. -/
@[simp] theorem call_form (w : Window) (r : Engine × List Signal) : (w.call r).form = w.form := by
  rw [call_eq]

/-- `updateUiState` leaves the engine. -/
@[simp] theorem updateUiState_engine (w : Window) : w.updateUiState.engine = w.engine := rfl

/-- And the form. -/
@[simp] theorem updateUiState_form (w : Window) : w.updateUiState.form = w.form := rfl

/-- The buttons are as `updateUiState` sets them. -/
structure Buttons (w : Window) : Prop where
  connect : w.connectButton = (!w.engine.opcUaConnected && !w.engine.bridgeRunning)
  disconnect : w.disconnectButton = (w.engine.opcUaConnected || w.engine.bridgeRunning)
  start : w.startButton = (w.engine.opcUaConnected && !w.engine.bridgeRunning)
  stop : w.stopButton = w.engine.bridgeRunning
  edits : w.edits = !w.engine.bridgeRunning

/-- After `updateUiState` the buttons are right. -/
theorem buttons_updateUiState (w : Window) : w.updateUiState.Buttons := ⟨rfl, rfl, rfl, rfl, rfl⟩

/-- Where the buttons are right, `updateUiState` changes nothing. -/
theorem Buttons.updateUiState_eq (h : w.Buttons) : w.updateUiState = w := by
  rw [updateUiState, ← h.connect, ← h.disconnect, ← h.start, ← h.edits, ← h.stop]

/-- The buttons stay right when the engine changes in a way that no button shows. -/
theorem Buttons.of_engine (h : w.Buttons) {e : Engine}
    (hrunning : e.bridgeRunning = w.engine.bridgeRunning)
    (hconnected : e.opcUaConnected = w.engine.opcUaConnected ∨ w.engine.bridgeRunning = true) :
    Buttons { w with engine := e } := by
  have hflags : e.opcUaConnected = w.engine.opcUaConnected ∨ e.bridgeRunning = true :=
    hconnected.imp_right hrunning.trans
  rcases hflags with hsame | hon
  · exact ⟨by rw [hsame, hrunning]; exact h.connect, by rw [hsame, hrunning]; exact h.disconnect,
      by rw [hsame, hrunning]; exact h.start, by rw [hrunning]; exact h.stop,
      by rw [hrunning]; exact h.edits⟩
  · -- Of a running bridge no button shows the connection.
    have hon' : w.engine.bridgeRunning = true := hrunning ▸ hon
    exact ⟨by simp [hon, h.connect, hon'], by simp [hon, h.disconnect, hon'],
      by simp [hon, h.start, hon'], by simp [hon, h.stop, hon'], by simp [hon, h.edits, hon']⟩

/-- So they do when its signals are received as well. -/
theorem Buttons.call (h : w.Buttons) {r : Engine × List Signal}
    (hrunning : r.1.bridgeRunning = w.engine.bridgeRunning)
    (hconnected : r.1.opcUaConnected = w.engine.opcUaConnected ∨ w.engine.bridgeRunning = true) :
    (w.call r).Buttons := by
  have hbuttons := h.of_engine hrunning hconnected
  rw [call_eq]
  exact ⟨hbuttons.connect, hbuttons.disconnect, hbuttons.start, hbuttons.stop, hbuttons.edits⟩

/-! ### The invariant -/

/-- The label of the clients. Nothing has been shown in the beginning. -/
def Counts (label : String) (clients : List Nat) : Prop :=
  label = "TCP clients: " ++ toString clients.length ∨ label = "" ∧ clients = []

/-- The invariant of the window. -/
structure Sound (w : Window) : Prop where
  engine : w.engine.Sound
  parsed : Engine.Parsed w.engine.mappings
  buttons : w.Buttons
  status : w.engine.Shows w.statusLabel
  count : Counts w.clientLabel w.engine.clients

/-- The window that opens meets the invariant. -/
theorem sound_init (file : Option JsonValue) : Sound (init file) where
  engine := Engine.sound_init
  parsed := nofun
  buttons := buttons_updateUiState _
  status := .inl rfl
  count := .inr ⟨rfl, rfl⟩

/-! ### The clicks -/

/-- The status that the engine reports is shown, and the number of clients is not touched. -/
theorem call_updateStatus (w : Window) (e : Engine) :
    e.Shows (w.call (e, e.updateStatus)).statusLabel ∧
      (w.call (e, e.updateStatus)).clientLabel = w.clientLabel := by
  obtain ⟨status, heq, hshows⟩ := e.updateStatus_shows
  rw [heq]
  exact ⟨hshows, rfl⟩

/-- What an engine without a running bridge shows does not depend on the configuration. -/
theorem shows_congr {e e' : Engine} {status : String} (h : e.Shows status)
    (hoff : e.bridgeRunning = false) (hoff' : e'.bridgeRunning = false)
    (hconnected : e'.opcUaConnected = e.opcUaConnected) : e'.Shows status := by
  simp only [Engine.Shows, hoff, hoff', hconnected, Bool.false_eq_true, if_false] at h ⊢
  exact h

/-- The mappings that a click hands over are parsed. -/
theorem parsed_configure (w : Window) : Engine.Parsed w.configure.engine.mappings :=
  Engine.parsed_setMappings _ _

/-- Handing over the form keeps the invariant when no bridge is running. -/
theorem Sound.configure (h : w.Sound) (hoff : w.engine.bridgeRunning = false) :
    w.configure.Sound where
  engine := h.engine.of_connection rfl h.engine.client
  parsed := parsed_configure w
  buttons := h.buttons.of_engine rfl (.inl rfl)
  status := shows_congr h.status hoff hoff rfl
  count := h.count

/-- A click ends with `updateUiState`. -/
theorem Sound.updateUiState (h : w.engine.Sound) (hparsed : Engine.Parsed w.engine.mappings)
    (hstatus : w.engine.Shows w.statusLabel) (hcount : Counts w.clientLabel w.engine.clients) :
    w.updateUiState.Sound :=
  ⟨h, hparsed, buttons_updateUiState w, hstatus, hcount⟩

/-- A click on Connect keeps the invariant. -/
theorem sound_onConnect (h : w.Sound) (hoff : w.engine.bridgeRunning = false) (a : Answers) :
    (w.onConnect lib a).Sound := by
  have hc := h.configure hoff
  have hsound := @Engine.sound_connectToOpcUa _ lib.statusCodeName hc.engine hc.parsed a
  rw [onConnect]
  rcases Engine.connectToOpcUa_cases lib.statusCodeName hc.engine hc.parsed a with
    ⟨-, -, e', hsame, heq⟩ | ⟨-, e', error, status, hsame, heq, hstatus⟩
  · rw [heq] at hsound ⊢
    obtain ⟨hshows, hcount⟩ := w.configure.call_updateStatus e'
    refine .updateUiState (by simpa using hsound) ?_ (by simpa using hshows) ?_
    · rw [call_engine, hsame]
      exact hc.parsed
    · rw [hcount, call_engine, hsame]
      exact hc.count
  · rw [heq] at hsound ⊢
    rw [call_cons]
    have hmappings : e'.mappings = w.configure.engine.mappings := by rw [hsame]
    have hclients : e'.clients = w.configure.engine.clients := by rw [hsame]
    -- An error with a new status, or without one when there is no client.
    rcases hstatus with rfl | ⟨rfl, rfl⟩
    · obtain ⟨hshows, hcount⟩ :=
        (w.configure.receive (.errorOccurred error)).call_updateStatus e'
      refine .updateUiState (by simpa using hsound) ?_ (by simpa using hshows) ?_
      · rw [call_engine, hmappings]
        exact hc.parsed
      · rw [hcount, call_engine, hclients]
        exact hc.count
    · exact .updateUiState hc.engine hc.parsed hc.status hc.count

/-- A click on Stop Bridge keeps the invariant. -/
theorem sound_onStopBridge (h : w.Sound) (visited : List Nat) : (w.onStopBridge visited).Sound := by
  have hsound := Engine.sound_stopBridge h.engine visited
  rw [onStopBridge]
  have hcall := call_cons w (w.engine.stopBridge visited).1 (.clientCountChanged 0)
    (w.engine.stopBridge visited).1.updateStatus
  have hpair : w.engine.stopBridge visited = ((w.engine.stopBridge visited).1,
    .clientCountChanged 0 :: (w.engine.stopBridge visited).1.updateStatus) := rfl
  rw [hpair, hcall]
  obtain ⟨hshows, hcount⟩ := (w.receive (.clientCountChanged 0)).call_updateStatus
    (w.engine.stopBridge visited).1
  refine .updateUiState (by simpa using hsound) ?_ (by simpa using hshows) ?_
  · rw [call_engine]
    exact h.parsed
  · rw [hcount, call_engine]
    exact .inl rfl

/-- A click on Disconnect keeps the invariant. -/
theorem sound_onDisconnect (h : w.Sound) (visited : List Nat) : (w.onDisconnect visited).Sound := by
  have hstop := sound_onStopBridge h visited
  have hpair : (w.call (w.engine.stopBridge visited)).engine.disconnectFromOpcUa =
    ((w.call (w.engine.stopBridge visited)).engine.disconnectFromOpcUa.1,
      (w.call (w.engine.stopBridge visited)).engine.disconnectFromOpcUa.1.updateStatus) := rfl
  obtain ⟨hshows, hcount⟩ := (w.call (w.engine.stopBridge visited)).call_updateStatus
    (w.call (w.engine.stopBridge visited)).engine.disconnectFromOpcUa.1
  rw [onDisconnect, hpair]
  refine .updateUiState ?_ ?_ ?_ ?_
  · rw [call_engine]
    exact Engine.sound_disconnectFromOpcUa hstop.engine
  · rw [call_engine]
    exact hstop.parsed
  · rw [call_engine]
    exact hshows
  · rw [hcount, call_engine]
    exact hstop.count

/-- **No other connection.** `onStartBridge` can only be clicked on a connection, so that it does
not make one. -/
theorem onStartBridge_eq (h : w.Sound) (hstart : w.startButton = true) (a : Answers)
    (listenError : Option String) : w.onStartBridge lib a listenError =
      (w.configure.call (w.configure.engine.startBridge listenError)).updateUiState := by
  have hup : w.configure.engine.opcUaConnected = true := by
    rw [h.buttons.start, Bool.and_eq_true] at hstart
    exact hstart.1
  simp only [onStartBridge, hup, Bool.not_true, Bool.false_eq_true, if_false, if_true]

/-- A click on Start Bridge keeps the invariant. -/
theorem sound_onStartBridge (h : w.Sound) (hstart : w.startButton = true) (a : Answers)
    (listenError : Option String) : (w.onStartBridge lib a listenError).Sound := by
  rw [onStartBridge_eq h hstart]
  rw [h.buttons.start, Bool.and_eq_true, Bool.not_eq_true'] at hstart
  have hc := h.configure hstart.2
  have hsound := Engine.sound_startBridge hc.engine hstart.1 hstart.2 listenError
  rcases Engine.startBridge_some (hc.engine.client hstart.1) hstart.1 hstart.2 listenError with
    ⟨error, -, heq⟩ | ⟨-, e', hsame, heq⟩
  · rw [heq] at hsound ⊢
    exact .updateUiState hsound hc.parsed (shows_congr hc.status hstart.2 hstart.2 rfl) hc.count
  · rw [heq] at hsound ⊢
    obtain ⟨-, hcount⟩ := w.configure.call_updateStatus e'
    rw [call_concat]
    refine .updateUiState (by simpa [receive] using hsound) ?_ ?_ ?_
    · simpa [receive, hsame] using hc.parsed
    · simp [receive, Engine.Shows, hsame]
    · show Counts (w.configure.call (e', e'.updateStatus)).clientLabel
        (w.configure.call (e', e'.updateStatus)).engine.clients
      rw [hcount, call_engine, hsame]
      exact hc.count

/-! ### The timer and the sockets -/

/-- A timer event keeps the invariant. No button has to be refreshed. -/
theorem sound_timeout (h : w.Sound) {t : Tick} {r : Engine × List Signal}
    (ht : w.engine.onTick t = some r) : (w.call r).Sound := by
  rcases Engine.onTick_cases h.engine ht with
    ⟨-, rfl⟩ | ⟨hon, -, e', hsame, rfl⟩ | ⟨-, -, frame, -, rfl⟩
  · exact h
  · -- The connection is lost and no button is refreshed. The bridge runs on, and with it the
    -- buttons are the same as before.
    have hrunning : w.engine.bridgeRunning = true := by
      rw [Engine.sending, Bool.and_eq_true] at hon
      exact hon.2
    have hcall := call_cons w e' (.errorOccurred "OPC UA connection lost") e'.updateStatus
    obtain ⟨hshows, hcount⟩ :=
      (w.receive (.errorOccurred "OPC UA connection lost")).call_updateStatus e'
    refine ⟨?_, ?_, h.buttons.call (by rw [hsame]) (.inr hrunning), ?_, ?_⟩
    · rw [call_engine]
      refine h.engine.of_connection (by rw [hsame]) ?_
      rw [hsame]
      exact fun hup => absurd hup Bool.false_ne_true
    · rw [call_engine, hsame]
      exact h.parsed
    · rw [call_engine, hcall]
      exact hshows
    · rw [call_engine, hcall, hcount, hsame]
      exact h.count
  · exact ⟨Engine.sound_sent h.engine frame, h.parsed, h.buttons.of_engine rfl (.inl rfl),
      h.status, h.count⟩

/-- New connections keep the invariant. -/
theorem sound_newConnection (pending : Nat) (h : w.Sound)
    (hrunning : w.engine.bridgeRunning = true) :
    (w.call (Engine.onAcceptConnection pending w.engine)).Sound := by
  induction pending generalizing w with
  | zero => exact h
  | succ pending ih =>
      rw [Engine.onAcceptConnection, call_cons]
      refine ih (w := ({ w with engine := w.engine.acceptSocket }).receive
        (.clientCountChanged w.engine.acceptSocket.clients.length)) ?_ hrunning
      exact ⟨Engine.sound_acceptSocket h.engine hrunning, h.parsed,
        h.buttons.call (r := (w.engine.acceptSocket, [.clientCountChanged _])) rfl (.inl rfl),
        h.status, .inl rfl⟩

/-- So does a client that leaves. -/
theorem sound_disconnected (h : w.Sound) (sock : Nat) :
    (w.call (w.engine.onClientDisconnected sock)).Sound :=
  ⟨Engine.sound_onClientDisconnected h.engine sock, h.parsed, h.buttons.call rfl (.inl rfl),
    h.status, .inl rfl⟩

/-- A dialog that is closed by OK changes the row, and any other nothing. -/
theorem onSelectNode_cases {row : Nat} {inDialog : List NodeSelectionDialog.Event} {accepted : Bool}
    (h : w.onSelectNode lib row inDialog accepted = some w') :
    ∃ dlg, run (NodeSelectionDialog.step lib.toLower) w.openDialog inDialog = some dlg ∧
      ((accepted = false ∧ w' = w) ∨
        (accepted = true ∧ dlg.okButton = true ∧ w' = w.acceptNode row dlg)) := by
  rw [onSelectNode] at h
  split at h
  · cases h
  · rename_i dlg hrun
    refine ⟨dlg, hrun, ?_⟩
    split at h
    · rename_i haccepted
      obtain ⟨hok, h⟩ := Option.ite_none_right_eq_some.mp h
      exact .inr ⟨haccepted, hok, (Option.some.inj h).symm⟩
    · rename_i hrejected
      exact .inl ⟨Bool.not_eq_true _ ▸ hrejected, (Option.some.inj h).symm⟩

/-- The dialog changes nothing but the table and the cache. -/
theorem onSelectNode_eq {row : Nat} {inDialog : List NodeSelectionDialog.Event} {accepted : Bool}
    (h : w.onSelectNode lib row inDialog accepted = some w') :
    w' = { w with form := w'.form, cache := w'.cache } := by
  obtain ⟨dlg, -, ⟨-, rfl⟩ | ⟨-, -, rfl⟩⟩ := onSelectNode_cases h
  · rfl
  · unfold acceptNode
    split
    · rfl
    · rfl

/-- A guarded event. -/
theorem of_guard {c : Prop} [Decidable c] {w₁ : Window}
    (h : (if c then some w₁ else none) = some w') : c ∧ w₁ = w' :=
  (Option.ite_none_right_eq_some.mp h).imp_right Option.some.inj

/-- **One event.** -/
theorem sound_step (h : w.Sound) (hs : w.step lib ev = some w') : w'.Sound := by
  cases ev with
  | connect a =>
      obtain ⟨hbutton, rfl⟩ := of_guard hs
      rw [h.buttons.connect, Bool.and_eq_true, Bool.not_eq_true', Bool.not_eq_true'] at hbutton
      exact sound_onConnect h hbutton.2 a
  | disconnect visited =>
      obtain ⟨-, rfl⟩ := of_guard hs
      exact sound_onDisconnect h visited
  | startBridge a listenError =>
      obtain ⟨hbutton, rfl⟩ := of_guard hs
      exact sound_onStartBridge h hbutton a listenError
  | stopBridge visited =>
      obtain ⟨-, rfl⟩ := of_guard hs
      exact sound_onStopBridge h visited
  | edited form =>
      obtain ⟨-, rfl⟩ := of_guard hs
      -- An edit, a file that is loaded and a node that is picked change the form, which the engine
      -- reads at the next click only.
      exact ⟨h.engine, h.parsed, ⟨h.buttons.connect, h.buttons.disconnect, h.buttons.start,
        h.buttons.stop, h.buttons.edits⟩, h.status, h.count⟩
  | loaded doc =>
      obtain rfl := Option.some.inj hs
      exact ⟨h.engine, h.parsed, ⟨h.buttons.connect, h.buttons.disconnect, h.buttons.start,
        h.buttons.stop, h.buttons.edits⟩, h.status, h.count⟩
  | selectNode row inDialog accepted =>
      obtain ⟨-, hs⟩ := Option.ite_none_right_eq_some.mp hs
      rw [onSelectNode_eq hs]
      exact ⟨h.engine, h.parsed, ⟨h.buttons.connect, h.buttons.disconnect, h.buttons.start,
        h.buttons.stop, h.buttons.edits⟩, h.status, h.count⟩
  | timeout t =>
      obtain ⟨-, hs⟩ := Option.ite_none_right_eq_some.mp hs
      obtain ⟨r, ht, rfl⟩ := Option.map_eq_some_iff.mp hs
      exact sound_timeout h ht
  | newConnection pending =>
      obtain ⟨hlisten, rfl⟩ := of_guard hs
      exact sound_newConnection pending h (h.engine.tcpServer ▸ hlisten)
  | socketClosed sock =>
      obtain ⟨-, rfl⟩ := of_guard hs
      exact ⟨⟨h.engine.timer, h.engine.tcpServer, h.engine.client, h.engine.clients,
        h.engine.distinct, h.engine.known⟩, h.parsed, h.buttons.of_engine rfl (.inl rfl), h.status,
        h.count⟩
  | disconnected sock =>
      obtain ⟨-, rfl⟩ := of_guard hs
      exact sound_disconnected h sock

/-- **The invariant** holds in every state of every run. -/
theorem sound_of_run {file : Option JsonValue} {evs : List Event}
    (h : run (step lib) (init file) evs = some w) : w.Sound :=
  last_of_step (I := Sound) (fun _ _ _ => sound_step) (sound_init file) h

/-- **The buttons.** In every state that the window reaches, the buttons are as `updateUiState`
would set them, and the labels show the state of the engine and the number of clients. The timer and
the server are active exactly when the bridge runs. A connection needs a client. The bridge can only
be started on a connection, and then it takes the one that is there, whatever the server would
answer to another attempt. -/
theorem buttons_of_run {file : Option JsonValue} {evs : List Event}
    (h : run (step lib) (init file) evs = some w) :
    w.updateUiState = w ∧ w.engine.Shows w.statusLabel ∧
    Counts w.clientLabel w.engine.clients ∧
    w.engine.timer = w.engine.bridgeRunning ∧ w.engine.tcpServer = w.engine.bridgeRunning ∧
    (w.engine.opcUaConnected = true → w.engine.client = true) ∧
    (w.startButton = true → ∀ a listenError, w.onStartBridge lib a listenError =
      (w.configure.call (w.configure.engine.startBridge listenError)).updateUiState) := by
  have hsound := sound_of_run h
  exact ⟨hsound.buttons.updateUiState_eq, hsound.status, hsound.count, hsound.engine.timer,
    hsound.engine.tcpServer, hsound.engine.client, fun hstart => onStartBridge_eq hsound hstart⟩

/-! ### What an event does to the engine -/

/-- The engine after an event. A click on "Connect" connects or does not, one on "Start Bridge"
starts the bridge or does not, and the timer has three outcomes. -/
inductive Effect (w : Window) : Event → Engine → Prop where
  | connected (a : Answers) (hgood : a.Good w.engine.client)
      (hres : Engine.Resolvable w.configure.engine.mappings)
      (hoff : w.engine.bridgeRunning = false) : Effect w (.connect a)
      { w.configure.engine with
        client := true, opcUaConnected := true, namespaceIndex := a.namespaceGetIndex.2 }
  | refused (a : Answers) (client : Bool) (namespaceIndex : UInt16)
      (hoff : w.engine.bridgeRunning = false) : Effect w (.connect a)
      { w.configure.engine with client, namespaceIndex, opcUaConnected := false }
  | disconnect (visited : List Nat) :
      Effect w (.disconnect visited) (w.engine.stopBridge visited).1.disconnectFromOpcUa.1
  | started (a : Answers) (hup : w.engine.opcUaConnected = true)
      (hoff : w.engine.bridgeRunning = false) : Effect w (.startBridge a none)
      { w.configure.engine with tcpServer := true, bridgeRunning := true, timer := true }
  | unable (a : Answers) (error : String) (hoff : w.engine.bridgeRunning = false) :
      Effect w (.startBridge a (some error)) { w.configure.engine with tcpServer := false }
  | stopBridge (visited : List Nat) :
      Effect w (.stopBridge visited) (w.engine.stopBridge visited).1
  | edited (form : MainWindow) : Effect w (.edited form) w.engine
  | loaded (doc : JsonValue) : Effect w (.loaded doc) w.engine
  | selectNode (row : Nat) (inDialog : List NodeSelectionDialog.Event) (accepted : Bool) :
      Effect w (.selectNode row inDialog accepted) w.engine
  | idle (t : Tick) (hdown : w.engine.opcUaConnected = false) : Effect w (.timeout t) w.engine
  | lost (t : Tick) (hlost : t.state.lost = true) :
      Effect w (.timeout t) { w.engine with opcUaConnected := false }
  | frame (t : Tick) (bytes : Bytes) (hon : w.engine.sending = true) (hup : t.state.lost = false)
      (hbytes : encodeFrame w.engine.mappings w.engine.sequence t.timestampMs t.read = some bytes) :
      Effect w (.timeout t) (w.engine.sent bytes)
  | newConnection (pending : Nat) :
      Effect w (.newConnection pending) (Engine.onAcceptConnection pending w.engine).1
  | socketClosed (sock : Nat) : Effect w (.socketClosed sock)
      { w.engine with connectedState := Function.update w.engine.connectedState sock false }
  | disconnected (sock : Nat) :
      Effect w (.disconnected sock) (w.engine.onClientDisconnected sock).1

/-- What an event does to the engine. -/
theorem effect_of_step (h : w.Sound) (hs : w.step lib ev = some w') :
    Effect w ev w'.engine := by
  cases ev with
  | connect a =>
      obtain ⟨hbutton, rfl⟩ := of_guard hs
      rw [h.buttons.connect, Bool.and_eq_true, Bool.not_eq_true', Bool.not_eq_true'] at hbutton
      have hc := h.configure hbutton.2
      rw [onConnect, updateUiState_engine, call_engine]
      rcases Engine.connectToOpcUa_cases lib.statusCodeName hc.engine hc.parsed a with
        ⟨hgood, hres, e', rfl, heq⟩ | ⟨-, e', error, status, hsame, heq, -⟩
      · rw [heq]
        exact .connected a hgood hres hbutton.2
      · rw [heq, hsame]
        exact .refused a e'.client e'.namespaceIndex hbutton.2
  | disconnect visited =>
      obtain ⟨-, rfl⟩ := of_guard hs
      rw [onDisconnect, updateUiState_engine, call_engine, call_engine]
      exact .disconnect visited
  | startBridge a listenError =>
      obtain ⟨hbutton, rfl⟩ := of_guard hs
      rw [onStartBridge_eq h hbutton, updateUiState_engine, call_engine]
      rw [h.buttons.start, Bool.and_eq_true, Bool.not_eq_true'] at hbutton
      have hclient := h.engine.client hbutton.1
      rcases Engine.startBridge_some (e := w.configure.engine) hclient hbutton.1 hbutton.2
          listenError with ⟨error, rfl, heq⟩ | ⟨rfl, e', rfl, heq⟩
      · rw [heq]
        exact .unable a error hbutton.2
      · rw [heq]
        exact .started a hbutton.1 hbutton.2
  | stopBridge visited =>
      obtain ⟨-, rfl⟩ := of_guard hs
      rw [onStopBridge, updateUiState_engine, call_engine]
      exact .stopBridge visited
  | edited form =>
      obtain ⟨-, rfl⟩ := of_guard hs
      exact .edited form
  | loaded doc =>
      obtain rfl := Option.some.inj hs
      exact .loaded doc
  | selectNode row inDialog accepted =>
      obtain ⟨-, hs⟩ := Option.ite_none_right_eq_some.mp hs
      rw [onSelectNode_eq hs]
      exact .selectNode row inDialog accepted
  | timeout t =>
      obtain ⟨htimer, hs⟩ := Option.ite_none_right_eq_some.mp hs
      obtain ⟨r, ht, rfl⟩ := Option.map_eq_some_iff.mp hs
      rw [call_engine]
      rcases Engine.onTick_cases h.engine ht with
        ⟨hoff, rfl⟩ | ⟨-, hlost, e', rfl, rfl⟩ | ⟨hon, hup, bytes, hbytes, rfl⟩
      · -- The timer is on, and so is the bridge: it is the connection that is missing.
        refine .idle t (Bool.eq_false_iff.mpr fun hup => ?_)
        rw [Engine.sending, h.engine.client hup, hup, ← h.engine.timer, htimer] at hoff
        cases hoff
      · exact .lost t hlost
      · exact .frame t bytes hon hup hbytes
  | newConnection pending =>
      obtain ⟨-, rfl⟩ := of_guard hs
      rw [call_engine]
      exact .newConnection pending
  | socketClosed sock =>
      obtain ⟨-, rfl⟩ := of_guard hs
      exact .socketClosed sock
  | disconnected sock =>
      obtain ⟨-, rfl⟩ := of_guard hs
      exact .disconnected sock

/-! ### The frames of a run -/

open Engine (Idle)

/-- What the configuration and the connection are does not matter to the sockets. -/
theorem idle_of_connection {e e' : Engine} (hsame : e' = { e with
      endpointUrl := e'.endpointUrl, namespaceUri := e'.namespaceUri, tcpPort := e'.tcpPort
      mappings := e'.mappings, client := e'.client, timer := e'.timer, tcpServer := e'.tcpServer
      opcUaConnected := e'.opcUaConnected, bridgeRunning := e'.bridgeRunning
      namespaceIndex := e'.namespaceIndex }) : Idle e e' :=
  .of_fewer (by rw [hsame]) (by rw [hsame]) (by rw [hsame]) (by rw [hsame]; exact fun _ => id)
    (by rw [hsame]; exact fun _ => id)

/-- A timer event makes a frame when the engine sends and the connection holds. -/
theorem frameOf_timeout (w : Window) (t : Tick) : frameOf w (.timeout t) =
    if w.engine.sending && !t.state.lost then
      (encodeFrame w.engine.mappings w.engine.sequence t.timestampMs t.read).map
        (⟨w.engine.sequence + 1, t.timestampMs, w.engine.mappings, ·⟩)
    else none := rfl

/-- **One event** sends a frame or it does not. -/
theorem frame_of_effect {e' : Engine} (h : Effect w ev e') :
    (frameOf w ev = none ∧ Idle w.engine e') ∨
    ∃ frame, frameOf w ev = some frame ∧ frame.sequence = w.engine.sequence + 1 ∧
      e' = w.engine.sent frame.bytes := by
  cases h with
  | connected a => exact .inl ⟨rfl, idle_of_connection rfl⟩
  | refused a => exact .inl ⟨rfl, idle_of_connection rfl⟩
  | disconnect visited =>
      exact .inl ⟨rfl, (Engine.idle_stopBridge w.engine visited).trans (idle_of_connection rfl)⟩
  | started a => exact .inl ⟨rfl, idle_of_connection rfl⟩
  | unable a => exact .inl ⟨rfl, idle_of_connection rfl⟩
  | stopBridge visited => exact .inl ⟨rfl, Engine.idle_stopBridge w.engine visited⟩
  | edited form => exact .inl ⟨rfl, .refl _⟩
  | loaded doc => exact .inl ⟨rfl, .refl _⟩
  | selectNode row inDialog accepted => exact .inl ⟨rfl, .refl _⟩
  | idle t hdown =>
      rw [frameOf_timeout, Engine.sending, hdown, Bool.and_false]
      exact .inl ⟨rfl, .refl _⟩
  | lost t hlost =>
      rw [frameOf_timeout, hlost, Bool.not_true, Bool.and_false]
      exact .inl ⟨rfl, idle_of_connection rfl⟩
  | frame t bytes hon hup hbytes =>
      rw [frameOf_timeout, hon, hup, hbytes]
      exact .inr ⟨_, rfl, rfl, rfl⟩
  | newConnection pending => exact .inl ⟨rfl, Engine.idle_onAcceptConnection pending w.engine⟩
  | socketClosed sock =>
      -- The socket stays in the list until Qt tells that it has gone.
      refine .inl ⟨rfl, .of_fewer rfl rfl rfl (fun _ => id) fun s hup => ?_⟩
      by_cases hsock : s = sock
      · subst hsock
        simp at hup
      · simpa [hsock] using hup
  | disconnected sock =>
      refine .inl ⟨rfl, .of_fewer rfl rfl rfl (fun s hmem => ?_) fun _ => id⟩
      exact List.mem_of_mem_filter hmem

/-- The frames that are written, for an empty one is not. -/
def payloads (frames : List Frame) : List Bytes := (frames.map Frame.bytes).filter (· ≠ [])

/-- Payloads of frames that follow each other follow each other. -/
theorem payloads_append (frames frames' : List Frame) :
    payloads (frames ++ frames') = payloads frames ++ payloads frames' := by
  rw [payloads, List.map_append, List.filter_append]
  rfl

/-- The frames that a run makes from the event on in which the socket is accepted. -/
def framesSince (lib : Library) (sock : Nat) (w : Window) (evs : List Event) : List Frame :=
  outputsSince (step lib) frameOf (fun w => sock < w.engine.sockets) w evs

/-- A socket that has come is not forgotten. -/
theorem sockets_of_effect {e' : Engine} (h : Effect w ev e') :
    w.engine.sockets ≤ e'.sockets := by
  rcases frame_of_effect h with ⟨-, hidle⟩ | ⟨frame, -, -, rfl⟩
  · exact hidle.sockets
  · exact Nat.le_refl _

/-- The frames since a socket came, with one more event. -/
theorem framesSince_concat {file : Option JsonValue} {evs : List Event} {sock : Nat}
    (hrun : run (step lib) (init file) evs = some w) (hs : w.step lib ev = some w') :
    framesSince lib sock (init file) (evs ++ [ev]) =
      framesSince lib sock (init file) evs ++
        if sock < w'.engine.sockets then (frameOf w ev).toList else [] := by
  refine outputsSince_concat (I := Sound) (fun _ _ _ => sound_step)
    (fun w ev w' hsound hcame hs => ?_) (sound_init file) hrun hs
  exact Nat.lt_of_lt_of_le hcame (sockets_of_effect (effect_of_step hsound hs))

/-- What has been written to a socket, after any run. -/
theorem written_of_run {file : Option JsonValue} {evs : List Event}
    (h : run (step lib) (init file) evs = some w) (sock : Nat) :
    w.engine.Written sock (payloads (framesSince lib sock (init file) evs)) := by
  refine run_induction (C := fun evs w => w.engine.Written sock
    (payloads (framesSince lib sock (init file) evs))) .start ?_ h
  intro evs w ev w' hrun hwritten hs
  have hsound := sound_of_run hrun
  have heffect := effect_of_step hsound hs
  rw [framesSince_concat hrun hs]
  rcases frame_of_effect heffect with ⟨hnone, hidle⟩ | ⟨frame, hframe, -, hsent⟩
  · rw [hnone, Option.toList_none, ite_self, List.append_nil]
    exact hidle.written sock _ hwritten
  · -- A frame brings nobody, so that it counts for those who were there before.
    have hsockets : w'.engine.sockets = w.engine.sockets := by
      rw [hsent]
      rfl
    rw [hframe, Option.toList_some, hsockets, payloads_append, hsent]
    convert hwritten.sent hsound.engine frame.bytes using 2
    by_cases hcame : sock < w.engine.sockets <;> by_cases hempty : frame.bytes = [] <;>
      simp [payloads, hcame, hempty]

/-- **What a client of the Qt bridge gets.** The frames of all bridges that run in one window are
numbered 1, 2, 3 and so on, through all starts and connections, and those that are made from the
event on in which a socket is accepted are the last ones of them. As long as the socket is in the
list and connected, all of these have been written to it, but for empty ones. Otherwise what has
been written to it is the first ones of these. -/
theorem blocks_of_run {file : Option JsonValue} {evs : List Event}
    (h : run (step lib) (init file) evs = some w) (sock : Nat) :
    let frames := outputs (step lib) frameOf (init file) evs
    let since := framesSince lib sock (init file) evs
    frames.map Frame.sequence = (List.range frames.length).map (fun i => UInt64.ofNat (i + 1)) ∧
    since <:+ frames ∧ w.engine.written sock <+: payloads since ∧
    (sock ∈ w.engine.clients → w.engine.connectedState sock = true →
      w.engine.written sock = payloads since) := by
  intro frames since
  have hwritten := written_of_run h sock
  refine ⟨?_, outputsSince_suffix _ evs, hwritten.inner, fun hin hup => hwritten.whole ⟨hin, hup⟩⟩
  -- The counter belongs to the engine of the window, which outlives its bridges.
  refine Subscription.numbered_of_run (I := Sound) (fun w : Window => w.engine.sequence)
    (fun _ _ _ => sound_step) (fun w ev w' hsound hs => ?_) (sound_init file) rfl h
  rcases frame_of_effect (effect_of_step hsound hs) with
    ⟨hnone, hidle⟩ | ⟨frame, hframe, hnumber, hsent⟩
  · exact .inl ⟨hnone, hidle.sequence⟩
  · exact .inr ⟨frame, hframe, hnumber, by rw [hsent]; rfl⟩

/-! ### Where a frame comes from -/

/-- A connection is kept, or it is made. -/
theorem connected_of_effect {e' : Engine} (h : Effect w ev e') (hup : e'.opcUaConnected = true) :
    (w.engine.opcUaConnected = true ∧ ¬ ev.breaks = true) ∨ ev.Connects w := by
  cases h with
  | connected a hgood hres => exact .inr ⟨hgood, hres⟩
  -- A refusal and a loss leave no connection.
  | refused a => cases hup
  | disconnect visited => cases hup
  | started a => exact .inl ⟨hup, Bool.false_ne_true⟩
  | unable a => exact .inl ⟨hup, Bool.false_ne_true⟩
  | stopBridge visited => exact .inl ⟨hup, Bool.false_ne_true⟩
  | edited form => exact .inl ⟨hup, Bool.false_ne_true⟩
  | loaded doc => exact .inl ⟨hup, Bool.false_ne_true⟩
  | selectNode row inDialog accepted => exact .inl ⟨hup, Bool.false_ne_true⟩
  | idle t hdown =>
      rw [hdown] at hup
      cases hup
  | lost t hlost => cases hup
  | frame t bytes hon hlive => exact .inl ⟨hup, Bool.eq_false_iff.mp hlive⟩
  | newConnection pending =>
      rw [Engine.onAcceptConnection_eq] at hup
      exact .inl ⟨hup, Bool.false_ne_true⟩
  | socketClosed sock => exact .inl ⟨hup, Bool.false_ne_true⟩
  | disconnected sock => exact .inl ⟨hup, Bool.false_ne_true⟩

/-- A bridge and its mappings are kept, or it is started with them. -/
theorem running_of_effect {mappings : List SensorMapping} {e' : Engine} (h : Effect w ev e')
    (hon : e'.bridgeRunning = true ∧ e'.mappings = mappings) :
    ((w.engine.bridgeRunning = true ∧ w.engine.mappings = mappings) ∧ ¬ ev.stops = true) ∨
      ev.Starts mappings w := by
  cases h with
  -- The connection can only be made or refused while no bridge runs.
  | connected a hgood hres hoff => exact absurd hon.1 (Bool.eq_false_iff.mp hoff)
  | refused a client index hoff => exact absurd hon.1 (Bool.eq_false_iff.mp hoff)
  | disconnect visited => cases hon.1
  | started a hup => exact .inr ⟨rfl, hup, hon.2⟩
  | unable a error hoff => exact absurd hon.1 (Bool.eq_false_iff.mp hoff)
  | stopBridge visited => cases hon.1
  | edited form => exact .inl ⟨hon, Bool.false_ne_true⟩
  | loaded doc => exact .inl ⟨hon, Bool.false_ne_true⟩
  | selectNode row inDialog accepted => exact .inl ⟨hon, Bool.false_ne_true⟩
  | idle t hdown => exact .inl ⟨hon, Bool.false_ne_true⟩
  | lost t hlost => exact .inl ⟨hon, Bool.false_ne_true⟩
  | frame t bytes hup hlive => exact .inl ⟨hon, Bool.false_ne_true⟩
  | newConnection pending =>
      rw [Engine.onAcceptConnection_eq] at hon
      exact .inl ⟨hon, Bool.false_ne_true⟩
  | socketClosed sock => exact .inl ⟨hon, Bool.false_ne_true⟩
  | disconnected sock => exact .inl ⟨hon, Bool.false_ne_true⟩

/-- A bridge on a connection: both are kept, or the bridge is started. -/
theorem streaming_of_effect {mappings : List SensorMapping} {e' : Engine} (h : Effect w ev e')
    (hup : e'.opcUaConnected = true) (hon : e'.bridgeRunning = true ∧ e'.mappings = mappings) :
    ((w.engine.opcUaConnected = true ∧ w.engine.bridgeRunning = true ∧
      w.engine.mappings = mappings) ∧ ¬ (ev.breaks = true ∨ ev.stops = true)) ∨
    ev.Starts mappings w := by
  rcases running_of_effect h hon with ⟨hold, hstops⟩ | hstarts
  · rcases connected_of_effect h hup with ⟨hkept, hbreaks⟩ | hconnects
    · exact .inl ⟨⟨hkept, hold⟩, not_or.mpr ⟨hbreaks, hstops⟩⟩
    · -- Nobody can connect while the bridge runs.
      cases h with
      | connected a hgood hres hoff => exact absurd hold.1 (Bool.eq_false_iff.mp hoff)
      | refused a client index hoff => exact absurd hold.1 (Bool.eq_false_iff.mp hoff)
      | _ => exact absurd hconnects id
  · exact .inr hstarts

/-- Only the timer makes a frame. -/
theorem timeout_of_frame {frame : Frame} (h : frameOf w ev = some frame) :
    ∃ t, ev = .timeout t ∧ w.engine.sending = true ∧ t.state.lost = false ∧
      w.engine.mappings = frame.mappings ∧
      encodeFrame w.engine.mappings w.engine.sequence frame.timestampMs t.read
        = some frame.bytes := by
  cases ev with
  | timeout t =>
      rw [frameOf_timeout] at h
      obtain ⟨hsends, h⟩ := Option.ite_none_right_eq_some.mp h
      obtain ⟨bytes, hbytes, rfl⟩ := Option.map_eq_some_iff.mp h
      rw [Bool.and_eq_true, Bool.not_eq_true'] at hsends
      exact ⟨t, rfl, hsends.1, hsends.2, rfl, hbytes⟩
  | _ => cases h

/-- **Where a frame comes from.** Some click on "Connect" was answered well, when all texts of the
table were node ids, and nothing has ended the connection since. A click on "Start Bridge" came
after it, and nothing has ended the bridge since. The frame has the mappings of the table as it was
at that click, whatever has been edited since, and the values that the client has just read for
them. -/
theorem history_of_frame {file : Option JsonValue} {evs : List Event} {frame : Frame}
    (h : run (step lib) (init file) evs = some w) (hframe : frameOf w ev = some frame) :
    ∃ before a between b since w₁ w₂,
      evs = before ++ .connect a :: between ++ .startBridge b none :: since ∧
      run (step lib) (init file) before = some w₁ ∧ a.Good w₁.engine.client ∧
      Engine.Resolvable (w₁.form.mappingsFromTable.map Engine.sensorMapping) ∧
      run (step lib) (init file) (before ++ .connect a :: between) = some w₂ ∧
      (∀ e ∈ between ++ since, ¬ e.breaks = true) ∧ (∀ e ∈ since, ¬ e.stops = true) ∧
      frame.mappings = w₂.form.mappingsFromTable.map Engine.sensorMapping ∧
      ∃ t, ev = .timeout t ∧ t.state.lost = false ∧
        encodeFrame frame.mappings w.engine.sequence frame.timestampMs t.read
          = some frame.bytes := by
  obtain ⟨t, rfl, hon, hlive, hbytes⟩ := timeout_of_frame hframe
  have hflags : w.engine.opcUaConnected = true ∧ w.engine.bridgeRunning = true ∧
      w.engine.mappings = frame.mappings := by
    rw [Engine.sending, Bool.and_eq_true, Bool.and_eq_true] at hon
    exact ⟨hon.1.2, hon.2, hbytes.1⟩
  -- Backwards from the frame: the start of the bridge, and before it the connection. Each flag was
  -- set by some event, and no later one has cleared it.
  obtain ⟨before₂, ev₂, since, w₂, rfl, hrun₂, hstarts, hsince⟩ :=
    exists_set_of_run (I := Sound)
      (P := fun w => w.engine.opcUaConnected = true ∧ w.engine.bridgeRunning = true ∧
        w.engine.mappings = frame.mappings) (Event.Starts frame.mappings)
      (fun e => e.breaks = true ∨ e.stops = true) (fun _ _ _ => sound_step)
      (fun _ _ _ hsound hs hend => streaming_of_effect (effect_of_step hsound hs) hend.1 hend.2)
      (sound_init file) (fun hstart => Bool.false_ne_true hstart.1) h hflags
  cases ev₂ with
  | startBridge b listenError =>
      obtain ⟨rfl, hup, hmappings⟩ := hstarts
      obtain ⟨before, ev₁, between, w₁, rfl, hrun₁, hconnects, hbetween⟩ :=
        exists_set_of_run (I := Sound) (P := fun w => w.engine.opcUaConnected = true)
          Event.Connects (fun e => e.breaks = true) (fun _ _ _ => sound_step)
          (fun _ _ _ hsound hs hend => connected_of_effect (effect_of_step hsound hs) hend)
          (sound_init file) Bool.false_ne_true hrun₂ hup
      cases ev₁ with
      | connect a =>
          refine ⟨before, a, between, b, since, w₁, w₂, rfl, hrun₁, hconnects.1, hconnects.2, hrun₂,
            fun e he => ?_, fun e he => (not_or.mp (hsince e he)).2, hmappings.symm, t, rfl, hlive,
            hbytes.1 ▸ hbytes.2⟩
          rcases List.mem_append.mp he with he | he
          · exact hbetween e he
          · exact (not_or.mp (hsince e he)).1
      | _ => exact absurd hconnects id
  | _ => exact absurd hstarts id

/-! ### A session -/

/-- A server that answers. -/
def answering : Answers := ⟨true, statusCodeGood, statusCodeGood, 2⟩

/-- The connection is there, and the sensor is on. -/
def aliveTick : Tick where
  state := ⟨.opened, .activated, statusCodeGood⟩
  timestampMs := 1000
  read _ _ := ⟨statusCodeGood, some (.scalar (.boolean true))⟩

/-- One sensor, a bridge, a client and a frame. -/
def session : List Event :=
  [.edited { setupUi with mappingTable := [⟨"Level", "ns=2;s=Sensor_1", 0, true⟩] },
    .connect answering, .startBridge answering none, .newConnection 1, .timeout aliveTick]

/-- Names of status codes, and ASCII letters in lower case. -/
def plainLibrary : Library where
  statusCodeName status := toString status.toNat
  toLower text := String.ofList (text.toList.map Char.toLower)

/-- The session of the witness ends in a state that makes a frame. -/
theorem run_session : ∃ w, run (step plainLibrary) (init none) session = some w ∧
    (frameOf w (.timeout aliveTick)).isSome = true := by
  have h : (run (step plainLibrary) (init none) session).any (fun w =>
      (frameOf w (.timeout aliveTick)).isSome) = true := by
    decide +kernel
  exact (Option.any_eq_true _ _).mp h

/-- In the session the buttons are right. -/
theorem buttons_of_run_session : ∃ w, run (step plainLibrary) (init none) session = some w ∧
    w.updateUiState = w := by
  obtain ⟨w, hrun, -⟩ := run_session
  exact ⟨w, hrun, (buttons_of_run hrun).1⟩

/-- Its first client has the first frames since it came. -/
theorem blocks_of_run_session : ∃ w, run (step plainLibrary) (init none) session = some w ∧
    w.engine.written 0 <+: payloads (framesSince plainLibrary 0 (init none) session) := by
  obtain ⟨w, hrun, -⟩ := run_session
  exact ⟨w, hrun, (blocks_of_run hrun 0).2.2.1⟩

/-- Its next frame has the mappings of the table. -/
theorem history_of_frame_session : ∃ w frame, run (step plainLibrary) (init none) session = some w ∧
    frameOf w (.timeout aliveTick) = some frame ∧
    ∃ w₂ : Window, frame.mappings = w₂.form.mappingsFromTable.map Engine.sensorMapping := by
  obtain ⟨w, hrun, hsome⟩ := run_session
  obtain ⟨frame, hframe⟩ := Option.isSome_iff_exists.mp hsome
  obtain ⟨-, -, -, -, -, -, w₂, -, -, -, -, -, -, -, hmappings, -⟩ := history_of_frame hrun hframe
  exact ⟨w, frame, hrun, hframe, w₂, hmappings⟩

end Window

end SmartFactory.Gui
