import SmartFactory.Gui.Engine
import SmartFactory.Lib.Subscription

/-!
# `SmartFactory.Proofs.Gui.Engine`: what each method of the engine does

One lemma for each method says what it can do. `Engine.Sound` is the invariant: the timer and the
server are active exactly when the bridge runs, a connection needs a client, and the sockets in the
list are different ones of a running bridge. `Engine.Written` follows what one socket gets.
-/

set_option autoImplicit false

namespace SmartFactory.Gui

open Bridge (SensorMapping Mapping statusCodeGood parseNodeId encodeFrame)
open MessagePack (Bytes)

/-- The client answers an attempt to connect. -/
structure Answers.Good (client : Bool) (a : Answers) : Prop where
  created : client = false → a.created = true
  connect : a.connect = statusCodeGood
  namespaceGetIndex : a.namespaceGetIndex.1 = statusCodeGood

namespace Engine

variable {e e' : Engine} {sock : Nat}

/-! ### Mappings -/

/-- The texts of the mappings that have one are node ids. -/
def Resolvable (ms : List SensorMapping) : Prop :=
  ∀ m ∈ ms, m.nodeIdString ≠ "" → (parseNodeId m.nodeIdString).isSome

/-- The node ids of the mappings are those of their texts. -/
def Parsed (ms : List SensorMapping) : Prop :=
  ∀ m ∈ ms, m.nodeId = if m.nodeIdString = "" then nodeIdInit else nodeIdOf m.nodeIdString

/-- `setMappings` parses the node ids. -/
theorem parsed_setMappings (e : Engine) (ms : List Mapping) :
    Parsed (e.setMappings ms).mappings := by
  intro m hm
  obtain ⟨m', -, rfl⟩ := List.mem_map.mp hm
  rfl

/-- What `resolveNodeIds` does has been done by `setMappings`. -/
theorem resolveMappings_of_parsed {ms : List SensorMapping} (h : Parsed ms) :
    (resolveMappings ms).1 = ms ∧ ((resolveMappings ms).2 = true ↔ Resolvable ms) := by
  induction ms with
  | nil => exact ⟨rfl, by simp [resolveMappings, Resolvable]⟩
  | cons m ms ih =>
      obtain ⟨hrest, hall⟩ := ih fun m' hm' => h m' (List.mem_cons_of_mem m hm')
      have hm := h m (List.mem_cons_self ..)
      rw [resolveMappings]
      split
      · rename_i htext
        rw [if_pos htext] at hm
        have hsame : { m with nodeId := nodeIdInit } = m := by rw [← hm]
        refine ⟨by simp only [hsame, hrest], hall.trans ?_⟩
        simp [Resolvable, htext]
      · rename_i htext
        rw [if_neg htext] at hm
        split
        · -- The text has no node id. The mapping has the empty one already, and the loop stops
          -- here.
          rename_i hparse
          have hsame : { m with nodeId := nodeIdInit } = m := by
            rw [nodeIdOf, hparse, Option.getD_none] at hm
            rw [← hm]
          refine ⟨by rw [hsame], iff_of_false Bool.false_ne_true fun hres => ?_⟩
          have hsome := hres m (List.mem_cons_self ..) htext
          rw [hparse] at hsome
          cases hsome
        · rename_i nodeId hparse
          have hsame : { m with nodeId := nodeId } = m := by
            rw [nodeIdOf, hparse, Option.getD_some] at hm
            rw [← hm]
          refine ⟨by simp only [hsame, hrest], hall.trans ?_⟩
          simp [Resolvable, hparse]

/-! ### The status -/

/-- The texts that `updateStatus` and `startBridge` show for a state of the engine. Nothing has been
shown in the beginning. -/
def Shows (e : Engine) (status : String) : Prop :=
  if e.bridgeRunning then
    (∃ n : Nat, status = "Bridge running | " ++ toString n ++ " client(s)") ∨
      status = "Bridge running on port " ++ toString e.tcpPort.toNat
  else if e.opcUaConnected then status = "OPC UA connected"
  else status = "" ∨ status = "Disconnected"

/-- The status that is shown is that of the engine. -/
theorem updateStatus_shows (e : Engine) :
    ∃ status, e.updateStatus = [.statusChanged status] ∧ e.Shows status := by
  unfold updateStatus Shows
  split
  · exact ⟨_, rfl, .inl ⟨_, rfl⟩⟩
  · split
    · exact ⟨_, rfl, rfl⟩
    · exact ⟨_, rfl, .inr rfl⟩

/-! ### The methods -/

/-- The invariant of the engine. -/
structure Sound (e : Engine) : Prop where
  timer : e.timer = e.bridgeRunning
  tcpServer : e.tcpServer = e.bridgeRunning
  client : e.opcUaConnected = true → e.client = true
  clients : e.bridgeRunning = false → e.clients = []
  distinct : e.clients.Nodup
  known : ∀ sock ∈ e.clients, sock < e.sockets

/-- The engine starts sound. -/
theorem sound_init : Sound init where
  timer := rfl
  tcpServer := rfl
  client := nofun
  clients _ := rfl
  distinct := List.nodup_nil
  known := nofun

/-- A connection needs both: good answers and node ids in the texts. -/
theorem connectToOpcUa_cases (statusCodeName : UInt32 → String) (h : e.Sound)
    (hparsed : Parsed e.mappings) (a : Answers) :
    (a.Good e.client ∧ Resolvable e.mappings ∧
      ∃ e', e' = { e with
        client := true, opcUaConnected := true, namespaceIndex := a.namespaceGetIndex.2 } ∧
      e.connectToOpcUa statusCodeName a = (e', e'.updateStatus)) ∨
    (¬ (a.Good e.client ∧ Resolvable e.mappings) ∧ ∃ e' error status,
      e' = { e with
        client := e'.client, opcUaConnected := false, namespaceIndex := e'.namespaceIndex } ∧
      e.connectToOpcUa statusCodeName a = (e', .errorOccurred error :: status) ∧
      (status = e'.updateStatus ∨ status = [] ∧ e' = e)) := by
  obtain ⟨hsame, hall⟩ := resolveMappings_of_parsed hparsed
  rw [connectToOpcUa]
  split
  · rename_i hcreated
    rw [Bool.and_eq_true, Bool.not_eq_true', Bool.not_eq_true'] at hcreated
    -- `UA_Client_new` failed: the engine returns before it changes anything, and without a client
    -- it had no connection.
    have hdown : e.opcUaConnected = false := by
      cases hup : e.opcUaConnected with
      | false => rfl
      | true => rw [h.client hup] at hcreated; cases hcreated.1
    refine .inr ⟨fun hgood => ?_, e, _, [], ?_, rfl, .inr ⟨rfl, rfl⟩⟩
    · have hmade := hgood.1.created hcreated.1
      rw [hcreated.2] at hmade
      cases hmade
    · rw [← hdown]
  · rename_i hcreated
    dsimp only
    split
    · rename_i hconnect
      exact .inr ⟨fun hgood => hconnect hgood.1.connect, _, _, _, rfl, rfl, .inl rfl⟩
    · rename_i hconnect
      split
      · rename_i hindex
        exact .inr ⟨fun hgood => hindex hgood.1.namespaceGetIndex, _, _, _, rfl, rfl, .inl rfl⟩
      · rename_i hindex
        have hgood : a.Good e.client :=
          { created := fun hnone => by simpa [hnone] using hcreated
            connect := not_not.mp hconnect
            namespaceGetIndex := not_not.mp hindex }
        rw [hsame]
        -- The client is there and connected, and the node ids decide.
        cases hres : (resolveMappings e.mappings).2 with
        | true => exact .inl ⟨hgood, hall.mp hres, _, rfl, rfl⟩
        | false =>
            refine .inr ⟨fun hboth => ?_, _, _, _, rfl, rfl, .inl rfl⟩
            rw [hall.mpr hboth.2] at hres
            cases hres

/-- How `startBridge` ends, when its checks have passed. -/
theorem startBridge_some (h : e.client = true) (hup : e.opcUaConnected = true)
    (hoff : e.bridgeRunning = false) (listenError : Option String) :
    (∃ error, listenError = some error ∧ e.startBridge listenError
        = ({ e with tcpServer := false }, [.errorOccurred ("TCP listen failed: " ++ error)])) ∨
    (listenError = none ∧
      ∃ e', e' = { e with tcpServer := true, bridgeRunning := true, timer := true } ∧
      e.startBridge listenError = (e', e'.updateStatus ++
        [.statusChanged ("Bridge running on port " ++ toString e.tcpPort.toNat)])) := by
  simp only [startBridge, h, hup, hoff, Bool.false_eq_true, if_false, Bool.not_true, Bool.or_self]
  cases listenError with
  | some error => exact .inl ⟨error, rfl, rfl⟩
  | none => exact .inr ⟨rfl, _, rfl, rfl⟩

/-- The loop over different sockets writes to each that is connected. -/
theorem foldl_writeTo (frame : Bytes) {socks : List Nat} (h : socks.Nodup) (e : Engine) :
    socks.foldl (writeTo frame) e = { e with
      written := fun sock => if sock ∈ socks ∧ e.connectedState sock = true
        then e.written sock ++ [frame] else e.written sock } := by
  induction socks generalizing e with
  | nil => simp
  | cons s socks ih =>
      obtain ⟨hnew, hrest⟩ := List.nodup_cons.mp h
      rw [List.foldl_cons, ih hrest, writeTo]
      split
      · -- The socket is not met again, so that it gets the frame once.
        rename_i hup
        congr 1
        funext sock
        by_cases hs : sock = s
        · subst hs
          simp [hnew, hup]
        · simp [hs]
      · rename_i hdown
        congr 1
        funext sock
        by_cases hs : sock = s
        · subst hs
          simp [hnew, hdown]
        · simp [hs]

/-- The engine sends: it has a client, a connection and a running bridge. -/
def sending (e : Engine) : Bool := e.client && e.opcUaConnected && e.bridgeRunning

/-- The engine after a frame. -/
def sent (e : Engine) (frame : Bytes) : Engine :=
  { e with
    sequence := e.sequence + 1
    written := fun sock => if frame ≠ [] ∧ sock ∈ e.clients ∧ e.connectedState sock = true
      then e.written sock ++ [frame] else e.written sock }

/-- **The timer.** It does nothing, it finds that the connection is lost, or it sends a frame to the
sockets that are connected. -/
theorem onTick_cases (h : e.Sound) {t : Tick} {r : Engine × List Signal}
    (ht : e.onTick t = some r) : (e.sending = false ∧ r = (e, [])) ∨
    (e.sending = true ∧ t.state.lost = true ∧ ∃ e', e' = { e with opcUaConnected := false } ∧
      r = (e', .errorOccurred "OPC UA connection lost" :: e'.updateStatus)) ∨
    (e.sending = true ∧ t.state.lost = false ∧ ∃ frame,
      encodeFrame e.mappings e.sequence t.timestampMs t.read = some frame ∧
        r = (e.sent frame, [])) := by
  have hsending : (!e.client || !e.opcUaConnected || !e.bridgeRunning) = !e.sending := by
    rw [sending, Bool.not_and, Bool.not_and]
  rw [onTick, hsending] at ht
  split at ht
  · rename_i hoff
    exact .inl ⟨by simpa using hoff, (Option.some.inj ht).symm⟩
  · rename_i hon
    have hon : e.sending = true := by simpa using hon
    split at ht
    · rename_i hlost
      exact .inr (.inl ⟨hon, hlost, _, rfl, (Option.some.inj ht).symm⟩)
    · rename_i hlost
      obtain ⟨frame, hframe, ht⟩ := Option.bind_eq_some_iff.mp ht
      refine .inr (.inr ⟨hon, Bool.not_eq_true _ ▸ hlost, frame, hframe, ?_⟩)
      split at ht
      · rename_i hempty
        rw [← Option.some.inj ht, sent]
        simp [hempty]
      · rename_i hne
        dsimp only at ht
        -- An empty frame is not written, but it has its number.
        rw [foldl_writeTo frame h.distinct] at ht
        rw [← Option.some.inj ht, sent]
        simp [hne]

/-! ### The invariant -/

/-- The flags of the connection may change together, and what the user configures. -/
theorem Sound.of_connection (h : e.Sound) (hsame : e' = { e with
      endpointUrl := e'.endpointUrl, namespaceUri := e'.namespaceUri, tcpPort := e'.tcpPort
      mappings := e'.mappings, client := e'.client, opcUaConnected := e'.opcUaConnected
      namespaceIndex := e'.namespaceIndex })
    (hclient : e'.opcUaConnected = true → e'.client = true) : e'.Sound := by
  rw [hsame]
  exact ⟨h.timer, h.tcpServer, hclient, h.clients, h.distinct, h.known⟩

/-- Connecting keeps the engine sound, however the calls end. -/
theorem sound_connectToOpcUa {statusCodeName : UInt32 → String} (h : e.Sound)
    (hparsed : Parsed e.mappings) (a : Answers) :
    (e.connectToOpcUa statusCodeName a).1.Sound := by
  rcases connectToOpcUa_cases statusCodeName h hparsed a with
    ⟨-, -, e', rfl, heq⟩ | ⟨-, e', error, status, hsame, heq, -⟩
  · rw [heq]
    exact h.of_connection rfl fun _ => rfl
  · have hdown : e'.opcUaConnected = false := by rw [hsame]
    rw [heq]
    refine h.of_connection (by rw [hsame]) fun hup => ?_
    rw [hdown] at hup
    cases hup

/-- So does disconnecting. -/
theorem sound_disconnectFromOpcUa (h : e.Sound) : e.disconnectFromOpcUa.1.Sound :=
  h.of_connection rfl nofun

/-- And starting the bridge. -/
theorem sound_startBridge (h : e.Sound) (hup : e.opcUaConnected = true)
    (hoff : e.bridgeRunning = false) (listenError : Option String) :
    (e.startBridge listenError).1.Sound := by
  rcases startBridge_some (h.client hup) hup hoff listenError with
    ⟨error, -, heq⟩ | ⟨-, e', rfl, heq⟩
  · rw [heq]
    exact ⟨h.timer, hoff.symm, h.client, h.clients, h.distinct, h.known⟩
  · rw [heq]
    exact ⟨rfl, rfl, h.client, nofun, h.distinct, h.known⟩

/-- And stopping it. -/
theorem sound_stopBridge (h : e.Sound) (visited : List Nat) : (e.stopBridge visited).1.Sound :=
  ⟨rfl, rfl, h.client, fun _ => rfl, List.nodup_nil, nofun⟩

/-- A running bridge takes sockets. -/
theorem sound_acceptSocket (h : e.Sound) (hon : e.bridgeRunning = true) :
    e.acceptSocket.Sound where
  timer := h.timer
  tcpServer := h.tcpServer
  client := h.client
  clients hoff := by
    rw [show e.acceptSocket.bridgeRunning = e.bridgeRunning from rfl, hon] at hoff
    cases hoff
  distinct := by
    refine List.nodup_append.mpr ⟨h.distinct, List.nodup_singleton _, fun a ha b hb => ?_⟩
    have hlt := h.known a ha
    have heq := List.mem_singleton.mp hb
    omega
  known sock hsock := by
    rcases List.mem_append.mp hsock with hold | hnew
    · exact Nat.lt_succ_of_lt (h.known sock hold)
    · rw [List.mem_singleton.mp hnew]
      exact Nat.lt_succ_self _

/-- A socket that has gone leaves the list. -/
theorem sound_onClientDisconnected (h : e.Sound) (sock : Nat) :
    (e.onClientDisconnected sock).1.Sound where
  timer := h.timer
  tcpServer := h.tcpServer
  client := h.client
  clients hoff := by
    show e.clients.filter _ = []
    rw [h.clients hoff]
    rfl
  distinct := h.distinct.filter _
  known s hs := h.known s (List.mem_of_mem_filter hs)

/-- Sending a frame counts it. -/
theorem sound_sent (h : e.Sound) (frame : Bytes) : (e.sent frame).Sound :=
  ⟨h.timer, h.tcpServer, h.client, h.clients, h.distinct, h.known⟩

/-! ### What a socket gets -/

/-- Of the frames that have been sent since it came, the first ones have been written to a socket,
and all of them as long as the socket is in the list and connected. -/
abbrev Written (e : Engine) (sock : Nat) (since : List Bytes) : Prop :=
  Subscription.Block (sock < e.sockets) (sock ∈ e.clients ∧ e.connectedState sock = true)
    (e.written sock) since

/-- No frame is sent. -/
structure Idle (e e' : Engine) : Prop where
  sequence : e'.sequence = e.sequence
  sockets : e.sockets ≤ e'.sockets
  written : ∀ sock since, e.Written sock since → e'.Written sock since

/-- Nothing has happened. -/
theorem Idle.refl (e : Engine) : Idle e e := ⟨rfl, Nat.le_refl _, fun _ _ h => h⟩

/-- One after the other. -/
theorem Idle.trans {e'' : Engine} (h : Idle e e') (h' : Idle e' e'') : Idle e e'' :=
  ⟨h'.sequence.trans h.sequence, h.sockets.trans h'.sockets, fun sock since hw =>
    h'.written sock since (h.written sock since hw)⟩

/-- Nobody comes. -/
theorem Idle.of_fewer (hsequence : e'.sequence = e.sequence) (hsockets : e'.sockets = e.sockets)
    (hwritten : e'.written = e.written) (hclients : ∀ sock ∈ e'.clients, sock ∈ e.clients)
    (hconnected : ∀ sock, e'.connectedState sock = true → e.connectedState sock = true) :
    Idle e e' where
  sequence := hsequence
  sockets := Nat.le_of_eq hsockets.symm
  written sock since h := by
    rw [Written, hwritten, hsockets]
    exact h.idle (fun hlive => .inl ⟨hclients sock hlive.1, hconnected sock hlive.2⟩) id

/-- One comes. -/
theorem idle_acceptSocket (e : Engine) : Idle e e.acceptSocket where
  sequence := rfl
  sockets := Nat.le_succ _
  written sock since h := by
    refine h.idle (fun hlive => ?_) Nat.lt_succ_of_lt
    by_cases hnew : sock = e.sockets
    · exact .inr (Nat.not_lt.mpr (Nat.le_of_eq hnew.symm))
    · refine .inl ⟨?_, ?_⟩
      · simpa [Engine.acceptSocket, hnew] using hlive.1
      · simpa [Engine.acceptSocket, hnew] using hlive.2

/-- A connection from outside changes nothing but the sockets. -/
theorem onAcceptConnection_eq (pending : Nat) (e : Engine) : (onAcceptConnection pending e).1 =
    { e with
      sockets := (onAcceptConnection pending e).1.sockets
      connectedState := (onAcceptConnection pending e).1.connectedState
      clients := (onAcceptConnection pending e).1.clients } := by
  induction pending generalizing e with
  | zero => rfl
  | succ pending ih => exact ih e.acceptSocket

/-- Accepting connections sends no frame. -/
theorem idle_onAcceptConnection (pending : Nat) (e : Engine) :
    Idle e (onAcceptConnection pending e).1 := by
  induction pending generalizing e with
  | zero => exact .refl e
  | succ pending ih => exact (idle_acceptSocket e).trans (ih e.acceptSocket)

/-- And neither does stopping. -/
theorem idle_stopBridge (e : Engine) (visited : List Nat) : Idle e (e.stopBridge visited).1 := by
  refine .of_fewer rfl rfl rfl nofun fun sock hup => ?_
  exact (Bool.and_eq_true_iff.mp hup).1

/-- An empty frame is not written. -/
theorem Written.sent_nil {since : List Bytes} (h : e.Written sock since) :
    (e.sent []).Written sock since := by
  have hwritten : (e.sent []).written = e.written := by
    funext s
    simp [Engine.sent]
  rw [Written, hwritten]
  exact h

/-- **A frame.** -/
theorem Written.sent {since : List Bytes} (h : e.Written sock since) (hs : e.Sound)
    (frame : Bytes) : (e.sent frame).Written sock
      (since ++ if sock < e.sockets ∧ frame ≠ [] then [frame] else []) := by
  by_cases hempty : frame = []
  · rw [if_neg fun h => h.2 hempty, List.append_nil, hempty]
    exact h.sent_nil
  by_cases hlive : sock ∈ e.clients ∧ e.connectedState sock = true
  · have hwritten : (e.sent frame).written sock = e.written sock ++ [frame] :=
      if_pos ⟨hempty, hlive⟩
    have hknown := hs.known sock hlive.1
    rw [Written, hwritten, if_pos ⟨hknown, hempty⟩]
    -- The socket gets the frame, and the frame counts for it.
    exact Subscription.Block.sent h hlive hknown frame
  · have hwritten : (e.sent frame).written sock = e.written sock :=
      if_neg fun hsent => hlive hsent.2
    rw [Written, hwritten]
    split
    · rename_i hknown
      -- It came earlier but is not there any more. What it has is still the first part.
      exact h.missed hlive hknown.1 frame
    · rw [List.append_nil]
      exact h

end Engine

end SmartFactory.Gui
