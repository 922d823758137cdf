import SmartFactory.Bridge.Service

/-!
# `SmartFactory.Proofs.Bridge.Steps`: what one step of a goroutine does

`Step` lists the steps of the goroutines of the bridge, each with what it requires of the
state, with the state after it and with the goroutines that it launches. `step_of_exec`
reads a step off the code once; everything that is proved about interleavings is a case
analysis on `Step`.

`system_cases` does the same for a move of the whole system.
-/

set_option autoImplicit false

namespace SmartFactory.Bridge

/-- `StartBridge` gets as far as `net.Listen`. -/
structure State.Ready (s : State) : Prop where
  idle : s.bridgeRunning = false
  connected : s.opcConnected = true
  client : s.client ≠ none
  port : 0 < s.cfg.tcpPort ∧ s.cfg.tcpPort ≤ 65535

/-- The state after a successful `net.Listen` in `StartBridge`. -/
def State.started (s : State) : State :=
  { s with
    listener := some s.runs
    bridgeRunning := true
    clients := []
    bridgeStop := some s.runs
    runs := s.runs + 1 }

/-- The state after the locked section of a `StopBridge` that found the bridge running. -/
def State.stopped (s : State) : State :=
  { s with bridgeStop := none, listener := none, bridgeRunning := false, clients := [] }

/-- The state after the client was closed and forgotten. -/
def State.withoutClient (s : State) : State :=
  { s with
    closedClients := s.client.toList ++ s.closedClients, client := none, opcConnected := false }

/-- The state after a new client was stored. -/
def State.installed (s : State) (c : Nat) (ns : UInt16) : State :=
  { s with client := some c, namespaceIdx := ns, opcConnected := true }

/-- The steps. In the state `s`, the goroutine and the outcome of its library calls lead to
a state, a next position and launched goroutines. -/
inductive Step (s : State) : Goroutine → Outcome → State → Goroutine → List Goroutine → Prop
  -- `StartBridge`
  | startRefused (o : Outcome) (err : String) :
      Step s (.startBridge .enter) o s (.finished (some err)) []
  | startListening (hready : s.Ready) :
      Step s (.startBridge .enter) .ok s.started (.startBridge (.clearErr s.runs)) []
  | startListenFailed (err : String) :
      Step s (.startBridge .enter) (.fail err) s (.startBridge (.listenFailed err)) []
  | startSetErr (err : String) (o : Outcome) :
      Step s (.startBridge (.listenFailed err)) o { s with lastErr := err }
        (.finished (some err)) []
  | startClearErr (run : Nat) (o : Outcome) :
      Step s (.startBridge (.clearErr run)) o { s with lastErr := "" }
        (.startBridge (.wgAdd run)) []
  | startAdd (run : Nat) (o : Outcome) :
      Step s (.startBridge (.wgAdd run)) o { s with bridgeWG := s.bridgeWG + 2 }
        (.startBridge (.goAccept run)) []
  | startGoAccept (run : Nat) (o : Outcome) :
      Step s (.startBridge (.goAccept run)) o s (.startBridge (.goTick run))
        [.acceptLoop run .accept]
  | startGoTick (run : Nat) (o : Outcome) :
      Step s (.startBridge (.goTick run)) o s (.finished none) [.tickLoop run .init]
  -- `StopBridge`
  | stopIdle (cause : Option Nat) (o : Outcome) (hidle : s.bridgeRunning = false) :
      Step s (.stopBridge cause .enter) o s (.finished none) []
  | stopTaken (cause : Option Nat) (o : Outcome) (hrunning : s.bridgeRunning = true) :
      Step s (.stopBridge cause .enter) o s.stopped
        (.stopBridge cause (.closeListener s.listener s.bridgeStop s.clients)) []
  | stopListener (cause ln ch : Option Nat) (clients : List Nat) (o : Outcome) :
      Step s (.stopBridge cause (.closeListener ln ch clients)) o
        { s with closedListeners := ln.toList ++ s.closedListeners }
        (.stopBridge cause (.closeStop ch clients)) []
  | stopChannel (cause ch : Option Nat) (clients : List Nat) (o : Outcome) :
      Step s (.stopBridge cause (.closeStop ch clients)) o
        { s with closedStops := ch.toList ++ s.closedStops }
        (.stopBridge cause (.closeConns ch clients)) []
  | stopConn (cause ch : Option Nat) (c : Nat) (clients : List Nat) (o : Outcome) :
      Step s (.stopBridge cause (.closeConns ch (c :: clients))) o
        { s with closedConns := c :: s.closedConns }
        (.stopBridge cause (.closeConns ch clients)) []
  | stopConnsDone (cause ch : Option Nat) (o : Outcome) :
      Step s (.stopBridge cause (.closeConns ch [])) o s (.stopBridge cause (.wait ch)) []
  | stopWaited (cause ch : Option Nat) (o : Outcome) (hzero : s.bridgeWG = 0) :
      Step s (.stopBridge cause (.wait ch)) o s (.finished none) []
  -- `Connect`
  | connectRefused (err : String) (o : Outcome) (hrunning : s.bridgeRunning = true) :
      Step s (.connect .enter) o s (.finished (some err)) []
  | connectClosed (o : Outcome) (hidle : s.bridgeRunning = false) :
      Step s (.connect .enter) o s.withoutClient (.connect .clearErr) []
  | connectClearErr (o : Outcome) :
      Step s (.connect .clearErr) o { s with lastErr := "" } (.connect .newClient) []
  | connectNew :
      Step s (.connect .newClient) .ok { s with newClients := s.newClients + 1 }
        (.connect (.dial s.newClients)) []
  | connectNewFailed (err : String) :
      Step s (.connect .newClient) (.fail err) s (.connect (.setErr err)) []
  | connectDialled (c : Nat) :
      Step s (.connect (.dial c)) .ok { s with dialled := c :: s.dialled }
        (.connect (.findNamespace c)) []
  | connectDialFailed (c : Nat) (err : String) :
      Step s (.connect (.dial c)) (.fail err) s (.connect (.setErr err)) []
  | connectFound (c : Nat) (ns : UInt16) :
      Step s (.connect (.findNamespace c)) (.namespaceIndex ns) s (.connect (.install c ns)) []
  | connectNotFound (c : Nat) (err : String) :
      Step s (.connect (.findNamespace c)) (.fail err) s (.connect (.closeClient c err)) []
  | connectCloseClient (c : Nat) (err : String) (o : Outcome) :
      Step s (.connect (.closeClient c err)) o
        { s with closedClients := c :: s.closedClients } (.connect (.setErr err)) []
  | connectSetErr (err : String) (o : Outcome) :
      Step s (.connect (.setErr err)) o { s with lastErr := err } (.finished (some err)) []
  | connectInstalled (c : Nat) (ns : UInt16) (o : Outcome) :
      Step s (.connect (.install c ns)) o (s.installed c ns) (.finished none) []
  -- `Disconnect` and `SetConfig`
  | disconnectRefused (err : String) (o : Outcome) (hrunning : s.bridgeRunning = true) :
      Step s .disconnect o s (.finished (some err)) []
  | disconnectClosed (res : Option String) (o : Outcome) (hidle : s.bridgeRunning = false) :
      Step s .disconnect o s.withoutClient (.finished res) []
  | setConfig (cfg : Config) (o : Outcome) :
      Step s (.setConfig cfg) o { s with cfg := cfg } .saveConfig []
  | saveConfig (res : Option String) (o : Outcome) :
      Step s .saveConfig o s (.finished res) []
  -- `acceptLoop`
  | acceptConn (run : Nat) (hopen : run ∉ s.closedListeners) :
      Step s (.acceptLoop run .accept) .ok { s with accepted := s.accepted + 1 }
        (.acceptLoop run (.record s.accepted)) []
  | acceptReturned (run : Nat) (err : String) :
      Step s (.acceptLoop run .accept) (.fail err) { s with bridgeWG := s.bridgeWG - 1 }
        (.finished none) []
  | acceptRecorded (run conn : Nat) (o : Outcome) :
      Step s (.acceptLoop run (.record conn)) o { s with clients := s.clients ++ [conn] }
        (.acceptLoop run (.goWatch conn)) []
  | acceptWatch (run conn : Nat) (o : Outcome) :
      Step s (.acceptLoop run (.goWatch conn)) o s (.acceptLoop run .accept)
        [.watchDisconnect conn .read]
  -- `watchDisconnect`
  | watchRead (conn : Nat) :
      Step s (.watchDisconnect conn .read) .ok s (.watchDisconnect conn .read) []
  | watchFailed (conn : Nat) (err : String) :
      Step s (.watchDisconnect conn .read) (.fail err) s (.watchDisconnect conn .forget) []
  | watchForgot (conn : Nat) (o : Outcome) :
      Step s (.watchDisconnect conn .forget) o { s with clients := s.clients.erase conn }
        (.watchDisconnect conn .close) []
  | watchClosed (conn : Nat) (o : Outcome) :
      Step s (.watchDisconnect conn .close) o { s with closedConns := conn :: s.closedConns }
        (.finished none) []
  -- `tickLoop`
  | tickInit (run : Nat) (o : Outcome) :
      Step s (.tickLoop run .init) o s (.tickLoop run (.select s.bridgeStop)) []
  | tickStopped (run stop : Nat) (hclosed : stop ∈ s.closedStops) :
      Step s (.tickLoop run (.select (some stop))) .stopped s (.tickLoop run .leave) []
  | tickSkipped (run : Nat) (stop : Option Nat) :
      Step s (.tickLoop run (.select stop)) .ticked s (.tickLoop run (.select stop)) []
  | tickClient (run : Nat) (stop : Option Nat) (cl : Nat) (hrunning : s.bridgeRunning = true)
      (hconnected : s.opcConnected = true) (hclient : s.client = some cl) :
      Step s (.tickLoop run (.select stop)) .ticked s (.tickLoop run (.state stop cl)) []
  | tickConnected (run : Nat) (stop : Option Nat) (cl : Nat) :
      Step s (.tickLoop run (.state stop cl)) (.state true) s
        (.tickLoop run (.readClient stop)) []
  | tickLost (run : Nat) (stop : Option Nat) (cl : Nat) :
      Step s (.tickLoop run (.state stop cl)) (.state false) s (.tickLoop run (.setLost cl)) []
  | tickSetLost (run cl : Nat) (o : Outcome) :
      Step s (.tickLoop run (.setLost cl)) o { s with lastErr := "OPC UA connection lost" }
        (.tickLoop run (.clearConnected cl)) []
  | tickCleared (run cl : Nat) (o : Outcome) :
      Step s (.tickLoop run (.clearConnected cl)) o { s with opcConnected := false }
        (.tickLoop run .goStop) []
  | tickGoStop (run : Nat) (o : Outcome) :
      Step s (.tickLoop run .goStop) o s (.tickLoop run .leave)
        [.stopBridge (some run) .enter]
  | tickLeft (run : Nat) (o : Outcome) :
      Step s (.tickLoop run .leave) o { s with bridgeWG := s.bridgeWG - 1 } (.finished none) []
  | tickNoClient (run : Nat) (stop : Option Nat) (o : Outcome) :
      Step s (.tickLoop run (.readClient stop)) o s
        (.tickLoop run (.setErr stop "no client")) []
  | tickReadClient (run : Nat) (stop : Option Nat) (o : Outcome) :
      Step s (.tickLoop run (.readClient stop)) o s (.tickLoop run (.resolve stop)) []
  | tickResolved (run : Nat) (stop : Option Nat) :
      Step s (.tickLoop run (.resolve stop)) .ok s (.tickLoop run (.draw stop)) []
  | tickUnresolved (run : Nat) (stop : Option Nat) (err : String) :
      Step s (.tickLoop run (.resolve stop)) (.fail err) s (.tickLoop run (.setErr stop err)) []
  | tickDrawn (run : Nat) (stop : Option Nat) :
      Step s (.tickLoop run (.draw stop)) .ok { s with seq := s.seq + 1 }
        (.tickLoop run (.broadcast stop (s.seq + 1))) []
  | tickDrawFailed (run : Nat) (stop : Option Nat) (err : String) :
      Step s (.tickLoop run (.draw stop)) (.fail err) { s with seq := s.seq + 1 }
        (.tickLoop run (.setErr stop err)) []
  | tickBroadcast (run : Nat) (stop : Option Nat) (seq : UInt64) (failing : List Nat) :
      Step s (.tickLoop run (.broadcast stop seq)) (.writes failing) (s.broadcast seq failing)
        (.tickLoop run (.select stop)) []
  | tickSetErr (run : Nat) (stop : Option Nat) (err : String) (o : Outcome) :
      Step s (.tickLoop run (.setErr stop err)) o { s with lastErr := err }
        (.tickLoop run (.select stop)) []

variable {s s' : State} {g g' : Goroutine} {o : Outcome} {new : List Goroutine}

/-- The three parts of a result. -/
theorem next_eq_some {s₁ : State} {g₁ : Goroutine} (h : next s₁ g₁ = some (s', g', new)) :
    s' = s₁ ∧ g' = g₁ ∧ new = [] := by
  simp only [next, Option.some.injEq, Prod.mk.injEq] at h
  exact ⟨h.1.symm, h.2.1.symm, h.2.2.symm⟩

/-- A step of `StartBridge`. -/
theorem step_of_startBridge {pos : StartBridge}
    (h : execStartBridge s pos o = some (s', g', new)) :
    Step s (.startBridge pos) o s' g' new := by
  cases pos with
  | enter =>
      simp only [execStartBridge] at h
      split at h
      · obtain ⟨rfl, rfl, rfl⟩ := next_eq_some h
        exact .startRefused o _
      · -- The checks of `StartBridge` in their order: a running bridge, no connection, no port in
        -- range.
        rename_i hidle
        split at h
        · obtain ⟨rfl, rfl, rfl⟩ := next_eq_some h
          exact .startRefused o _
        · rename_i hready
          split at h
          · obtain ⟨rfl, rfl, rfl⟩ := next_eq_some h
            exact .startRefused o _
          · rename_i hport
            split at h
            · have hboth : s.opcConnected = true ∧ s.client ≠ none := by simpa using hready
              have hrange : 0 < s.cfg.tcpPort ∧ s.cfg.tcpPort ≤ 65535 := by simpa using hport
              obtain ⟨rfl, rfl, rfl⟩ := next_eq_some h
              exact .startListening ⟨by simpa using hidle, hboth.1, hboth.2, hrange⟩
            · obtain ⟨rfl, rfl, rfl⟩ := next_eq_some h
              exact .startListenFailed _
            · cases h
  | listenFailed err =>
      obtain ⟨rfl, rfl, rfl⟩ := next_eq_some h
      exact .startSetErr err o
  | clearErr run =>
      obtain ⟨rfl, rfl, rfl⟩ := next_eq_some h
      exact .startClearErr run o
  | wgAdd run =>
      obtain ⟨rfl, rfl, rfl⟩ := next_eq_some h
      exact .startAdd run o
  | goAccept run =>
      cases h
      exact .startGoAccept run o
  | goTick run =>
      cases h
      exact .startGoTick run o

/-- A step of `StopBridge`. -/
theorem step_of_stopBridge {cause : Option Nat} {pos : StopBridge}
    (h : execStopBridge s cause pos o = some (s', g', new)) :
    Step s (.stopBridge cause pos) o s' g' new := by
  cases pos with
  | enter =>
      simp only [execStopBridge] at h
      split at h
      · rename_i hidle
        obtain ⟨rfl, rfl, rfl⟩ := next_eq_some h
        exact .stopIdle cause o (by simpa using hidle)
      · rename_i hrunning
        obtain ⟨rfl, rfl, rfl⟩ := next_eq_some h
        exact .stopTaken cause o (by simpa using hrunning)
  | closeListener ln ch clients =>
      obtain ⟨rfl, rfl, rfl⟩ := next_eq_some h
      exact .stopListener cause ln ch clients o
  | closeStop ch clients =>
      obtain ⟨rfl, rfl, rfl⟩ := next_eq_some h
      exact .stopChannel cause ch clients o
  | closeConns ch clients =>
      cases clients with
      | nil =>
          obtain ⟨rfl, rfl, rfl⟩ := next_eq_some h
          exact .stopConnsDone cause ch o
      | cons c clients =>
          obtain ⟨rfl, rfl, rfl⟩ := next_eq_some h
          exact .stopConn cause ch c clients o
  | wait ch =>
      simp only [execStopBridge] at h
      split at h
      · -- `Wait` only returns when the counter is zero. Until then there is no step.
        rename_i hzero
        obtain ⟨rfl, rfl, rfl⟩ := next_eq_some h
        exact .stopWaited cause ch o hzero
      · cases h

/-- A step of `Connect`. -/
theorem step_of_connect {pos : Connect} (h : execConnect s pos o = some (s', g', new)) :
    Step s (.connect pos) o s' g' new := by
  cases pos with
  | enter =>
      simp only [execConnect] at h
      split at h
      · rename_i hrunning
        obtain ⟨rfl, rfl, rfl⟩ := next_eq_some h
        exact .connectRefused _ o hrunning
      · rename_i hidle
        obtain ⟨rfl, rfl, rfl⟩ := next_eq_some h
        exact .connectClosed o (by simpa using hidle)
  | clearErr =>
      obtain ⟨rfl, rfl, rfl⟩ := next_eq_some h
      exact .connectClearErr o
  -- The library calls: each has its own outcomes, and no step with an outcome of another one.
  | newClient =>
      cases o with
      | ok =>
          obtain ⟨rfl, rfl, rfl⟩ := next_eq_some h
          exact .connectNew
      | fail err =>
          obtain ⟨rfl, rfl, rfl⟩ := next_eq_some h
          exact .connectNewFailed err
      | _ => cases h
  | dial c =>
      cases o with
      | ok =>
          obtain ⟨rfl, rfl, rfl⟩ := next_eq_some h
          exact .connectDialled c
      | fail err =>
          obtain ⟨rfl, rfl, rfl⟩ := next_eq_some h
          exact .connectDialFailed c err
      | _ => cases h
  | findNamespace c =>
      cases o with
      | namespaceIndex ns =>
          obtain ⟨rfl, rfl, rfl⟩ := next_eq_some h
          exact .connectFound c ns
      | fail err =>
          obtain ⟨rfl, rfl, rfl⟩ := next_eq_some h
          exact .connectNotFound c err
      | _ => cases h
  | closeClient c err =>
      obtain ⟨rfl, rfl, rfl⟩ := next_eq_some h
      exact .connectCloseClient c err o
  | setErr err =>
      obtain ⟨rfl, rfl, rfl⟩ := next_eq_some h
      exact .connectSetErr err o
  | install c ns =>
      obtain ⟨rfl, rfl, rfl⟩ := next_eq_some h
      exact .connectInstalled c ns o

/-- `Disconnect` has one step. -/
theorem step_of_disconnect (h : execDisconnect s o = some (s', g', new)) :
    Step s .disconnect o s' g' new := by
  simp only [execDisconnect] at h
  split at h
  · rename_i hrunning
    obtain ⟨rfl, rfl, rfl⟩ := next_eq_some h
    exact .disconnectRefused _ o hrunning
  · rename_i hidle
    -- Without a client there is nothing to close; otherwise its answer is the result.
    have hclosed := fun res => Step.disconnectClosed (s := s) res o (by simpa using hidle)
    rw [State.withoutClient] at hclosed
    split at h
    all_goals rename_i hclient
    · obtain ⟨rfl, rfl, rfl⟩ := next_eq_some h
      simpa [hclient] using hclosed none
    · obtain ⟨rfl, rfl, rfl⟩ := next_eq_some h
      simpa [hclient] using hclosed none
    · obtain ⟨rfl, rfl, rfl⟩ := next_eq_some h
      simpa [hclient] using hclosed (some _)
    · cases h

/-- A step of `acceptLoop`. -/
theorem step_of_acceptLoop {run : Nat} {pos : AcceptLoop}
    (h : execAcceptLoop s run pos o = some (s', g', new)) :
    Step s (.acceptLoop run pos) o s' g' new := by
  cases pos with
  | accept =>
      cases o with
      | ok =>
          simp only [execAcceptLoop] at h
          split at h
          · cases h
          · -- A closed listener accepts nobody.
            rename_i hopen
            obtain ⟨rfl, rfl, rfl⟩ := next_eq_some h
            exact .acceptConn run hopen
      | fail err =>
          obtain ⟨rfl, rfl, rfl⟩ := next_eq_some h
          exact .acceptReturned run err
      | _ => cases h
  | record conn =>
      obtain ⟨rfl, rfl, rfl⟩ := next_eq_some h
      exact .acceptRecorded run conn o
  | goWatch conn =>
      cases h
      exact .acceptWatch run conn o

/-- A step of `watchDisconnect`. -/
theorem step_of_watchDisconnect {conn : Nat} {pos : WatchDisconnect}
    (h : execWatchDisconnect s conn pos o = some (s', g', new)) :
    Step s (.watchDisconnect conn pos) o s' g' new := by
  cases pos with
  | read =>
      cases o with
      | ok =>
          obtain ⟨rfl, rfl, rfl⟩ := next_eq_some h
          exact .watchRead conn
      | fail err =>
          obtain ⟨rfl, rfl, rfl⟩ := next_eq_some h
          exact .watchFailed conn err
      | _ => cases h
  | forget =>
      obtain ⟨rfl, rfl, rfl⟩ := next_eq_some h
      exact .watchForgot conn o
  | close =>
      obtain ⟨rfl, rfl, rfl⟩ := next_eq_some h
      exact .watchClosed conn o

/-- A step of `tickLoop`. -/
theorem step_of_tickLoop {run : Nat} {pos : TickLoop}
    (h : execTickLoop s run pos o = some (s', g', new)) :
    Step s (.tickLoop run pos) o s' g' new := by
  cases pos with
  | init =>
      obtain ⟨rfl, rfl, rfl⟩ := next_eq_some h
      exact .tickInit run o
  | select stop =>
      cases o with
      -- The `select`: a closed channel, or the ticker. A nil channel is never ready.
      | stopped =>
          cases stop with
          | none => cases h
          | some stop =>
              simp only [execTickLoop] at h
              split at h
              · rename_i hclosed
                obtain ⟨rfl, rfl, rfl⟩ := next_eq_some h
                exact .tickStopped run stop hclosed
              · cases h
      | ticked =>
          simp only [execTickLoop] at h
          split at h
          · rename_i hrun hclient
            have hboth : s.bridgeRunning = true ∧ s.opcConnected = true := by simpa using hrun
            obtain ⟨rfl, rfl, rfl⟩ := next_eq_some h
            exact .tickClient run stop _ hboth.1 hboth.2 hclient
          · obtain ⟨rfl, rfl, rfl⟩ := next_eq_some h
            exact .tickSkipped run stop
      | _ => cases stop <;> cases h
  | state stop cl =>
      cases o with
      | state connected =>
          cases connected with
          | true =>
              obtain ⟨rfl, rfl, rfl⟩ := next_eq_some h
              exact .tickConnected run stop cl
          | false =>
              obtain ⟨rfl, rfl, rfl⟩ := next_eq_some h
              exact .tickLost run stop cl
      | _ => cases h
  | setLost cl =>
      obtain ⟨rfl, rfl, rfl⟩ := next_eq_some h
      exact .tickSetLost run cl o
  | clearConnected cl =>
      obtain ⟨rfl, rfl, rfl⟩ := next_eq_some h
      exact .tickCleared run cl o
  | goStop =>
      cases h
      exact .tickGoStop run o
  | leave =>
      obtain ⟨rfl, rfl, rfl⟩ := next_eq_some h
      exact .tickLeft run o
  | readClient stop =>
      simp only [execTickLoop] at h
      split at h
      · obtain ⟨rfl, rfl, rfl⟩ := next_eq_some h
        exact .tickNoClient run stop o
      · obtain ⟨rfl, rfl, rfl⟩ := next_eq_some h
        exact .tickReadClient run stop o
  | resolve stop =>
      cases o with
      | ok =>
          obtain ⟨rfl, rfl, rfl⟩ := next_eq_some h
          exact .tickResolved run stop
      | fail err =>
          obtain ⟨rfl, rfl, rfl⟩ := next_eq_some h
          exact .tickUnresolved run stop err
      | _ => cases h
  | draw stop =>
      cases o with
      | ok =>
          obtain ⟨rfl, rfl, rfl⟩ := next_eq_some h
          exact .tickDrawn run stop
      | fail err =>
          obtain ⟨rfl, rfl, rfl⟩ := next_eq_some h
          exact .tickDrawFailed run stop err
      | _ => cases h
  | broadcast stop seq =>
      cases o with
      | writes failing =>
          obtain ⟨rfl, rfl, rfl⟩ := next_eq_some h
          exact .tickBroadcast run stop seq failing
      | _ => cases h
  | setErr stop err =>
      obtain ⟨rfl, rfl, rfl⟩ := next_eq_some h
      exact .tickSetErr run stop err o

/-- **Every step of a goroutine is one of the listed ones.** -/
theorem step_of_exec (h : exec s g o = some (s', g', new)) : Step s g o s' g' new := by
  cases g with
  | startBridge pos => exact step_of_startBridge h
  | stopBridge cause pos => exact step_of_stopBridge h
  | connect pos => exact step_of_connect h
  | disconnect => exact step_of_disconnect h
  | setConfig cfg =>
      obtain ⟨rfl, rfl, rfl⟩ := next_eq_some h
      exact .setConfig cfg o
  | saveConfig =>
      cases o with
      | ok =>
          obtain ⟨rfl, rfl, rfl⟩ := next_eq_some h
          exact .saveConfig none _
      | fail err =>
          obtain ⟨rfl, rfl, rfl⟩ := next_eq_some h
          exact .saveConfig (some err) _
      | _ => cases h
  | acceptLoop run pos => exact step_of_acceptLoop h
  | watchDisconnect conn pos => exact step_of_watchDisconnect h
  | tickLoop run pos => exact step_of_tickLoop h
  | finished err => cases h

/-- **Every move of the system** adds a request or is a step of one goroutine. -/
theorem system_cases {p p' : System} {m : Move} (h : step p m = some p') :
    (∃ g, m = .call g ∧ isRequest g = true ∧ p' = ⟨p.shared, p.threads ++ [g]⟩) ∨
    (∃ i o g s g' new, m = .step i o ∧ p.threads[i]? = some g ∧
      Step p.shared g o s g' new ∧ p' = ⟨s, p.threads.set i g' ++ new⟩) := by
  rcases Pool.move_cases h with hcall | ⟨i, o, g, s, g', new, hm, hg, hexec, hp⟩
  · exact Or.inl hcall
  · exact Or.inr ⟨i, o, g, s, g', new, hm, hg, step_of_exec hexec, hp⟩

/-- A request stands at the first position of one of the methods. -/
theorem request_cases (h : isRequest g = true) :
    g = .startBridge .enter ∨ g = .stopBridge none .enter ∨ g = .connect .enter ∨
      g = .disconnect ∨ ∃ cfg, g = .setConfig cfg := by
  unfold isRequest at h
  split at h
  · exact Or.inl rfl
  · exact Or.inr (Or.inl rfl)
  · exact Or.inr (Or.inr (Or.inl rfl))
  · exact Or.inr (Or.inr (Or.inr (Or.inl rfl)))
  · exact Or.inr (Or.inr (Or.inr (Or.inr ⟨_, rfl⟩)))
  · cases h

end SmartFactory.Bridge
