import SmartFactory.Proofs.Bridge.Clients

/-!
# `SmartFactory.Proofs.Bridge.Representation`: the fields of the service agree

The service says in three fields that its bridge is running: `bridgeRunning`, `listener` and
`bridgeStop`. They are written together, in the locked sections of `StartBridge` and
`StopBridge`. `opcConnected` and `client` are written by four other sections, one of which
only clears the flag.

`Represented` is the invariant that ties these fields together, with the list of closed stop
channels. A channel that is closed a second time would end the program: two `StopBridge` that
run at the same time must not take the same one. `StopsOnce` counts the channels, in the
service, in the hands of a `StopBridge` and among the closed ones.
-/

set_option autoImplicit false

namespace SmartFactory.Bridge

open Run

/-- The representation invariant of the service: the three fields of a running bridge agree, a
running bridge and a connection have a client, and every stop channel was closed at most
once. -/
structure Represented (s : State) : Prop where
  listener : s.bridgeRunning = true ↔ s.listener ≠ none
  stop : s.bridgeRunning = true ↔ s.bridgeStop ≠ none
  running : s.bridgeRunning = true → s.client ≠ none
  connected : s.opcConnected = true → s.client ≠ none
  closedOnce : s.closedStops.Nodup

variable {s s' : State} {g g' : Goroutine} {o : Outcome} {new : List Goroutine}
variable {p p' : System} {m : Move}

/-! ### Stop channels are closed once -/

/-- How often a goroutine will close the stop channel of the run. -/
def Goroutine.carryStop (run : Nat) : Goroutine → Nat
  | .stopBridge _ (.closeListener _ ch _) => if ch = some run then 1 else 0
  | .stopBridge _ (.closeStop ch _) => if ch = some run then 1 else 0
  | _ => 0

/-- How often the stop channel of the run is in the service or closed. -/
def State.stopPlaces (s : State) (run : Nat) : Nat :=
  s.closedStops.count run + if s.bridgeStop = some run then 1 else 0

/-- Every stop channel is in at most one place, and those of later runs are in none. -/
abbrev StopsOnce : System → Prop :=
  Pool.Unique State.stopPlaces Goroutine.carryStop State.runs

/-- Taking the channel out of the service moves it to the `StopBridge`. -/
theorem stopPlaces_stopped (s : State) (run : Nat) :
    s.stopped.stopPlaces run + (if s.bridgeStop = some run then 1 else 0)
      = s.stopPlaces run := rfl

/-- Closing a channel moves it to the closed ones. -/
theorem stopPlaces_closed (s : State) (ch : Option Nat) (run : Nat) :
    State.stopPlaces { s with closedStops := ch.toList ++ s.closedStops } run
      = s.stopPlaces run + if ch = some run then 1 else 0 := by
  show (ch.toList ++ s.closedStops).count run + _ = _
  rw [List.count_append, State.stopPlaces]
  cases ch with
  | none => simp
  | some c =>
      simp only [Option.toList_some, List.count_cons, List.count_nil, beq_iff_eq,
        Option.some.injEq]
      omega

/-- A step moves stop channels from one place to another. Only `StartBridge` makes one. -/
theorem Step.stopPlaces (h : Step s g o s' g' new) (run : Nat) :
    s'.stopPlaces run + g'.carryStop run + Pool.weight (Goroutine.carryStop run) new
      ≤ s.stopPlaces run + g.carryStop run
        + (if s.runs ≤ run ∧ run < s'.runs then 1 else 0) := by
  cases h with
  | startListening =>
      -- The channel that `StartBridge` finds is dropped; there is none, but that is not needed.
      show s.closedStops.count run + (if some s.runs = some run then 1 else 0) + 0 + 0
        ≤ s.closedStops.count run + _ + 0 + (if s.runs ≤ run ∧ run < s.runs + 1 then 1 else 0)
      simp only [Option.some.injEq]
      by_cases hrun : s.runs = run
      · have hnew : s.runs ≤ run ∧ run < s.runs + 1 := by omega
        rw [if_pos hrun, if_pos hnew]
        omega
      · rw [if_neg hrun]
        omega
  | stopTaken cause =>
      have hmoved := stopPlaces_stopped s run
      show s.stopped.stopPlaces run + (if s.bridgeStop = some run then 1 else 0) + 0
        ≤ s.stopPlaces run + 0 + _
      omega
  | stopChannel cause ch clients =>
      rw [stopPlaces_closed]
      simp [Goroutine.carryStop]
  | connectClosed | disconnectClosed | connectInstalled | tickBroadcast =>
      exact Nat.le_add_right (s.stopPlaces run) _
  | _ => simp [State.stopPlaces, Goroutine.carryStop]

theorem stopsOnce_boot (cfg : Config) : StopsOnce (boot cfg) :=
  ⟨fun _ => Nat.zero_le _, fun _ _ => rfl⟩

/-- **A move closes no stop channel twice.** -/
theorem stopsOnce_step (h : step p m = some p') (hp : StopsOnce p) : StopsOnce p' := by
  rcases system_cases h with ⟨g, -, hreq, rfl⟩ | ⟨i, o, g, s, g', new, -, hg, hstep, rfl⟩
  · refine Pool.Unique.call hp fun run => ?_
    rcases request_cases hreq with rfl | rfl | rfl | rfl | ⟨cfg, rfl⟩ <;> rfl
  · exact Pool.Unique.step hp hg hstep.runs_le hstep.stopPlaces

/-- A channel that is in at most one place was closed at most once. -/
theorem StopsOnce.nodup (hp : StopsOnce p) : p.shared.closedStops.Nodup := by
  refine List.nodup_iff_count.mpr fun run => ?_
  have honce := hp.once run
  rw [State.stopPlaces] at honce
  omega

/-! ### The connection -/

/-- A connection has a client. -/
def Connected (s : State) : Prop := s.opcConnected = true → s.client ≠ none

/-- A step keeps the client of a connection: the two are written together, or the flag is
cleared alone. -/
theorem Step.connected (h : Step s g o s' g' new) (hs : Connected s) : Connected s' := by
  cases h with
  | connectInstalled => exact fun _ => nofun
  | connectClosed | disconnectClosed | tickCleared => exact nofun
  | _ => exact hs

theorem connected_step (h : step p m = some p') (hp : Connected p.shared) :
    Connected p'.shared := by
  rcases system_cases h with ⟨g, -, -, rfl⟩ | ⟨i, o, g, s, g', new, -, -, hstep, rfl⟩
  · exact hp
  · exact hstep.connected hp

/-! ### The invariant of the system -/

/-- What carries the representation invariant from one state to the next. -/
structure Represents (p : System) : Prop where
  runs : Runs p
  clients : ClientsOnce p
  stops : StopsOnce p
  connected : Connected p.shared

theorem represents_boot (cfg : Config) : Represents (boot cfg) :=
  ⟨runs_boot cfg, clientsOnce_boot cfg, stopsOnce_boot cfg, nofun⟩

/-- **Every move of the system keeps it.** -/
theorem represents_step (h : step p m = some p') (hp : Represents p) : Represents p' :=
  ⟨runs_step h hp.runs, clientsOnce_step h hp.clients, stopsOnce_step h hp.stops,
    connected_step h hp.connected⟩

/-- The fields of a service that is in a known state of its run agree. -/
theorem Represents.represented (hp : Represents p) : Represented p.shared := by
  have hstop : p.shared.bridgeRunning = true ↔ p.shared.bridgeStop ≠ none := by
    constructor
    · intro hrunning
      obtain ⟨run, -, hrun⟩ := hp.runs.state.running hrunning
      rw [hrun]
      exact nofun
    · intro hsome
      by_contra hidle
      exact hsome (hp.runs.state.idle (Bool.not_eq_true _ ▸ hidle))
  exact
    { listener := hp.runs.state.listener ▸ hstop
      stop := hstop
      running := hp.clients.running
      connected := hp.connected
      closedOnce := hp.stops.nodup }

/-- **The representation invariant.** It holds in every state of every interleaving of requests
and goroutines, whatever the library calls return. -/
theorem represented_always (cfg : Config) (ms : List Move) :
    Always step (fun p => Represented p.shared) (boot cfg) ms :=
  always_of_step (I := Represents) (fun _ => True)
    (fun _ _ _ _ hp hstep => represents_step hstep hp) (fun _ hp => hp.represented)
    (fun _ _ => trivial) (represents_boot cfg)

end SmartFactory.Bridge
