import SmartFactory.Proofs.Bridge.Steps

/-!
# `SmartFactory.Proofs.Bridge.Runs`: the runs of the bridge

Each `StartBridge` that succeeds begins a run. `RunState` says what the service knows of the
running one: its listener and its stop channel are those of the latest run.

`Numbered` bounds the numbers that the goroutines carry, and `Stoppable` follows the stop
channel of every run. Once the channel has left the service, it is closed, or a `StopBridge`
holds it and is about to close it.
-/

set_option autoImplicit false

namespace SmartFactory.Bridge

open Run

/-- The listener and the stop channel in the service are those of the latest run while the
bridge is running, and there are none otherwise. -/
structure RunState (s : State) : Prop where
  listener : s.listener = s.bridgeStop
  running : s.bridgeRunning = true → ∃ run, s.runs = run + 1 ∧ s.bridgeStop = some run
  idle : s.bridgeRunning = false → s.bridgeStop = none

/-- The run of a goroutine that belongs to one. -/
def Goroutine.run? : Goroutine → Option Nat
  | .startBridge (.clearErr run) | .startBridge (.wgAdd run) | .startBridge (.goAccept run)
  | .startBridge (.goTick run) => some run
  | .stopBridge cause _ => cause
  | .acceptLoop run _ => some run
  | .tickLoop run _ => some run
  | _ => none

/-- The goroutines belong to runs that have begun. -/
def Numbered (p : System) : Prop :=
  ∀ g ∈ p.threads, ∀ run, g.run? = some run → run < p.shared.runs

/-- The goroutine is a `StopBridge` that is about to close the stop channel of the run. -/
def Goroutine.closes (run : Nat) : Goroutine → Prop
  | .stopBridge _ (.closeListener _ ch _) => ch = some run
  | .stopBridge _ (.closeStop ch _) => ch = some run
  | _ => False

/-- The stop channel of the run is closed, or it is in the service, or a `StopBridge` is
about to close it. -/
def Stoppable (p : System) (run : Nat) : Prop :=
  run ∈ p.shared.closedStops ∨ p.shared.bridgeStop = some run ∨
    ∃ g ∈ p.threads, g.closes run

variable {s s' : State} {g g' : Goroutine} {o : Outcome} {new : List Goroutine}
variable {p p' : System} {m : Move}

/-! ### The state of the run -/

/-- A new service has no run. -/
theorem runState_new (cfg : Config) : RunState (newService cfg) :=
  ⟨rfl, nofun, fun _ => rfl⟩

/-- A start begins one. -/
theorem RunState.started (s : State) : RunState s.started :=
  ⟨rfl, fun _ => ⟨s.runs, rfl, rfl⟩, nofun⟩

/-- A stop ends it. -/
theorem RunState.stopped (s : State) : RunState s.stopped :=
  ⟨rfl, nofun, fun _ => rfl⟩

/-- A step keeps the state of the run: it begins one, ends one, or does not touch it. -/
theorem Step.runState (h : Step s g o s' g' new) (hs : RunState s) : RunState s' := by
  cases h with
  -- Only the locked sections of `StartBridge` and `StopBridge` touch these fields.
  | startListening => exact RunState.started s
  | stopTaken => exact RunState.stopped s
  | _ => exact ⟨hs.listener, hs.running, hs.idle⟩

/-- No step forgets a run. -/
theorem Step.runs_le (h : Step s g o s' g' new) : s.runs ≤ s'.runs := by
  cases h with
  | startListening => exact Nat.le_succ _
  | _ => exact Nat.le_refl _

/-- A goroutine that goes on, and the ones that it launches, stay in its run. Only a
`StartBridge` that begins a run enters one. -/
theorem Step.run_eq (h : Step s g o s' g' new) {u : Goroutine} (hu : u = g' ∨ u ∈ new)
    {run : Nat} (hrun : u.run? = some run) : g.run? = some run ∨ (run = s.runs ∧
      s' = s.started) := by
  cases h with
  | startListening =>
      rcases hu with rfl | hu
      · exact Or.inr ⟨(Option.some.inj hrun).symm, rfl⟩
      · cases hu
  | startGoAccept | startGoTick | tickGoStop | acceptWatch =>
      rcases hu with rfl | hu
      · first
          | exact Or.inl hrun
          | cases hrun
      · obtain rfl := List.mem_singleton.mp hu
        first
          | exact Or.inl hrun
          | cases hrun
  | _ =>
      rcases hu with rfl | hu
      · first
          | exact Or.inl hrun
          | cases hrun
      · cases hu

/-- A goroutine keeps its run while it goes on. -/
theorem numbered_step (h : step p m = some p') (hp : Numbered p) : Numbered p' := by
  rcases system_cases h with ⟨g, -, hreq, rfl⟩ | ⟨i, o, g, s, g', new, -, hg, hstep, rfl⟩
  · intro u hu run hrun
    rcases List.mem_append.mp hu with hu | hu
    · exact hp u hu run hrun
    · rw [List.mem_singleton] at hu
      subst hu
      -- A request belongs to no run yet.
      rcases request_cases hreq with rfl | rfl | rfl | rfl | ⟨cfg, rfl⟩ <;> cases hrun
  · have hmine : ∀ u, u = g' ∨ u ∈ new → ∀ run, u.run? = some run → run < s.runs := by
      intro u hu run hrun
      rcases hstep.run_eq hu hrun with hold | ⟨rfl, rfl⟩
      · exact Nat.lt_of_lt_of_le (hp g (Pool.mem_of_get hg) run hold) hstep.runs_le
      · exact Nat.lt_succ_self _
    exact Pool.forall_threads_step hp (hmine g' (Or.inl rfl))
      (fun u hu => hmine u (Or.inr hu))
      fun u _ hold run hrun => Nat.lt_of_lt_of_le (hold run hrun) hstep.runs_le

/-! ### Stop channels -/

/-- The stop channel of the run is closed, or it is in the service. -/
def State.hasStop (run : Nat) (s : State) : Prop :=
  run ∈ s.closedStops ∨ s.bridgeStop = some run

/-- A run can be stopped when its channel is closed, in the service, or about to be closed. -/
theorem stoppable_iff {run : Nat} : Stoppable p run ↔
    Pool.Kept (State.hasStop run) (Goroutine.closes run) p := or_assoc.symm

/-- A stop channel leaves the service into the hands of a `StopBridge`. -/
theorem Step.stop_of_state (h : Step s g o s' g' new) (hs : RunState s) {run : Nat}
    (hstop : s.hasStop run) : s'.hasStop run ∨ g'.closes run := by
  cases h with
  | startListening hready =>
      rcases hstop with hclosed | hstop
      · exact Or.inl (Or.inl hclosed)
      · -- There was no channel to be replaced.
        cases (hs.idle hready.idle).symm.trans hstop
  | stopTaken =>
      rcases hstop with hclosed | hstop
      · exact Or.inl (Or.inl hclosed)
      · exact Or.inr hstop
  | stopChannel =>
      rcases hstop with hclosed | hstop
      · exact Or.inl (Or.inl (List.mem_append_right _ hclosed))
      · exact Or.inl (Or.inr hstop)
  | _ => exact Or.inl hstop

/-- A `StopBridge` closes the listener first and then the channel. -/
theorem Step.stop_of_closes (h : Step s g o s' g' new) {run : Nat} (hcloses : g.closes run) :
    s'.hasStop run ∨ g'.closes run := by
  cases h with
  | stopListener => exact Or.inr hcloses
  | stopChannel =>
      exact Or.inl (Or.inl (List.mem_append_left _ (Option.mem_toList.mpr hcloses)))
  | _ => exact hcloses.elim

/-- The channel of a run that begins is in the service. -/
theorem Step.stop_of_run (h : Step s g o s' g' new) {run : Nat} (hrun : run < s'.runs) :
    run < s.runs ∨ s'.hasStop run := by
  cases h with
  | startListening hready =>
      rcases Nat.lt_succ_iff_lt_or_eq.mp hrun with hold | rfl
      · exact Or.inl hold
      · exact Or.inr (Or.inr rfl)
  | _ => exact Or.inl hrun

/-- A step of a goroutine keeps the stop channel of every run within reach. -/
theorem Step.stoppable {i : Nat} (h : Step p.shared g o s' g' new)
    (hg : p.threads[i]? = some g) (hs : RunState p.shared)
    (hp : ∀ run < p.shared.runs, Stoppable p run) :
    ∀ run < s'.runs, Stoppable ⟨s', p.threads.set i g' ++ new⟩ run := by
  intro run hrun
  rw [stoppable_iff]
  rcases h.stop_of_run hrun with hold | hbegun
  · exact (stoppable_iff.mp (hp run hold)).step hg (h.stop_of_state hs) h.stop_of_closes
  · exact Pool.Kept.of_step hg (Or.inl hbegun)

/-- What is known of the runs in every state of the bridge. -/
structure Runs (p : System) : Prop where
  state : RunState p.shared
  numbered : Numbered p
  stoppable : ∀ run < p.shared.runs, Stoppable p run

/-- The service that starts has no run. -/
theorem runs_boot (cfg : Config) : Runs (boot cfg) :=
  ⟨runState_new cfg, nofun, nofun⟩

/-- **Every move keeps these facts.** -/
theorem runs_step (h : step p m = some p') (hp : Runs p) : Runs p' := by
  refine ⟨?_, numbered_step h hp.numbered, ?_⟩
  · rcases system_cases h with ⟨g, -, -, rfl⟩ | ⟨i, o, g, s, g', new, -, -, hstep, rfl⟩
    · exact hp.state
    · exact hstep.runState hp.state
  · rcases system_cases h with ⟨g, -, -, rfl⟩ | ⟨i, o, g, s, g', new, -, hg, hstep, rfl⟩
    · intro run hrun
      exact stoppable_iff.mpr ((stoppable_iff.mp (hp.stoppable run hrun)).call g)
    · exact hstep.stoppable hg hp.state hp.stoppable

/-! ### Requests that succeed -/

/-- The steps of the goroutine `i` with these outcomes. -/
def steps (i : Nat) (os : List Outcome) : List Move := os.map (.step i)

/-- A `Connect` on the goroutine `i` that installs a client. -/
def connects (i : Nat) : List Move :=
  .call (.connect .enter) :: steps i [.ok, .ok, .ok, .ok, .namespaceIndex 2, .ok]

/-- A `StartBridge` on the goroutine `i` that begins a run. Its `acceptLoop` is the goroutine
`i + 1` and its `tickLoop` the goroutine `i + 2`. -/
def starts (i : Nat) : List Move :=
  .call (.startBridge .enter) :: steps i [.ok, .ok, .ok, .ok, .ok]

end SmartFactory.Bridge
