import SmartFactory.Lib.Fairness
import SmartFactory.Proofs.Bridge.Representation
import SmartFactory.Proofs.Bridge.StopChannel
import SmartFactory.Proofs.Bridge.WaitGroup

/-!
# `SmartFactory.Proofs.Bridge.Shutdown`: when a `StopBridge` comes back

A `StopBridge` closes the listener and the stop channel and then waits for the loops. `prompt` says
which goroutines can go on by themselves, and in a `FairRun` those that always can do go on. The
calls of the network that are not mentioned there come back.

`stop_returns_iff` is about a stop that no start follows. The `StopBridge` comes back exactly when
no loop ever listens on no channel. A loop does when it first gets the mutex after the channel has
left the service. It then looks at the bridge every 300 ms, finds it stopped, and goes on like this
for ever.
-/

set_option autoImplicit false

namespace SmartFactory.Bridge

open Run
open Pool (Endless Fair Kept)

/-- The goroutine can go on by itself. Only `Wait`, `Accept`, `Read` and `select` wait for something
else. A loop leaves its `select` for good when its channel is closed, and for a frame when the
bridge is running with a connection. -/
def prompt (s : State) : Goroutine → Prop
  | .stopBridge _ (.wait _) => s.bridgeWG = 0
  | .acceptLoop run .accept => run ∈ s.closedListeners
  | .watchDisconnect conn .read => conn ∈ s.closedConns
  | .tickLoop _ (.select stop) =>
      (∃ k ∈ s.closedStops, stop = some k) ∨
      (s.bridgeRunning = true ∧ s.opcConnected = true ∧ s.client ≠ none)
  | .finished _ => False
  | _ => True

/-- An endless run of the service. -/
structure FairRun (cfg : Config) (ρ : Nat → System) : Prop where
  start : ρ 0 = boot cfg
  endless : Endless isRequest exec ρ
  fair : Fair prompt ρ

variable {s s' : State} {g g' : Goroutine} {o : Outcome} {new : List Goroutine}
variable {p p' : System} {a : Move} {cfg : Config} {ρ : Nat → System} {n m i k : Nat}

/-! ### Listeners and channels -/

/-- The goroutine is a `StopBridge` that is about to close the listener of the run. -/
def Goroutine.closesListener (run : Nat) : Goroutine → Prop
  | .stopBridge _ (.closeListener ln _ _) => ln = some run
  | _ => False

/-- The listener of the run is closed, or it is in the service. -/
def State.hasListener (run : Nat) (s : State) : Prop :=
  run ∈ s.closedListeners ∨ s.listener = some run

/-- A listener is closed, in the service, or about to be closed. A channel on which a loop listens
has been made. -/
structure Held (p : System) : Prop where
  listeners : ∀ run < p.shared.runs,
    Kept (State.hasListener run) (Goroutine.closesListener run) p
  channels : ∀ run pos k, .tickLoop run pos ∈ p.threads → pos.stop? = some (some k) →
    k < p.shared.runs

/-- A listener stays in the service until a `StopBridge` takes it. -/
theorem Step.listener_of_state (h : Step s g o s' g' new) (hs : RunState s) {run : Nat}
    (hrun : s.hasListener run) : s'.hasListener run ∨ g'.closesListener run := by
  cases h with
  | startListening hready =>
      rcases hrun with hclosed | hlistener
      · exact .inl (.inl hclosed)
      · cases (hs.idle hready.idle).symm.trans (hs.listener.symm.trans hlistener)
  | stopTaken =>
      rcases hrun with hclosed | hlistener
      · exact .inl (.inl hclosed)
      · exact .inr hlistener
  | stopListener =>
      rcases hrun with hclosed | hlistener
      · exact .inl (.inl (List.mem_append_right _ hclosed))
      · exact .inl (.inr hlistener)
  | _ => exact .inl hrun

/-- Who is about to close a listener closes it with its step. -/
theorem Step.listener_of_closes (h : Step s g o s' g' new) {run : Nat}
    (hcloses : g.closesListener run) : run ∈ s'.closedListeners := by
  cases h with
  | stopListener => exact List.mem_append_left _ (Option.mem_toList.mpr hcloses)
  | _ => exact hcloses.elim

/-- A run that begins has its listener in the service. -/
theorem Step.listener_of_run (h : Step s g o s' g' new) {run : Nat} (hrun : run < s'.runs) :
    run < s.runs ∨ s'.hasListener run := by
  cases h with
  | startListening hready =>
      rcases Nat.lt_succ_iff_lt_or_eq.mp hrun with hold | rfl
      · exact .inl hold
      · exact .inr (.inr rfl)
  | _ => exact .inl hrun

/-- A loop gets its channel from the service, and then keeps it. -/
theorem Step.channel (h : Step s g o s' g' new) (hs : RunState s) {run : Nat} {pos : TickLoop}
    (hu : .tickLoop run pos = g' ∨ .tickLoop run pos ∈ new) (hk : pos.stop? = some (some k)) :
    k < s.runs ∨ ∃ before, g = .tickLoop run before ∧ before.stop? = some (some k) := by
  cases h with
  | startGoTick =>
      rcases hu with hu | hu
      · cases hu
      · cases List.mem_singleton.mp hu
        cases hk
  | tickInit =>
      rcases hu with hu | hu
      · cases hu
        -- `tickLoop` takes `s.bridgeStop` at its start, which is the channel of the last run, if
        -- any.
        have hstop : s.bridgeStop = some k := Option.some.inj hk
        cases hrunning : s.bridgeRunning with
        | false => cases (hs.idle hrunning).symm.trans hstop
        | true =>
            obtain ⟨last, hruns, hlast⟩ := hs.running hrunning
            obtain rfl := Option.some.inj (hlast.symm.trans hstop)
            exact .inl (by omega)
      · cases hu
  -- Steps that launch a goroutine, but no `tickLoop`.
  | startGoAccept | acceptWatch | tickGoStop =>
      rcases hu with hu | hu
      · cases hu
        all_goals cases hk
      · cases List.mem_singleton.mp hu
  | _ =>
      rcases hu with hu | hu
      · cases hu
        all_goals first
          | exact .inr ⟨_, rfl, hk⟩
          | cases hk
      · cases hu

/-- At the start there is no run yet. -/
theorem held_boot (cfg : Config) : Held (boot cfg) := ⟨nofun, nofun⟩

/-- **One step** keeps listeners and channels known. -/
theorem held_step (hr : Runs p) (h : step p a = some p') (hp : Held p) : Held p' := by
  rcases system_cases h with ⟨g, -, hreq, rfl⟩ | ⟨i, o, g, s, g', new, -, hg, hstep, rfl⟩
  · refine ⟨fun run hrun => (hp.listeners run hrun).call g, fun run pos k hmem hk => ?_⟩
    rcases List.mem_append.mp hmem with hmem | hmem
    · exact hp.channels run pos k hmem hk
    · cases List.mem_singleton.mp hmem
      cases hreq
  · refine ⟨fun run hrun => ?_, fun run pos k hmem hk => ?_⟩
    · rcases hstep.listener_of_run hrun with hold | hbegun
      · exact (hp.listeners run hold).step hg (hstep.listener_of_state hr.state)
          fun hcloses => .inl (.inl (hstep.listener_of_closes hcloses))
      · exact Kept.of_step hg (.inl hbegun)
    · have hle : ∀ {k}, k < p.shared.runs → k < s.runs :=
        fun hk => Nat.lt_of_lt_of_le hk hstep.runs_le
      -- A loop that has just taken its channel has it from the service. Another one had it before.
      have hstepped : .tickLoop run pos = g' ∨ .tickLoop run pos ∈ new → k < s.runs := by
        intro hu
        rcases hstep.channel hr.state hu hk with hmade | ⟨before, rfl, hbefore⟩
        · exact hle hmade
        · exact hle (hp.channels run before k (Pool.mem_of_get hg) hbefore)
      rcases Pool.mem_threads_step hmem with hu | hu | hold
      · exact hstepped (.inl hu)
      · exact hstepped (.inr hu)
      · exact hle (hp.channels run pos k hold hk)

/-- What is known at each time. -/
structure Known (p : System) : Prop where
  represents : Represents p
  counted : Counted p
  held : Held p

/-- What is known holds at each time of a fair run. -/
theorem FairRun.known (hρ : FairRun cfg ρ) (n : Nat) : Known (ρ n) := by
  refine hρ.endless.always (n := 0) (fun k a _ hk hstep => ?_) ?_ (Nat.zero_le n)
  · exact ⟨represents_step hstep hk.represents, counted_step hstep hk.counted,
      held_step hk.represents.runs hstep hk.held⟩
  · rw [hρ.start]
    exact ⟨represents_boot cfg, counted_boot cfg, held_boot cfg⟩

/-! ### A stop that no start follows -/

/-- The goroutine is a `StartBridge` that has begun a run. -/
def Goroutine.starting : Goroutine → Bool
  | .startBridge (.clearErr _) | .startBridge (.wgAdd _) | .startBridge (.goAccept _)
  | .startBridge (.goTick _) => true
  | _ => false

/-- From the time `n` on the bridge is not running, and no `StartBridge` is under way. -/
structure Stopped (ρ : Nat → System) (n : Nat) : Prop where
  idle : ∀ m, n ≤ m → (ρ m).shared.bridgeRunning = false
  settled : ∀ g ∈ (ρ n).threads, g.starting = false

/-- While the bridge is not running, no other goroutine becomes a `StartBridge` that has begun a
run. -/
theorem Step.starting (h : Step s g o s' g' new) (hg : g.starting = false)
    (hs : s'.bridgeRunning = false) : ∀ u, u = g' ∨ u ∈ new → u.starting = false := by
  cases h with
  | startListening => cases hs
  | startClearErr | startAdd | startGoAccept | startGoTick => cases hg
  | acceptWatch | tickGoStop =>
      rintro u (rfl | hu)
      · rfl
      · rw [List.mem_singleton.mp hu]
        rfl
  | _ =>
      rintro u (rfl | hu)
      · rfl
      · cases hu

/-- Nothing but such a `StartBridge` adds to the wait group. -/
theorem Step.bridgeWG_le (h : Step s g o s' g' new) (hg : g.starting = false) :
    s'.bridgeWG ≤ s.bridgeWG := by
  cases h with
  | startAdd => cases hg
  | acceptReturned | tickLeft => exact Nat.sub_le _ _
  | _ => exact Nat.le_refl _

/-- No run begins while the bridge is not running. -/
theorem Step.runs_eq (h : Step s g o s' g' new) (hs : s'.bridgeRunning = false) :
    s'.runs = s.runs := by
  cases h with
  | startListening => cases hs
  | _ => rfl

/-- What is closed stays closed. -/
theorem Step.closed_subset (h : Step s g o s' g' new) :
    s.closedListeners ⊆ s'.closedListeners ∧ s.closedStops ⊆ s'.closedStops := by
  cases h with
  | stopListener => exact ⟨List.subset_append_right _ _, List.Subset.refl _⟩
  | stopChannel => exact ⟨List.Subset.refl _, List.subset_append_right _ _⟩
  | _ => exact ⟨List.Subset.refl _, List.Subset.refl _⟩

/-- What a move does not undo once the bridge is stopped. -/
structure Later (s s' : State) : Prop where
  runs : s'.runs = s.runs
  bridgeWG : s'.bridgeWG ≤ s.bridgeWG
  listeners : s.closedListeners ⊆ s'.closedListeners
  stops : s.closedStops ⊆ s'.closedStops

/-- What is stopped stays stopped, and the shared state only moves on. -/
theorem Stopped.later (hρ : FairRun cfg ρ) (h : Stopped ρ n) (hm : n ≤ m) :
    Later (ρ n).shared (ρ m).shared ∧ Stopped ρ m := by
  -- The induction needs that no call is about to start a run. Requests that come in later are not,
  -- and `idle` excludes a start.
  suffices hboth : Later (ρ n).shared (ρ m).shared ∧ ∀ g ∈ (ρ m).threads, g.starting = false from
    ⟨hboth.1, fun k hk => h.idle k (hm.trans hk), hboth.2⟩
  refine hρ.endless.always (I := fun p => Later (ρ n).shared p.shared ∧
    ∀ g ∈ p.threads, g.starting = false) (fun k a hk hnow hstep => ?_) ?_ hm
  · have hidle := h.idle (k + 1) (Nat.le_succ_of_le hk)
    rcases system_cases hstep with ⟨g, -, hreq, hp⟩ | ⟨i, o, g, s, g', new, -, hg, hstep, hp⟩
    · rw [hp] at hidle ⊢
      refine ⟨hnow.1, fun u hu => ?_⟩
      rcases List.mem_append.mp hu with hu | hu
      · exact hnow.2 u hu
      · rw [List.mem_singleton.mp hu]
        rcases request_cases hreq with rfl | rfl | rfl | rfl | ⟨cfg, rfl⟩ <;> rfl
    · rw [hp] at hidle ⊢
      have hg' := hnow.2 g (Pool.mem_of_get hg)
      have hstarting := hstep.starting hg' hidle
      obtain ⟨hlisteners, hstops⟩ := hstep.closed_subset
      exact ⟨⟨(hstep.runs_eq hidle).trans hnow.1.runs,
          (hstep.bridgeWG_le hg').trans hnow.1.bridgeWG,
          List.Subset.trans hnow.1.listeners hlisteners, List.Subset.trans hnow.1.stops hstops⟩,
        Pool.forall_threads_step hnow.2 (hstarting _ (.inl rfl))
          (fun u hu => hstarting u (.inr hu)) fun _ _ => id⟩
  · exact ⟨⟨rfl, Nat.le_refl _, List.Subset.refl _, List.Subset.refl _⟩, h.settled⟩

/-- The service has no channel and no listener then. -/
theorem Stopped.withoutRun (hρ : FairRun cfg ρ) (h : Stopped ρ n) (hm : n ≤ m) :
    (ρ m).shared.bridgeStop = none ∧ (ρ m).shared.listener = none := by
  have hstate := (hρ.known m).represents.runs.state
  have hstop := hstate.idle (h.idle m hm)
  exact ⟨hstop, hstate.listener.trans hstop⟩

/-! ### Everything is closed -/

/-- Closing a channel does not wait. -/
theorem prompt_of_closes (h : g.closes k) : prompt s g := by
  unfold Goroutine.closes at h
  split at h
  · trivial
  · trivial
  · exact h.elim

/-- Nor does closing a listener. -/
theorem prompt_of_closesListener (h : g.closesListener k) : prompt s g := by
  unfold Goroutine.closesListener at h
  split at h
  · trivial
  · exact h.elim

/-- How far a `StopBridge` is from closing its channel. -/
def Goroutine.closeRank : Goroutine → Nat
  | .stopBridge _ (.closeListener _ _ _) => 1
  | _ => 0

/-- The channel of each run is closed in the end. -/
theorem Stopped.closesStop (hρ : FairRun cfg ρ) (h : Stopped ρ n) (hk : k < (ρ n).shared.runs) :
    ∃ m, n ≤ m ∧ k ∈ (ρ m).shared.closedStops := by
  rcases (hρ.known n).represents.runs.stoppable k hk with hclosed | hstop | ⟨g, hg, hcloses⟩
  · exact ⟨n, Nat.le_refl n, hclosed⟩
  · cases (h.withoutRun hρ (Nat.le_refl n)).1.symm.trans hstop
  · obtain ⟨j, hj⟩ := List.getElem?_of_mem hg
    -- Only the `StopBridge` that has taken the channel can still close it. It gets there in two
    -- steps, and nothing holds it up: `closeRank` goes down.
    have hstep : ∀ (s : State) (g : Goroutine) c s' g' new, s.bridgeStop = none → g.closes k →
        exec s g c = some (s', g', new) → s'.bridgeStop = none →
        k ∈ s'.closedStops ∨ (g'.closes k ∧ (g' = g ∨ g'.closeRank < g.closeRank)) := by
      intro s g c s' g' new _ hg hexec hnone
      have hstep := step_of_exec hexec
      rcases hstep.stop_of_closes hg with (hclosed | hstop) | hcloses
      · exact .inl hclosed
      · cases hnone.symm.trans hstop
      · refine .inr ⟨hcloses, .inr ?_⟩
        cases hstep with
        | stopListener => exact Nat.zero_lt_one
        | stopChannel => exact hcloses.elim
        | _ => exact hg.elim
    obtain ⟨m, hm, -, -, hclosed⟩ := hρ.fair.reaches_of_rank hρ.endless
      (I := fun s _ => s.bridgeStop = none) (Q := fun s _ => k ∈ s.closedStops)
      Goroutine.closeRank (fun m hm _ _ => (h.withoutRun hρ hm).1)
      (fun _ _ _ => prompt_of_closes) hstep hj hcloses
    exact ⟨m, hm, hclosed⟩

/-- So is its listener. -/
theorem Stopped.closesListener (hρ : FairRun cfg ρ) (h : Stopped ρ n)
    (hk : k < (ρ n).shared.runs) : ∃ m, n ≤ m ∧ k ∈ (ρ m).shared.closedListeners := by
  rcases (hρ.known n).held.listeners k hk with (hclosed | hlistener) | ⟨g, hg, hcloses⟩
  · exact ⟨n, Nat.le_refl n, hclosed⟩
  · cases (h.withoutRun hρ (Nat.le_refl n)).2.symm.trans hlistener
  · obtain ⟨j, hj⟩ := List.getElem?_of_mem hg
    obtain ⟨m, hm, -, -, hclosed⟩ := hρ.fair.reaches_of_rank hρ.endless (I := fun _ _ => True)
      (Q := fun s _ => k ∈ s.closedListeners) (fun _ => 0) (fun _ _ _ _ => trivial)
      (fun _ _ _ => prompt_of_closesListener)
      (fun _ _ _ _ _ _ _ hg hexec _ => .inl ((step_of_exec hexec).listener_of_closes hg)) hj
      hcloses
    exact ⟨m, hm, hclosed⟩

/-- The listeners and the channels of all runs are closed. -/
def AllClosed (s : State) : Prop :=
  ∀ k < s.runs, k ∈ s.closedListeners ∧ k ∈ s.closedStops

/-- When all is closed it stays closed. -/
theorem AllClosed.later (h : AllClosed s) (hs : Later s s') : AllClosed s' := fun k hk =>
  have hclosed := h k (hs.runs ▸ hk)
  ⟨hs.listeners hclosed.1, hs.stops hclosed.2⟩

/-- After a stop everything is closed at some time. -/
theorem Stopped.allClosed (hρ : FairRun cfg ρ) (h : Stopped ρ n) :
    ∃ m, n ≤ m ∧ AllClosed (ρ m).shared := by
  -- The runs are closed one after the other.
  suffices hall : ∀ r ≤ (ρ n).shared.runs, ∃ m, n ≤ m ∧
      ∀ k < r, k ∈ (ρ m).shared.closedListeners ∧ k ∈ (ρ m).shared.closedStops by
    obtain ⟨m, hm, hclosed⟩ := hall _ (Nat.le_refl _)
    exact ⟨m, hm, fun k hk => hclosed k ((h.later hρ hm).1.runs ▸ hk)⟩
  intro r
  induction r with
  | zero => exact fun _ => ⟨n, Nat.le_refl n, nofun⟩
  | succ r ih =>
      intro hr
      obtain ⟨m₁, hm₁, hclosed⟩ := ih (Nat.le_of_succ_le hr)
      obtain ⟨hlater₁, h₁⟩ := h.later hρ hm₁
      obtain ⟨m₂, hm₂, hlistener⟩ := h₁.closesListener hρ (k := r) (hlater₁.runs ▸ hr)
      obtain ⟨hlater₂, h₂⟩ := h₁.later hρ hm₂
      obtain ⟨m₃, hm₃, hstop⟩ := h₂.closesStop hρ (k := r)
        ((hlater₂.runs.trans hlater₁.runs) ▸ hr)
      obtain ⟨hlater₃, -⟩ := h₂.later hρ hm₃
      refine ⟨m₃, hm₁.trans (hm₂.trans hm₃), fun k hk => ?_⟩
      rcases Nat.lt_succ_iff_lt_or_eq.mp hk with hold | rfl
      · exact ⟨hlater₃.listeners (hlater₂.listeners (hclosed k hold).1),
          hlater₃.stops (hlater₂.stops (hclosed k hold).2)⟩
      · exact ⟨hlater₃.listeners hlistener, hstop⟩

/-! ### The loops end -/

/-- How far an `acceptLoop` is from its next `Accept`. -/
def Goroutine.acceptRank : Goroutine → Nat
  | .acceptLoop _ (.record _) => 2
  | .acceptLoop _ (.goWatch _) => 1
  | _ => 0

/-- An `acceptLoop` whose listener is closed ends. -/
theorem Stopped.acceptLoop_ends (hρ : FairRun cfg ρ) (h : Stopped ρ n) {run : Nat}
    {pos : AcceptLoop} (hi : (ρ n).threads[i]? = some (.acceptLoop run pos))
    (hclosed : run ∈ (ρ n).shared.closedListeners) :
    ∃ m, n ≤ m ∧ (ρ m).shared.bridgeWG < (ρ n).shared.bridgeWG := by
  by_contra! hsame
  have hpos : 1 ≤ (ρ n).shared.bridgeWG := by
    rw [(hρ.known n).counted]
    exact Pool.weight_of_get_le Goroutine.pending hi
  refine absurd (hρ.fair.reaches_of_rank hρ.endless
    (I := fun s _ => s.bridgeWG = (ρ n).shared.bridgeWG ∧ run ∈ s.closedListeners)
    (P := fun g => ∃ pos, g = .acceptLoop run pos) (Q := fun _ _ => False) Goroutine.acceptRank
    (fun m hm _ _ => ⟨(h.later hρ hm).1.bridgeWG.antisymm (hsame m hm),
      (h.later hρ hm).1.listeners hclosed⟩) ?_ ?_ hi ⟨pos, rfl⟩) fun ⟨_, _, _, _, hfalse⟩ => hfalse
  · rintro s _ hs ⟨pos, rfl⟩
    cases pos with
    | accept => exact hs.2
    | _ => trivial
  · rintro s _ c s' g' new hs ⟨pos, rfl⟩ hexec hs'
    right
    cases step_of_exec hexec with
    | acceptConn _ hopen => exact absurd hs.2 hopen
    | acceptReturned =>
        -- It would take one off the counter.
        have hless : s.bridgeWG - 1 = (ρ n).shared.bridgeWG := hs'.1
        have hnow := hs.1
        omega
    | acceptRecorded run conn => exact ⟨⟨_, rfl⟩, .inr (Nat.lt_succ_self 1)⟩
    | acceptWatch run conn => exact ⟨⟨_, rfl⟩, .inr Nat.zero_lt_one⟩

/-- How far a `tickLoop` is from its end when its channel is closed. -/
def TickLoop.endRank : TickLoop → Nat
  | .init => 7
  | .state _ _ => 6
  | .readClient _ => 5
  | .resolve _ => 4
  | .draw _ => 3
  | .setLost _ => 3
  | .broadcast _ _ | .setErr _ _ | .clearConnected _ => 2
  | .select _ | .goStop => 1
  | .leave => 0

def Goroutine.endRank : Goroutine → Nat
  | .tickLoop _ pos => pos.endRank
  | _ => 0

/-- A loop of the run `run` that listens on this channel, or on none and does not select yet. -/
def Listens (run : Nat) (chan : Option Nat) (g : Goroutine) : Prop :=
  ∃ pos, g = .tickLoop run pos ∧ pos ≠ .select none ∧
    ∀ stop, pos.stop? = some stop → stop = none ∨ stop = chan

/-- A loop that has not lost its channel is on some channel. -/
theorem exists_listens (run : Nat) {pos : TickLoop} (h : pos ≠ .select none) :
    ∃ chan, Listens run chan (.tickLoop run pos) ∧ (chan ≠ none → pos.stop? = some chan) := by
  cases hstop : pos.stop? with
  | none => exact ⟨none, ⟨pos, rfl, h, fun _ hsome => by cases hstop.symm.trans hsome⟩, nofun⟩
  | some chan =>
      exact ⟨chan, ⟨pos, rfl, h, fun _ hsome => .inr (Option.some.inj (hsome.symm.trans hstop))⟩,
        fun _ => rfl⟩

/-- A `tickLoop` whose channel is closed ends, unless it loses its channel. -/
theorem Stopped.tickLoop_ends (hρ : FairRun cfg ρ) (h : Stopped ρ n) {run : Nat} {pos : TickLoop}
    (hi : (ρ n).threads[i]? = some (.tickLoop run pos)) (hclosed : AllClosed (ρ n).shared)
    (hlost : ∀ m, n ≤ m → ∀ run, .tickLoop run (.select none) ∉ (ρ m).threads) :
    ∃ m, n ≤ m ∧ (ρ m).shared.bridgeWG < (ρ n).shared.bridgeWG := by
  by_contra! hsame
  have hpos : 1 ≤ (ρ n).shared.bridgeWG := by
    rw [(hρ.known n).counted]
    exact Pool.weight_of_get_le Goroutine.pending hi
  have hne : pos ≠ .select none := fun hpos =>
    hlost n (Nat.le_refl n) run (hpos ▸ Pool.mem_of_get hi)
  obtain ⟨chan, hlistens, hchan⟩ := exists_listens run hne
  have hstops : ∀ k, chan = some k → k ∈ (ρ n).shared.closedStops := by
    rintro k rfl
    exact (hclosed k ((hρ.known n).held.channels run pos k (Pool.mem_of_get hi) (hchan nofun))).2
  refine absurd (hρ.fair.reaches_of_rank hρ.endless
    (I := fun s g => s.bridgeWG = (ρ n).shared.bridgeWG ∧ s.bridgeRunning = false ∧
      s.bridgeStop = none ∧ (∀ k, chan = some k → k ∈ s.closedStops) ∧
      g ≠ .tickLoop run (.select none))
    (P := Listens run chan) (Q := fun _ _ => False) Goroutine.endRank ?_ ?_ ?_ hi hlistens)
    fun ⟨_, _, _, _, hfalse⟩ => hfalse
  · intro m hm g hg
    obtain ⟨hlater, -⟩ := h.later hρ hm
    exact ⟨hlater.bridgeWG.antisymm (hsame m hm), h.idle m hm, (h.withoutRun hρ hm).1,
      fun k hk => hlater.stops (hstops k hk),
      fun hg' => hlost m hm run (hg' ▸ Pool.mem_of_get hg)⟩
  · rintro s _ ⟨-, -, -, hstops, -⟩ ⟨pos, rfl, hne, hheld⟩
    cases pos with
    | select stop =>
        rcases hheld stop rfl with rfl | rfl
        · exact absurd rfl hne
        · cases stop with
          | none => exact absurd rfl hne
          | some k => exact .inl ⟨k, hstops k rfl, rfl⟩
    | _ => trivial
  · rintro s _ c s' g' new ⟨hnow, hidle, hstop, -, -⟩ ⟨pos, rfl, hne, hheld⟩ hexec
      ⟨hsame', -, -, -, hne'⟩
    right
    cases step_of_exec hexec with
    | tickLeft =>
        -- It would take one off the counter.
        have hless : s.bridgeWG - 1 = (ρ n).shared.bridgeWG := hsame'
        omega
    | tickClient _ _ _ hrunning => cases hidle.symm.trans hrunning
    | tickSkipped run stop => exact ⟨⟨_, rfl, hne, hheld⟩, .inl rfl⟩
    | tickInit =>
        rw [hstop] at hne'
        exact absurd rfl hne'
    | tickStopped | tickLost | tickSetLost | tickCleared | tickGoStop =>
        exact ⟨⟨_, rfl, nofun, nofun⟩, .inr (by simp [Goroutine.endRank, TickLoop.endRank])⟩
    | _ =>
        -- The loop keeps its channel.
        refine ⟨⟨_, rfl, fun hpos => hne' (congrArg _ hpos), hheld⟩, .inr ?_⟩
        simp [Goroutine.endRank, TickLoop.endRank]

/-- The counter comes down to zero. -/
theorem Stopped.drains (hρ : FairRun cfg ρ) (h : Stopped ρ n) (hclosed : AllClosed (ρ n).shared)
    (hlost : ∀ m, n ≤ m → ∀ run, .tickLoop run (.select none) ∉ (ρ m).threads) :
    ∃ m, n ≤ m ∧ (ρ m).shared.bridgeWG = 0 := by
  induction hcount : (ρ n).shared.bridgeWG using Nat.strongRecOn generalizing n with
  | ind count ih =>
      by_cases hzero : (ρ n).shared.bridgeWG = 0
      · exact ⟨n, Nat.le_refl n, hzero⟩
      · -- Some loop is left, and it ends.
        obtain ⟨g, hg, hpending⟩ : ∃ g ∈ (ρ n).threads, g.pending ≠ 0 := by
          by_contra! hnone
          exact hzero ((hρ.known n).counted.trans ((Pool.weight_eq_zero _).mpr hnone))
        obtain ⟨j, hj⟩ := List.getElem?_of_mem hg
        have hends : ∃ m, n ≤ m ∧ (ρ m).shared.bridgeWG < (ρ n).shared.bridgeWG := by
          unfold Goroutine.pending at hpending
          split at hpending
          · cases h.settled _ hg
          · cases h.settled _ hg
          · rename_i run pos
            have hrun := (hρ.known n).represents.runs.numbered _ hg run rfl
            exact h.acceptLoop_ends hρ hj (hclosed run hrun).1
          · exact h.tickLoop_ends hρ hj hclosed hlost
          · exact absurd rfl hpending
        obtain ⟨m, hm, hless⟩ := hends
        obtain ⟨hlater, h'⟩ := h.later hρ hm
        obtain ⟨k, hk, hdone⟩ := ih _ (hcount ▸ hless) h' (hclosed.later hlater)
          (fun k hk => hlost k (hm.trans hk)) rfl
        exact ⟨k, hm.trans hk, hdone⟩

/-! ### The `StopBridge` -/

/-- A `StopBridge` waits until the counter is zero at some time. -/
theorem FairRun.wait_cases (hρ : FairRun cfg ρ) {cause ch : Option Nat}
    (hwait : (ρ n).threads[i]? = some (.stopBridge cause (.wait ch))) (hm : n ≤ m) :
    (ρ m).threads[i]? = some (.stopBridge cause (.wait ch)) ∨
      ∃ k, n ≤ k ∧ k < m ∧ (ρ k).shared.bridgeWG = 0 ∧
        (ρ (k + 1)).threads[i]? = some (.finished none) := by
  induction m, hm using Nat.le_induction with
  | base => exact .inl hwait
  | succ m hm ih =>
      rcases ih with hnow | ⟨k, hk, hkm, hback⟩
      · rcases hρ.endless.thread_cases hnow with hsame | ⟨c, g', new, hexec, hnext⟩
        · exact .inl hsame
        · have hstep := step_of_exec hexec
          generalize (ρ (m + 1)).shared = s' at hstep
          cases hstep with
          | stopWaited _ _ _ hzero => exact .inr ⟨m, hm, Nat.lt_succ_self m, hzero, hnext⟩
      · exact .inr ⟨k, hk, Nat.lt_succ_of_lt hkm, hback⟩

/-- A loop without a channel stays where it is while the bridge is not running. -/
theorem Stopped.lost_stays (hρ : FairRun cfg ρ) (h : Stopped ρ n) {run : Nat}
    (hi : (ρ n).threads[i]? = some (.tickLoop run (.select none))) (hm : n ≤ m) :
    (ρ m).threads[i]? = some (.tickLoop run (.select none)) := by
  induction m, hm using Nat.le_induction with
  | base => exact hi
  | succ m hm ih =>
      rcases hρ.endless.thread_cases ih with hsame | ⟨c, g', new, hexec, hnext⟩
      · exact hsame
      · have hstep := step_of_exec hexec
        generalize (ρ (m + 1)).shared = s' at hstep
        cases hstep with
        | tickSkipped => exact hnext
        | tickClient _ _ _ hrunning => cases (h.idle m hm).symm.trans hrunning

/-- Where the counter is zero there is no loop. -/
theorem FairRun.no_loop (hρ : FairRun cfg ρ) (hzero : (ρ n).shared.bridgeWG = 0) (run : Nat)
    (pos : TickLoop) : .tickLoop run pos ∉ (ρ n).threads := fun hg => by
  have hnone := (Pool.weight_eq_zero _).mp ((hρ.known n).counted.symm.trans hzero) _ hg
  cases hnone

/-- **When a stop comes back.** In a fair run, a `StopBridge` waits and the bridge is not started
again, nor is a `StartBridge` under way. Then the `StopBridge` comes back exactly when no loop ever
listens on no channel. -/
theorem stop_returns_iff (hρ : FairRun cfg ρ) (h : Stopped ρ n) {cause ch : Option Nat}
    (hwait : (ρ n).threads[i]? = some (.stopBridge cause (.wait ch))) :
    (∃ m, n ≤ m ∧ (ρ m).threads[i]? = some (.finished none)) ↔
      ∀ m, n ≤ m → ∀ run, .tickLoop run (.select none) ∉ (ρ m).threads := by
  constructor
  · rintro ⟨back, hback, hfinished⟩ m hm run hlost
    rcases hρ.wait_cases hwait hback with hnow | ⟨k, hk, -, hzero, -⟩
    · cases hnow.symm.trans hfinished
    · rcases Nat.le_total m k with hmk | hkm
      · -- The loop is still there when the counter is zero.
        obtain ⟨j, hj⟩ := List.getElem?_of_mem hlost
        exact hρ.no_loop hzero run _
          (Pool.mem_of_get ((h.later hρ hm).2.lost_stays hρ hj hmk))
      · have hless := ((h.later hρ hk).2.later hρ hkm).1.bridgeWG
        exact hρ.no_loop (Nat.le_zero.mp (hzero ▸ hless)) run _ hlost
  · intro hlost
    obtain ⟨m₁, hm₁, hclosed⟩ := h.allClosed hρ
    obtain ⟨-, h₁⟩ := h.later hρ hm₁
    obtain ⟨m, hm, hzero⟩ := h₁.drains hρ hclosed fun m hm => hlost m (hm₁.trans hm)
    obtain ⟨-, h'⟩ := h₁.later hρ hm
    rcases hρ.wait_cases hwait (hm₁.trans hm) with hnow | ⟨k, hk, -, -, hfinished⟩
    · obtain ⟨k, hk, g, hg, hgoal⟩ := hρ.fair.reaches_of_rank hρ.endless
        (I := fun s _ => s.bridgeWG = 0) (P := fun g => g = .stopBridge cause (.wait ch))
        (Q := fun _ g => g = .finished none) (fun _ => 0)
        (fun k hk _ _ => Nat.le_zero.mp (hzero ▸ (h'.later hρ hk).1.bridgeWG))
        (fun s g hs hg => hg ▸ hs)
        (fun s g c s' g' new _ hg hexec _ => by
          subst hg
          cases step_of_exec hexec with
          | stopWaited => exact .inl rfl)
        hnow rfl
      exact ⟨k, (hm₁.trans hm).trans hk, hgoal ▸ hg⟩
    · exact ⟨k + 1, Nat.le_succ_of_le hk, hfinished⟩

/-- The moves of `shutdown`, up to the end of the `StopBridge`. -/
def shutdownRun : Nat → System :=
  Pool.scheduled isRequest exec (fun n _ => (shutdown ++ [.step 4 .ok])[n]?) (boot defaultConfig)

/-- From its 23rd state on the run of the witness stands still, with every goroutine finished. -/
theorem shutdownRun_last : ∃ p, (∀ n, 23 ≤ n → shutdownRun n = p) ∧
    p.shared.bridgeRunning = false ∧ p.threads[4]? = some (.finished none) ∧
    ∀ g ∈ p.threads, ∃ err, g = .finished err := by
  have hcheck : (run step (boot defaultConfig) (shutdown ++ [.step 4 .ok])).any (fun p =>
      p.shared.bridgeRunning = false ∧ p.threads[4]? = some (.finished none) ∧
        p.threads = [.finished none, .finished none, .finished none, .finished none,
          .finished none]) = true := by
    decide
  obtain ⟨p, hrun, hp⟩ := (Option.any_eq_true _ _).mp hcheck
  obtain ⟨hidle, hfinished, hthreads⟩ := of_decide_eq_true hp
  refine ⟨p, fun n hn => Pool.scheduled_moves hrun hn, hidle, hfinished, ?_⟩
  rw [hthreads]
  simp

/-- It is a fair run. -/
theorem fairRun_shutdownRun : FairRun defaultConfig shutdownRun := by
  obtain ⟨p, hlast, -, -, hfinished⟩ := shutdownRun_last
  refine ⟨rfl, Pool.endless_scheduled, Pool.fair_of_stuck hlast fun g hg => ?_⟩
  obtain ⟨err, rfl⟩ := hfinished g hg
  exact id

/-- The `StopBridge` of `shutdown` waits for two loops, and comes back. -/
theorem stop_returns_iff_shutdown :
    (∃ m, 19 ≤ m ∧ (shutdownRun m).threads[4]? = some (.finished none)) ∧
      ∀ m, 19 ≤ m → ∀ run, .tickLoop run (.select none) ∉ (shutdownRun m).threads := by
  obtain ⟨p, hlast, hidle, hfinished, -⟩ := shutdownRun_last
  have hstopped : Stopped shutdownRun 19 := by
    refine ⟨fun m hm => ?_, by decide⟩
    rcases Nat.lt_or_ge m 23 with hless | hmore
    · -- Four more steps, and then the schedule stands still.
      have hcheck : ∀ m < 23, 19 ≤ m → (shutdownRun m).shared.bridgeRunning = false := by decide
      exact hcheck m hless hm
    · rw [hlast m hmore]
      exact hidle
  have hwait : (shutdownRun 19).threads[4]? = some (.stopBridge none (.wait (some 0))) := by
    decide
  have hback : (shutdownRun 23).threads[4]? = some (.finished none) := by
    rw [hlast 23 (Nat.le_refl 23)]
    exact hfinished
  have hreturns : ∃ m, 19 ≤ m ∧ (shutdownRun m).threads[4]? = some (.finished none) :=
    ⟨23, by decide, hback⟩
  exact ⟨hreturns, (stop_returns_iff fairRun_shutdownRun hstopped hwait).mp hreturns⟩

end SmartFactory.Bridge
