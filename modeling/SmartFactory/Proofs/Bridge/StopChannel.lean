import SmartFactory.Proofs.Bridge.Runs

/-!
# `SmartFactory.Proofs.Bridge.StopChannel`: the channel a loop listens on

`StartBridge` makes the stop channel, but `tickLoop` reads it from the service when it
begins, in a critical section of its own. In between, a `StopBridge` takes the channel out
of the service and another `StartBridge` puts a new one in.

`OwnStop` says that every loop listens on the channel of its own run, and that it can be
stopped. `ownStop_iff` is the extent of it: it holds along an interleaving exactly when each
loop begins while the run that launched it is still running (`BeginsInRun`).
-/

set_option autoImplicit false

namespace SmartFactory.Bridge

open Run

/-- The channel that a loop listens on. It is known after the first read. -/
def TickLoop.stop? : TickLoop → Option (Option Nat)
  | .select stop | .state stop _ | .readClient stop | .resolve stop | .draw stop
  | .broadcast stop _ | .setErr stop _ => some stop
  | _ => none

/-- Every loop listens on the channel of its own run. Once that channel is closed, the exit
branch of the loop is enabled; until then the channel is in the service, or a `StopBridge`
is about to close it. -/
structure OwnStop (p : System) : Prop where
  own : ∀ run pos stop, .tickLoop run pos ∈ p.threads → pos.stop? = some stop →
    stop = some run
  exits : ∀ i run stop, p.threads[i]? = some (.tickLoop run (.select stop)) →
    run ∈ p.shared.closedStops → ∃ p', step p (.step i .stopped) = some p'
  reach : ∀ run pos, .tickLoop run pos ∈ p.threads → Stoppable p run

/-- A loop makes its first read while the run that launched it is still running. -/
def BeginsInRun (p : System) (m : Move) : Prop :=
  ∀ i o run, m = .step i o → p.threads[i]? = some (.tickLoop run .init) →
    p.shared.bridgeRunning = true ∧ p.shared.runs = run + 1

variable {p p' : System} {m : Move}

/-- The first part gives the others. -/
theorem ownStop_of_own (hr : Runs p) (hown : ∀ run pos stop,
    .tickLoop run pos ∈ p.threads → pos.stop? = some stop → stop = some run) : OwnStop p := by
  refine ⟨hown, fun i run stop hg hclosed => ?_, fun run pos hg => ?_⟩
  · obtain rfl := hown run _ stop (Pool.mem_of_get hg) rfl
    refine ⟨⟨p.shared, p.threads.set i (.tickLoop run .leave) ++ []⟩, ?_⟩
    simp only [step, Pool.move, hg, exec, execTickLoop, if_pos hclosed, next]
  · exact hr.stoppable run (hr.numbered _ hg run rfl)

theorem ownStop_boot (cfg : Config) : OwnStop (boot cfg) :=
  ownStop_of_own (runs_boot cfg) nofun

/-- **One step.** The loops listen on their own channels after a move exactly when the
move begins no loop outside its run. -/
theorem ownStop_step_iff (hr : Runs p) (hp : OwnStop p) (h : step p m = some p') :
    OwnStop p' ↔ BeginsInRun p m := by
  have hr' := runs_step h hr
  rcases system_cases h with ⟨g, rfl, hreq, rfl⟩ | ⟨i, o, g, s, g', new, rfl, hg, hstep, rfl⟩
  · refine iff_of_true (ownStop_of_own hr' fun run pos stop hmem hstop => ?_)
      fun _ _ _ hm => nomatch hm
    rcases List.mem_append.mp hmem with hmem | hmem
    · exact hp.own run pos stop hmem hstop
    · rw [List.mem_singleton] at hmem
      subst hmem
      cases hreq
  · constructor
    · intro hp' j o' run hm hj
      obtain ⟨rfl, -⟩ := Move.step.inj hm
      rw [hg, Option.some.injEq] at hj
      subst hj
      cases hstep with
      -- The channel that was read is the one of the latest run, or none.
      | tickInit =>
          have hstop := hp'.own run _ _ (Pool.mem_set_self hg _ _) rfl
          cases hrunning : p.shared.bridgeRunning with
          | false => cases (hr.state.idle hrunning).symm.trans hstop
          | true =>
              obtain ⟨k, hruns, hk⟩ := hr.state.running hrunning
              obtain rfl := Option.some.inj (hk.symm.trans hstop)
              exact ⟨rfl, hruns⟩
    · intro hbegins
      refine ownStop_of_own hr' fun run pos stop hmem hstop => ?_
      rcases Pool.mem_threads_step hmem with rfl | hnew | hold
      · cases hstep with
        | tickInit =>
            obtain ⟨hrunning, hruns⟩ := hbegins i o run rfl hg
            obtain ⟨k, hruns', hk⟩ := hr.state.running hrunning
            obtain rfl : k = run := by omega
            rw [← Option.some.inj hstop, hk]
        | tickStopped | tickLost | tickSetLost | tickCleared | tickGoStop => cases hstop
        | _ =>
            -- The loop goes on listening where it listened before.
            exact hp.own run _ stop (Pool.mem_of_get hg) hstop
      · cases hstep with
        -- A loop that was just launched has not read its channel yet.
        | startGoTick =>
            rw [List.mem_singleton] at hnew
            cases hnew
            cases hstop
        | startGoAccept | acceptWatch | tickGoStop => cases List.mem_singleton.mp hnew
        | _ => cases hnew
      · exact hp.own run pos stop hold hstop

/-- **The extent of the law.** Along any interleaving of requests and goroutines, every loop
listens on the stop channel of its own run in every state, exactly when every loop makes its
first read while its run is still running. -/
theorem ownStop_iff (cfg : Config) (ms : List Move) :
    Always step OwnStop (boot cfg) ms ↔ Each step BeginsInRun (boot cfg) ms :=
  always_iff_each (I := Runs) (fun _ => True)
    (fun _ _ _ _ hr hp hg hstep => ⟨runs_step hstep hr, (ownStop_step_iff hr hp hstep).mpr hg⟩)
    (fun _ _ _ _ hr hp hg hstep hp' => hg ((ownStop_step_iff hr hp hstep).mp hp'))
    (fun _ _ => trivial) (runs_boot cfg) (ownStop_boot cfg)

/-- A `StopBridge` between the launch of the loop and its first read: the loop listens on no
channel at all, and nothing stops it. -/
theorem not_ownStop_earlyStop : ¬ Always step OwnStop (boot defaultConfig)
    (connects 0 ++ starts 1 ++ [.call (.stopBridge none .enter), .step 4 .ok, .step 3 .ok]) := by
  have hcheck : (run step (boot defaultConfig) (connects 0 ++ starts 1 ++
      [.call (.stopBridge none .enter), .step 4 .ok, .step 3 .ok])).any
        (fun p => .tickLoop 0 (.select none) ∈ p.threads) = true := by
    decide
  obtain ⟨p, hrun, hloop⟩ := (Option.any_eq_true _ _).mp hcheck
  intro halways
  cases (halways.last hrun).own 0 _ none (of_decide_eq_true hloop) rfl

end SmartFactory.Bridge
