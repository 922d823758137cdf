import SmartFactory.Proofs.Bridge.Runs

/-!
# `SmartFactory.Proofs.Bridge.LostConnection`: what a lost connection affects

A loop that finds its client disconnected clears `opcConnected` and launches a `StopBridge`,
in steps of their own. None of these steps looks again at the client or at the run that it
was meant for.

`LossInRun` says that they only affect the client and the run of the loss. It is kept along
an interleaving in which nothing of a later run comes in between (`LossUndisturbed`): when
the loss is observed, the client is still the one that was looked at and no later run has
begun; no `Connect` stores a client until the flag is cleared; and no run begins until the
launched `StopBridge` is over its critical section.
-/

set_option autoImplicit false

namespace SmartFactory.Bridge

open Run

/-- The goroutine observed a loss of the client and has not yet cleared the flag. -/
def Goroutine.clears : Goroutine → Option (Nat × Nat)
  | .tickLoop run (.setLost cl) => some (run, cl)
  | .tickLoop run (.clearConnected cl) => some (run, cl)
  | _ => none

/-- The goroutine observed a loss in the run, or was launched for one, and the `StopBridge`
of the loss has not looked at the service yet. -/
def Goroutine.stops : Goroutine → Option Nat
  | .tickLoop run (.setLost _) => some run
  | .tickLoop run (.clearConnected _) => some run
  | .tickLoop run .goStop => some run
  | .stopBridge cause .enter => cause
  | _ => none

/-- The move does not clear `opcConnected` for another client than the lost one, and it does
not stop a run that began after the run of the loss. -/
structure LossInRun (p : System) (m : Move) : Prop where
  cleared : ∀ i o run cl, m = .step i o →
    p.threads[i]? = some (.tickLoop run (.clearConnected cl)) →
    p.shared.opcConnected = true → ∀ c, p.shared.client = some c → c = cl
  stopped : ∀ i o run, m = .step i o →
    p.threads[i]? = some (.stopBridge (some run) .enter) →
    p.shared.bridgeRunning = true → ∀ later, p.shared.bridgeStop = some later → later ≤ run

/-- Nothing of a later run comes between a loss and its consequences. -/
structure LossUndisturbed (p : System) (m : Move) : Prop where
  observed : ∀ i run stop cl, m = .step i (.state false) →
    p.threads[i]? = some (.tickLoop run (.state stop cl)) →
    (∀ c, p.shared.client = some c → c = cl) ∧ p.shared.runs = run + 1
  install : ∀ i o c ns, m = .step i o → p.threads[i]? = some (.connect (.install c ns)) →
    ∀ g ∈ p.threads, g.clears = none
  start : ∀ i, m = .step i .ok → p.threads[i]? = some (.startBridge .enter) →
    p.shared.Ready → ∀ g ∈ p.threads, g.stops = none

/-- What a pending loss needs of the state: the client is the lost one or none, and the run
of the loss is the latest. -/
structure LossFits (s : State) (g : Goroutine) : Prop where
  client : ∀ run cl, g.clears = some (run, cl) → ∀ c, s.client = some c → c = cl
  run : ∀ run, g.stops = some run → s.runs = run + 1

variable {s s' : State} {g g' : Goroutine} {o : Outcome} {new : List Goroutine}
variable {p p' : System} {m : Move}

/-- A goroutine without a pending loss needs nothing. -/
theorem lossFits_of_none (hclears : g.clears = none) (hstops : g.stops = none) :
    LossFits s g :=
  ⟨fun _ _ h => (nomatch hclears.symm.trans h), fun _ h => (nomatch hstops.symm.trans h)⟩

/-- What a step leaves to the other goroutines. -/
theorem Step.lossFits_other {i : Nat} (h : Step p.shared g o s' g' new)
    (hg : p.threads[i]? = some g) (hu : LossUndisturbed p (.step i o)) :
    ∀ u ∈ p.threads, LossFits p.shared u → LossFits s' u := by
  intro u hmem hfits
  cases h with
  -- A run that begins, or a client that is stored, finds no loss pending.
  | startListening hready =>
      have hnone := hu.start i rfl hg hready u hmem
      exact ⟨hfits.client, fun run hstops => (nomatch hnone.symm.trans hstops)⟩
  | connectInstalled c ns o =>
      have hnone := hu.install i o c ns rfl hg u hmem
      exact ⟨fun run cl hclears => (nomatch hnone.symm.trans hclears), hfits.run⟩
  | connectClosed | disconnectClosed => exact ⟨nofun, hfits.run⟩
  | _ => exact ⟨hfits.client, hfits.run⟩

/-- A goroutine that observes a loss does so while it fits the state, and it keeps fitting
until its `StopBridge` has looked at the service. -/
theorem Step.lossFits_self {i : Nat} (h : Step p.shared g o s' g' new)
    (hg : p.threads[i]? = some g) (hu : LossUndisturbed p (.step i o))
    (hfits : LossFits p.shared g) : LossFits s' g' ∧ ∀ u ∈ new, LossFits s' u := by
  cases h with
  -- From here on the loss is pending.
  | tickLost run stop cl =>
      obtain ⟨hclient, hruns⟩ := hu.observed i run stop cl rfl hg
      refine ⟨⟨fun run' cl' h => ?_, fun run' h => ?_⟩, nofun⟩
      · obtain ⟨rfl, rfl⟩ := Prod.mk.inj (Option.some.inj h)
        exact hclient
      · obtain rfl := Option.some.inj h
        exact hruns
  | tickSetLost => exact ⟨⟨hfits.client, hfits.run⟩, nofun⟩
  | tickCleared => exact ⟨⟨nofun, hfits.run⟩, nofun⟩
  | tickGoStop =>
      refine ⟨lossFits_of_none rfl rfl, fun u hmem => ?_⟩
      obtain rfl := List.mem_singleton.mp hmem
      exact ⟨nofun, hfits.run⟩
  | startGoAccept | startGoTick | acceptWatch =>
      refine ⟨lossFits_of_none rfl rfl, fun u hmem => ?_⟩
      obtain rfl := List.mem_singleton.mp hmem
      exact lossFits_of_none rfl rfl
  | _ => exact ⟨lossFits_of_none rfl rfl, List.forall_mem_nil _⟩

/-- The pending losses fit the state. -/
def LossesFit (p : System) : Prop := ∀ g ∈ p.threads, LossFits p.shared g

/-- **One step.** An undisturbed move keeps the pending losses fitting. -/
theorem lossesFit_step (h : step p m = some p') (hu : LossUndisturbed p m)
    (hp : LossesFit p) : LossesFit p' := by
  rcases system_cases h with ⟨g, rfl, hreq, rfl⟩ | ⟨i, o, g, s, g', new, rfl, hg, hstep, rfl⟩
  · intro u hmem
    rcases List.mem_append.mp hmem with hmem | hmem
    · exact hp u hmem
    · obtain rfl := List.mem_singleton.mp hmem
      rcases request_cases hreq with rfl | rfl | rfl | rfl | ⟨cfg, rfl⟩ <;>
        exact lossFits_of_none rfl rfl
  · obtain ⟨hself, hnew⟩ := hstep.lossFits_self hg hu (hp g (Pool.mem_of_get hg))
    exact Pool.forall_threads_step hp hself hnew (hstep.lossFits_other hg hu)

/-- In a state that the pending losses fit, a loss only affects its own run. -/
theorem lossInRun_of_fits (hr : Runs p) (hp : LossesFit p) : LossInRun p m := by
  refine ⟨fun i o run cl _ hg _ c hc => ?_, fun i o run _ hg hrunning later hlater => ?_⟩
  · exact (hp _ (Pool.mem_of_get hg)).client run cl rfl c hc
  · -- The running run is the latest one, and that is the run of the loss.
    have hruns := (hp _ (Pool.mem_of_get hg)).run run rfl
    obtain ⟨k, hk, hstop⟩ := hr.state.running hrunning
    obtain rfl := Option.some.inj (hstop.symm.trans hlater)
    omega

/-- **The extent of the law.** Along any interleaving in which no loss is disturbed, every
loss only affects its own client and its own run. -/
theorem lossInRun_of_undisturbed (cfg : Config) (ms : List Move)
    (h : Each step LossUndisturbed (boot cfg) ms) : Each step LossInRun (boot cfg) ms :=
  each_of_each (I := fun p => Runs p ∧ LossesFit p) (fun _ => True)
    (fun _ _ _ _ hp hu hstep => ⟨runs_step hstep hp.1, lossesFit_step hstep hu hp.2⟩)
    (fun _ _ _ _ hp _ _ => lossInRun_of_fits hp.1 hp.2)
    (fun _ _ => trivial) ⟨runs_boot cfg, nofun⟩ h

/-! ### Two losses -/

/-- A check that suffices for an undisturbed move. -/
def undisturbed (p : System) : Move → Bool
  | .call _ => true
  | .step i o =>
      match p.threads[i]?, o with
      | some (.tickLoop run (.state _ cl)), .state false =>
          p.shared.client.all (fun c => c = cl) && p.shared.runs = run + 1
      | some (.connect (.install _ _)), _ => p.threads.all (fun g => g.clears = none)
      | some (.startBridge .enter), _ => p.threads.all (fun g => g.stops = none)
      | _, _ => true

theorem lossUndisturbed_of_check (p : System) (m : Move) (h : undisturbed p m = true) :
    LossUndisturbed p m := by
  refine ⟨?_, ?_, ?_⟩
  · rintro i run stop cl rfl hg
    simpa [undisturbed, hg, Option.all_eq_true] using h
  · rintro i o c ns rfl hg
    simpa [undisturbed, hg] using h
  · rintro i rfl hg -
    simpa [undisturbed, hg] using h

/-- A `Connect`, a `StartBridge`, and a loss that stops the bridge. -/
theorem lossInRun_alone : Each step LossInRun (boot defaultConfig)
    (connects 0 ++ starts 1 ++ steps 3 [.ok, .ticked, .state false, .ok, .ok, .ok, .ok]
      ++ steps 4 [.ok, .ok, .ok, .ok]) :=
  lossInRun_of_undisturbed defaultConfig _
    (each_of_eachb lossUndisturbed_of_check (by decide))

/-- The operator stops the bridge and connects anew after the loop has seen the loss. The
loop then clears the flag of the new client. -/
theorem not_lossInRun_reconnect : ¬ Each step LossInRun (boot defaultConfig)
    (connects 0 ++ starts 1 ++ steps 3 [.ok, .ticked, .state false, .ok]
      ++ [.call (.stopBridge none .enter), .step 4 .ok] ++ connects 5 ++ [.step 3 .ok]) := by
  intro h
  have hcheck : (run step (boot defaultConfig) (connects 0 ++ starts 1
      ++ steps 3 [.ok, .ticked, .state false, .ok]
      ++ [.call (.stopBridge none .enter), .step 4 .ok] ++ connects 5)).any (fun p =>
        p.threads[3]? = some (.tickLoop 0 (.clearConnected 0)) && p.shared.opcConnected &&
          p.shared.client = some 1 && (step p (.step 3 .ok)).isSome) = true := by
    decide
  obtain ⟨p, hrun, hcheck⟩ := (Option.any_eq_true _ _).mp hcheck
  simp only [Bool.and_eq_true, decide_eq_true_eq, Option.isSome_iff_exists] at hcheck
  obtain ⟨⟨⟨hg, hconnected⟩, hclient⟩, p', hstep⟩ := hcheck
  cases (h.last hrun hstep).cleared 3 .ok 0 0 rfl hg hconnected 1 hclient

end SmartFactory.Bridge
