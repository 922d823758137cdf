import SmartFactory.Proofs.Bridge.Runs

/-!
# `SmartFactory.Proofs.Bridge.WaitGroup`: what `StopBridge` waits for

`StartBridge` adds two to `bridgeWG` and launches two loops, and each of them takes one off when it
ends. `Counted` is the account: in every state the counter is the number of the loops that run or
that a `StartBridge` is about to launch. So no `Done` makes it negative, which would end the program
(`bridgeWG_always`).

A `StopBridge` that has waited has therefore waited for all loops, and the bridge is quiet until
the next run begins (`quiet_after_stop`). This leaves out one place: a `StartBridge` that has left
its locked section and not yet reached `Add`. The counter does not know of its loops.
-/

set_option autoImplicit false

namespace SmartFactory.Bridge

open Run

/-- How much of `bridgeWG` is taken off again on behalf of a goroutine, by itself or by the loops
that it is about to launch. -/
def Goroutine.pending : Goroutine → Nat
  | .startBridge (.goAccept _) => 2
  | .startBridge (.goTick _) => 1
  | .acceptLoop _ _ => 1
  | .tickLoop _ _ => 1
  | _ => 0

/-- The goroutine is a `StartBridge` that has begun a run and not yet added its loops. -/
def Goroutine.launching : Goroutine → Bool
  | .startBridge (.clearErr _) | .startBridge (.wgAdd _) => true
  | _ => false

/-- The account of `bridgeWG`: the loops that run, and those that a `StartBridge` has added with
`Add` and is still to launch. -/
def Counted (p : System) : Prop :=
  p.shared.bridgeWG = Pool.weight Goroutine.pending p.threads

variable {s s' : State} {g g' : Goroutine} {o : Outcome} {new : List Goroutine}
variable {p p' : System} {m : Move} {cfg : Config}

/-- A step changes the counter by what it changes of the goroutines. -/
theorem Step.counted (h : Step s g o s' g' new) (hg : g.pending ≤ s.bridgeWG) :
    s'.bridgeWG + g.pending = s.bridgeWG + g'.pending + Pool.weight Goroutine.pending new := by
  cases h with
  -- The two ends of a loop.
  | acceptReturned | tickLeft => exact Nat.sub_add_cancel hg
  | _ => rfl

/-- At the start nothing is counted. -/
theorem counted_boot (cfg : Config) : Counted (boot cfg) := rfl

/-- **One step** keeps the count. -/
theorem counted_step (h : step p m = some p') (hp : Counted p) : Counted p' := by
  rcases system_cases h with ⟨g, -, hreq, rfl⟩ | ⟨i, o, g, s, g', new, -, hg, hstep, rfl⟩
  · have hnone : g.pending = 0 := by
      rcases request_cases hreq with rfl | rfl | rfl | rfl | ⟨cfg, rfl⟩ <;> rfl
    rw [Counted, Pool.weight_append, Pool.weight_singleton, hnone, Nat.add_zero]
    exact hp
  · have hle := Pool.weight_of_get_le Goroutine.pending hg
    rw [← hp] at hle
    have hcount := hstep.counted hle
    have hweight := Pool.weight_step Goroutine.pending g' new hg
    rw [Counted] at hp ⊢
    dsimp only
    omega

/-- **A run** keeps it. -/
theorem counted_of_run {ms : List Move} (h : run step (boot cfg) ms = some p) : Counted p :=
  last_of_step (I := Counted) (fun _ _ _ hp hs => counted_step hs hp) (counted_boot cfg) h

/-- **The counter.** In every state of every interleaving, `bridgeWG` is the number of the loops
that have not ended and of those that a `StartBridge` has added and is still to launch. No `Done`
finds it at zero. -/
theorem bridgeWG_always (cfg : Config) (ms : List Move) : Always step (fun p =>
    p.shared.bridgeWG = Pool.weight Goroutine.pending p.threads ∧
    ∀ g ∈ p.threads, g.pending ≤ p.shared.bridgeWG) (boot cfg) ms :=
  always_of_step (I := Counted) (fun _ => True) (fun _ _ _ _ hp hs => counted_step hs hp)
    (fun _ hp => ⟨hp, fun _ hg => (Pool.weight_le _ hg).trans hp.ge⟩) (fun _ _ => trivial)
    (counted_boot cfg)

/-! ### After a stop -/

/-- The goroutine has to do with no run that has begun: it is no loop, and no `StartBridge` that
launches some. -/
def Goroutine.idle (g : Goroutine) : Prop := g.pending = 0 ∧ g.launching = false

/-- What the loops do to the world. -/
def State.traffic (s : State) : List (Nat × UInt64) × Nat × UInt64 := (s.sent, s.accepted, s.seq)

/-- Without a loop there is no traffic, and no loop begins before the next run does. -/
theorem Step.idle (h : Step s g o s' g' new) (hg : g.idle) :
    s.runs < s'.runs ∨ (s'.traffic = s.traffic ∧ ∀ u, u = g' ∨ u ∈ new → u.idle) := by
  have hold : ∀ u : Goroutine, u.idle → ∀ v, v = u ∨ v ∈ ([] : List Goroutine) → v.idle := by
    rintro u hu v (rfl | hv)
    · exact hu
    · cases hv
  cases h with
  | startListening => exact .inl (Nat.lt_succ_self _)
  | startClearErr | startAdd => cases hg.2
  | startGoAccept | startGoTick | acceptConn | acceptReturned | acceptRecorded | acceptWatch
  | tickInit | tickStopped | tickSkipped | tickClient | tickConnected | tickLost | tickSetLost
  | tickCleared | tickGoStop | tickLeft | tickNoClient | tickReadClient | tickResolved
  | tickUnresolved | tickDrawn | tickDrawFailed | tickBroadcast | tickSetErr => cases hg.1
  | _ => exact .inr ⟨rfl, hold _ ⟨rfl, rfl⟩⟩

/-- No loop is there, and the traffic is as it was. -/
structure Silent (before : State) (p : System) : Prop where
  idle : ∀ g ∈ p.threads, g.idle
  traffic : p.shared.traffic = before.traffic

/-- A step that begins no run keeps the connections silent. -/
theorem quiet_step {before : State} (h : step p m = some p') (hp : Silent before p) :
    p.shared.runs < p'.shared.runs ∨ Silent before p' := by
  rcases system_cases h with ⟨g, -, hreq, rfl⟩ | ⟨i, o, g, s, g', new, -, hg, hstep, rfl⟩
  · refine .inr ⟨fun u hu => ?_, hp.traffic⟩
    rcases List.mem_append.mp hu with hu | hu
    · exact hp.idle u hu
    · obtain rfl := List.mem_singleton.mp hu
      rcases request_cases hreq with rfl | rfl | rfl | rfl | ⟨cfg, rfl⟩ <;> exact ⟨rfl, rfl⟩
  · rcases hstep.idle (hp.idle g (Pool.mem_of_get hg)) with hbegun | ⟨htraffic, hidle⟩
    · exact .inl hbegun
    · exact .inr ⟨Pool.forall_threads_step hp.idle (hidle _ (.inl rfl))
        (fun u hu => hidle u (.inr hu)) fun _ _ => id, htraffic.trans hp.traffic⟩

/-- Runs only become more. -/
theorem runs_le_of_step (h : step p m = some p') : p.shared.runs ≤ p'.shared.runs := by
  rcases system_cases h with ⟨g, -, -, rfl⟩ | ⟨i, o, g, s, g', new, -, -, hstep, rfl⟩
  · exact Nat.le_refl _
  · exact hstep.runs_le

/-- The bridge stays quiet as long as no run begins. -/
theorem quiet_of_run {before : State} {ms : List Move} (h : run step p ms = some p')
    (hp : Silent before p) : p.shared.runs < p'.shared.runs ∨ Silent before p' := by
  refine (run_induction (C := fun _ p' => p.shared.runs ≤ p'.shared.runs ∧
    (p.shared.runs < p'.shared.runs ∨ Silent before p')) ⟨Nat.le_refl _, .inr hp⟩ ?_ h).2
  rintro ms p₁ m p₂ - ⟨hle, hquiet⟩ hs
  have hnext := runs_le_of_step hs
  refine ⟨hle.trans hnext, ?_⟩
  rcases hquiet with hbegun | hquiet
  · exact .inl (Nat.lt_of_lt_of_le hbegun hnext)
  · rcases quiet_step hs hquiet with hbegun | hquiet
    · exact .inl (Nat.lt_of_le_of_lt hle hbegun)
    · exact .inr hquiet

/-- **After a stop.** A `StopBridge` comes back from `Wait` while no `StartBridge` is on the way to
`Add`. Then no loop is left, of any run, and until the next run begins no client is accepted, no
sequence number is drawn and nothing is written, whatever requests come. -/
theorem quiet_after_stop {ms ms' : List Move} {i : Nat} {cause ch : Option Nat} {p₁ p₂ : System}
    (h : run step (boot cfg) ms = some p)
    (hwait : p.threads[i]? = some (.stopBridge cause (.wait ch)))
    (hreturns : step p (.step i o) = some p₁) (hadded : ∀ g ∈ p.threads, g.launching = false)
    (h' : run step p₁ ms' = some p₂) (hruns : p₂.shared.runs = p.shared.runs) :
    (∀ g ∈ p₂.threads, g.pending = 0) ∧ p₂.shared.accepted = p.shared.accepted ∧
      p₂.shared.seq = p.shared.seq ∧ p₂.shared.sent = p.shared.sent := by
  -- `Wait` returns at zero, and then no loop counts.
  have hzero : p.shared.bridgeWG = 0 := by
    rcases system_cases hreturns with ⟨g, hm, -⟩ | ⟨j, o, g, s, g', new, hm, hg, hstep, -⟩
    · cases hm
    · obtain ⟨rfl, -⟩ := Move.step.inj hm
      obtain rfl := Option.some.inj (hg.symm.trans hwait)
      cases hstep with
      | stopWaited _ _ _ hzero => exact hzero
  have hquiet : Silent p.shared p := by
    have hnone := (Pool.weight_eq_zero _).mp ((counted_of_run h).symm.trans hzero)
    exact ⟨fun g hg => ⟨hnone g hg, hadded g hg⟩, rfl⟩
  have hrun : run step p (.step i o :: ms') = some p₂ := by rw [run, hreturns]; exact h'
  rcases quiet_of_run hrun hquiet with hbegun | hquiet
  · exact absurd hruns hbegun.ne'
  · obtain ⟨hsent, hrest⟩ := Prod.mk.inj hquiet.traffic
    obtain ⟨haccepted, hseq⟩ := Prod.mk.inj hrest
    exact ⟨fun g hg => (hquiet.idle g hg).1, haccepted, hseq, hsent⟩

/-- A `StartBridge` on the goroutine 1 and a `StopBridge` on the goroutine 4, which waits until both
loops have ended. -/
def shutdown : List Move :=
  connects 0 ++ starts 1 ++ [.step 3 .ok, .call (.stopBridge none .enter)] ++
    steps 4 [.ok, .ok, .ok, .ok] ++ [.step 2 (.fail "closed"), .step 3 .stopped, .step 3 .ok]

/-- After this `StopBridge` a `Disconnect` follows. -/
theorem quiet_after_stop_shutdown : ∃ p p₁ p₂ : System,
    run step (boot defaultConfig) shutdown = some p ∧ step p (.step 4 .ok) = some p₁ ∧
    run step p₁ [.call .disconnect, .step 5 .ok] = some p₂ ∧
    ∀ g ∈ p₂.threads, g.pending = 0 := by
  have hcheck : (run step (boot defaultConfig) shutdown).any (fun p =>
      decide (p.threads[4]? = some (.stopBridge none (.wait (some 0))) ∧
        ∀ g ∈ p.threads, g.launching = false) &&
      (step p (.step 4 .ok)).any fun p₁ => (run step p₁ [.call .disconnect, .step 5 .ok]).any
        fun p₂ => decide (p₂.shared.runs = p.shared.runs)) = true := by
    decide
  obtain ⟨p, hp, hcheck⟩ := (Option.any_eq_true _ _).mp hcheck
  obtain ⟨hstate, hcheck⟩ := Bool.and_eq_true_iff.mp hcheck
  obtain ⟨p₁, hp₁, hcheck⟩ := (Option.any_eq_true _ _).mp hcheck
  obtain ⟨p₂, hp₂, hruns⟩ := (Option.any_eq_true _ _).mp hcheck
  obtain ⟨hwait, hadded⟩ := of_decide_eq_true hstate
  exact ⟨p, p₁, p₂, hp, hp₁, hp₂,
    (quiet_after_stop hp hwait hp₁ hadded hp₂ (of_decide_eq_true hruns)).1⟩

end SmartFactory.Bridge
