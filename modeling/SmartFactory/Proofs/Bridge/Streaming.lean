import SmartFactory.Proofs.Bridge.Shutdown

/-!
# `SmartFactory.Proofs.Bridge.Streaming`: a client gets frame after frame

In a fair run (`SmartFactory.Proofs.Bridge.Shutdown`) let the bridge be running and connected from
some time on, and let one of its loops go on without an error (`Streams`). Then a client that stays
in the list gets any number of frames (`frames_unbounded`). Other requests and goroutines may do
what they like meanwhile.
-/

set_option autoImplicit false

namespace SmartFactory.Bridge

open Run
open Pool (Endless Fair)

/-- The number of frames that were written to a connection. -/
def State.framesTo (conn : Nat) (s : State) : Nat := (s.sent.map Prod.fst).count conn

/-- The positions of a loop that has no error to report and does not end. -/
def TickLoop.healthy : TickLoop → Bool
  | .init | .select _ | .state _ _ | .readClient _ | .resolve _ | .draw _ | .broadcast _ _ => true
  | _ => false

/-- From the time `n` on the bridge is running and connected, and the goroutine `i` is a loop that
goes on without an error. -/
structure Streams (ρ : Nat → System) (n i run : Nat) : Prop where
  running : ∀ m, n ≤ m → (ρ m).shared.bridgeRunning = true
  connected : ∀ m, n ≤ m → (ρ m).shared.opcConnected = true
  loop : ∀ m, n ≤ m → ∃ pos, (ρ m).threads[i]? = some (.tickLoop run pos) ∧ pos.healthy = true

variable {s s' : State} {g g' : Goroutine} {o : Outcome} {new : List Goroutine}
variable {cfg : Config} {ρ : Nat → System} {n m i run conn : Nat}

/-- Frames are never taken back. -/
theorem Step.framesTo_le (h : Step s g o s' g' new) : s.framesTo conn ≤ s'.framesTo conn := by
  cases h with
  | tickBroadcast run stop seq failing =>
      rw [State.framesTo, State.framesTo, State.broadcast, List.map_append, List.count_append]
      exact Nat.le_add_right _ _
  | _ => exact Nat.le_refl _

/-- The frames to a client only become more. -/
theorem FairRun.framesTo_le (hρ : FairRun cfg ρ) (hm : n ≤ m) :
    (ρ n).shared.framesTo conn ≤ (ρ m).shared.framesTo conn := by
  refine hρ.endless.always (I := fun p => (ρ n).shared.framesTo conn ≤ p.shared.framesTo conn)
    (fun k a _ hle hstep => ?_) (Nat.le_refl _) hm
  rcases system_cases hstep with ⟨g, -, -, hp⟩ | ⟨i, o, g, s, g', new, -, -, hstep, hp⟩
  · rw [hp]
    exact hle
  · rw [hp]
    exact hle.trans hstep.framesTo_le

/-- A client that is still in the list after a broadcast has got the frame. -/
theorem framesTo_broadcast {seq : UInt64} {failing : List Nat}
    (h : conn ∈ (s.broadcast seq failing).clients) :
    s.framesTo conn < (s.broadcast seq failing).framesTo conn := by
  have hwritten : conn ∈ s.clients.filter (s.writable failing) := h
  have hcount := List.count_pos_iff.mpr hwritten
  have hsent : (s.broadcast seq failing).sent.map Prod.fst
      = s.sent.map Prod.fst ++ s.clients.filter (s.writable failing) := by
    simp [State.broadcast, Function.comp_def]
  rw [State.framesTo, State.framesTo, hsent, List.count_append]
  omega

/-- How far a loop is from its next broadcast. -/
def TickLoop.frameRank : TickLoop → Nat
  | .init => 6
  | .select _ => 5
  | .state _ _ => 4
  | .readClient _ => 3
  | .resolve _ => 2
  | .draw _ => 1
  | _ => 0

def Goroutine.frameRank : Goroutine → Nat
  | .tickLoop _ pos => pos.frameRank
  | _ => 0

/-- The next frame comes. -/
theorem Streams.next_frame (hρ : FairRun cfg ρ) (h : Streams ρ n i run)
    (hconn : ∀ m, n ≤ m → conn ∈ (ρ m).shared.clients) (hm : n ≤ m) :
    ∃ k, m ≤ k ∧ (ρ m).shared.framesTo conn < (ρ k).shared.framesTo conn := by
  obtain ⟨pos, hi, -⟩ := h.loop m hm
  obtain ⟨k, hk, -, -, hframe⟩ := hρ.fair.reaches_of_rank hρ.endless
    (I := fun s g => s.bridgeRunning = true ∧ s.opcConnected = true ∧ s.client ≠ none ∧
      conn ∈ s.clients ∧ (ρ m).shared.framesTo conn ≤ s.framesTo conn ∧
      ∃ pos, g = .tickLoop run pos ∧ pos.healthy = true)
    (P := fun _ => True) (Q := fun s _ => (ρ m).shared.framesTo conn < s.framesTo conn)
    Goroutine.frameRank
    (fun k hk g hg => by
      have hk' := hm.trans hk
      have hrunning := h.running k hk'
      obtain ⟨pos, hpos, hhealthy⟩ := h.loop k hk'
      exact ⟨hrunning, h.connected k hk', (hρ.known k).represents.clients.running hrunning,
        hconn k hk', hρ.framesTo_le hk, pos, Option.some.inj (hg.symm.trans hpos), hhealthy⟩)
    (fun s g ⟨hrunning, hconnected, hclient, _, _, pos, hg, _⟩ _ => by
      subst hg
      cases pos with
      | select stop => exact .inr ⟨hrunning, hconnected, hclient⟩
      | _ => trivial)
    (fun s g c s' g' new ⟨_, _, _, _, hframes, pos, hg, hpos⟩ _ hexec
        ⟨_, _, _, hconn', _, pos', hg', hpos'⟩ => by
      subst hg hg'
      cases step_of_exec hexec with
      | tickBroadcast => exact .inl (Nat.lt_of_le_of_lt hframes (framesTo_broadcast hconn'))
      | tickSkipped => exact .inr ⟨trivial, .inl rfl⟩
      -- The loop would not go on without an error.
      | tickStopped | tickLost | tickNoClient | tickUnresolved | tickDrawFailed => cases hpos'
      | tickSetLost | tickCleared | tickGoStop | tickSetErr => cases hpos
      | _ =>
          exact .inr ⟨trivial, .inr (by simp [Goroutine.frameRank, TickLoop.frameRank])⟩)
    hi trivial
  exact ⟨k, hk, hframe⟩

/-- **Frame after frame.** In a fair run, let the bridge be running and connected from some time on,
with a loop that goes on without an error. A client that stays in the list gets any number of
frames. -/
theorem frames_unbounded (hρ : FairRun cfg ρ) (h : Streams ρ n i run)
    (hconn : ∀ m, n ≤ m → conn ∈ (ρ m).shared.clients) (count : Nat) :
    ∃ m, n ≤ m ∧ count ≤ (ρ m).shared.framesTo conn := by
  induction count with
  | zero => exact ⟨n, Nat.le_refl n, Nat.zero_le _⟩
  | succ count ih =>
      obtain ⟨m, hm, hcount⟩ := ih
      obtain ⟨k, hk, hnext⟩ := h.next_frame hρ hconn hm
      exact ⟨k, hm.trans hk, Nat.lt_of_le_of_lt hcount hnext⟩

/-! ### A bridge that streams for ever -/

/-- A connection, a run and a client. The loop of the run is the goroutine 3. -/
def opening : List Move :=
  connects 0 ++ starts 1 ++ [.step 3 .ok, .step 2 .ok, .step 2 .ok, .step 2 .ok]

/-- What the loop gets when everything is well. -/
def TickLoop.answer : TickLoop → Outcome
  | .select _ => .ticked
  | .state _ _ => .state true
  | .broadcast _ _ => .writes []
  | _ => .ok

/-- A step of the loop. -/
def loopMove (p : System) : Option Move :=
  p.threads[3]?.bind fun
    | .tickLoop _ pos => some (.step 3 pos.answer)
    | _ => none

/-- After the opening only the loop makes steps. -/
def streamRun : Nat → System :=
  Pool.scheduled isRequest exec
    (fun n p => if n < opening.length then opening[n]? else loopMove p) (boot defaultConfig)

/-- Where the loop is between two frames. -/
def TickLoop.flows : TickLoop → Bool
  | .select (some 0) | .state (some 0) 0 | .readClient (some 0) | .resolve (some 0)
  | .draw (some 0) | .broadcast (some 0) _ => true
  | _ => false

/-- The goroutines after the opening. -/
def flowing (pos : TickLoop) : List Goroutine :=
  [.finished none, .finished none, .acceptLoop 0 .accept, .tickLoop 0 pos,
    .watchDisconnect 0 .read]

/-- The bridge is running with one client, and nothing is closed. -/
structure State.Open (s : State) : Prop where
  running : s.bridgeRunning = true
  connected : s.opcConnected = true
  client : s.client = some 0
  clients : s.clients = [0]
  closed : s.closedListeners = [] ∧ s.closedStops = [] ∧ s.closedConns = []

/-- One step of the loop. -/
theorem exec_flowing (hs : s.Open) {pos : TickLoop} (hpos : pos.flows = true) :
    ∃ s' pos', exec s (.tickLoop 0 pos) pos.answer = some (s', .tickLoop 0 pos', []) ∧ s'.Open ∧
      pos'.flows = true ∧ pos' ≠ pos := by
  have hopen := hs
  obtain ⟨hrunning, hconnected, hclient, hclients, hlisteners, hstops, hconns⟩ := hs
  unfold TickLoop.flows at hpos
  split at hpos
  · refine ⟨s, .state (some 0) 0, ?_, hopen, rfl, fun h => by cases h⟩
    simp [exec, execTickLoop, TickLoop.answer, hrunning, hconnected, hclient, next]
  · exact ⟨s, .readClient (some 0), rfl, hopen, rfl, fun h => by cases h⟩
  · refine ⟨s, .resolve (some 0), ?_, hopen, rfl, fun h => by cases h⟩
    simp [exec, execTickLoop, hclient, next]
  · exact ⟨s, .draw (some 0), rfl, hopen, rfl, fun h => by cases h⟩
  · exact ⟨_, .broadcast (some 0) (s.seq + 1), rfl,
      ⟨hrunning, hconnected, hclient, hclients, hlisteners, hstops, hconns⟩, rfl,
      fun h => by cases h⟩
  · rename_i seq
    -- Every write succeeds, so that no connection is dropped.
    refine ⟨s.broadcast seq [], .select (some 0), rfl, ⟨hrunning, hconnected, hclient, ?_,
      hlisteners, hstops, ?_⟩, rfl, fun h => by cases h⟩
    · simp [State.broadcast, State.writable, hclients, hconns]
    · simp [State.broadcast, State.writable, hclients, hconns]
  · cases hpos

/-- At its 17th state the run of the witness has a client. -/
theorem streamRun_opening : ∃ s, streamRun 17 = ⟨s, flowing (.select (some 0))⟩ ∧ s.Open := by
  have hcheck : (run step (boot defaultConfig) opening).any (fun p =>
      decide (p.threads = flowing (.select (some 0)) ∧ p.shared.bridgeRunning = true ∧
        p.shared.opcConnected = true ∧ p.shared.client = some 0 ∧ p.shared.clients = [0] ∧
        p.shared.closedListeners = [] ∧ p.shared.closedStops = [] ∧ p.shared.closedConns = []))
      = true := by
    decide
  obtain ⟨p, hrun, hp⟩ := (Option.any_eq_true _ _).mp hcheck
  obtain ⟨hthreads, hrunning, hconnected, hclient, hclients, hclosed⟩ := of_decide_eq_true hp
  have hlast : streamRun 17 = p := Pool.scheduled_of_run hrun fun n q hn => if_pos hn
  exact ⟨p.shared, hlast.trans (congrArg (Pool.mk p.shared) hthreads),
    hrunning, hconnected, hclient, hclients, hclosed⟩

/-- The loop goes on and on. -/
theorem streamRun_next {pos : TickLoop} (hn : 17 ≤ n) (h : streamRun n = ⟨s, flowing pos⟩)
    (hs : s.Open) (hpos : pos.flows = true) : ∃ s' pos',
      streamRun (n + 1) = ⟨s', flowing pos'⟩ ∧ s'.Open ∧ pos'.flows = true ∧ pos' ≠ pos := by
  obtain ⟨s', pos', hexec, hs', hpos', hne⟩ := exec_flowing hs hpos
  refine ⟨s', pos', ?_, hs', hpos', hne⟩
  have hchoose : ¬ n < opening.length := Nat.not_lt.mpr hn
  rw [streamRun, Pool.scheduled, ← streamRun, h, if_neg hchoose]
  simp [flowing, loopMove, Pool.move, hexec]

/-- From then on its loop flows. -/
theorem streamRun_flows (hn : 17 ≤ n) :
    ∃ s pos, streamRun n = ⟨s, flowing pos⟩ ∧ s.Open ∧ pos.flows = true := by
  induction n, hn using Nat.le_induction with
  | base =>
      obtain ⟨s, h, hs⟩ := streamRun_opening
      exact ⟨s, _, h, hs, rfl⟩
  | succ n hn ih =>
      obtain ⟨s, pos, h, hs, hpos⟩ := ih
      obtain ⟨s', pos', h', hs', hpos', -⟩ := streamRun_next hn h hs hpos
      exact ⟨s', pos', h', hs', hpos'⟩

/-- It is a fair run. -/
theorem fairRun_streamRun : FairRun defaultConfig streamRun := by
  refine ⟨rfl, Pool.endless_scheduled, fun n i g _ hprompt => ?_⟩
  -- The other goroutines cannot go on, and the loop always does.
  obtain ⟨s, pos, h, hs, hpos⟩ := streamRun_flows (Nat.le_max_right n 17)
  obtain ⟨s', pos', h', -, -, hne⟩ := streamRun_next (Nat.le_max_right n 17) h hs hpos
  have hle : n ≤ max n 17 := Nat.le_max_left n 17
  have hnow := hprompt _ hle
  rw [h] at hnow
  by_contra! hstays
  have hat := hstays _ hle
  have hnext := hstays _ (Nat.le_succ_of_le hle)
  rw [h] at hat
  rw [h'] at hnext
  obtain ⟨hlisteners, -, hconns⟩ := hs.closed
  match i, hat, hnext with
  | 0, hat, _ => cases hat; exact hnow
  | 1, hat, _ => cases hat; exact hnow
  | 2, hat, _ =>
      cases hat
      rw [prompt, hlisteners] at hnow
      cases hnow
  | 3, hat, hnext =>
      cases hat
      exact hne (Goroutine.tickLoop.inj (Option.some.inj hnext)).2
  | 4, hat, _ =>
      cases hat
      rw [prompt, hconns] at hnow
      cases hnow

/-- And it streams. -/
theorem streams_streamRun : Streams streamRun 17 3 0 where
  running m hm := by
    obtain ⟨s, pos, h, hs, -⟩ := streamRun_flows hm
    rw [h]
    exact hs.running
  connected m hm := by
    obtain ⟨s, pos, h, hs, -⟩ := streamRun_flows hm
    rw [h]
    exact hs.connected
  loop m hm := by
    obtain ⟨s, pos, h, -, hpos⟩ := streamRun_flows hm
    refine ⟨pos, by rw [h]; rfl, ?_⟩
    unfold TickLoop.flows at hpos
    split at hpos
    all_goals first
      | rfl
      | cases hpos

/-- This client gets a million frames. -/
theorem frames_unbounded_streamRun : ∃ m, 17 ≤ m ∧ 1000000 ≤ (streamRun m).shared.framesTo 0 :=
  frames_unbounded fairRun_streamRun streams_streamRun (fun m hm => by
    obtain ⟨s, pos, h, hs, -⟩ := streamRun_flows hm
    rw [h]
    show 0 ∈ s.clients
    rw [hs.clients]
    exact List.mem_singleton.mpr rfl) 1000000

end SmartFactory.Bridge
