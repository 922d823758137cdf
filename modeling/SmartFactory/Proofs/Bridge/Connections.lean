import SmartFactory.Proofs.Bridge.Runs

/-!
# `SmartFactory.Proofs.Bridge.Connections`: accounting for the TCP connections

Five methods edit the list of clients in critical sections of their own. `acceptLoop` holds
a new connection before it records it, `StopBridge` closes the connections that it took out
of the list, and `watchDisconnect` closes the one that it removed.

`ConnsOnce` holds in every state: a connection is recorded at most once. That every
connection is recorded or closed (`ConnsSettled`) depends on where a connection is recorded:
`connsSettled_of_recordsInRun` is kept along an interleaving in which `acceptLoop` records
only while the bridge is running.
-/

set_option autoImplicit false

namespace SmartFactory.Bridge

open Run

/-- The goroutine has accepted the connection and will record it. -/
def Goroutine.records (c : Nat) : Goroutine → Nat
  | .acceptLoop _ (.record d) => if d = c then 1 else 0
  | _ => 0

/-- The connections that the goroutine has in hand: it will record or close them. -/
def Goroutine.inHand : Goroutine → List Nat
  | .acceptLoop _ (.record d) => [d]
  | .stopBridge _ (.closeListener _ _ clients) => clients
  | .stopBridge _ (.closeStop _ clients) => clients
  | .stopBridge _ (.closeConns _ clients) => clients
  | .watchDisconnect d .close => [d]
  | _ => []

/-- A connection is in the list of clients at most once, and not before it is recorded. -/
abbrev ConnsOnce : System → Prop :=
  Pool.Unique (fun s : State => fun c => s.clients.count c) Goroutine.records State.accepted

/-- When no goroutine has a connection in hand, every accepted connection is closed or
occurs exactly once in the list of clients, and the list is empty unless the bridge is
running. -/
def ConnsSettled (p : System) : Prop :=
  (∀ g ∈ p.threads, g.inHand = []) →
    (∀ c < p.shared.accepted, c ∈ p.shared.closedConns ∨ p.shared.clients.count c = 1) ∧
    (p.shared.bridgeRunning = false → p.shared.clients = [])

/-- `acceptLoop` records a connection only while the bridge is running. -/
def RecordsInRun (p : System) (m : Move) : Prop :=
  ∀ i o run c, m = .step i o → p.threads[i]? = some (.acceptLoop run (.record c)) →
    p.shared.bridgeRunning = true

variable {s s' : State} {g g' : Goroutine} {o : Outcome} {new : List Goroutine}
variable {p p' : System} {m : Move}

/-! ### Recorded once -/

/-- No connection is accepted twice. -/
theorem Step.accepted_le (h : Step s g o s' g' new) : s.accepted ≤ s'.accepted := by
  cases h with
  | acceptConn => exact Nat.le_succ _
  | _ => exact Nat.le_refl _

/-- A step moves connections into the list or drops them. Only `Accept` makes one. -/
theorem Step.records (h : Step s g o s' g' new) (c : Nat) :
    s'.clients.count c + g'.records c + Pool.weight (Goroutine.records c) new
      ≤ s.clients.count c + g.records c
        + (if s.accepted ≤ c ∧ c < s'.accepted then 1 else 0) := by
  cases h with
  -- These two sections empty the list.
  | startListening | stopTaken => exact Nat.zero_le _
  | acceptConn run hopen =>
      show s.clients.count c + (if s.accepted = c then 1 else 0) + 0
        ≤ s.clients.count c + 0 + (if s.accepted ≤ c ∧ c < s.accepted + 1 then 1 else 0)
      split
      · rw [if_pos (by omega)]
      · omega
  | acceptRecorded run conn o =>
      show (s.clients ++ [conn]).count c + 0 + 0
        ≤ s.clients.count c + (if conn = c then 1 else 0) + _
      rw [List.count_append, List.count_singleton]
      simp only [beq_iff_eq]
      omega
  | watchForgot conn o =>
      show (s.clients.erase conn).count c + 0 + 0 ≤ s.clients.count c + 0 + _
      have hle := (List.erase_sublist (a := conn) (l := s.clients)).count_le c
      omega
  | tickBroadcast run stop seq failing =>
      show (s.clients.filter _).count c + 0 + 0 ≤ s.clients.count c + 0 + _
      have hle := (List.filter_sublist (p := s.writable failing) (l := s.clients)).count_le c
      omega
  | connectClosed | disconnectClosed | connectInstalled =>
      exact Nat.le_add_right (s.clients.count c) _
  | _ => simp [Goroutine.records]

theorem connsOnce_boot (cfg : Config) : ConnsOnce (boot cfg) :=
  ⟨fun _ => Nat.zero_le _, fun _ _ => rfl⟩

/-- **Every move keeps connections recorded at most once.** -/
theorem connsOnce_step (h : step p m = some p') (hp : ConnsOnce p) : ConnsOnce p' := by
  rcases system_cases h with ⟨g, -, hreq, rfl⟩ | ⟨i, o, g, s, g', new, -, hg, hstep, rfl⟩
  · refine hp.call fun c => ?_
    rcases request_cases hreq with rfl | rfl | rfl | rfl | ⟨cfg, rfl⟩ <;> rfl
  · exact hp.step hg hstep.accepted_le hstep.records

/-! ### Closed or recorded -/

/-- Every accepted connection is closed, recorded, or in the hands of a goroutine. -/
def ConnsKept (p : System) : Prop :=
  ∀ c < p.shared.accepted, c ∈ p.shared.closedConns ∨ c ∈ p.shared.clients ∨
    ∃ g ∈ p.threads, c ∈ g.inHand

/-- The list of clients is empty unless the bridge is running. -/
def IdleEmpty (s : State) : Prop := s.bridgeRunning = false → s.clients = []

/-- The list stays empty while the bridge does not run, if nothing is recorded then. -/
theorem Step.idleEmpty (h : Step s g o s' g' new) (hs : IdleEmpty s)
    (hrecord : ∀ run c, g = .acceptLoop run (.record c) → s.bridgeRunning = true) :
    IdleEmpty s' := by
  intro hidle
  cases h with
  | startListening | stopTaken => rfl
  -- `acceptLoop` appends without a look at `bridgeRunning`. The hypothesis rules that out.
  | acceptRecorded run conn o =>
      cases (hrecord run conn rfl).symm.trans (show s.bridgeRunning = false from hidle)
  | watchForgot conn o =>
      show s.clients.erase conn = []
      rw [hs hidle]
      rfl
  | tickBroadcast run stop seq failing =>
      show s.clients.filter _ = []
      rw [hs hidle]
      rfl
  | _ => exact hs hidle

/-- The connection is closed or recorded. -/
def State.hasConn (c : Nat) (s : State) : Prop := c ∈ s.closedConns ∨ c ∈ s.clients

theorem connsKept_iff : ConnsKept p ↔ ∀ c < p.shared.accepted,
    Pool.Kept (State.hasConn c) (fun g => c ∈ g.inHand) p :=
  forall₂_congr fun _ _ => or_assoc.symm

/-- A connection leaves the list into the hands of the goroutine that takes it out, or it is
closed. A run that begins finds the list empty. -/
theorem Step.conn_of_listed (h : Step s g o s' g' new) (hs : IdleEmpty s) {c : Nat}
    (hc : c ∈ s.clients) : s'.hasConn c ∨ c ∈ g'.inHand := by
  cases h with
  | startListening hready =>
      rw [hs hready.idle] at hc
      cases hc
  -- `StopBridge` takes the whole list with it.
  | stopTaken => exact Or.inr hc
  | acceptRecorded => exact Or.inl (Or.inr (List.mem_append_left _ hc))
  | watchForgot conn o =>
      by_cases hconn : c = conn
      · exact Or.inr (List.mem_singleton.mpr hconn)
      · exact Or.inl (Or.inr ((List.mem_erase_of_ne hconn).mpr hc))
  | tickBroadcast run stop seq failing =>
      -- A connection whose write fails is closed.
      cases hwrite : s.writable failing c with
      | true => exact Or.inl (Or.inr (List.mem_filter.mpr ⟨hc, hwrite⟩))
      | false =>
          have hfailed : c ∈ s.clients.filter (fun c => !s.writable failing c) :=
            List.mem_filter.mpr ⟨hc, by rw [hwrite]; rfl⟩
          exact Or.inl (Or.inl (List.mem_append_left _ hfailed))
  | _ => exact Or.inl (Or.inr hc)

/-- What was closed stays closed. -/
theorem Step.closedConns_mono (h : Step s g o s' g' new) {c : Nat} (hc : c ∈ s.closedConns) :
    c ∈ s'.closedConns := by
  cases h with
  | stopConn | watchClosed => exact List.mem_cons_of_mem _ hc
  | tickBroadcast => exact List.mem_append_right _ hc
  | _ => exact hc

/-- A connection that a goroutine has in hand stays there until it is recorded or closed. -/
theorem Step.conn_of_inHand (h : Step s g o s' g' new) {c : Nat} (hc : c ∈ g.inHand) :
    s'.hasConn c ∨ c ∈ g'.inHand := by
  cases h with
  | stopListener | stopChannel => exact Or.inr hc
  | stopConn cause ch d clients o =>
      rcases List.mem_cons.mp hc with rfl | hc
      · exact Or.inl (Or.inl (List.mem_cons_self ..))
      · exact Or.inr hc
  | acceptRecorded => exact Or.inl (Or.inr (List.mem_append_right _ hc))
  | watchClosed conn o =>
      obtain rfl := List.mem_singleton.mp hc
      exact Or.inl (Or.inl (List.mem_cons_self ..))
  | _ => cases hc

/-- A connection that a step accepts is in the hands of `acceptLoop`. -/
theorem Step.conn_of_accepted (h : Step s g o s' g' new) {c : Nat} (hc : c < s'.accepted) :
    c < s.accepted ∨ c ∈ g'.inHand := by
  cases h with
  | acceptConn run hopen =>
      rcases Nat.lt_succ_iff_lt_or_eq.mp hc with hold | rfl
      · exact Or.inl hold
      · exact Or.inr (List.mem_singleton_self _)
  | _ => exact Or.inl hc

/-- A step of a goroutine keeps the connections, if a run begins with an empty list. -/
theorem Step.connsKept {i : Nat} (h : Step p.shared g o s' g' new)
    (hg : p.threads[i]? = some g) (hp : ConnsKept p) (hidle : IdleEmpty p.shared) :
    ConnsKept ⟨s', p.threads.set i g' ++ new⟩ := by
  rw [connsKept_iff] at hp ⊢
  intro c hc
  rcases h.conn_of_accepted hc with hold | hmine
  · refine (hp c hold).step hg (fun hplace => ?_) h.conn_of_inHand
    rcases hplace with hclosed | hlisted
    · exact Or.inl (Or.inl (h.closedConns_mono hclosed))
    · exact h.conn_of_listed hidle hlisted
  · exact Pool.Kept.of_step hg (Or.inr hmine)

/-- What is known of the connections while everything is recorded in its run. -/
structure Conns (p : System) : Prop where
  once : ConnsOnce p
  kept : ConnsKept p
  idle : IdleEmpty p.shared

theorem conns_boot (cfg : Config) : Conns (boot cfg) :=
  ⟨connsOnce_boot cfg, nofun, fun _ => rfl⟩

/-- **One step.** A move that records only while the bridge is running keeps the accounts. -/
theorem conns_step (h : step p m = some p') (hrecords : RecordsInRun p m) (hp : Conns p) :
    Conns p' := by
  have honce := connsOnce_step h hp.once
  rcases system_cases h with ⟨g, rfl, -, rfl⟩ | ⟨i, o, g, s, g', new, rfl, hg, hstep, rfl⟩
  · have hkept := connsKept_iff.mp hp.kept
    exact ⟨honce, connsKept_iff.mpr fun c hc => (hkept c hc).call g, hp.idle⟩
  · exact ⟨honce, hstep.connsKept hg hp.kept hp.idle,
      hstep.idleEmpty hp.idle fun run c hrec => hrecords i o run c rfl (hrec ▸ hg)⟩

/-- Once no goroutine has a connection in hand, the accounts are settled. -/
theorem Conns.settled (hp : Conns p) : ConnsSettled p := by
  intro hrest
  -- Nobody has the connection in hand, so it is closed or recorded.
  refine ⟨fun c hc => ?_, hp.idle⟩
  rcases hp.kept c hc with hclosed | hlisted | ⟨g, hg, hhandles⟩
  · exact Or.inl hclosed
  · have hpos := List.count_pos_iff.mpr hlisted
    have honce := hp.once.once c
    exact Or.inr (by omega)
  · rw [hrest g hg] at hhandles
    cases hhandles

/-- **The extent of the law.** Along any interleaving in which connections are recorded only
while the bridge is running, the accounts are settled in every state in which no goroutine
has a connection in hand. -/
theorem connsSettled_of_recordsInRun (cfg : Config) (ms : List Move)
    (h : Each step RecordsInRun (boot cfg) ms) : Always step ConnsSettled (boot cfg) ms :=
  always_of_each (I := Conns) (fun _ => True)
    (fun _ _ _ _ hp hrecords hstep => conns_step hstep hrecords hp)
    (fun _ hp => hp.settled) (fun _ _ => trivial) (conns_boot cfg) h

/-! ### Two connections -/

/-- A check that suffices for a move that records in its run. -/
def recordsInRun (p : System) : Move → Bool
  | .call _ => true
  | .step i _ =>
      match p.threads[i]? with
      | some (.acceptLoop _ (.record _)) => p.shared.bridgeRunning
      | _ => true

theorem recordsInRun_of_check (p : System) (m : Move) (h : recordsInRun p m = true) :
    RecordsInRun p m := by
  rintro i o run c rfl hg
  simpa [recordsInRun, hg] using h

/-- A client connects, and the bridge is stopped. -/
theorem connsSettled_accept_stop : Always step ConnsSettled (boot defaultConfig)
    (connects 0 ++ starts 1 ++ steps 3 [.ok] ++ steps 2 [.ok, .ok, .ok]
      ++ [.call (.stopBridge none .enter)] ++ steps 5 [.ok, .ok, .ok, .ok, .ok]) :=
  connsSettled_of_recordsInRun defaultConfig _
    (each_of_eachb recordsInRun_of_check (by decide))

/-- A client connects while the bridge is being stopped. `acceptLoop` records it after the
list was emptied, the stop completes, and the next run forgets the open connection. -/
theorem not_connsSettled_lateRecord : ¬ Always step ConnsSettled (boot defaultConfig)
    (connects 0 ++ starts 1 ++ steps 3 [.ok] ++ steps 2 [.ok]
      ++ [.call (.stopBridge none .enter)] ++ steps 4 [.ok, .ok, .ok, .ok]
      ++ steps 2 [.ok, .ok, .fail "use of closed network connection"]
      ++ steps 3 [.stopped, .ok] ++ steps 4 [.ok] ++ starts 6) := by
  intro h
  -- At the end everything rests, and connection 0 is accepted, not closed and in no list.
  have hcheck : (run step (boot defaultConfig)
      (connects 0 ++ starts 1 ++ steps 3 [.ok] ++ steps 2 [.ok]
        ++ [.call (.stopBridge none .enter)] ++ steps 4 [.ok, .ok, .ok, .ok]
        ++ steps 2 [.ok, .ok, .fail "use of closed network connection"]
        ++ steps 3 [.stopped, .ok] ++ steps 4 [.ok] ++ starts 6)).any (fun p =>
      p.threads.all (fun g => g.inHand = []) &&
        p.shared.accepted = 1 && p.shared.closedConns = [] && p.shared.clients = []) = true := by
    decide
  obtain ⟨p, hrun, hcheck⟩ := (Option.any_eq_true _ _).mp hcheck
  simp only [Bool.and_eq_true, decide_eq_true_eq, List.all_eq_true] at hcheck
  obtain ⟨⟨⟨hrest, haccepted⟩, hclosed⟩, hclients⟩ := hcheck
  rcases ((h.last hrun) hrest).1 0 (by rw [haccepted]; decide) with hmem | hcount
  · rw [hclosed] at hmem
    cases hmem
  · rw [hclients] at hcount
    cases hcount

end SmartFactory.Bridge
