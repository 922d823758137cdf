import SmartFactory.Proofs.Bridge.Runs

/-!
# `SmartFactory.Proofs.Bridge.Clients`: the OPC UA clients of the bridge

`Connect` looks at `bridgeRunning` in its first section and stores the new client in its
last one, after it has dialled. Two overlapping calls both find the service without a
client, and the second one to finish replaces the client of the first.

`Accounted` says that every client that was dialled is the current one, is closed, or is on
its way through a `Connect`. `accounted_iff` is the extent of it: clients are accounted for
along an interleaving, and a running bridge keeps its client, exactly when every `Connect`
that stores a client finds none (`InstallsFree`).
-/

set_option autoImplicit false

namespace SmartFactory.Bridge

open Run

/-- The goroutine is a `Connect` that dialled the client and will store or close it. -/
def Goroutine.holds (c : Nat) : Goroutine → Prop
  | .connect (.findNamespace d) => d = c
  | .connect (.closeClient d _) => d = c
  | .connect (.install d _) => d = c
  | _ => False

/-- Every client that was dialled is the current one, is closed, or is held by a `Connect`
in progress. -/
def Accounted (p : System) : Prop :=
  ∀ c ∈ p.shared.dialled, p.shared.client = some c ∨ c ∈ p.shared.closedClients ∨
    ∃ g ∈ p.threads, g.holds c

/-- The move does not change the client and the namespace index of a running bridge. -/
def KeepsClient (p : System) (m : Move) : Prop :=
  p.shared.bridgeRunning = true → ∀ p', step p m = some p' →
    p'.shared.client = p.shared.client ∧ p'.shared.namespaceIdx = p.shared.namespaceIdx

/-- A `Connect` that stores its client finds none in the service. -/
def InstallsFree (p : System) (m : Move) : Prop :=
  ∀ i o c ns, m = .step i o → p.threads[i]? = some (.connect (.install c ns)) →
    p.shared.client = none

variable {s s' : State} {g g' : Goroutine} {o : Outcome} {new : List Goroutine}
variable {p p' : System} {m : Move}

/-! ### A client is in one place -/

/-- How often a client is carried by a goroutine, from `NewClient` on. -/
def Goroutine.carry (c : Nat) : Goroutine → Nat
  | .connect (.dial d) => if d = c then 1 else 0
  | .connect (.findNamespace d) => if d = c then 1 else 0
  | .connect (.closeClient d _) => if d = c then 1 else 0
  | .connect (.install d _) => if d = c then 1 else 0
  | _ => 0

/-- How often a client is in the service or closed. -/
def State.places (s : State) (c : Nat) : Nat :=
  s.closedClients.count c + if s.client = some c then 1 else 0

/-- A client that is held is carried. -/
theorem carry_of_holds {c : Nat} (h : g.holds c) : g.carry c = 1 := by
  unfold Goroutine.holds at h
  split at h
  · exact if_pos h
  · exact if_pos h
  · exact if_pos h
  · exact h.elim

/-- Closing the current client moves it. -/
theorem places_withoutClient (s : State) (c : Nat) :
    s.withoutClient.places c = s.places c := by
  rw [State.places, State.places]
  show (s.client.toList ++ s.closedClients).count c + _ = _
  rw [List.count_append]
  cases hclient : s.client with
  | none => simp [State.withoutClient]
  | some d => simp [State.withoutClient, List.count_cons, Nat.add_comm]

/-- A step moves clients from one place to another. Only `NewClient` makes one. -/
theorem Step.places (h : Step s g o s' g' new) (c : Nat) :
    s'.places c + g'.carry c + Pool.weight (Goroutine.carry c) new
      ≤ s.places c + g.carry c + (if s.newClients ≤ c ∧ c < s'.newClients then 1 else 0) := by
  cases h with
  | connectClosed | disconnectClosed =>
      rw [places_withoutClient]
      simp [Goroutine.carry]
  -- `NewClient` hands out the next number, and the new client is in no other place.
  | connectNew =>
      show s.places c + (if s.newClients = c then 1 else 0) + 0
        ≤ s.places c + 0 + (if s.newClients ≤ c ∧ c < s.newClients + 1 then 1 else 0)
      split
      · rw [if_pos (by omega)]
      · omega
  | connectCloseClient d err o =>
      simp only [State.places, Goroutine.carry, List.count_cons, Pool.weight_nil]
      simp only [beq_iff_eq]
      omega
  -- The client goes from the call to `s.client`. The one that was there is lost from sight.
  | connectInstalled d ns o =>
      simp only [State.places, State.installed, Goroutine.carry, Option.some.injEq,
        Pool.weight_nil]
      omega
  | connectDialFailed =>
      show s.places c + 0 + 0 ≤ s.places c + _ + _
      omega
  | startListening | stopTaken | tickBroadcast => exact Nat.le_add_right (s.places c) _
  | _ => simp [State.places, Goroutine.carry]

/-- Every client is in at most one place, and the clients that are still to be made are in
none. -/
structure ClientsOnce (p : System) : Prop where
  unique : Pool.Unique State.places Goroutine.carry State.newClients p
  dialled : ∀ c, p.shared.client = some c → c ∈ p.shared.dialled
  held : ∀ g ∈ p.threads, ∀ c, g.holds c → c ∈ p.shared.dialled
  running : p.shared.bridgeRunning = true → p.shared.client ≠ none

/-- No client is made twice. -/
theorem Step.newClients_le (h : Step s g o s' g' new) : s.newClients ≤ s'.newClients := by
  cases h with
  | connectNew => exact Nat.le_succ _
  | _ => exact Nat.le_refl _

/-- No client is forgotten to have been dialled. -/
theorem Step.dialled_mono (h : Step s g o s' g' new) {c : Nat} (hc : c ∈ s.dialled) :
    c ∈ s'.dialled := by
  cases h with
  | connectDialled => exact List.mem_cons_of_mem _ hc
  | _ => exact hc

/-- A goroutine that goes on holds a client that it held before, or one that it dialled. -/
theorem Step.holds (h : Step s g o s' g' new) {u : Goroutine} (hu : u = g' ∨ u ∈ new) {c : Nat}
    (hc : u.holds c) : g.holds c ∨ c ∈ s'.dialled := by
  cases h with
  -- The only step after which a goroutine holds a client that it did not hold.
  | connectDialled d =>
      rcases hu with rfl | hu
      · exact Or.inr (List.mem_cons.mpr (Or.inl hc.symm))
      · cases hu
  | startGoAccept | startGoTick | acceptWatch | tickGoStop =>
      rcases hu with rfl | hu
      · exact Or.inl hc
      · rw [List.mem_singleton] at hu
        subst hu
        exact hc.elim
  | connectCloseClient | connectInstalled =>
      rcases hu with rfl | hu
      · exact hc.elim
      · cases hu
  | _ =>
      rcases hu with rfl | hu
      · exact Or.inl hc
      · cases hu

theorem clientsOnce_boot (cfg : Config) : ClientsOnce (boot cfg) :=
  ⟨⟨fun _ => Nat.zero_le _, fun _ _ => rfl⟩, nofun, nofun, nofun⟩

/-- **A move keeps the clients apart.** -/
theorem clientsOnce_step (h : step p m = some p') (hp : ClientsOnce p) : ClientsOnce p' := by
  rcases system_cases h with ⟨g, -, hreq, rfl⟩ | ⟨i, o, g, s, g', new, -, hg, hstep, rfl⟩
  · have hcarry : ∀ c, g.carry c = 0 := by
      intro c
      rcases request_cases hreq with rfl | rfl | rfl | rfl | ⟨cfg, rfl⟩ <;> rfl
    have hholds : ∀ c, ¬ g.holds c := fun c hc => nomatch (hcarry c).symm.trans (carry_of_holds hc)
    refine ⟨hp.unique.call hcarry, hp.dialled, fun u hu c hc => ?_, hp.running⟩
    rcases List.mem_append.mp hu with hu | hu
    · exact hp.held u hu c hc
    · exact absurd (List.mem_singleton.mp hu ▸ hc) (hholds c)
  · refine ⟨hp.unique.step hg hstep.newClients_le hstep.places, fun c hc => ?_, ?_,
      fun hrunning => ?_⟩
    · cases hstep with
      | connectClosed | disconnectClosed => cases hc
      | connectInstalled d ns o =>
          obtain rfl := Option.some.inj hc
          exact hp.held _ (Pool.mem_of_get hg) _ rfl
      | connectDialled => exact List.mem_cons_of_mem _ (hp.dialled c hc)
      | _ => exact hp.dialled c hc
    · have hmine : ∀ u, u = g' ∨ u ∈ new → ∀ c, u.holds c → c ∈ s.dialled := by
        intro u hu c hc
        rcases hstep.holds hu hc with hold | hdialled
        · exact hstep.dialled_mono (hp.held g (Pool.mem_of_get hg) c hold)
        · exact hdialled
      exact Pool.forall_threads_step hp.held (hmine g' (Or.inl rfl))
        (fun u hu => hmine u (Or.inr hu)) fun u _ hold c hc => hstep.dialled_mono (hold c hc)
    · cases hstep with
      -- A run begins only with a client, and the sections that drop it need an idle bridge.
      | startListening hready => exact hready.client
      | stopTaken => cases hrunning
      | connectClosed _ hidle | disconnectClosed _ _ hidle =>
          cases (show p.shared.bridgeRunning = true from hrunning).symm.trans hidle
      | connectInstalled => exact nofun
      | _ => exact hp.running hrunning

/-! ### Accounting for the clients -/

/-- A client that is current is neither closed nor carried. -/
theorem ClientsOnce.of_current (hp : ClientsOnce p) {d : Nat} (hd : p.shared.client = some d) :
    d ∉ p.shared.closedClients ∧ ∀ g ∈ p.threads, g.carry d = 0 := by
  have honce := hp.unique.once d
  rw [State.places, if_pos hd] at honce
  have hcount : p.shared.closedClients.count d = 0 := by omega
  have hweight : Pool.weight (Goroutine.carry d) p.threads = 0 := by omega
  exact ⟨List.count_eq_zero.mp hcount, (Pool.weight_eq_zero _).mp hweight⟩

/-- The client is the current one or closed. -/
def State.hasClient (c : Nat) (s : State) : Prop := s.client = some c ∨ c ∈ s.closedClients

theorem accounted_iff_kept : Accounted p ↔ ∀ c ∈ p.shared.dialled,
    Pool.Kept (State.hasClient c) (Goroutine.holds c) p :=
  forall₂_congr fun _ _ => or_assoc.symm

/-- The current client stays or is closed, unless another one is stored in its place. -/
theorem Step.client_of_state (h : Step s g o s' g' new) {c : Nat}
    (hfree : ∀ d ns, g = .connect (.install d ns) → s.client = none) (hc : s.hasClient c) :
    s'.hasClient c := by
  cases h with
  | connectClosed | disconnectClosed =>
      rcases hc with hcur | hclosed
      · exact Or.inr (List.mem_append_left _ (Option.mem_toList.mpr hcur))
      · exact Or.inr (List.mem_append_right _ hclosed)
  | connectCloseClient => exact hc.imp_right (List.mem_cons_of_mem _)
  | connectInstalled d ns o =>
      rcases hc with hcur | hclosed
      · cases (hfree d ns rfl).symm.trans hcur
      · exact Or.inr hclosed
  | _ => exact hc

/-- A client that a `Connect` holds is stored or closed in the end. -/
theorem Step.client_of_holds (h : Step s g o s' g' new) {c : Nat} (hc : g.holds c) :
    s'.hasClient c ∨ g'.holds c := by
  cases h with
  | connectFound | connectNotFound => exact Or.inr hc
  | connectCloseClient => exact Or.inl (Or.inr (List.mem_cons.mpr (Or.inl hc.symm)))
  | connectInstalled => exact Or.inl (Or.inl (congrArg some hc))
  | _ => exact hc.elim

/-- A client that a step dialled is held by its `Connect`. -/
theorem Step.client_of_dialled (h : Step s g o s' g' new) {c : Nat} (hc : c ∈ s'.dialled) :
    c ∈ s.dialled ∨ g'.holds c := by
  cases h with
  | connectDialled d =>
      rcases List.mem_cons.mp hc with rfl | hc
      · exact Or.inr rfl
      · exact Or.inl hc
  | _ => exact Or.inl hc

/-- A step that stores a client only where there was none accounts for all of them. -/
theorem Step.accounted {i : Nat} (h : Step p.shared g o s' g' new)
    (hg : p.threads[i]? = some g) (hp : Accounted p)
    (hfree : ∀ c ns, g = .connect (.install c ns) → p.shared.client = none) :
    Accounted ⟨s', p.threads.set i g' ++ new⟩ := by
  rw [accounted_iff_kept] at hp ⊢
  intro c hc
  rcases h.client_of_dialled hc with hold | hmine
  · exact (hp c hold).step hg (fun hplace => Or.inl (h.client_of_state hfree hplace))
      h.client_of_holds
  · exact Pool.Kept.of_step hg (Or.inr hmine)

/-- A step that stores a client in place of another one loses that one. -/
theorem not_accounted_of_install {i c : Nat} {ns : UInt16} (hp : ClientsOnce p)
    (hg : p.threads[i]? = some (.connect (.install c ns))) (hbusy : p.shared.client ≠ none) :
    ¬ Accounted ⟨p.shared.installed c ns, p.threads.set i (.finished none) ++ []⟩ := by
  obtain ⟨d, hd⟩ := Option.ne_none_iff_exists'.mp hbusy
  obtain ⟨hopen, hfree⟩ := hp.of_current hd
  -- The client that is stored is carried by this `Connect`, the current one by nobody.
  have hne : c ≠ d := by
    rintro rfl
    have hholds : Goroutine.holds c (.connect (.install c ns)) := rfl
    cases (hfree _ (Pool.mem_of_get hg)).symm.trans (carry_of_holds hholds)
  intro haccounted
  rcases haccounted d (hp.dialled d hd) with hcur | hclosed | ⟨u, hu, hholds⟩
  · exact hne (Option.some.inj hcur)
  · exact hopen hclosed
  · rcases Pool.mem_threads_step hu with rfl | hnew | hold
    · exact hholds
    · cases hnew
    · cases (hfree u hold).symm.trans (carry_of_holds hholds)

/-- **One step.** The clients are accounted for after a move exactly when the move stores no
client in place of another one. -/
theorem accounted_step_iff (hp : ClientsOnce p) (ha : Accounted p) (h : step p m = some p') :
    Accounted p' ↔ InstallsFree p m := by
  rcases system_cases h with ⟨g, rfl, -, rfl⟩ | ⟨i, o, g, s, g', new, rfl, hg, hstep, rfl⟩
  · have hkept := accounted_iff_kept.mp ha
    refine iff_of_true (accounted_iff_kept.mpr fun c hc => (hkept c hc).call g) ?_
    exact fun _ _ _ _ hm => nomatch hm
  · constructor
    · intro ha' j o' c ns hm hj
      obtain ⟨rfl, -⟩ := Move.step.inj hm
      rw [hg, Option.some.injEq] at hj
      subst hj
      by_contra hbusy
      cases hstep with
      | connectInstalled => exact not_accounted_of_install hp hg hbusy ha'
    · intro hfree
      exact hstep.accounted hg ha fun c ns hi => hfree i o c ns rfl (hi ▸ hg)

/-- A move that stores no client in place of another one keeps the client of a running
bridge. -/
theorem keepsClient_of_installsFree (hp : ClientsOnce p) (hfree : InstallsFree p m) :
    KeepsClient p m := by
  intro hrunning p' h
  rcases system_cases h with ⟨g, -, -, rfl⟩ | ⟨i, o, g, s, g', new, rfl, hg, hstep, rfl⟩
  · exact ⟨rfl, rfl⟩
  · cases hstep with
    | connectClosed _ hidle | disconnectClosed _ _ hidle =>
        cases hrunning.symm.trans hidle
    | connectInstalled c ns =>
        exact absurd (hfree i o c ns rfl hg) (hp.running hrunning)
    | _ => exact ⟨rfl, rfl⟩

/-- **The extent of the law.** Along any interleaving, every client that was dialled is
accounted for in every state and no move changes the client of a running bridge, exactly when
every `Connect` that stores a client finds none in the service. -/
theorem accounted_iff (cfg : Config) (ms : List Move) :
    (Always step Accounted (boot cfg) ms ∧ Each step KeepsClient (boot cfg) ms) ↔
      Each step InstallsFree (boot cfg) ms := by
  have hkeep : ∀ p m p', ClientsOnce p → step p m = some p' → ClientsOnce p' :=
    fun _ _ _ hp hstep => clientsOnce_step hstep hp
  have hiff : Always step Accounted (boot cfg) ms ↔ Each step InstallsFree (boot cfg) ms :=
    always_iff_each (I := ClientsOnce) (fun _ => True)
      (fun _ _ _ _ hp ha hg hstep => ⟨clientsOnce_step hstep hp,
        (accounted_step_iff hp ha hstep).mpr hg⟩)
      (fun _ _ _ _ hp ha hg hstep ha' => hg ((accounted_step_iff hp ha hstep).mp ha'))
      (fun _ _ => trivial) (clientsOnce_boot cfg) nofun
  refine ⟨fun h => hiff.mp h.1, fun h => ⟨hiff.mpr h, ?_⟩⟩
  exact each_of_each (I := ClientsOnce) (fun _ => True)
    (fun p m p' _ hp _ hstep => hkeep p m p' hp hstep)
    (fun _ _ _ _ hp hfree _ => keepsClient_of_installsFree hp hfree)
    (fun _ _ => trivial) (clientsOnce_boot cfg) h

/-- Two overlapping `Connect` requests, and a `StartBridge` between their last sections: the
second client replaces the first one under the running bridge, and nobody closes the first
one. -/
theorem not_accounted_overlap :
    ¬ (Always step Accounted (boot defaultConfig)
        ([.call (.connect .enter), .call (.connect .enter)]
          ++ steps 0 [.ok, .ok, .ok, .ok, .namespaceIndex 2]
          ++ steps 1 [.ok, .ok, .ok, .ok, .namespaceIndex 3]
          ++ [.step 0 .ok] ++ starts 2 ++ [.step 1 .ok]) ∧
      Each step KeepsClient (boot defaultConfig)
        ([.call (.connect .enter), .call (.connect .enter)]
          ++ steps 0 [.ok, .ok, .ok, .ok, .namespaceIndex 2]
          ++ steps 1 [.ok, .ok, .ok, .ok, .namespaceIndex 3]
          ++ [.step 0 .ok] ++ starts 2 ++ [.step 1 .ok])) := by
  -- At the end the service has client 1, client 0 is still open, and no call carries it.
  have hcheck : (run step (boot defaultConfig)
      ([.call (.connect .enter), .call (.connect .enter)]
        ++ steps 0 [.ok, .ok, .ok, .ok, .namespaceIndex 2]
        ++ steps 1 [.ok, .ok, .ok, .ok, .namespaceIndex 3]
        ++ [.step 0 .ok] ++ starts 2 ++ [.step 1 .ok])).any
      (fun p => 0 ∈ p.shared.dialled && p.shared.client = some 1 &&
        0 ∉ p.shared.closedClients && p.threads.all (fun g => g.carry 0 = 0)) = true := by
    decide
  obtain ⟨p, hrun, hcheck⟩ := (Option.any_eq_true _ _).mp hcheck
  simp only [Bool.and_eq_true, decide_eq_true_eq, List.all_eq_true] at hcheck
  obtain ⟨⟨⟨hdialled, hclient⟩, hopen⟩, hfree⟩ := hcheck
  rintro ⟨halways, -⟩
  rcases halways.last hrun 0 hdialled with hcur | hclosed | ⟨g, hg, hholds⟩
  · cases hclient.symm.trans hcur
  · exact hopen hclosed
  · cases (hfree g hg).symm.trans (carry_of_holds hholds)

end SmartFactory.Bridge
