import SmartFactory.TcpBridge.Clients
import SmartFactory.Lib.Run

/-!
# `SmartFactory.Proofs.TcpBridge.Clients`: no connection is lost or closed twice

The table of clients in terms of `Descriptors`: a slot that is active holds its socket, and
`Sound` is the invariant that the slots hold exactly the open connections. Each function of
`TcpBridge.Clients` is one of the rules for `Descriptors.Custody`, or several.

`always_orderly` is what follows for every run. An accept finds a slot that is not active or
none, so the clients that are there stay where they are, and `removeAll` closes what is left.
-/

set_option autoImplicit false

namespace SmartFactory.TcpBridge.Clients

open Descriptors (Custody Holds custody_none isOpen_eq_true)
open Run (Always always_of_step run)

variable {c c' : Clients} {i j : Fin maxClients}

/-- The socket of a slot that is active. -/
def held (c : Clients) (i : Fin maxClients) : Option Int :=
  if (c.slots i).active then some (c.slots i).socket else none

/-- An active slot holds its socket. -/
theorem held_eq_some {fd : Int} :
    c.held i = some fd ↔ (c.slots i).active = true ∧ (c.slots i).socket = fd := by
  rw [held]
  split <;> simp_all

/-- A slot that is not active holds nothing. -/
theorem held_eq_none : c.held i = none ↔ (c.slots i).active = false := by
  rw [held]
  split <;> simp_all

/-- What is held once a slot has been written. -/
theorem held_update (c : Clients) (i : Fin maxClients) (x : ClientConnection)
    (net : Descriptors Send) :
    held ⟨Function.update c.slots i x, net⟩ =
      Function.update c.held i (if x.active then some x.socket else none) := by
  funext j
  by_cases hij : j = i
  · subst hij
    simp [held]
  · simp [held, Function.update_of_ne hij]

/-- The slots hold exactly the connections that are open. -/
def Sound (c : Clients) : Prop := Custody c.net c.held

/-- At the start no slot holds anything. -/
theorem sound_init : init.Sound := custody_none

/-! ### `removeClient` -/

/-- A client that is removed is closed. -/
theorem removeClient_of_active (h : (c.slots i).active = true) :
    c.removeClient i = ⟨Function.update c.slots i ⟨-1, false⟩, c.net.close (c.slots i).socket⟩ :=
  if_pos h

/-- A free slot has nothing to close. -/
theorem removeClient_of_not_active (h : (c.slots i).active = false) : c.removeClient i = c := by
  rw [removeClient, h]
  rfl

/-- Removing a client keeps the slots sound. -/
theorem sound_removeClient (h : c.Sound) (i : Fin maxClients) : (c.removeClient i).Sound := by
  cases hactive : (c.slots i).active with
  | false => rwa [removeClient_of_not_active hactive]
  | true =>
      rw [removeClient_of_active hactive]
      have hheld : c.held i = some (c.slots i).socket := held_eq_some.mpr ⟨hactive, rfl⟩
      have hrelease := Custody.release h hheld
      rwa [Sound, held_update]

/-! ### `acceptNewClient` -/

/-- The slot that is found is free. -/
theorem findFreeClientSlot_some (h : c.findFreeClientSlot = some i) :
    (c.slots i).active = false := by
  simpa using List.find?_some h

/-- So does accepting one, under a descriptor that is not open. -/
theorem sound_acceptNewClient {fd : Int} (h : c.Sound) (hfresh : c.net.isOpen fd = false) :
    (c.acceptNewClient fd).Sound := by
  rw [acceptNewClient]
  split
  · exact h
  · split
    · exact Custody.reject h hfresh
    · rename_i slot hslot
      have hfree := held_eq_none.mpr (findFreeClientSlot_some hslot)
      have haccept := Custody.accept h hfresh hfree
      rwa [Sound, held_update]

/-- The clients that are there stay where they are. -/
theorem acceptNewClient_slots (c : Clients) (fd : Int) (h : (c.slots i).active = true) :
    (c.acceptNewClient fd).slots i = c.slots i := by
  rw [acceptNewClient]
  split
  · rfl
  · split
    · rfl
    · rename_i slot hslot
      have hne : i ≠ slot := by
        rintro rfl
        cases h.symm.trans (findFreeClientSlot_some hslot)
      exact Function.update_of_ne hne ..

/-! ### `checkClient` and `broadcastFrame` -/

/-- A check removes the client or does nothing. -/
theorem sound_checkClient (h : c.Sound) (i : Fin maxClients) (recvRet : Option Int) :
    (c.checkClient i recvRet).Sound := by
  unfold checkClient
  split
  · split
    · exact h
    · split
      · exact sound_removeClient h i
      · exact h
  · exact h

/-- So does sending a frame to one client. -/
theorem sound_sendFrame (h : c.Sound) (frame : MessagePack.Bytes) (i : Fin maxClients)
    (sent : Int) : (c.sendFrame frame i sent).Sound := by
  have hwrite : Sound { c with net := c.net.write (c.slots i).socket ⟨frame, sent⟩ } :=
    Custody.write h _
  rw [sendFrame]
  split
  · dsimp only
    split
    · exact sound_removeClient hwrite i
    · exact hwrite
  · exact h

/-- And sending a snapshot to all of them. -/
theorem sound_sendSnapshot (h : c.Sound) (snapshot : SensorSnapshot)
    (sent : Fin maxClients → Int) : (c.sendSnapshot snapshot sent).Sound := by
  simp only [sendSnapshot]
  split
  · exact List.foldlRecOn _ _ h fun _ h i _ => sound_sendFrame h _ i (sent i)
  · exact h

/-! ### `removeAll` -/

/-- The shutdown removes one client after the other. -/
theorem sound_removeAll (h : c.Sound) : c.removeAll.Sound :=
  List.foldlRecOn _ _ h fun _ h i _ => sound_removeClient h i

/-- A slot that is not active does not become so. -/
theorem removeClient_not_active (c : Clients) (i : Fin maxClients)
    (h : (c.slots j).active = false ∨ j = i) : ((c.removeClient i).slots j).active = false := by
  cases hactive : (c.slots i).active with
  | false =>
      rw [removeClient_of_not_active hactive]
      rcases h with h | rfl
      · exact h
      · exact hactive
  | true =>
      rw [removeClient_of_active hactive]
      show (Function.update c.slots i ⟨-1, false⟩ j).active = false
      by_cases hij : j = i
      · rw [hij, Function.update_self]
      · rw [Function.update_of_ne hij]
        exact h.resolve_right hij

/-- What was free or is removed is free afterwards. -/
theorem foldl_removeClient_not_active (is : List (Fin maxClients))
    (h : (c.slots j).active = false ∨ j ∈ is) :
    ((is.foldl removeClient c).slots j).active = false := by
  induction is generalizing c with
  | nil => exact h.resolve_right (List.not_mem_nil)
  | cons i is ih =>
      refine ih ?_
      rw [List.mem_cons, ← or_assoc] at h
      exact h.imp_left (removeClient_not_active c i)

/-- After the shutdown every slot is free. -/
theorem removeAll_not_active (c : Clients) (j : Fin maxClients) :
    (c.removeAll.slots j).active = false :=
  foldl_removeClient_not_active _ (Or.inr (List.mem_finRange j))

/-! ### Runs -/

/-- An operation that is allowed is carried out. -/
theorem step_of_allowed {op : Op} (h : op.Allowed c) : c.step op = some (c.apply op) := if_pos h

/-- A step is an operation that was allowed. -/
theorem step_some {op : Op} (h : c.step op = some c') : op.Allowed c ∧ c' = c.apply op := by
  rw [step] at h
  split at h
  · rename_i hallowed
    exact ⟨hallowed, (Option.some.inj h).symm⟩
  · cases h

/-- **One step** keeps the slots sound. -/
theorem sound_step {op : Op} (h : c.Sound) (hs : c.step op = some c') : c'.Sound := by
  obtain ⟨hallowed, rfl⟩ := step_some hs
  cases op with
  | accept fd => exact sound_acceptNewClient h hallowed
  | check i recvRet => exact sound_checkClient h i recvRet
  | broadcast snapshot sent => exact sound_sendSnapshot h snapshot sent
  | shutdown => exact sound_removeAll h

/-- **A run** keeps them sound. -/
theorem sound_of_run {ops : List Op} (h : run step init ops = some c) : c.Sound :=
  Run.last_of_step (fun _ _ _ => sound_step) sound_init h

/-- The connection is in an active slot. -/
def Stored (c : Clients) (i : Fin maxClients) (k : Nat) : Prop :=
  (c.slots i).active = true ∧ c.net.owner (c.slots i).socket = some k

/-- A connection is held by a slot exactly when it is stored there. -/
theorem holds_iff_stored {k : Nat} : Holds c.net c.held i k ↔ c.Stored i k := by
  constructor
  · rintro ⟨fd, hheld, hk⟩
    obtain ⟨hactive, rfl⟩ := held_eq_some.mp hheld
    exact ⟨hactive, hk⟩
  · rintro ⟨hactive, hk⟩
    exact ⟨_, held_eq_some.mpr ⟨hactive, rfl⟩, hk⟩

/-- The table is in order. -/
structure Orderly (c : Clients) : Prop where
  /-- A connection that was accepted is open and in exactly one active slot, or it has been closed
  exactly once. -/
  accounted : ∀ k < c.net.accepted, (c.net.closes k = 0 ∧ ∃! i, c.Stored i k) ∨
    (c.net.closes k = 1 ∧ ∀ i, ¬ c.Stored i k)
  /-- Active slots have different descriptors. -/
  distinct : ∀ i j, (c.slots i).active = true → (c.slots j).active = true →
    (c.slots i).socket = (c.slots j).socket → i = j
  /-- An accept does not touch an active slot. -/
  kept : ∀ fd c', c.step (.accept fd) = some c' → ∀ i, (c.slots i).active = true →
    c'.slots i = c.slots i
  /-- Once the bridge has shut down, every connection has been closed exactly once and no
  descriptor is open. -/
  closed : ∀ c', c.step .shutdown = some c' →
    (∀ k < c'.net.accepted, c'.net.closes k = 1) ∧ ∀ fd, c'.net.isOpen fd = false

/-- A connection that was accepted is stored in one slot and open, or it was closed once and is
stored in none. -/
theorem Sound.accounted (h : c.Sound) {k : Nat} (hk : k < c.net.accepted) :
    (c.net.closes k = 0 ∧ ∃! i, c.Stored i k) ∨ (c.net.closes k = 1 ∧ ∀ i, ¬ c.Stored i k) := by
  simpa only [holds_iff_stored] using Custody.accounted h hk

/-- What is open is in an active slot. -/
theorem Sound.not_isOpen (h : c.Sound) (hnone : ∀ i, (c.slots i).active = false) (fd : Int) :
    c.net.isOpen fd = false := by
  cases hopen : c.net.isOpen fd with
  | false => rfl
  | true =>
      obtain ⟨k, hk, hcloses⟩ := isOpen_eq_true.mp hopen
      obtain ⟨i, fd', hheld, -⟩ := h.placed k (h.known fd k hk) hcloses
      cases (hnone i).symm.trans (held_eq_some.mp hheld).1

/-- The law of the connections, from the invariant. -/
theorem Sound.orderly (h : c.Sound) : c.Orderly where
  accounted _ hk := h.accounted hk
  distinct i j hi hj hsocket :=
    h.distinct i j _ (held_eq_some.mpr ⟨hi, rfl⟩) (held_eq_some.mpr ⟨hj, hsocket.symm⟩)
  kept fd c' hs i hactive := by
    obtain ⟨-, rfl⟩ := step_some hs
    exact acceptNewClient_slots c fd hactive
  closed c' hs := by
    obtain ⟨-, rfl⟩ := step_some hs
    have hsound := sound_removeAll h
    refine ⟨fun k hk => ?_, hsound.not_isOpen (removeAll_not_active c)⟩
    rcases hsound.accounted hk with ⟨-, i, hi, -⟩ | ⟨hclosed, -⟩
    · cases (removeAll_not_active c i).symm.trans hi.1
    · exact hclosed

/-- The table is in order at every moment of every run. -/
theorem always_orderly (ops : List Op) : Always step Orderly init ops :=
  always_of_step (I := Sound) (fun _ => True) (fun _ _ _ _ h hs => sound_step h hs)
    (fun _ h => h.orderly) (fun _ _ => trivial) sound_init

end SmartFactory.TcpBridge.Clients
