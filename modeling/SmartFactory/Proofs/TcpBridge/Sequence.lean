import SmartFactory.Proofs.TcpBridge.Frames
import SmartFactory.Proofs.TcpBridge.Timing
import SmartFactory.Lib.Subscription

/-!
# `SmartFactory.Proofs.TcpBridge.Sequence`: which frames of a run a client gets

The loop numbers its snapshots and sends each one to all clients that it has then. A client comes at
some time and it is removed at another one. `contiguous_of_run` is that it gets all snapshots in
between: those that are sent from the event on in which it is accepted, until it is removed.

The invariant is `Subscription.Block`. It is kept by every operation on the table of clients,
because a client that is open is in exactly one slot.
-/

set_option autoImplicit false

namespace SmartFactory.TcpBridge

open Bridge (NodeID)
open Run (run outputs outputs_concat run_append run_induction)
open Subscription (outputsSince outputsSince_concat outputsSince_suffix)

namespace Clients

open Descriptors (Grows)

variable {c c' : Clients} {k : Nat} {op : Op}

/-! ### What an operation does to the connections -/

/-- Removing a client only adds to what has happened. -/
theorem grows_removeClient (c : Clients) (i : Fin maxClients) :
    Grows c.net (c.removeClient i).net := by
  rw [removeClient]
  split
  · exact .close ..
  · exact .refl _

/-- So does sending a frame. -/
theorem grows_sendFrame (c : Clients) (frame : MessagePack.Bytes) (i : Fin maxClients)
    (sent : Int) : Grows c.net (c.sendFrame frame i sent).net := by
  have hwrite : Grows c.net (c.net.write (c.slots i).socket ⟨frame, sent⟩) := .write ..
  rw [sendFrame]
  split
  · dsimp only
    split
    · exact hwrite.trans (grows_removeClient ⟨c.slots, _⟩ i)
    · exact hwrite
  · exact .refl _

/-- And accepting a client. -/
theorem grows_acceptNewClient (c : Clients) (fd : Int) :
    Grows c.net (c.acceptNewClient fd).net := by
  rw [acceptNewClient]
  split
  · exact .refl _
  · split
    · exact (Grows.accept ..).trans (.close ..)
    · exact .accept ..

/-- A loop only adds when its steps do. -/
theorem grows_foldl {α : Type} {f : Clients → α → Clients} (h : ∀ c a, Grows c.net (f c a).net)
    (as : List α) (c : Clients) : Grows c.net (as.foldl f c).net := by
  induction as generalizing c with
  | nil => exact .refl _
  | cons a as ih => exact (h c a).trans (ih _)

/-- **One operation** only adds to what has happened. -/
theorem grows_step (h : c.step op = some c') : Grows c.net c'.net := by
  obtain ⟨-, rfl⟩ := step_some h
  cases op with
  | accept fd => exact grows_acceptNewClient c fd
  | check i recvRet =>
      simp only [apply, checkClient]
      split
      · split
        · exact .refl _
        · split
          · exact grows_removeClient c i
          · exact .refl _
      · exact .refl _
  | broadcast snapshot sent =>
      simp only [apply, sendSnapshot_eq]
      exact grows_foldl (fun c i => grows_sendFrame c _ i (sent i)) _ c
  | shutdown => exact grows_foldl grows_removeClient _ c

/-- The frames come after the accepts of a turn, and they bring nobody. -/
theorem accepted_broadcast {snapshot : SensorSnapshot} {sent : Fin maxClients → Int}
    (h : c.step (.broadcast snapshot sent) = some c') : c'.net.accepted = c.net.accepted := by
  -- A client may be removed for a failed `send`, but none is accepted.
  have hremove : ∀ (c : Clients) i, (c.removeClient i).net.accepted = c.net.accepted := by
    intro c i
    rw [removeClient]
    split
    · exact Descriptors.close_accepted ..
    · rfl
  have hsend : ∀ (c : Clients) frame i n,
      (c.sendFrame frame i n).net.accepted = c.net.accepted := by
    intro c frame i n
    rw [sendFrame]
    split
    · dsimp only
      split
      · rw [hremove]
        exact Descriptors.write_accepted ..
      · exact Descriptors.write_accepted ..
    · rfl
  obtain ⟨-, rfl⟩ := step_some h
  simp only [apply, sendSnapshot_eq]
  exact List.foldlRecOn (motive := fun c' => c'.net.accepted = c.net.accepted) _ _ rfl
    fun c₁ h₁ i _ => (hsend c₁ _ i (sent i)).trans h₁

/-! ### Blocks -/

/-- The snapshot that an operation sends. -/
def Op.sending : Op → Option SensorSnapshot
  | .broadcast snapshot _ => some snapshot
  | .accept _ | .check _ _ | .shutdown => none

/-- The snapshots that are sent from the operation on that accepts the connection. -/
def sentSince (k : Nat) (c : Clients) (ops : List Op) : List SensorSnapshot :=
  outputsSince Clients.step (fun _ => Op.sending) (fun c => k < c.net.accepted) c ops

/-- Of the snapshots that have been sent since it came, the connection got the first ones, and all
of them as long as it is open. -/
abbrev Block (c : Clients) (k : Nat) (got since : List SensorSnapshot) : Prop :=
  Subscription.Block (k < c.net.accepted) (k < c.net.accepted ∧ c.net.closes k = 0) got since

/-- A client that is in one slot gets a snapshot once. -/
theorem snapshotsTo_of_stored {snapshot : SensorSnapshot} {sent : Fin maxClients → Int}
    {i : Fin maxClients} (hi : c.Stored i k) (honly : ∀ j, c.Stored j k → j = i) :
    Op.snapshotsTo c k (.broadcast snapshot sent) = [(snapshot, sent i)] := by
  have hfilter : ((List.finRange maxClients).filter fun j => c.Stored j k) = [i] := by
    refine List.perm_singleton.mp ((List.perm_ext_iff_of_nodup
      ((List.nodup_finRange maxClients).filter _) (List.nodup_singleton i)).mpr fun j => ?_)
    rw [List.mem_filter, decide_eq_true_eq, List.mem_singleton]
    exact ⟨fun h => honly j h.2, fun h => ⟨List.mem_finRange j, h ▸ hi⟩⟩
  rw [Op.snapshotsTo, hfilter, List.map_singleton]

/-- A connection that no slot holds is sent nothing. -/
theorem snapshotsTo_of_not_stored {snapshot : SensorSnapshot} {sent : Fin maxClients → Int}
    (h : ∀ i, ¬ c.Stored i k) : Op.snapshotsTo c k (.broadcast snapshot sent) = [] := by
  have hfilter : ((List.finRange maxClients).filter fun j => c.Stored j k) = [] :=
    List.filter_eq_nil_iff.mpr fun j _ => by simpa using h j
  rw [Op.snapshotsTo, hfilter, List.map_nil]

/-- A stored connection has been accepted. -/
theorem Sound.lt_of_stored {i : Fin maxClients} (h : c.Sound) (hi : c.Stored i k) :
    k < c.net.accepted :=
  h.known _ k hi.2

/-- What does not send keeps the block. -/
theorem Block.of_grows {got since : List SensorSnapshot} (h : c.Block k got since)
    (hgrows : Grows c.net c'.net) : c'.Block k got since := by
  refine h.idle (fun hlive => ?_) fun hk => Nat.lt_of_lt_of_le hk hgrows.accepted
  rcases Nat.lt_or_ge k c.net.accepted with hold | hnew
  · exact .inl ⟨hold, Nat.le_zero.mp (hlive.2 ▸ hgrows.closes k)⟩
  · exact .inr (Nat.not_lt.mpr hnew)

/-- **One operation.** -/
theorem Block.step {got since : List SensorSnapshot} (h : c.Block k got since) (hc : c.Sound)
    (hs : c.step op = some c') :
    c'.Block k (got ++ (op.snapshotsTo c k).map Prod.fst)
      (since ++ if k < c'.net.accepted then op.sending.toList else []) := by
  have hgrows := grows_step hs
  cases op with
  | accept fd => simpa [Op.snapshotsTo, Op.sending] using Block.of_grows h hgrows
  | check i recvRet => simpa [Op.snapshotsTo, Op.sending] using Block.of_grows h hgrows
  | shutdown => simpa [Op.snapshotsTo, Op.sending] using Block.of_grows h hgrows
  | broadcast snapshot sent =>
      have haccepted := accepted_broadcast hs
      rw [Op.sending, Option.toList_some, haccepted]
      rcases Nat.lt_or_ge k c.net.accepted with hold | hnew
      · have hcame : k < c'.net.accepted := haccepted ▸ hold
        rw [if_pos hold]
        rcases hc.accounted hold with ⟨hopen, i, hi, honly⟩ | ⟨hclosed, hno⟩
        · -- The client is open, so it gets this snapshot after all others.
          rw [snapshotsTo_of_stored hi honly, List.map_singleton]
          exact h.sent ⟨hold, hopen⟩ hcame snapshot
        · rw [snapshotsTo_of_not_stored hno, List.map_nil, List.append_nil]
          refine h.missed (fun hlive => ?_) hcame snapshot
          have hle := hgrows.closes k
          omega
      · have hno : ∀ i, ¬ c.Stored i k := fun i hi => by
          have hlt := hc.lt_of_stored hi
          omega
        rw [snapshotsTo_of_not_stored hno, List.map_nil, List.append_nil,
          if_neg (Nat.not_lt.mpr hnew), List.append_nil]
        exact Block.of_grows h hgrows

/-- The snapshots of a connection with one more operation. -/
theorem snapshotsTo_concat {ops : List Op} {c'' : Clients} (hrun : run Clients.step c ops = some c')
    (hs : c'.step op = some c'') :
    snapshotsTo k c (ops ++ [op]) = snapshotsTo k c ops ++ op.snapshotsTo c' k := by
  induction ops generalizing c with
  | nil =>
      rw [run, Option.some.injEq] at hrun
      subst hrun
      simp [snapshotsTo, hs]
  | cons op' ops ih =>
      rw [run, Option.bind_eq_some_iff] at hrun
      obtain ⟨c₁, hop, hrun⟩ := hrun
      rw [List.cons_append, snapshotsTo, snapshotsTo, hop, Option.elim_some, Option.elim_some,
        ih hrun, List.append_assoc]

/-- Nobody who has come is forgotten. -/
theorem came_step (c : Clients) (op : Op) (c' : Clients) (h : k < c.net.accepted)
    (hs : c.step op = some c') : k < c'.net.accepted :=
  Nat.lt_of_lt_of_le h (grows_step hs).accepted

/-- The snapshots since it was accepted with one more operation. -/
theorem sentSince_concat {ops : List Op} {c'' : Clients} (hrun : run Clients.step c ops = some c')
    (hs : c'.step op = some c'') : sentSince k c (ops ++ [op]) =
      sentSince k c ops ++ if k < c''.net.accepted then op.sending.toList else [] :=
  outputsSince_concat (I := fun _ => True) (fun _ _ _ _ _ => trivial)
    (fun _ _ _ _ => came_step _ _ _) trivial hrun hs

/-- What sends nothing adds nothing. -/
theorem sentSince_append {ops quiet : List Op} {c'' : Clients}
    (hquiet : ∀ op ∈ quiet, op.sending = none) (hrun : run Clients.step c ops = some c')
    (hs : run Clients.step c' quiet = some c'') :
    sentSince k c (ops ++ quiet) = sentSince k c ops := by
  refine run_induction (C := fun (quiet : List Op) (_ : Clients) =>
    (∀ op ∈ quiet, op.sending = none) → sentSince k c (ops ++ quiet) = sentSince k c ops)
    (fun _ => by rw [List.append_nil]) ?_ hs hquiet
  intro quiet c₁ op c₂ hbefore ih hop hquiet
  have hrest : run Clients.step c (ops ++ quiet) = some c₁ := by
    rw [run_append, hrun, Option.bind_some, hbefore]
  rw [← List.append_assoc, sentSince_concat hrest hop,
    ih fun op hop => hquiet op (List.mem_append_left _ hop),
    hquiet op (List.mem_append_right _ (List.mem_singleton_self op)), Option.toList_none, ite_self,
    List.append_nil]

/-- What a connection gets in a run is a block of what is sent since it came. -/
theorem block_of_run {ops : List Op} (h : run Clients.step init ops = some c) (k : Nat) :
    c.Block k ((snapshotsTo k init ops).map Prod.fst) (sentSince k init ops) := by
  have hboth : c.Sound ∧
      c.Block k ((snapshotsTo k init ops).map Prod.fst) (sentSince k init ops) := by
    refine run_induction (C := fun ops c => c.Sound ∧ c.Block k
      ((snapshotsTo k init ops).map Prod.fst) (sentSince k init ops)) ?_ ?_ h
    · exact ⟨sound_init, .start⟩
    · rintro ops c op c' hrun ⟨hsound, hblock⟩ hs
      have hnext := Block.step hblock hsound hs
      refine ⟨sound_step hsound hs, ?_⟩
      rwa [snapshotsTo_concat hrun hs, List.map_append, sentSince_concat hrun hs]
  exact hboth.2

end Clients

namespace Main

variable {m m' : Main} {e : Event}

/-! ### The snapshots of a run -/

/-- The snapshot that the loop sends in an event. -/
def snapshotOf (m : Main) : Event → Option SensorSnapshot
  | .turn t =>
      match t.select with
      | .ready _ _ =>
          if (m.seen t).sends t.nowMs then
            readSensors (m.seen t).seqCounter t.timestampMs t.read (m.seen t).sensorNodeIds
          else none
      | .interrupted | .failed => none
  | .signal => none

/-- The last part of a turn sends the snapshot that it reads, or it does nothing but lose the
session. -/
theorem publish_reads {t : Turn} (h : m.publish t = some m') :
    (m.sends t.nowMs = false ∧ m' = m.lose t.lostLast) ∨
    (m.sends t.nowMs = true ∧ ∃ snapshot clients,
      readSensors m.seqCounter t.timestampMs t.read m.sensorNodeIds = some snapshot ∧
      m.clients.step (.broadcast snapshot t.sent) = some clients ∧
      m'.clients = clients ∧ m'.seqCounter = snapshot.seq) := by
  rw [publish] at h
  split at h
  · rename_i hsends
    simp only [Option.bind_eq_bind, Option.bind_eq_some_iff] at h
    obtain ⟨snapshot, hread, clients, hclients, h⟩ := h
    obtain rfl := Option.some.inj h
    exact .inr ⟨hsends, snapshot, clients, hread, hclients, rfl, rfl⟩
  · rename_i hsends
    exact .inl ⟨Bool.not_eq_true _ ▸ hsends, (Option.some.inj h).symm⟩

/-- A snapshot has the next number. -/
theorem readSensors_seq {seqCounter timestampMs : UInt64}
    {read : Fin sensorCount → NodeID → Bridge.ReadValue} {nodes : Fin sensorCount → NodeID}
    {snapshot : SensorSnapshot}
    (h : readSensors seqCounter timestampMs read nodes = some snapshot) :
    snapshot.seq = seqCounter + 1 := by
  rw [readSensors] at h
  split at h
  · rw [← Option.some.inj h]
  · cases h

/-- The checks of the clients send nothing. -/
theorem sending_readyOps (listen : Option Int) (recv : Fin maxClients → Option Int) :
    ∀ op ∈ readyOps listen recv, op.sending = none := by
  intro op hop
  rw [readyOps, List.mem_append, List.mem_map, List.mem_map] at hop
  rcases hop with ⟨fd, -, rfl⟩ | ⟨i, -, rfl⟩
  · rfl
  · rfl

/-- What an event does to the table of clients: operations that send nothing, and at last the
snapshot if there is one. -/
inductive Sends (c c' : Clients) : Option SensorSnapshot → Prop where
  | nothing (quiet : List Clients.Op) : (∀ op ∈ quiet, op.sending = none) →
      run Clients.step c quiet = some c' → Sends c c' none
  | snapshot (quiet : List Clients.Op) (last : Clients) (snapshot : SensorSnapshot)
      (sent : Fin maxClients → Int) : (∀ op ∈ quiet, op.sending = none) →
      run Clients.step c quiet = some last →
      last.step (.broadcast snapshot sent) = some c' → Sends c c' (some snapshot)

/-- Who has been accepted stays accepted. -/
theorem Sends.came {c c' : Clients} {snapshot : Option SensorSnapshot} (h : Sends c c' snapshot)
    {k : Nat} (hk : k < c.net.accepted) : k < c'.net.accepted := by
  cases h with
  | nothing quiet _ hrun => exact Run.last_of_step Clients.came_step hk hrun
  | snapshot quiet last x sent _ hrun hlast =>
      exact Clients.came_step _ _ _ (Run.last_of_step Clients.came_step hk hrun) hlast

/-- **One event** sends its snapshot to the clients, if it has one, and numbers it. -/
theorem snapshot_step (h : m.step e = some m') :
    Sends m.clients m'.clients (snapshotOf m e) ∧
    ((snapshotOf m e = none ∧ m'.seqCounter = m.seqCounter ∧ m'.broadcasts = m.broadcasts) ∨
      ∃ snapshot, snapshotOf m e = some snapshot ∧ snapshot.seq = m.seqCounter + 1 ∧
        m'.seqCounter = m.seqCounter + 1) := by
  have hshutdown : ∀ op ∈ [Clients.Op.shutdown], op.sending = none := by
    intro op hop
    rw [List.mem_singleton.mp hop]
    rfl
  obtain ⟨-, ⟨t, rfl, hselect, rfl⟩ | ⟨t, rfl, hselect, hend⟩ |
    ⟨t, listen, recv, clients, rfl, hselect, hready, hpublish⟩ | ⟨rfl, hend⟩⟩ := step_cases h
  · -- `select` was interrupted.
    have hnone : snapshotOf m (.turn t) = none := by simp only [snapshotOf, hselect]
    rw [hnone, seen_clients]
    exact ⟨.nothing [] nofun rfl, .inl ⟨rfl, (seen_kept m t).2.1, seen_broadcasts m t⟩⟩
  · -- `select` has failed, and the loop ends.
    have hnone : snapshotOf m (.turn t) = none := by simp only [snapshotOf, hselect]
    obtain ⟨clients, hclients, rfl⟩ := shutdown_some hend
    rw [seen_clients] at hclients
    rw [hnone]
    exact ⟨.nothing _ hshutdown (run_singleton hclients),
      .inl ⟨rfl, (seen_kept m t).2.1, seen_broadcasts m t⟩⟩
  · -- Clients have come and gone before the loop looks whether a frame is due.
    rcases publish_reads hpublish with
      ⟨hsends, rfl⟩ | ⟨hsends, snapshot, clients', hread, hclients, hlast, hcount⟩
    · have hsends' : (m.seen t).sends t.nowMs = false := hsends
      have hnone : snapshotOf m (.turn t) = none := by simp [snapshotOf, hselect, hsends']
      rw [hnone, lose_clients]
      refine ⟨.nothing _ (sending_readyOps listen recv) hready, .inl ⟨rfl, ?_, ?_⟩⟩
      · exact (lose_kept _ _).2.1.trans (seen_kept m t).2.1
      · exact (lose_broadcasts _ _).trans (seen_broadcasts m t)
    · have hsends' : (m.seen t).sends t.nowMs = true := hsends
      have hsome : snapshotOf m (.turn t) = some snapshot := by
        simp only [snapshotOf, hselect, hsends', if_true]
        exact hread
      have hseq : snapshot.seq = m.seqCounter + 1 := by
        rw [← (seen_kept m t).2.1]
        exact readSensors_seq hread
      rw [hsome, hlast]
      exact ⟨.snapshot _ _ _ t.sent (sending_readyOps listen recv) hready hclients,
        .inr ⟨snapshot, rfl, hseq, hcount.trans hseq⟩⟩
  · -- A signal ends the loop.
    obtain ⟨clients, hclients, rfl⟩ := shutdown_some hend
    exact ⟨.nothing _ hshutdown (run_singleton hclients), .inl ⟨rfl, rfl, rfl⟩⟩

/-- The snapshots that a run sends from the event on in which it accepts the connection. -/
def sentSince (k : Nat) (m : Main) (es : List Event) : List SensorSnapshot :=
  outputsSince step snapshotOf (fun m => k < m.clients.net.accepted) m es

/-- The operations of a run on the table of clients send the same snapshots since then. -/
theorem ops_of_run {es : List Event} (h : run step init es = some m) (k : Nat) :
    ∃ ops, run Clients.step Clients.init ops = some m.clients ∧
      Clients.sentSince k Clients.init ops = sentSince k init es := by
  refine run_induction (C := fun es m => ∃ ops,
    run Clients.step Clients.init ops = some m.clients ∧
      Clients.sentSince k Clients.init ops = sentSince k init es) ⟨[], rfl, rfl⟩ ?_ h
  rintro es m e m' hrun ⟨ops, hops, hsame⟩ hs
  -- The operations of the last event are added to those of the others.
  have hsends := (snapshot_step hs).1
  rw [sentSince, outputsSince_concat (I := fun _ => True) (fun _ _ _ _ _ => trivial)
    (fun _ _ _ _ hk hs => (snapshot_step hs).1.came hk) trivial hrun hs]
  cases hsnapshot : snapshotOf m e with
  | none =>
      rw [hsnapshot] at hsends
      obtain ⟨quiet, hquiet, hlast⟩ := hsends
      refine ⟨ops ++ quiet, ?_, ?_⟩
      · rw [run_append, hops, Option.bind_some, hlast]
      · rw [Clients.sentSince_append hquiet hops hlast, hsame, Option.toList_none, ite_self,
          List.append_nil]
        rfl
  | some snapshot =>
      rw [hsnapshot] at hsends
      obtain _ | ⟨quiet, last, _, sent, hquiet, hlast, hend⟩ := hsends
      have hbefore : run Clients.step Clients.init (ops ++ quiet) = some last := by
        rw [run_append, hops, Option.bind_some, hlast]
      refine ⟨ops ++ quiet ++ [.broadcast snapshot sent], ?_, ?_⟩
      · rw [run_append, hbefore]
        exact run_singleton hend
      · rw [Clients.sentSince_concat hbefore hend, Clients.sentSince_append hquiet hops hlast,
          hsame]
        rfl

/-- The snapshots are numbered from 1 on. -/
theorem seq_of_run {es : List Event} (h : run step init es = some m) :
    (outputs step snapshotOf init es).map SensorSnapshot.seq =
      (List.range (outputs step snapshotOf init es).length).map fun i => UInt64.ofNat (i + 1) := by
  refine Subscription.numbered_of_run (I := fun _ => True) Main.seqCounter
    (fun _ _ _ _ _ => trivial) (fun m e m' _ hs => ?_) trivial rfl h
  rcases (snapshot_step hs).2 with ⟨hnone, hsame, -⟩ | hsome
  · exact .inl ⟨hnone, hsame⟩
  · exact .inr hsome

/-- **What a client gets.** The snapshots of a run are numbered 1, 2, 3 and so on, and those that
are sent from the event on in which the client is accepted are the last ones of them. What the
client receives is the frames of the first ones of these, and at most a part of another one that
comes next. As long as it is connected, it has received all of them in full. -/
theorem contiguous_of_run {es : List Event} (h : run step init es = some m) (k : Nat) :
    let sent := outputs step snapshotOf init es
    sent.map SensorSnapshot.seq = (List.range sent.length).map (fun i => UInt64.ofNat (i + 1)) ∧
    sentSince k init es <:+ sent ∧
    ∃ whole part, m.clients.Received k whole part ∧
      whole ++ part.toList.map Prod.fst <+: sentSince k init es ∧
      (k < m.clients.net.accepted → m.clients.net.closes k = 0 →
        part = none ∧ whole = sentSince k init es) := by
  intro sent
  refine ⟨seq_of_run h, outputsSince_suffix init es, ?_⟩
  obtain ⟨ops, hops, hsent⟩ := ops_of_run h k
  obtain ⟨-, -, whole, part, hgot, hreceived⟩ := Clients.received_of_run ops m.clients hops k
  have hblock := Clients.block_of_run hops k
  have hfst : (Clients.snapshotsTo k Clients.init ops).map Prod.fst =
      whole ++ part.toList.map Prod.fst := by
    rw [hgot, List.map_append, List.map_map]
    exact congrArg (· ++ _) (List.map_id' whole)
  rw [hfst, hsent] at hblock
  refine ⟨whole, part, hreceived, hblock.inner, fun hk hopen => ?_⟩
  cases part with
  | none =>
      refine ⟨rfl, ?_⟩
      simpa using hblock.whole ⟨hk, hopen⟩
  | some x =>
      -- A client that has got a part of a frame has been removed.
      have hclosed := (hreceived.removed x rfl).2.1
      omega

/-- The loop sends its first frame. -/
theorem contiguous_of_run_started :
    let es : List Event := [.turn (connecting 1000 false true)]
    (outputs step snapshotOf init es).map SensorSnapshot.seq =
      (List.range (outputs step snapshotOf init es).length).map fun i => UInt64.ofNat (i + 1) := by
  intro es
  obtain ⟨clients, hstep⟩ := step_started
  have hrun : run step init es = some (started clients) := by
    rw [run, hstep, Option.bind_some, run]
  exact (contiguous_of_run hrun 0).1

end Main

end SmartFactory.TcpBridge
