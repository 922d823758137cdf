import SmartFactory.TcpBridge.Main
import SmartFactory.Proofs.TcpBridge.Clients

/-!
# `SmartFactory.Proofs.TcpBridge.Readiness`: whether the nodes read are those of the session

A frame is `Fresh` when the last attempt to connect has made the session that is active and has
found the nodes that were read. The loop does not ask for that. It sends frames as long as it has
a session and `sensorNodeIdsResolved` is set, and only the lookup of the sensors resets this
variable. An attempt that fails before that, but after it has got a session, leaves the node ids of
an earlier session in use: it `Relapses`.

`fresh_of_noRelapse` is that nothing else goes wrong. The invariant is `Ready`.
-/

set_option autoImplicit false

namespace SmartFactory.TcpBridge

open Bridge (NodeID statusCodeGood utf8)
open Run (Always Each always_of_each run)

/-- The attempt has connected and found the namespace, the folder and these nodes. -/
structure Replies.Resolve (r : Replies) (nsIdx : UInt16) (nodes : Fin sensorCount → NodeID) :
    Prop where
  connected : r.connect = statusCodeGood
  index : r.namespaceGetIndex = (statusCodeGood, nsIdx)
  sensors : ∃ sensorsFolderId, findSensorsFolder r nsIdx = some sensorsFolderId ∧
    ∀ i, findSensor r nsIdx sensorsFolderId i = some (nodes i)

/-- The last attempt has made the session that is active, and has found the nodes that were read
in it. -/
def Broadcast.Fresh (b : Broadcast) : Prop :=
  ∃ session r nsIdx, b.session = some session ∧ b.attempt = some (session, r) ∧
    r.Resolve nsIdx b.nodes

/-! ### The lookup of the sensors -/

section
variable {r : Replies} {nsIdx : UInt16} {sensorsFolderId : NodeID}

/-- A sensor that is found is entered, and the loop goes on. -/
theorem resolveSensors_cons {i : Fin sensorCount} {nodeId : NodeID}
    (h : findSensor r nsIdx sensorsFolderId i = some nodeId) (is : List (Fin sensorCount))
    (ids : Fin sensorCount → NodeID) : resolveSensors r nsIdx sensorsFolderId (i :: is) ids =
      resolveSensors r nsIdx sensorsFolderId is (Function.update ids i nodeId) := by
  rw [resolveSensors, h]

/-- What is found is written, and the others are left as they are. -/
theorem resolveSensors_spec {is : List (Fin sensorCount)} (hnodup : is.Nodup)
    {ids : Fin sensorCount → NodeID}
    (h : (resolveSensors r nsIdx sensorsFolderId is ids).2 = true) :
    (∀ i ∈ is, findSensor r nsIdx sensorsFolderId i =
      some ((resolveSensors r nsIdx sensorsFolderId is ids).1 i)) ∧
    ∀ i ∉ is, (resolveSensors r nsIdx sensorsFolderId is ids).1 i = ids i := by
  induction is generalizing ids with
  | nil => exact ⟨fun i hi => absurd hi List.not_mem_nil, fun _ _ => rfl⟩
  | cons i is ih =>
      obtain ⟨hi, his⟩ := List.nodup_cons.mp hnodup
      cases hnode : findSensor r nsIdx sensorsFolderId i with
      | none =>
          rw [resolveSensors, hnode] at h
          cases h
      | some nodeId =>
          rw [resolveSensors_cons hnode] at h ⊢
          obtain ⟨hfound, hothers⟩ := ih his h
          refine ⟨fun j hj => ?_, fun j hj => ?_⟩
          · rcases List.mem_cons.mp hj with rfl | hj
            · -- The rest of the loop does not meet `i` again and leaves its id alone.
              rw [hnode, hothers j hi, Function.update_self]
            · exact hfound j hj
          · rw [List.mem_cons, not_or] at hj
            rw [hothers j hj.2, Function.update_of_ne hj.1]

end

/-- The attempt gets a session, but it does not get to the sensors. -/
def Replies.StopsShort (r : Replies) : Prop :=
  r.connect = statusCodeGood ∧ (r.namespaceGetIndex.1 ≠ statusCodeGood ∨
    findSensorsFolder r r.namespaceGetIndex.2 = none)

namespace Main

variable {m m' : Main} {t : Turn}

/-! ### The invariant -/

/-- The node ids that are marked as resolved are those of the session. -/
def Ready (m : Main) : Prop :=
  ∀ session, m.session = some session → m.sensorNodeIdsResolved = true →
    ∃ r, m.lastAttempt = some (session, r) ∧ r.Resolve m.nsIdx m.sensorNodeIds

/-- All frames were fresh. -/
def AllFresh (m : Main) : Prop := ∀ b ∈ m.broadcasts, b.Fresh

/-- A lost session leaves the sensors as they are. -/
theorem Ready.lose (h : m.Ready) (lost : Bool) : (m.lose lost).Ready := by
  rw [Main.lose]
  split
  · intro session hsession
    cases hsession
  · exact h

/-- Without a session there is nothing to show. -/
theorem ready_of_session_none (h : m.session = none) : m.Ready := by
  intro session hsession
  cases h.symm.trans hsession

/-- An attempt keeps the invariant, unless it stops short with node ids that are still marked as
resolved. -/
theorem ready_attempt {r : Replies} (h : r.StopsShort → m.sensorNodeIdsResolved = false) :
    (m.attempt r).Ready := by
  simp only [attempt]
  split
  · rename_i hconnect
    split
    · rename_i hindex
      split
      · rename_i folder hfolder
        intro session hsession hresolved
        have hsession' : m.sessions = session := Option.some.inj hsession
        have hspec := resolveSensors_spec (List.nodup_finRange sensorCount) hresolved
        exact ⟨r, by rw [← hsession']; rfl, hconnect, Prod.ext hindex rfl, folder, hfolder,
          fun i => hspec.1 i (List.mem_finRange i)⟩
      · rename_i hfolder
        intro session _ hresolved
        -- The folder is missing. The old ids would be used in the new session if they were still
        -- marked as resolved.
        cases (h ⟨hconnect, .inr hfolder⟩).symm.trans hresolved
    · rename_i hindex
      intro session _ hresolved
      cases (h ⟨hconnect, .inl hindex⟩).symm.trans hresolved
  · exact ready_of_session_none rfl

/-- What an attempt leaves as it is, and that it is the last one then. -/
theorem attempt_frame (m : Main) (r : Replies) : (m.attempt r).broadcasts = m.broadcasts ∧
    (m.attempt r).clients = m.clients ∧ (m.attempt r).lastAttempt = some (m.sessions, r) := by
  simp only [attempt]
  split
  · split
    · split
      · exact ⟨rfl, rfl, rfl⟩
      · exact ⟨rfl, rfl, rfl⟩
    · exact ⟨rfl, rfl, rfl⟩
  · exact ⟨rfl, rfl, rfl⟩

/-- Only the session is lost. -/
theorem lose_eq (m : Main) (lost : Bool) :
    m.lose lost = { m with session := if lost then none else m.session } := by
  cases lost with
  | false => rfl
  | true => rfl

/-- A lost session has sent nothing. -/
@[simp] theorem lose_broadcasts (m : Main) (lost : Bool) :
    (m.lose lost).broadcasts = m.broadcasts := by
  rw [lose_eq]

/-- It leaves the clients. -/
@[simp] theorem lose_clients (m : Main) (lost : Bool) : (m.lose lost).clients = m.clients := by
  rw [lose_eq]

/-- It leaves the time of the last attempt. -/
@[simp] theorem lose_lastAttempt (m : Main) (lost : Bool) :
    (m.lose lost).lastAttempt = m.lastAttempt := by
  rw [lose_eq]

/-- And the flag of the sensors. -/
@[simp] theorem lose_sensorNodeIdsResolved (m : Main) (lost : Bool) :
    (m.lose lost).sensorNodeIdsResolved = m.sensorNodeIdsResolved := by
  rw [lose_eq]

/-! ### Turns -/

/-- The loop as it looks again, after the first part of a turn. -/
def seen (m : Main) (t : Turn) : Main := ((m.lose t.lostFirst).connect t).lose t.lostThen

/-- The first part of a turn does not send anything. -/
theorem seen_frame (m : Main) (t : Turn) :
    (m.seen t).broadcasts = m.broadcasts ∧ (m.seen t).clients = m.clients := by
  have hframe := attempt_frame (m.lose t.lostFirst) t.replies
  rw [seen, lose_broadcasts, lose_clients, connect]
  split
  · exact ⟨by simpa using hframe.1, by simpa using hframe.2.1⟩
  · simp

/-- Until it sends a turn has sent nothing. -/
@[simp] theorem seen_broadcasts (m : Main) (t : Turn) : (m.seen t).broadcasts = m.broadcasts :=
  (seen_frame m t).1

/-- And has left the clients. -/
@[simp] theorem seen_clients (m : Main) (t : Turn) : (m.seen t).clients = m.clients :=
  (seen_frame m t).2

/-- The attempt of a turn gets a session, but does not get to the sensors while the node ids of an
earlier attempt are marked as resolved. -/
def Relapses (m : Main) : Event → Prop
  | .turn t => (m.lose t.lostFirst).attempts t.nowMs = true ∧ m.sensorNodeIdsResolved = true ∧
      t.replies.StopsShort
  | .signal => False

/-- A turn that does not relapse keeps the sensors ready. -/
theorem ready_seen (h : m.Ready) (hno : ¬ m.Relapses (.turn t)) : (m.seen t).Ready := by
  refine Ready.lose ?_ t.lostThen
  rw [connect]
  split
  · rename_i hattempts
    refine ready_attempt fun hstops => ?_
    rw [lose_sensorNodeIdsResolved, ← Bool.not_eq_true]
    exact fun hresolved => hno ⟨hattempts, hresolved, hstops⟩
  · exact h.lose t.lostFirst

/-- What is sent is sent in a session with node ids that are marked as resolved. -/
theorem sends_iff {nowMs : UInt64} : m.sends nowMs = true ↔
    m.nsIdx ≠ uint16Max ∧ (∃ session, m.session = some session) ∧
      m.sensorNodeIdsResolved = true ∧ updateIntervalMs ≤ nowMs - m.lastUpdateMs := by
  simp [sends, Option.isSome_iff_exists, and_assoc]

/-- The last part of a turn sends a frame, or it does nothing but lose the session. -/
theorem publish_some (h : m.publish t = some m') :
    (m.sends t.nowMs = false ∧ m' = m.lose t.lostLast) ∨
    (m.sends t.nowMs = true ∧ ∃ snapshot clients,
      m.clients.step (.broadcast snapshot t.sent) = some clients ∧
      m' = { m.lose t.lostLast with
        clients
        seqCounter := snapshot.seq
        lastUpdateMs := t.nowMs
        broadcasts := m.broadcasts ++ [⟨m.session, m.lastAttempt, m.sensorNodeIds⟩] }) := by
  rw [publish] at h
  split at h
  · rename_i hsends
    simp only [Option.bind_eq_bind, Option.bind_eq_some_iff] at h
    obtain ⟨snapshot, -, clients, hclients, h⟩ := h
    exact .inr ⟨hsends, snapshot, clients, hclients, (Option.some.inj h).symm⟩
  · rename_i hsends
    exact .inl ⟨Bool.not_eq_true _ ▸ hsends, (Option.some.inj h).symm⟩

/-- What a turn leads to: the loop ends, it begins again, or it gets to its last part. -/
theorem turn_some (h : m.turn t = some m') :
    m' = m.seen t ∨ (∃ clients, (m.seen t).clients.step .shutdown = some clients ∧
      m' = { m.seen t with clients, running := false, session := none }) ∨
    ∃ listen recv clients,
      run Clients.step (m.seen t).clients (readyOps listen recv) = some clients ∧
      publish { m.seen t with clients } t = some m' := by
  simp only [turn] at h
  split at h
  · exact .inl (Option.some.inj h).symm
  · simp only [shutdown, Option.bind_eq_bind, Option.bind_eq_some_iff] at h
    obtain ⟨clients, hclients, h⟩ := h
    exact .inr (.inl ⟨clients, hclients, (Option.some.inj h).symm⟩)
  · rename_i listen recv _
    simp only [Option.bind_eq_bind, Option.bind_eq_some_iff] at h
    obtain ⟨clients, hclients, h⟩ := h
    exact .inr (.inr ⟨listen, recv, clients, hclients, h⟩)

/-- A frame that is sent is fresh. -/
theorem fresh_publish (h : m.Ready) (hfresh : m.AllFresh) (hs : m.publish t = some m') :
    m'.Ready ∧ m'.AllFresh := by
  rcases publish_some hs with ⟨-, rfl⟩ | ⟨hsends, snapshot, clients, -, rfl⟩
  · exact ⟨h.lose _, by rwa [AllFresh, lose_broadcasts]⟩
  · refine ⟨h.lose t.lostLast, fun b hb => ?_⟩
    rcases List.mem_append.mp hb with hb | hb
    · exact hfresh b hb
    · obtain ⟨-, ⟨session, hsession⟩, hresolved, -⟩ := sends_iff.mp hsends
      obtain ⟨r, hattempt, hr⟩ := h session hsession hresolved
      rw [List.mem_singleton.mp hb]
      exact ⟨session, r, m.nsIdx, hsession, hattempt, hr⟩

/-- **One event.** -/
theorem fresh_step {e : Event} (h : m.Ready ∧ m.AllFresh) (hno : ¬ m.Relapses e)
    (hs : m.step e = some m') : m'.Ready ∧ m'.AllFresh := by
  unfold step at hs
  split at hs
  · cases e with
    | turn t =>
        have hready := ready_seen h.1 hno
        -- The first part of a turn sends nothing.
        have hfresh : (m.seen t).AllFresh := by
          rw [AllFresh, seen_broadcasts]
          exact h.2
        rcases turn_some hs with rfl | ⟨clients, -, rfl⟩ | ⟨listen, recv, clients, -, hs⟩
        · exact ⟨hready, hfresh⟩
        · exact ⟨ready_of_session_none rfl, hfresh⟩
        · exact fresh_publish (m := { m.seen t with clients }) hready hfresh hs
    | signal =>
        simp only [shutdown, Option.bind_eq_bind, Option.bind_eq_some_iff] at hs
        obtain ⟨clients, -, hs⟩ := hs
        obtain rfl := Option.some.inj hs
        exact ⟨ready_of_session_none rfl, h.2⟩
  · cases hs

/-- At the start there is no session. -/
theorem ready_init : init.Ready := ready_of_session_none rfl

/-- Replies that stop short resolve nothing. -/
theorem not_resolve_of_stopsShort {r : Replies} (h : r.StopsShort) (nsIdx : UInt16)
    (nodes : Fin sensorCount → NodeID) : ¬ r.Resolve nsIdx nodes := by
  rintro ⟨-, hindex, folder, hfolder, -⟩
  rcases h.2 with hne | hnone
  · exact hne (congrArg Prod.fst hindex)
  · rw [hindex, hfolder] at hnone
    cases hnone

/-- The last attempt has got a session, but it has not got to the sensors. -/
def StoppedShort (m : Main) : Prop := ∃ k r, m.lastAttempt = some (k, r) ∧ r.StopsShort

/-- What is sent after such an attempt is not fresh. -/
theorem not_fresh_publish (h : m.StoppedShort) (hs : m.publish t = some m')
    (hsent : m'.broadcasts ≠ m.broadcasts) : ¬ m'.AllFresh := by
  rcases publish_some hs with ⟨-, rfl⟩ | ⟨-, snapshot, clients, -, rfl⟩
  · exact absurd (lose_broadcasts m t.lostLast) hsent
  · intro hfresh
    obtain ⟨k, r, hattempt, hstops⟩ := h
    obtain ⟨session, r', nsIdx, -, hlast, hresolve⟩ := hfresh _ (List.mem_concat_self ..)
    obtain ⟨-, rfl⟩ := Prod.mk.inj (Option.some.inj (hattempt.symm.trans hlast))
    exact not_resolve_of_stopsShort hstops nsIdx _ hresolve

/-- A turn that relapses keeps a flag for sensors that it has not found. -/
theorem stoppedShort_seen (h : m.Relapses (.turn t)) : (m.seen t).StoppedShort := by
  obtain ⟨hattempts, -, hstops⟩ := h
  refine ⟨(m.lose t.lostFirst).sessions, t.replies, ?_, hstops⟩
  rw [seen, lose_lastAttempt, connect, if_pos hattempts]
  exact (attempt_frame ..).2.2

/-- Whatever is sent in the turn of a relapse is not fresh. -/
theorem not_fresh_of_relapses (h : m.Relapses (.turn t)) (hs : m.turn t = some m')
    (hsent : m'.broadcasts ≠ m.broadcasts) : ¬ m'.AllFresh := by
  rcases turn_some hs with rfl | ⟨clients, -, rfl⟩ | ⟨listen, recv, clients, -, hs⟩
  · exact absurd (seen_broadcasts m t) hsent
  · exact absurd (seen_broadcasts m t) hsent
  · refine not_fresh_publish (m := { m.seen t with clients }) (stoppedShort_seen h) hs ?_
    rwa [show ({ m.seen t with clients } : Main).broadcasts = m.broadcasts from
      seen_broadcasts m t]

/-! ### The clients of the loop -/

/-- A run of one operation is the operation. -/
theorem run_singleton {c c' : Clients} {op : Clients.Op} (h : c.step op = some c') :
    run Clients.step c [op] = some c' := by
  rw [run, h, Option.bind_some, run]

/-- What a turn does to the clients is a run of their operations. -/
theorem exists_ops_of_turn (h : m.turn t = some m') :
    ∃ ops, run Clients.step m.clients ops = some m'.clients := by
  rw [← seen_clients m t]
  rcases turn_some h with rfl | ⟨clients, hclients, rfl⟩ | ⟨listen, recv, clients, hready, h⟩
  · exact ⟨[], rfl⟩
  · exact ⟨[.shutdown], run_singleton hclients⟩
  · rcases publish_some h with ⟨-, rfl⟩ | ⟨-, snapshot, clients', hclients, rfl⟩
    · exact ⟨readyOps listen recv, by rw [hready, lose_clients]⟩
    · refine ⟨readyOps listen recv ++ [.broadcast snapshot t.sent], ?_⟩
      rw [Run.run_append, hready, Option.bind_some, run_singleton hclients]

/-- What the loop does with the table of clients is a run of operations. -/
theorem exists_ops_of_run {es : List Event} (h : run step m es = some m') :
    ∃ ops, run Clients.step m.clients ops = some m'.clients := by
  induction es generalizing m with
  | nil =>
      rw [run, Option.some.injEq] at h
      exact ⟨[], by rw [run, h]⟩
  | cons e es ih =>
      rw [run, Option.bind_eq_some_iff] at h
      obtain ⟨m₁, hstep, h⟩ := h
      obtain ⟨ops, hops⟩ := ih h
      have hfirst : ∃ ops₁, run Clients.step m.clients ops₁ = some m₁.clients := by
        unfold step at hstep
        split at hstep
        · cases e with
          | turn t => exact exists_ops_of_turn hstep
          | signal =>
              simp only [shutdown, Option.bind_eq_bind, Option.bind_eq_some_iff] at hstep
              obtain ⟨clients, hclients, hstep⟩ := hstep
              obtain rfl := Option.some.inj hstep
              -- The signal handler ends the loop, and `main` closes all clients.
              exact ⟨[.shutdown], run_singleton hclients⟩
        · cases hstep
      obtain ⟨ops₁, hops₁⟩ := hfirst
      exact ⟨ops₁ ++ ops, by rw [Run.run_append, hops₁, Option.bind_some, hops]⟩

/-- So the table of clients is in order as long as the loop runs. -/
theorem orderly_of_run {es : List Event} (h : run step init es = some m) :
    m.clients.Orderly := by
  obtain ⟨ops, hops⟩ := exists_ops_of_run h
  exact (Clients.sound_of_run hops).orderly

/-! ### Runs of the loop as they are -/

/-- The checks of the clients are always possible. -/
theorem exists_run_checks (c : Clients) (recv : Fin maxClients → Option Int)
    (is : List (Fin maxClients)) :
    ∃ c', run Clients.step c (is.map fun i => .check i (recv i)) = some c' := by
  induction is generalizing c with
  | nil => exact ⟨c, rfl⟩
  | cons i is ih =>
      have hallowed : Clients.Op.Allowed c (.check i (recv i)) := trivial
      obtain ⟨c', hc'⟩ := ih (c.apply (.check i (recv i)))
      refine ⟨c', ?_⟩
      rw [List.map_cons, run, Clients.step_of_allowed hallowed, Option.bind_some, hc']

/-- When every read fails every value is false. -/
theorem readSensors_of_failed {read : Fin sensorCount → NodeID → Bridge.ReadValue}
    (h : ∀ i nodeId, (read i nodeId).ret ≠ statusCodeGood) (seqCounter timestampMs : UInt64)
    (nodes : Fin sensorCount → NodeID) :
    readSensors seqCounter timestampMs read nodes =
      some ⟨fun _ => false, seqCounter + 1, timestampMs⟩ := by
  have hfalse : ∀ i, readSensor (read i (nodes i)) = some false := fun i => if_pos (h i _)
  simp [readSensors, hfalse]

/-- A frame of failed reads, of which no client takes anything. -/
theorem publish_of_sends (hread : ∀ i nodeId, (t.read i nodeId).ret ≠ statusCodeGood)
    (hsent : ∀ i, t.sent i ≤ 0) (hsends : m.sends t.nowMs = true) : ∃ clients, m.publish t =
      some { m.lose t.lostLast with
        clients
        seqCounter := m.seqCounter + 1
        lastUpdateMs := t.nowMs
        broadcasts := m.broadcasts ++ [⟨m.session, m.lastAttempt, m.sensorNodeIds⟩] } := by
  have hsnapshot := readSensors_of_failed hread m.seqCounter t.timestampMs m.sensorNodeIds
  have hallowed : ∀ snapshot, Clients.Op.Allowed m.clients (.broadcast snapshot t.sent) :=
    fun snapshot i => (hsent i).trans (Int.natCast_nonneg _)
  rw [publish, if_pos hsends, hsnapshot, Option.bind_eq_bind, Option.bind_some,
    Clients.step_of_allowed (hallowed _)]
  exact ⟨_, rfl⟩

/-- A turn without new clients. -/
theorem turn_of_sends (hselect : t.select = .ready none fun _ => none)
    (hread : ∀ i nodeId, (t.read i nodeId).ret ≠ statusCodeGood) (hsent : ∀ i, t.sent i ≤ 0)
    (hsends : (m.seen t).sends t.nowMs = true) : ∃ clients, m.turn t =
      some { (m.seen t).lose t.lostLast with
        clients
        seqCounter := (m.seen t).seqCounter + 1
        lastUpdateMs := t.nowMs
        broadcasts := (m.seen t).broadcasts ++
          [⟨(m.seen t).session, (m.seen t).lastAttempt, (m.seen t).sensorNodeIds⟩] } := by
  obtain ⟨checked, hchecked⟩ := exists_run_checks (m.seen t).clients (fun _ => none)
    (List.finRange maxClients)
  have hclients : run Clients.step (m.seen t).clients (readyOps none fun _ => none) =
      some checked := hchecked
  obtain ⟨clients, hpublish⟩ := publish_of_sends (m := { m.seen t with clients := checked })
    hread hsent hsends
  refine ⟨clients, ?_⟩
  simp only [turn, hselect]
  rw [← seen, hclients]
  show publish { m.seen t with clients := checked } t = _
  rw [hpublish, lose, lose]
  split <;> rfl

/-- Answers of a server that has the sensors, and has the folder or has none. -/
def replies (folder : Bool) : Replies where
  connect := statusCodeGood
  namespaceGetIndex := (statusCodeGood, 2)
  browse
    | 0, _, _ => ⟨statusCodeGood, [⟨statusCodeGood,
        if folder then [⟨2, utf8 "Sensors", ⟨2, .numeric 100⟩⟩] else []⟩]⟩
    | _, _, _ => ⟨statusCodeGood, [⟨statusCodeGood, (List.finRange sensorCount).map fun i =>
        ⟨2, utf8 (sensorBrowseNames i), ⟨2, .numeric (UInt32.ofNat (101 + i))⟩⟩⟩]⟩

/-- A turn in which the loop connects. -/
def connecting (nowMs : UInt64) (lost folder : Bool) : Turn where
  nowMs
  lostFirst := lost
  replies := replies folder
  lostThen := false
  select := .ready none fun _ => none
  lostLast := false
  timestampMs := nowMs
  read _ _ := ⟨0x80000000, none⟩
  sent _ := 0

/-- Such a turn sends a frame when the loop has the session and the node ids. -/
theorem turn_connecting {nowMs : UInt64} {lost folder : Bool}
    (hsends : (m.seen (connecting nowMs lost folder)).sends nowMs = true) :
    ∃ m', m.turn (connecting nowMs lost folder) = some m' ∧
      ∃ b, m'.broadcasts = m.broadcasts ++ [b] := by
  have hfailed : (0x80000000 : UInt32) ≠ statusCodeGood := by decide
  obtain ⟨clients, hturn⟩ := turn_of_sends (t := connecting nowMs lost folder) rfl
    (fun _ _ => hfailed) (fun _ => Int.le_refl 0) hsends
  exact ⟨_, hturn, _, by rw [seen_broadcasts]⟩

/-- The nodes that these answers give. -/
def foundNodes : Fin sensorCount → NodeID :=
  (resolveSensors (replies true) 2 ⟨2, .numeric 100⟩ (List.finRange sensorCount)
    fun _ => nullNodeId).1

/-- The loop after its first frame. -/
def started (clients : Clients) : Main where
  running := true
  nsIdx := 2
  sensorNodeIds := foundNodes
  sensorNodeIdsResolved := true
  lastUpdateMs := 1000
  reconnectBackoffMs := 1000
  lastReconnectAttemptMs := 1000
  seqCounter := 1
  clients := clients
  session := some 0
  sessions := 1
  lastAttempt := some (0, replies true)
  broadcasts := [⟨some 0, some (0, replies true), foundNodes⟩]

/-- The first turn of the example connects. -/
theorem step_started : ∃ clients,
    init.step (.turn (connecting 1000 false true)) = some (started clients) := by
  have hfailed : (0x80000000 : UInt32) ≠ statusCodeGood := by decide
  obtain ⟨clients, hturn⟩ := turn_of_sends (m := init) (t := connecting 1000 false true) rfl
    (fun _ _ => hfailed) (fun _ => Int.le_refl 0) rfl
  exact ⟨clients, hturn⟩

/-- After a lost session it tries again a second later. -/
theorem started_attempts (clients : Clients) :
    ((started clients).lose true).attempts 2000 = true := by
  simp [attempts, lose, started]

/-- What this attempt finds. -/
theorem started_seen (clients : Clients) (folder : Bool) :
    (started clients).seen (connecting 2000 true folder) =
      { ((started clients).lose true).attempt (replies folder) with
        lastReconnectAttemptMs := 2000 } := by
  have hattempts := started_attempts clients
  simp only [seen, connect, connecting, hattempts, if_true]
  rfl

/-- It goes on to send when it has to connect again, whether the folder is there or not. -/
theorem started_sends (clients : Clients) (folder : Bool) :
    ((started clients).seen (connecting 2000 true folder)).sends 2000 = true := by
  have hindex : (2 : UInt16) ≠ uint16Max := by decide
  have hclock : updateIntervalMs ≤ 2000 - 1000 := by decide
  rw [started_seen, sends_iff]
  cases folder
  · exact ⟨hindex, ⟨1, rfl⟩, rfl, hclock⟩
  · exact ⟨hindex, ⟨1, rfl⟩, rfl, hclock⟩

end Main

end SmartFactory.TcpBridge
