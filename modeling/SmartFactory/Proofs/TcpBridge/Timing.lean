import SmartFactory.Lib.Pacing
import SmartFactory.Proofs.TcpBridge.Readiness

/-!
# `SmartFactory.Proofs.TcpBridge.Timing`: when the C bridge connects and when it sends

The loop compares the clock with two of its variables: a frame waits for `UPDATE_INTERVAL_MS` after
the last one, and an attempt to connect waits for `reconnectBackoffMs` after the last one.
`paced_of_run` is what this gives for whole runs, as long as the clock does not go back. It is about
the readings of the clock and not about the times of sending. The loop reads its clock once, at the
start of a turn, and a frame goes out in the same turn after `select` has waited for up to 100
milliseconds. So two frames may be closer to each other on the wire than the readings of their
turns.

The other direction is that the loop does not wait for ever. `reconnectBackoffMs` takes six values
only (`Backoff`). The largest one is 16000 and not the 10000 at which the doubling stops. So
`sends_of_healthy`: when the server is there again, the loop sends at the first turn that is 16
seconds after the last attempt and 300 milliseconds after the last frame.
-/

set_option autoImplicit false

namespace SmartFactory.TcpBridge

open Bridge (NodeID statusCodeGood)
open Run (run outputs)
open Pacing (Forward isChain_firings gap_le)

/-- In this turn the server is there: the session is not lost, an attempt to connect would find all
sensors, and `select` does not fail. -/
structure Turn.Healthy (t : Turn) : Prop where
  kept : t.lostFirst = false ∧ t.lostThen = false ∧ t.lostLast = false
  ready : ∃ listen recv, t.select = .ready listen recv
  resolves : ∃ nsIdx nodes, nsIdx ≠ uint16Max ∧ t.replies.Resolve nsIdx nodes

/-- All sensors are resolved when each one is found. -/
theorem resolveSensors_of_found {r : Replies} {nsIdx : UInt16} {folder : NodeID}
    {is : List (Fin sensorCount)} (ids : Fin sensorCount → NodeID)
    (h : ∀ i ∈ is, ∃ nodeId, findSensor r nsIdx folder i = some nodeId) :
    (resolveSensors r nsIdx folder is ids).2 = true := by
  induction is generalizing ids with
  | nil => rfl
  | cons i is ih =>
      obtain ⟨nodeId, hi⟩ := h i (List.mem_cons_self ..)
      rw [resolveSensors_cons hi]
      exact ih _ fun j hj => h j (List.mem_cons_of_mem i hj)

namespace Main

variable {m m' : Main} {t : Turn} {e : Event}

/-- The clock reading of an event. -/
def Event.reading : Event → Option Nat
  | .turn t => some t.nowMs.toNat
  | .signal => none

/-- The clock reading of a turn in which the loop tries to connect. -/
def attemptAt (m : Main) : Event → Option Nat
  | .turn t => if (m.lose t.lostFirst).attempts t.nowMs then some t.nowMs.toNat else none
  | .signal => none

/-- The clock reading of a turn in which the loop sends a frame. It is taken at the start of the
turn and not when the frame is sent. -/
def frameAt (m : Main) : Event → Option Nat
  | .turn t =>
      match t.select with
      | .ready _ _ => if (m.seen t).sends t.nowMs then some t.nowMs.toNat else none
      | .interrupted | .failed => none
  | .signal => none

/-! ### What an event does to the clocks -/

/-- An attempt does not touch the variables of the sending. -/
theorem attempt_kept (m : Main) (r : Replies) :
    (m.attempt r).lastUpdateMs = m.lastUpdateMs ∧ (m.attempt r).seqCounter = m.seqCounter ∧
      (m.attempt r).running = m.running := by
  simp only [attempt]
  split
  · split
    · split
      · exact ⟨rfl, rfl, rfl⟩
      · exact ⟨rfl, rfl, rfl⟩
    · exact ⟨rfl, rfl, rfl⟩
  · exact ⟨rfl, rfl, rfl⟩

/-- A lost session leaves the counters. -/
theorem lose_kept (m : Main) (lost : Bool) :
    (m.lose lost).lastUpdateMs = m.lastUpdateMs ∧ (m.lose lost).seqCounter = m.seqCounter ∧
      (m.lose lost).running = m.running := by
  rw [lose_eq]
  exact ⟨rfl, rfl, rfl⟩

/-- The first part of a turn does not touch them either. -/
theorem seen_kept (m : Main) (t : Turn) :
    (m.seen t).lastUpdateMs = m.lastUpdateMs ∧ (m.seen t).seqCounter = m.seqCounter ∧
      (m.seen t).running = m.running := by
  have hfirst := lose_kept m t.lostFirst
  have hattempt := attempt_kept (m.lose t.lostFirst) t.replies
  have hthen := lose_kept ((m.lose t.lostFirst).connect t) t.lostThen
  have hconnect : ((m.lose t.lostFirst).connect t).lastUpdateMs = m.lastUpdateMs ∧
      ((m.lose t.lostFirst).connect t).seqCounter = m.seqCounter ∧
      ((m.lose t.lostFirst).connect t).running = m.running := by
    rw [connect]
    split
    · exact ⟨hattempt.1.trans hfirst.1, hattempt.2.1.trans hfirst.2.1,
        hattempt.2.2.trans hfirst.2.2⟩
    · exact hfirst
  exact ⟨hthen.1.trans hconnect.1, hthen.2.1.trans hconnect.2.1, hthen.2.2.trans hconnect.2.2⟩

/-- The first part of a turn notes the time of its attempt. -/
theorem seen_lastReconnectAttemptMs (m : Main) (t : Turn) :
    (m.seen t).lastReconnectAttemptMs =
      if (m.lose t.lostFirst).attempts t.nowMs then t.nowMs else m.lastReconnectAttemptMs := by
  rw [seen, lose_eq, connect]
  split
  · rfl
  · rw [lose_eq]

/-- An event that is possible, with the part of the loop that it gets to. -/
theorem step_cases (h : m.step e = some m') : m.running = true ∧
    ((∃ t, e = .turn t ∧ t.select = .interrupted ∧ m' = m.seen t) ∨
    (∃ t, e = .turn t ∧ t.select = .failed ∧ (m.seen t).shutdown = some m') ∨
    (∃ t listen recv clients, e = .turn t ∧ t.select = .ready listen recv ∧
      run Clients.step m.clients (readyOps listen recv) = some clients ∧
      publish { m.seen t with clients } t = some m') ∨
    (e = .signal ∧ m.shutdown = some m')) := by
  unfold step at h
  split at h
  · rename_i hrunning
    refine ⟨hrunning, ?_⟩
    cases e with
    | signal => exact .inr (.inr (.inr ⟨rfl, h⟩))
    | turn t =>
        simp only [turn] at h
        split at h
        · rename_i hselect
          exact .inl ⟨t, rfl, hselect, (Option.some.inj h).symm⟩
        · rename_i hselect
          exact .inr (.inl ⟨t, rfl, hselect, h⟩)
        · -- `select` has returned: the checks of the sockets, and then the frame, if one is due.
          rename_i listen recv hselect
          obtain ⟨clients, hclients, h⟩ := Option.bind_eq_some_iff.mp h
          rw [← seen_clients m t]
          exact .inr (.inr (.inl ⟨t, listen, recv, clients, rfl, hselect, hclients, h⟩))
  · cases h

/-- What the shutdown does. -/
theorem shutdown_some (h : m.shutdown = some m') : ∃ clients,
    m.clients.step .shutdown = some clients ∧
      m' = { m with clients, running := false, session := none } := by
  simp only [shutdown, Option.bind_eq_bind, Option.bind_eq_some_iff] at h
  obtain ⟨clients, hclients, h⟩ := h
  exact ⟨clients, hclients, (Option.some.inj h).symm⟩

/-- A frame that is sent is noted with the time of the turn. -/
theorem frame_step (h : m.step e = some m') :
    (frameAt m e = none ∧ m'.lastUpdateMs = m.lastUpdateMs ∧ m'.broadcasts = m.broadcasts) ∨
    ∃ t b, e = .turn t ∧ frameAt m e = some t.nowMs.toNat ∧ (m.seen t).sends t.nowMs = true ∧
      m'.lastUpdateMs = t.nowMs ∧ m'.broadcasts = m.broadcasts ++ [b] := by
  obtain ⟨-, ⟨t, rfl, hselect, rfl⟩ | ⟨t, rfl, hselect, hend⟩ |
    ⟨t, listen, recv, clients, rfl, hselect, -, hpublish⟩ | ⟨rfl, hend⟩⟩ := step_cases h
  · exact .inl ⟨by simp only [frameAt, hselect], (seen_kept m t).1, seen_broadcasts m t⟩
  · obtain ⟨clients, -, rfl⟩ := shutdown_some hend
    exact .inl ⟨by simp only [frameAt, hselect], (seen_kept m t).1, seen_broadcasts m t⟩
  · rcases publish_some hpublish with ⟨hsends, rfl⟩ | ⟨hsends, snapshot, clients', -, rfl⟩
    · have hno : (m.seen t).sends t.nowMs = false := hsends
      refine .inl ⟨by simp [frameAt, hselect, hno], ?_, ?_⟩
      · exact (lose_kept _ _).1.trans (seen_kept m t).1
      · exact (lose_broadcasts _ _).trans (seen_broadcasts m t)
    · have hyes : (m.seen t).sends t.nowMs = true := hsends
      refine .inr ⟨t, ⟨(m.seen t).session, (m.seen t).lastAttempt, (m.seen t).sensorNodeIds⟩, rfl,
        by simp [frameAt, hselect, hyes], hyes, rfl, ?_⟩
      rw [← seen_broadcasts m t]
  · obtain ⟨clients, -, rfl⟩ := shutdown_some hend
    exact .inl ⟨rfl, rfl, rfl⟩

/-- What the last parts of a turn leave as it is. -/
theorem publish_kept (h : m.publish t = some m') :
    m'.lastReconnectAttemptMs = m.lastReconnectAttemptMs ∧
      m'.reconnectBackoffMs = m.reconnectBackoffMs := by
  rcases publish_some h with ⟨-, rfl⟩ | ⟨-, snapshot, clients, -, rfl⟩
  · rw [lose_eq]
    exact ⟨rfl, rfl⟩
  · rw [lose_eq]
    exact ⟨rfl, rfl⟩

/-- After the first part of a turn nothing touches the variables of the attempts. -/
theorem attempt_step (h : m.step e = some m') :
    (∃ t, e = .turn t ∧ m'.lastReconnectAttemptMs = (m.seen t).lastReconnectAttemptMs ∧
      m'.reconnectBackoffMs = (m.seen t).reconnectBackoffMs) ∨
    (e = .signal ∧ m'.lastReconnectAttemptMs = m.lastReconnectAttemptMs ∧
      m'.reconnectBackoffMs = m.reconnectBackoffMs) := by
  obtain ⟨-, ⟨t, rfl, -, rfl⟩ | ⟨t, rfl, -, hend⟩ |
    ⟨t, listen, recv, clients, rfl, -, -, hpublish⟩ | ⟨rfl, hend⟩⟩ := step_cases h
  · exact .inl ⟨t, rfl, rfl, rfl⟩
  · obtain ⟨clients, -, rfl⟩ := shutdown_some hend
    exact .inl ⟨t, rfl, rfl, rfl⟩
  · exact .inl ⟨t, rfl, publish_kept (m := { m.seen t with clients }) hpublish⟩
  · obtain ⟨clients, -, rfl⟩ := shutdown_some hend
    exact .inr ⟨rfl, rfl, rfl⟩

/-! ### The backoff -/

/-- The values of `reconnectBackoffMs`. -/
def Backoff (b : UInt64) : Prop := b ∈ [1000, 2000, 4000, 8000, 16000, 10000]

instance : DecidablePred Backoff := fun b =>
  inferInstanceAs (Decidable (b ∈ [1000, 2000, 4000, 8000, 16000, 10000]))

/-- The next backoff is one of the six. -/
theorem Backoff.next {b : UInt64} (h : Backoff b) : Backoff (backoff b) := by
  simp only [Backoff, List.mem_cons, List.not_mem_nil, or_false] at h
  rcases h with rfl | rfl | rfl | rfl | rfl | rfl <;> decide

/-- A backoff is between one second and sixteen. -/
theorem Backoff.bounds {b : UInt64} (h : Backoff b) : 1000 ≤ b.toNat ∧ b.toNat ≤ 16000 := by
  simp only [Backoff, List.mem_cons, List.not_mem_nil, or_false] at h
  rcases h with rfl | rfl | rfl | rfl | rfl | rfl <;> decide

/-- An attempt keeps it so. -/
theorem backoff_attempt {r : Replies} (h : Backoff m.reconnectBackoffMs) :
    Backoff (m.attempt r).reconnectBackoffMs := by
  simp only [attempt]
  split
  · split
    · split
      · simp only [resolve]
        split
        · decide
        · exact h.next
      · exact h.next
    · exact h.next
  · exact h.next

/-- And a turn up to its sending. -/
theorem backoff_seen (h : Backoff m.reconnectBackoffMs) (t : Turn) :
    Backoff (m.seen t).reconnectBackoffMs := by
  have hfirst : Backoff (m.lose t.lostFirst).reconnectBackoffMs := by
    rw [lose_eq]
    exact h
  rw [seen, lose_eq, connect]
  split
  · exact backoff_attempt hfirst
  · exact hfirst

/-- **One event** keeps the backoff one of the six. -/
theorem backoff_step (h : Backoff m.reconnectBackoffMs) (hs : m.step e = some m') :
    Backoff m'.reconnectBackoffMs := by
  rcases attempt_step hs with ⟨t, -, -, hbackoff⟩ | ⟨-, -, hbackoff⟩
  · rw [hbackoff]
    exact backoff_seen h t
  · rw [hbackoff]
    exact h

/-- **A run** does. -/
theorem backoff_of_run {es : List Event} (h : Backoff m.reconnectBackoffMs)
    (hrun : run step m es = some m') : Backoff m'.reconnectBackoffMs :=
  Run.last_of_step (I := fun m => Backoff m.reconnectBackoffMs) (fun _ _ _ => backoff_step) h hrun

/-! ### The pace -/

/-- A difference of clock readings that does not wrap around. -/
theorem add_le_of_le_sub {last now wait : UInt64} (hle : last.toNat ≤ now.toNat)
    (h : wait ≤ now - last) : last.toNat + wait.toNat ≤ now.toNat := by
  have hsub : (now - last).toNat = now.toNat - last.toNat := UInt64.toNat_sub_of_le now last hle
  have hwait : wait.toNat ≤ (now - last).toNat := h
  omega

/-- A reading that is far enough ahead leaves a difference without a wrap. -/
theorem le_sub_of_add_le {last now wait : UInt64} (h : last.toNat + wait.toNat ≤ now.toNat) :
    wait ≤ now - last := by
  have hle : last ≤ now := UInt64.le_iff_toNat_le.mpr (by omega)
  have hsub : (now - last).toNat = now.toNat - last.toNat := UInt64.toNat_sub_of_le now last hle
  rw [UInt64.le_iff_toNat_le]
  omega

/-- When the loop tries to connect. -/
theorem attempts_iff {nowMs : UInt64} : m.attempts nowMs = true ↔
    (m.nsIdx = uint16Max ∨ m.session = none ∨ m.sensorNodeIdsResolved = false) ∧
      m.reconnectBackoffMs ≤ nowMs - m.lastReconnectAttemptMs := by
  simp [attempts, or_assoc]

/-- Frames are 300 ms apart in the readings of their turns. -/
theorem isChain_frames {es : List Event} {t : Nat} (hlast : m.lastUpdateMs.toNat ≤ t)
    (hclock : Forward Event.reading t es) :
    (m.lastUpdateMs.toNat :: outputs step frameAt m es).IsChain (fun a b => a + 300 ≤ b) := by
  refine isChain_firings (I := fun _ => True) (fun m : Main => m.lastUpdateMs.toNat)
    (fun _ _ _ _ _ => trivial) ?_ ?_ ?_ trivial hlast hclock
  · intro m e now h
    cases e with
    | signal => cases h
    | turn t =>
        simp only [frameAt] at h
        split at h
        · split at h
          · exact h
          · cases h
        · cases h
        · cases h
  · intro m e m' now _ hs hfires hle
    rcases frame_step hs with ⟨hno, -, -⟩ | ⟨t, b, rfl, hyes, hsends, hlast, -⟩
    · cases hno.symm.trans hfires
    · obtain rfl := Option.some.inj (hyes.symm.trans hfires)
      -- `nowMs - lastUpdateMs` is unsigned, but the clock is not behind the last frame.
      obtain ⟨-, -, -, hwait⟩ := sends_iff.mp hsends
      rw [(seen_kept m t).1] at hwait
      exact ⟨add_le_of_le_sub hle hwait, congrArg UInt64.toNat hlast⟩
  · intro m e m' hs hno
    rcases frame_step hs with ⟨-, hlast, -⟩ | ⟨t, b, rfl, hyes, -, -, -⟩
    · exact congrArg UInt64.toNat hlast
    · cases hno.symm.trans hyes

/-- Attempts are 1 s apart. -/
theorem isChain_attempts {es : List Event} {t : Nat} (hbackoff : Backoff m.reconnectBackoffMs)
    (hlast : m.lastReconnectAttemptMs.toNat ≤ t) (hclock : Forward Event.reading t es) :
    (m.lastReconnectAttemptMs.toNat :: outputs step attemptAt m es).IsChain
      (fun a b => a + 1000 ≤ b) := by
  refine isChain_firings (I := fun m : Main => Backoff m.reconnectBackoffMs)
    (fun m : Main => m.lastReconnectAttemptMs.toNat)
    (fun _ _ _ => backoff_step) ?_ ?_ ?_ hbackoff hlast hclock
  · intro m e now h
    cases e with
    | signal => cases h
    | turn t =>
        simp only [attemptAt] at h
        split at h
        · exact h
        · cases h
  · intro m e m' now hb hs hfires hle
    rcases attempt_step hs with ⟨t, rfl, hattempt, -⟩ | ⟨rfl, -, -⟩
    · simp only [attemptAt] at hfires
      split at hfires
      · rename_i hattempts
        obtain rfl := Option.some.inj hfires
        rw [seen_lastReconnectAttemptMs, if_pos hattempts] at hattempt
        rw [lose_eq, attempts_iff] at hattempts
        -- The backoff is 1 s or more at all times.
        have hwait : m.reconnectBackoffMs ≤ t.nowMs - m.lastReconnectAttemptMs := hattempts.2
        have hadd := add_le_of_le_sub hle hwait
        have hbound := hb.bounds.1
        exact ⟨by omega, congrArg UInt64.toNat hattempt⟩
      · cases hfires
    · cases hfires
  · intro m e m' hs hno
    rcases attempt_step hs with ⟨t, rfl, hattempt, -⟩ | ⟨rfl, hattempt, -⟩
    · simp only [attemptAt] at hno
      split at hno
      · cases hno
      · rename_i hattempts
        rw [seen_lastReconnectAttemptMs, if_neg hattempts] at hattempt
        exact congrArg UInt64.toNat hattempt
    · exact congrArg UInt64.toNat hattempt

/-- Every frame of a run is one of its firings. -/
theorem length_frames {es : List Event} (h : run step m es = some m') :
    m.broadcasts.length + (outputs step frameAt m es).length = m'.broadcasts.length := by
  induction es generalizing m with
  | nil =>
      rw [run, Option.some.injEq] at h
      rw [h, outputs, List.length_nil, Nat.add_zero]
  | cons e es ih =>
      rw [run, Option.bind_eq_some_iff] at h
      obtain ⟨m₁, hs, h⟩ := h
      have hrest := ih h
      rw [outputs, hs, Option.elim_some, List.length_append]
      rcases frame_step hs with ⟨hno, -, hsame⟩ | ⟨t, b, -, hyes, -, -, hsent⟩
      · rw [hno, Option.toList_none, List.length_nil, ← hrest, hsame]
        omega
      · rw [hyes, Option.toList_some, List.length_singleton, ← hrest, hsent, List.length_append,
          List.length_singleton]
        omega

/-- **The pace of the loop.** As long as the clock does not go back, the turns that send two frames
that are `n` frames apart have read the clock 300 `n` milliseconds apart or more, and the turns that
make two attempts to connect that are `n` attempts apart have read it `n` seconds apart or more. -/
theorem paced_of_run {es : List Event} (hrun : run step init es = some m)
    (hclock : Forward Event.reading 0 es) :
    let frames := outputs step frameAt init es
    let attempts := outputs step attemptAt init es
    frames.length = m.broadcasts.length ∧
    (∀ i j (_ : i ≤ j) (_ : j < frames.length), frames[i] + 300 * (j - i) ≤ frames[j]) ∧
    ∀ i j (_ : i ≤ j) (_ : j < attempts.length), attempts[i] + 1000 * (j - i) ≤ attempts[j] := by
  have hframes := isChain_frames (m := init) (Nat.le_refl 0) hclock
  have hattempts := isChain_attempts (m := init) (by decide) (Nat.le_refl 0) hclock
  refine ⟨?_, fun i j hij hj => gap_le hframes.of_cons hij hj,
    fun i j hij hj => gap_le hattempts.of_cons hij hj⟩
  have hlength := length_frames hrun
  rwa [show init.broadcasts.length = 0 from rfl, Nat.zero_add] at hlength

/-- The loop connects and sends one frame. -/
theorem paced_of_run_started :
    let es : List Event := [.turn (connecting 1000 false true)]
    (outputs step frameAt init es).length = 1 := by
  intro es
  obtain ⟨clients, hstep⟩ := step_started
  have hrun : run step init es = some (started clients) := by
    rw [run, hstep, Option.bind_some, run]
  have hclock : Forward Event.reading 0 es := ⟨Nat.zero_le _, trivial⟩
  exact (paced_of_run hrun hclock).1

/-! ### Recovery -/

/-- The loop has all that it needs to send. -/
structure Streaming (m : Main) : Prop where
  index : m.nsIdx ≠ uint16Max
  session : ∃ session, m.session = some session
  resolved : m.sensorNodeIdsResolved = true

/-- The loop sends when nothing is missing. -/
theorem streaming_iff_not : m.Streaming ↔
    ¬ (m.nsIdx = uint16Max ∨ m.session = none ∨ m.sensorNodeIdsResolved = false) := by
  simp only [not_or, ← ne_eq, Option.ne_none_iff_exists', Bool.not_eq_false]
  exact ⟨fun h => ⟨h.index, h.session, h.resolved⟩, fun h => ⟨h.1, h.2.1, h.2.2⟩⟩

/-- An attempt that is answered like this gets all that is needed. -/
theorem streaming_attempt {r : Replies} {nsIdx : UInt16} {nodes : Fin sensorCount → NodeID}
    (hindex : nsIdx ≠ uint16Max) (h : r.Resolve nsIdx nodes) : (m.attempt r).Streaming := by
  obtain ⟨folder, hfolder, hsensors⟩ := h.sensors
  have hfound : ∀ ids, (resolveSensors r nsIdx folder (List.finRange sensorCount) ids).2 = true :=
    fun ids => resolveSensors_of_found ids fun i _ => ⟨nodes i, hsensors i⟩
  simp only [attempt, h.connected, h.index, if_true, hfolder, resolve]
  exact ⟨hindex, ⟨m.sessions, rfl⟩, hfound _⟩

/-- The loop as it looks again in a healthy turn. -/
theorem seen_of_healthy (h : t.Healthy) :
    m.seen t = m.connect t ∧ (m.lose t.lostFirst).attempts t.nowMs = m.attempts t.nowMs := by
  rw [seen, h.kept.1, h.kept.2.1]
  exact ⟨rfl, rfl⟩

/-- A loop that streams does not connect again. -/
theorem Streaming.seen (hm : m.Streaming) (h : t.Healthy) : m.seen t = m := by
  have hno : ¬ m.attempts t.nowMs = true :=
    fun hattempts => streaming_iff_not.mp hm (attempts_iff.mp hattempts).1
  rw [(seen_of_healthy h).1, connect, if_neg hno]

/-- After an attempt in a healthy turn the loop streams. -/
theorem streaming_seen_of_attempts (h : t.Healthy) (hattempts : m.attempts t.nowMs = true) :
    (m.seen t).Streaming := by
  obtain ⟨nsIdx, nodes, hindex, hresolve⟩ := h.resolves
  have hstreaming : (m.attempt t.replies).Streaming := streaming_attempt hindex hresolve
  rw [(seen_of_healthy h).1, connect, if_pos hattempts]
  exact ⟨hstreaming.index, hstreaming.session, hstreaming.resolved⟩

/-- What a healthy turn leads to. -/
theorem healthy_cases (h : t.Healthy) (hs : m.step (.turn t) = some m') :
    (m'.Streaming ↔ (m.seen t).Streaming) ∧
    m'.lastReconnectAttemptMs = (m.seen t).lastReconnectAttemptMs ∧
    ((m.seen t).sends t.nowMs = true → ∃ b, m'.broadcasts = m.broadcasts ++ [b]) := by
  obtain ⟨listen, recv, hready⟩ := h.ready
  obtain ⟨-, ⟨t', ht, hselect, -⟩ | ⟨t', ht, hselect, -⟩ |
    ⟨t', -, -, clients, ht, hselect, -, hpublish⟩ | ⟨ht, -⟩⟩ := step_cases hs
  · cases ht
    cases hready.symm.trans hselect
  · cases ht
    cases hready.symm.trans hselect
  · cases ht
    have hlast := h.kept.2.2
    -- What `publish` may change of the state is the clients, the frames and their clock.
    rcases publish_some hpublish with ⟨hsends, rfl⟩ | ⟨-, snapshot, clients', -, rfl⟩
    · rw [hlast]
      refine ⟨⟨fun hm => ⟨hm.index, hm.session, hm.resolved⟩,
        fun hm => ⟨hm.index, hm.session, hm.resolved⟩⟩, rfl, fun hyes => ?_⟩
      cases hyes.symm.trans hsends
    · rw [hlast]
      refine ⟨⟨fun hm => ⟨hm.index, hm.session, hm.resolved⟩,
        fun hm => ⟨hm.index, hm.session, hm.resolved⟩⟩, rfl, fun _ => ?_⟩
      exact ⟨⟨(m.seen t).session, (m.seen t).lastAttempt, (m.seen t).sensorNodeIds⟩,
        by rw [← seen_broadcasts m t]⟩
  · cases ht

/-- The loop streams, or it has not tried to connect since the clock showed `last`. -/
def Recovering (last : UInt64) (m : Main) : Prop :=
  m.Streaming ∨ m.lastReconnectAttemptMs = last

/-- A turn that goes well leaves the loop streaming, or waiting for its next attempt. -/
theorem recovering_step {last : UInt64} (hm : Recovering last m) (h : t.Healthy)
    (hs : m.step (.turn t) = some m') : Recovering last m' := by
  obtain ⟨hstreaming, hlast, -⟩ := healthy_cases h hs
  rcases hm with hm | hm
  · refine .inl (hstreaming.mpr ?_)
    rwa [hm.seen h]
  · cases hattempts : m.attempts t.nowMs with
    | true => exact .inl (hstreaming.mpr (streaming_seen_of_attempts h hattempts))
    | false =>
        refine .inr (hlast.trans ?_)
        rw [seen_lastReconnectAttemptMs, (seen_of_healthy h).2, hattempts,
          if_neg Bool.false_ne_true, hm]

/-- **Recovery.** Let the loop be in any state `m` that a run leads to, and let the server be there
in all turns from then on. Then the loop sends a frame in the first turn whose clock is 16 seconds
after its last attempt to connect before that, and 300 milliseconds after its last frame; and it
sends one in each later turn that is 300 milliseconds after the last frame. -/
theorem sends_of_healthy {es₁ es₂ : List Event} {m₂ : Main} (h₁ : run step init es₁ = some m)
    (hes₂ : ∀ e ∈ es₂, ∃ t, e = .turn t ∧ t.Healthy) (h₂ : run step m es₂ = some m₂)
    (ht : t.Healthy) (hattempt : m.lastReconnectAttemptMs.toNat + 16000 ≤ t.nowMs.toNat)
    (hframe : m₂.lastUpdateMs.toNat + 300 ≤ t.nowMs.toNat)
    (hs : m₂.step (.turn t) = some m') : ∃ b, m'.broadcasts = m₂.broadcasts ++ [b] := by
  have hrecovering : Recovering m.lastReconnectAttemptMs m₂ := by
    refine (Run.always_of_step (P := Recovering m.lastReconnectAttemptMs)
      (fun e => ∃ t, e = .turn t ∧ t.Healthy) ?_ (fun _ h => h) hes₂ (.inr rfl)).last h₂
    rintro m e m' ⟨t, rfl, ht⟩ hm hs
    exact recovering_step hm ht hs
  have hbackoff : Backoff m₂.reconnectBackoffMs :=
    backoff_of_run (backoff_of_run (m := init) (by decide) h₁) h₂
  have hstreaming : (m₂.seen t).Streaming := by
    by_cases hm : m₂.Streaming
    · rwa [hm.seen ht]
    · -- The loop has been waiting for the last attempt of `m`, and the longest wait is over.
      have hlast := hrecovering.resolve_left hm
      refine streaming_seen_of_attempts ht (attempts_iff.mpr ⟨?_, le_sub_of_add_le ?_⟩)
      · rwa [streaming_iff_not, not_not] at hm
      · have hbound := hbackoff.bounds.2
        rw [hlast]
        omega
  obtain ⟨-, -, hsends⟩ := healthy_cases ht hs
  refine hsends (sends_iff.mpr ⟨hstreaming.index, hstreaming.session, hstreaming.resolved, ?_⟩)
  rw [(seen_kept m₂ t).1]
  exact le_sub_of_add_le hframe

/-- A server that is there from the start. -/
theorem healthy_connecting (nowMs : UInt64) : (connecting nowMs false true).Healthy where
  kept := ⟨rfl, rfl, rfl⟩
  ready := ⟨none, fun _ => none, rfl⟩
  resolves := by
    have hfolder : findSensorsFolder (replies true) 2 = some ⟨2, .numeric 100⟩ := by decide
    have hsensors : ∀ i, findSensor (replies true) 2 ⟨2, .numeric 100⟩ i = some (foundNodes i) := by
      decide
    exact ⟨2, foundNodes, by decide, rfl, rfl, ⟨2, .numeric 100⟩, hfolder, hsensors⟩

/-- The first turn of a server that answers sends a frame. -/
theorem sends_of_healthy_first :
    ∃ m b, init.step (.turn (connecting 16000 false true)) = some m ∧ m.broadcasts = [] ++ [b] := by
  have hsends : (init.seen (connecting 16000 false true)).sends 16000 = true := rfl
  obtain ⟨m, hstep, -⟩ := turn_connecting hsends
  have hnone : run step init [] = some init := rfl
  obtain ⟨b, hb⟩ := sends_of_healthy hnone (List.forall_mem_nil _) hnone
    (healthy_connecting 16000) (by decide) (by decide) hstep
  exact ⟨m, b, hstep, hb⟩

end Main

end SmartFactory.TcpBridge
