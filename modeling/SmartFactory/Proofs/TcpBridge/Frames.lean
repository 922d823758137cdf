import SmartFactory.Proofs.TcpBridge.Clients
import SmartFactory.Lib.MessagePackStream
import Mathlib.Algebra.Order.BigOperators.Group.List
import Mathlib.Tactic.FinCases

/-!
# `SmartFactory.Proofs.TcpBridge.Frames`: what the clients of the C bridge receive

A frame is one MessagePack object (`stream_packFrame`): the lengths that `encodeFrame` writes by
hand are those of what follows them. It always fits into the buffer of `main`.

The system may take a part of a frame only. The connection is then closed, so such a frame is the
last one that the client gets. This is the invariant `Whole`. `received_of_run` puts both parts
together: a client reads the snapshots that were sent to it, and what is left over is the part of
a frame that came before its connection was closed.
-/

set_option autoImplicit false

namespace SmartFactory.TcpBridge

open MessagePack (Bytes Object IsToken Stream flat readObject readObject_of_prefix readStream
  readStream_flatten isToken_str isToken_shortNat isToken_bool isToken_mapHeader
  isToken_arrayHeader shortNat shortNat_length intSize)
open Bridge (packMap packArray packStr packBool utf8)

/-! ### Frames are objects -/

/-- A string as a client reads it. -/
def text (s : String) : Object := .str (utf8 s)

/-- An entry of the array of sensors. -/
def sensorObject (id : String) (value : Bool) : Object :=
  .map [(text "id", text id), (text "type", .int 0), (text "value", .bool value)]

/-- A snapshot as a client reads it. -/
def SensorSnapshot.object (snap : SensorSnapshot) : Object :=
  .map [(text "version", .int protocolVersion.toNat), (text "sequence", .int snap.seq.toNat),
    (text "timestampMs", .int snap.timestampMs.toNat),
    (text "sensors", .array ((List.finRange sensorCount).map fun i =>
      sensorObject (sensorBrowseNames i) (snap.values i)))]

/-- The token of an atom is a stream of one object. -/
theorem stream_atom {o : Object} {hd : Bytes} (h : IsToken (.atom o) hd) : Stream [o] hd := by
  simpa using Stream.atom h .nil

/-- A string whose length has been written correctly. -/
theorem stream_text {s : String} {n : UInt32} (h : (utf8 s).length = n.toNat) :
    Stream [text s] (packStr n ++ utf8 s) := by
  have hlt := n.toNat_lt
  rw [packStr, ← h]
  exact stream_atom (isToken_str (by omega))

/-- So is a number. -/
theorem stream_shortNat {n : Nat} (h : n < 2 ^ 64) : Stream [.int n] (shortNat n) :=
  stream_atom (isToken_shortNat h)

/-- A header and a stream of the elements are a stream of the array. -/
theorem stream_array {os : List Object} {n : UInt32} {body : Bytes} (hn : os.length = n.toNat)
    (hbody : Stream os body) : Stream [.array os] (packArray n ++ body) := by
  have hhd : IsToken (.array os.length) (packArray n) := hn ▸ isToken_arrayHeader n.toNat_lt
  simpa using Stream.array hhd hbody .nil

/-- A header and a stream of the entries are a stream of the map. -/
theorem stream_map {es : List (Object × Object)} {n : UInt32} {body : Bytes}
    (hn : es.length = n.toNat) (hbody : Stream (flat es) body) :
    Stream [.map es] (packMap n ++ body) := by
  have hhd : IsToken (.map es.length) (packMap n) := hn ▸ isToken_mapHeader n.toNat_lt
  simpa using Stream.map hhd hbody .nil

/-- Streams of one object each, one after the other. -/
theorem stream_flatMap {α : Type} {object : α → Object} {bytes : α → Bytes}
    (h : ∀ a, Stream [object a] (bytes a)) (as : List α) :
    Stream (as.map object) (as.flatMap bytes) := by
  induction as with
  | nil => exact .nil
  | cons a as ih => exact (h a).append ih

/-- A packed sensor is a stream of its object. -/
theorem stream_packSensor {id : String} (hid : (utf8 id).length < 2 ^ 32) (value : Bool) :
    Stream [sensorObject id value] (packSensor id value) := by
  have hlen : (utf8 id).length = (UInt32.ofNat (utf8 id).length).toNat := by
    rw [UInt32.toNat_ofNat', Nat.mod_eq_of_lt hid]
  have hentries := (stream_text (s := "id") (n := 2) (by decide)).append
    ((stream_text hlen).append
      ((stream_text (s := "type") (n := 4) (by decide)).append
        ((stream_shortNat (n := 0) (by decide)).append
          ((stream_text (s := "value") (n := 5) (by decide)).append
            (stream_atom (isToken_bool value))))))
  have hsensor : Stream [sensorObject id value] _ := stream_map (n := 3) rfl hentries
  simpa only [packSensor, packBool, List.append_assoc] using hsensor

/-- The names of the sensors are short. -/
theorem utf8_browseName_length (i : Fin sensorCount) :
    (utf8 (sensorBrowseNames i)).length ≤ 20 := by
  fin_cases i <;> decide

/-- The bytes of a frame are one object. -/
theorem stream_packFrame (snap : SensorSnapshot) : Stream [snap.object] (packFrame snap) := by
  have hsensor : ∀ i, Stream [sensorObject (sensorBrowseNames i) (snap.values i)]
      (packSensor (sensorBrowseNames i) (snap.values i)) := by
    intro i
    have hle := utf8_browseName_length i
    exact stream_packSensor (by omega) (snap.values i)
  have hsensors := stream_array (n := UInt32.ofNat sensorCount) (by simp; rfl)
    (stream_flatMap hsensor (List.finRange sensorCount))
  -- The four fields in the order of `encodeFrame`, each behind its key.
  have hentries := (stream_text (s := "version") (n := 7) (by decide)).append
    ((stream_shortNat (n := protocolVersion.toNat) (by decide)).append
      ((stream_text (s := "sequence") (n := 8) (by decide)).append
        ((stream_shortNat snap.seq.toNat_lt).append
          ((stream_text (s := "timestampMs") (n := 11) (by decide)).append
            ((stream_shortNat snap.timestampMs.toNat_lt).append
              ((stream_text (s := "sensors") (n := 7) (by decide)).append hsensors))))))
  have hframe : Stream [snap.object] _ := stream_map (n := 4) rfl hentries
  simpa only [packFrame, List.append_assoc] using hframe

/-! ### The size of a frame -/

/-- A number takes nine bytes at most. -/
theorem shortNat_length_le (n : Nat) : (shortNat n).length ≤ 9 := by
  rw [shortNat_length, intSize]
  split_ifs <;> omega

/-- A packed sensor takes forty bytes at most. -/
theorem packSensor_length_le (i : Fin sensorCount) (value : Bool) :
    (packSensor (sensorBrowseNames i) value).length ≤ 40 := by
  fin_cases i <;> cases value <;> decide

/-- A frame fits into the buffer of `main`. -/
theorem packFrame_length_le (snap : SensorSnapshot) : (packFrame snap).length ≤ 512 := by
  have hsensors : ((List.finRange sensorCount).flatMap fun i =>
      packSensor (sensorBrowseNames i) (snap.values i)).length ≤ 200 := by
    rw [List.length_flatMap]
    -- Five sensors of at most 40 bytes each.
    refine (List.sum_le_card_nsmul _ 40 ?_).trans ?_
    swap
    · rw [List.length_map, List.length_finRange]
      decide
    intro n hn
    obtain ⟨i, -, rfl⟩ := List.mem_map.mp hn
    exact packSensor_length_le i (snap.values i)
  have hseq := shortNat_length_le snap.seq.toNat
  have hts := shortNat_length_le snap.timestampMs.toNat
  have hversion : (packMap 4 ++ packStr 7 ++ utf8 "version" ++
    shortNat protocolVersion.toNat).length = 10 := by decide
  have hsequence : (packStr 8 ++ utf8 "sequence").length = 9 := by decide
  have htimestamp : (packStr 11 ++ utf8 "timestampMs").length = 12 := by decide
  have hkey : (packStr 7 ++ utf8 "sensors" ++ packArray (UInt32.ofNat sensorCount)).length = 9 := by
    decide
  rw [List.length_append] at hversion hsequence htimestamp hkey
  simp only [packFrame, List.length_append] at hversion hkey ⊢
  omega

/-- `encodeFrame` does not return 0. -/
theorem encodeFrame_eq (snap : SensorSnapshot) : encodeFrame snap 512 = packFrame snap :=
  if_pos (packFrame_length_le snap)

/-- No frame is empty. -/
theorem encodeFrame_length_pos (snap : SensorSnapshot) : 0 < (encodeFrame snap 512).length := by
  rw [encodeFrame_eq]
  exact List.length_pos_of_ne_nil (stream_packFrame snap).ne_nil

/-- No two snapshots are read as the same object. -/
theorem object_injective : Function.Injective SensorSnapshot.object := by
  intro x y h
  simp only [SensorSnapshot.object, Object.map.injEq, List.cons.injEq, Prod.mk.injEq,
    Object.int.injEq, Object.array.injEq, true_and, and_true] at h
  obtain ⟨hseq, hts, hsensors⟩ := h
  have hvalues : x.values = y.values := by
    funext i
    have hi := List.map_inj_left.mp hsensors i (List.mem_finRange i)
    simpa [sensorObject] using hi
  rw [Int.natCast_inj, UInt64.toNat_inj] at hseq hts
  cases x
  cases y
  exact SensorSnapshot.mk.injEq .. ▸ ⟨hvalues, hseq, hts⟩

/-- The connection has taken all of the frame. -/
def Send.Complete (s : Send) : Prop := s.sent = s.frame.length

namespace Clients

open Run (run)

variable {c c' : Clients} {i : Fin maxClients} {k : Nat}

/-! ### What is sent to a connection -/

instance (c : Clients) (i : Fin maxClients) (k : Nat) : Decidable (c.Stored i k) :=
  inferInstanceAs (Decidable (_ ∧ _))

/-- The snapshots that one operation sends to a connection, and what `send` returns. -/
def Op.snapshotsTo (c : Clients) (k : Nat) : Op → List (SensorSnapshot × Int)
  | .broadcast snapshot sent =>
      ((List.finRange maxClients).filter fun i => c.Stored i k).map fun i => (snapshot, sent i)
  | .accept _ | .check _ _ | .shutdown => []

/-- The snapshots that a run sends to a connection. -/
def snapshotsTo (k : Nat) : Clients → List Op → List (SensorSnapshot × Int)
  | _, [] => []
  | c, op :: ops =>
      op.snapshotsTo c k ++ (c.step op).elim [] fun c' => snapshotsTo k c' ops

/-- The call of `send` for a snapshot. -/
def sendOf (x : SensorSnapshot × Int) : Send := ⟨encodeFrame x.1 512, x.2⟩

/-- Removing a client sends nothing. -/
@[simp] theorem removeClient_log (c : Clients) (i : Fin maxClients) :
    (c.removeClient i).net.log = c.net.log := by
  rw [removeClient]
  split
  · exact Descriptors.close_log ..
  · rfl

/-- A descriptor that is closed keeps its last owner. -/
@[simp] theorem removeClient_owner (c : Clients) (i : Fin maxClients) :
    (c.removeClient i).net.owner = c.net.owner := by
  rw [removeClient]
  split
  · exact Descriptors.close_owner ..
  · rfl

/-- The other slots stay as they are. -/
theorem removeClient_slots_of_ne (c : Clients) {j : Fin maxClients} (h : j ≠ i) :
    (c.removeClient i).slots j = c.slots j := by
  rw [removeClient]
  split
  · exact Function.update_of_ne h ..
  · rfl

/-- `sendFrame` writes to the connection in the slot. -/
theorem sendFrame_log (c : Clients) (frame : Bytes) (i : Fin maxClients) (sent : Int) (k : Nat) :
    (c.sendFrame frame i sent).net.log k =
      c.net.log k ++ if c.Stored i k then [⟨frame, sent⟩] else [] := by
  have hwrite : (c.net.write (c.slots i).socket ⟨frame, sent⟩).log k = c.net.log k ++
      if c.net.owner (c.slots i).socket = some k then [⟨frame, sent⟩] else [] :=
    Descriptors.write_log_apply ..
  cases hactive : (c.slots i).active with
  | false => simp [sendFrame, Stored, hactive]
  | true =>
      simp only [sendFrame, Stored, hactive, if_true, true_and]
      split
      · rw [removeClient_log, hwrite]
      · exact hwrite

/-- `sendFrame` leaves the other slots as they are. -/
theorem sendFrame_stored (c : Clients) (frame : Bytes) (sent : Int) {j : Fin maxClients}
    (h : j ≠ i) : (c.sendFrame frame i sent).Stored j k ↔ c.Stored j k := by
  rw [sendFrame]
  split
  · dsimp only
    split
    · simp [Stored, removeClient_slots_of_ne _ h]
    · simp [Stored]
  · rfl

/-- A frame goes once to each connection that is stored in one of the slots. -/
theorem foldl_sendFrame_log (frame : Bytes) (sent : Fin maxClients → Int) (k : Nat)
    {is : List (Fin maxClients)} (h : is.Nodup) (c : Clients) :
    (is.foldl (fun c i => c.sendFrame frame i (sent i)) c).net.log k =
      c.net.log k ++ (is.filter fun i => c.Stored i k).map fun i => ⟨frame, sent i⟩ := by
  induction is generalizing c with
  | nil => simp
  | cons i is ih =>
      obtain ⟨hi, his⟩ := List.nodup_cons.mp h
      have hrest : (is.filter fun j => (c.sendFrame frame i (sent i)).Stored j k) =
          is.filter fun j => c.Stored j k := by
        refine List.filter_congr fun j hj => ?_
        have hne : j ≠ i := fun heq => hi (heq ▸ hj)
        simp only [sendFrame_stored c frame (sent i) hne]
      rw [List.foldl_cons, ih his, hrest, sendFrame_log, List.append_assoc, List.filter_cons]
      split <;> simp_all

/-- Accepting a client sends nothing. -/
theorem acceptNewClient_log (c : Clients) (fd : Int) :
    (c.acceptNewClient fd).net.log = c.net.log := by
  rw [acceptNewClient]
  split
  · rfl
  · split
    · exact Descriptors.close_log ..
    · rfl

/-- And neither does a check. -/
theorem checkClient_log (c : Clients) (i : Fin maxClients) (recvRet : Option Int) :
    (c.checkClient i recvRet).net.log = c.net.log := by
  unfold checkClient
  split
  · split
    · rfl
    · split
      · exact removeClient_log c i
      · rfl
  · rfl

/-- Nor the shutdown. -/
theorem removeAll_log (c : Clients) : c.removeAll.net.log = c.net.log := by
  rw [removeAll]
  induction List.finRange maxClients generalizing c with
  | nil => rfl
  | cons i is ih => rw [List.foldl_cons, ih, removeClient_log]

/-- A snapshot is sent as its frame. -/
theorem sendSnapshot_eq (c : Clients) (snapshot : SensorSnapshot)
    (sent : Fin maxClients → Int) :
    c.sendSnapshot snapshot sent = c.broadcastFrame (encodeFrame snapshot 512) sent := by
  have hpos := encodeFrame_length_pos snapshot
  simp only [sendSnapshot, hpos, if_true]

/-- **One step** sends to a connection the snapshots that go to it. -/
theorem step_log {op : Op} (h : c.step op = some c') (k : Nat) :
    c'.net.log k = c.net.log k ++ (op.snapshotsTo c k).map sendOf := by
  obtain ⟨-, rfl⟩ := step_some h
  cases op with
  | accept fd => simp [apply, acceptNewClient_log, Op.snapshotsTo]
  | check i recvRet => simp [apply, checkClient_log, Op.snapshotsTo]
  | broadcast snapshot sent =>
      rw [apply, sendSnapshot_eq, broadcastFrame,
        foldl_sendFrame_log _ _ k (List.nodup_finRange maxClients), Op.snapshotsTo, List.map_map]
      rfl
  | shutdown => simp [apply, removeAll_log, Op.snapshotsTo]

/-- The calls of `send` for a connection are those for the snapshots that are sent to it. -/
theorem run_log {ops : List Op} (h : run step c ops = some c') (k : Nat) :
    c'.net.log k = c.net.log k ++ (snapshotsTo k c ops).map sendOf := by
  induction ops generalizing c with
  | nil =>
      rw [run, Option.some.injEq] at h
      simp [snapshotsTo, h]
  | cons op ops ih =>
      rw [run, Option.bind_eq_some_iff] at h
      obtain ⟨c₁, hstep, h⟩ := h
      rw [ih h, step_log hstep, snapshotsTo, hstep, Option.elim_some, List.map_append,
        List.append_assoc]

/-- The system does not send more than a frame. -/
theorem sent_le {ops : List Op} {x : SensorSnapshot × Int} (h : run step c ops = some c')
    (hx : x ∈ snapshotsTo k c ops) : x.2 ≤ (encodeFrame x.1 512).length := by
  induction ops generalizing c with
  | nil => cases hx
  | cons op ops ih =>
      rw [run, Option.bind_eq_some_iff] at h
      obtain ⟨c₁, hstep, h⟩ := h
      rw [snapshotsTo, hstep, Option.elim_some, List.mem_append] at hx
      rcases hx with hx | hx
      · -- `send` returns at most the number of bytes that it was given.
        obtain ⟨hallowed, -⟩ := step_some hstep
        cases op with
        | broadcast snapshot sent =>
            obtain ⟨i, -, rfl⟩ := List.mem_map.mp hx
            exact hallowed i
        | accept fd => cases hx
        | check i recvRet => cases hx
        | shutdown => cases hx
      · exact ih h hx

/-! ### No frame after a part of one -/

/-- A frame that was sent in part is the last one, and its connection has been closed. -/
structure Whole (c : Clients) (k : Nat) : Prop where
  before : ∀ s ∈ (c.net.log k).dropLast, Send.Complete s
  opened : c.net.closes k = 0 → ∀ s ∈ c.net.log k, Send.Complete s

/-- What does not write keeps `Whole`. -/
theorem Whole.of_log (h : c.Whole k) (hlog : c'.net.log k = c.net.log k)
    (hcloses : c.net.closes k ≤ c'.net.closes k) : c'.Whole k where
  before := hlog ▸ h.before
  opened hopen := hlog ▸ h.opened (by omega)

/-- At the start nothing has been sent. -/
theorem whole_init (k : Nat) : init.Whole k where
  before s hs := by cases hs
  opened _ s hs := by cases hs

/-- What is closed stays closed. -/
theorem closes_le_removeClient (c : Clients) (i : Fin maxClients) (k : Nat) :
    c.net.closes k ≤ (c.removeClient i).net.closes k := by
  rw [removeClient]
  split
  · exact Descriptors.closes_le_close ..
  · exact Nat.le_refl _

/-- Removing a client sends nothing to it. -/
theorem Whole.removeClient (h : c.Whole k) (i : Fin maxClients) : (c.removeClient i).Whole k :=
  h.of_log (by rw [removeClient_log]) (closes_le_removeClient c i k)

/-- A new client has got nothing. -/
theorem Whole.acceptNewClient (h : c.Whole k) (fd : Int) : (c.acceptNewClient fd).Whole k := by
  refine h.of_log (by rw [acceptNewClient_log]) ?_
  rw [Clients.acceptNewClient]
  split
  · exact Nat.le_refl _
  · split
    · exact Descriptors.closes_le_close (c.net.accept fd) fd k
    · exact Nat.le_refl _

/-- A check sends nothing. -/
theorem Whole.checkClient (h : c.Whole k) (i : Fin maxClients) (recvRet : Option Int) :
    (c.checkClient i recvRet).Whole k := by
  unfold Clients.checkClient
  split
  · split
    · exact h
    · split
      · exact h.removeClient i
      · exact h
  · exact h

/-- Sending opens nothing. -/
theorem closes_le_sendFrame (c : Clients) (frame : Bytes) (i : Fin maxClients) (sent : Int)
    (k : Nat) : c.net.closes k ≤ (c.sendFrame frame i sent).net.closes k := by
  have hwrite : (c.net.write (c.slots i).socket ⟨frame, sent⟩).closes = c.net.closes :=
    Descriptors.write_closes ..
  unfold Clients.sendFrame
  split
  · split
    · refine Nat.le_trans (Nat.le_of_eq ?_) (closes_le_removeClient _ i k)
      rw [hwrite]
    · exact Nat.le_of_eq (by rw [hwrite])
  · exact Nat.le_refl _

/-- A connection that is still open after it was sent a frame has taken all of it. -/
theorem complete_of_opened {frame : Bytes} {sent : Int} (hstored : c.Stored i k)
    (hopen : (c.sendFrame frame i sent).net.closes k = 0) :
    Send.Complete ⟨frame, sent⟩ := by
  obtain ⟨hactive, howner⟩ := hstored
  simp only [Clients.sendFrame, hactive, if_true] at hopen
  split at hopen
  · let c' : Clients := { c with net := c.net.write (c.slots i).socket ⟨frame, sent⟩ }
    have howner' : c'.net.owner (c'.slots i).socket = some k :=
      (Descriptors.write_owner ..).symm ▸ howner
    have hremove : c'.removeClient i = _ := removeClient_of_active hactive
    rw [hremove] at hopen
    dsimp only at hopen
    rw [Descriptors.close_closes howner', Function.update_self] at hopen
    cases hopen
  · show sent = (frame.length : Int)
    omega

/-- A turn of `broadcastFrame` writes to the connection in its slot, and closes it when the frame
was not sent in full. -/
theorem Whole.sendFrame (hsound : c.Sound) (h : c.Whole k) (frame : Bytes) (i : Fin maxClients)
    (sent : Int) : (c.sendFrame frame i sent).Whole k := by
  have hlog := sendFrame_log c frame i sent k
  by_cases hstored : c.Stored i k
  · rw [if_pos hstored] at hlog
    have hopen : c.net.closes k = 0 :=
      Descriptors.Custody.closes_of_holds hsound (holds_iff_stored.mpr hstored)
    have hall := h.opened hopen
    refine ⟨by simpa [hlog] using hall, fun hopen' s hs => ?_⟩
    rw [hlog, List.mem_append, List.mem_singleton] at hs
    rcases hs with hs | rfl
    · exact hall s hs
    · exact complete_of_opened hstored hopen'
  · rw [if_neg hstored, List.append_nil] at hlog
    exact h.of_log hlog (closes_le_sendFrame c frame i sent k)

/-- The invariant of a run. -/
def Delivering (c : Clients) : Prop := c.Sound ∧ ∀ k, c.Whole k

/-- **One step** keeps the law for every connection. -/
theorem delivering_step {op : Op} (h : c.Delivering) (hs : c.step op = some c') :
    c'.Delivering := by
  refine ⟨sound_step h.1 hs, ?_⟩
  obtain ⟨-, rfl⟩ := step_some hs
  cases op with
  | accept fd => exact fun k => (h.2 k).acceptNewClient fd
  | check i recvRet => exact fun k => (h.2 k).checkClient i recvRet
  | broadcast snapshot sent =>
      rw [apply, sendSnapshot_eq]
      have hdone : Delivering (c.broadcastFrame (encodeFrame snapshot 512) sent) :=
        List.foldlRecOn _ _ h fun c hc i _ => ⟨sound_sendFrame hc.1 _ i (sent i),
          fun k => (hc.2 k).sendFrame hc.1 _ i (sent i)⟩
      exact hdone.2
  | shutdown =>
      have hdone : Delivering c.removeAll :=
        List.foldlRecOn _ _ h fun c hc i _ => ⟨sound_removeClient hc.1 i,
          fun k => (hc.2 k).removeClient i⟩
      exact hdone.2

/-- **A run** keeps it. -/
theorem delivering_of_run {ops : List Op} (h : run step init ops = some c) : c.Delivering :=
  Run.last_of_step (fun _ _ _ => delivering_step) ⟨sound_init, whole_init⟩ h

/-! ### What a client receives -/

/-- The bytes that the connection has taken. -/
def received (c : Clients) (k : Nat) : Bytes := (c.net.log k).flatMap Send.taken

/-- The client has received the frames of these snapshots and a part of another one at most. -/
structure Received (c : Clients) (k : Nat) (whole : List SensorSnapshot)
    (part : Option (SensorSnapshot × Int)) : Prop where
  /-- The frames are complete, and nothing is between them. -/
  bytes : c.received k = (whole.map fun x => encodeFrame x 512).flatten ++
    part.elim [] fun x => (sendOf x).taken
  /-- After a part of a frame the client is removed. -/
  removed : ∀ x, part = some x → x.2 < (encodeFrame x.1 512).length ∧ c.net.closes k = 1 ∧
    ∀ i, ¬ c.Stored i k
  /-- A client that reads the stream gets the snapshots, and the part of a frame is left over. -/
  decoded : readStream (c.received k) =
    (whole.map SensorSnapshot.object, part.elim [] fun x => (sendOf x).taken)

/-- What the socket took of a frame. -/
theorem sendOf_taken (x : SensorSnapshot × Int) :
    (sendOf x).taken = (encodeFrame x.1 512).take x.2.toNat := by
  rw [Send.taken, sendOf]

/-- It took all of it when the number of bytes is the length. -/
theorem sendOf_complete (x : SensorSnapshot × Int) :
    (sendOf x).Complete ↔ x.2 = (encodeFrame x.1 512).length := by
  simp only [Send.Complete, sendOf]

/-- Then it took the frame. -/
theorem taken_of_complete {x : SensorSnapshot × Int} (h : (sendOf x).Complete) :
    (sendOf x).taken = encodeFrame x.1 512 := by
  rw [sendOf_complete] at h
  rw [sendOf_taken, h, Int.toNat_natCast, List.take_length]

/-- A part of a frame is not read. -/
theorem readObject_taken {x : SensorSnapshot × Int} (h : x.2 < (encodeFrame x.1 512).length) :
    readObject (sendOf x).taken = none := by
  have hstream := stream_packFrame x.1
  rw [← encodeFrame_eq, ← List.take_append_drop x.2.toNat (encodeFrame x.1 512)] at hstream
  rw [sendOf_taken]
  refine readObject_of_prefix hstream ?_
  have hpos := encodeFrame_length_pos x.1
  rw [ne_eq, List.drop_eq_nil_iff]
  omega

/-- The bytes of a connection, from what was sent to it. -/
theorem received_of_log {whole : List SensorSnapshot} {part : Option (SensorSnapshot × Int)}
    (hlog : c.net.log k = (whole.map fun x => (x, ((encodeFrame x 512).length : Int))).map sendOf ++
      part.toList.map sendOf)
    (hpart : ∀ x, part = some x → x.2 < (encodeFrame x.1 512).length ∧ c.net.closes k = 1 ∧
      ∀ i, ¬ c.Stored i k) : c.Received k whole part := by
  have hbytes : c.received k = (whole.map fun x => encodeFrame x 512).flatten ++
      part.elim [] fun x => (sendOf x).taken := by
    rw [received, hlog, List.flatMap_append, List.map_map, List.flatMap_map, List.flatMap_def]
    have hwhole : ∀ x, (sendOf (x, ((encodeFrame x 512).length : Int))).taken =
        encodeFrame x 512 := fun x => taken_of_complete ((sendOf_complete _).mpr rfl)
    have hpart : (part.toList.map sendOf).flatMap Send.taken =
        part.elim [] fun x => (sendOf x).taken := by
      cases part with
      | none => rfl
      | some x => exact List.append_nil _
    rw [hpart]
    exact congrArg (List.flatten · ++ _) (List.map_congr_left fun x _ => hwhole x)
  refine ⟨hbytes, hpart, ?_⟩
  have hobjects : List.Forall₂ (fun o bs => Stream [o] bs) (whole.map SensorSnapshot.object)
      (whole.map fun x => encodeFrame x 512) := by
    rw [List.forall₂_map_left_iff, List.forall₂_map_right_iff, List.forall₂_same]
    intro x _
    rw [encodeFrame_eq]
    exact stream_packFrame x
  -- A part of a frame is not read as an object, so that reading stops there.
  have hrest : readObject (part.elim [] fun x => (sendOf x).taken) = none := by
    cases part with
    | none => rfl
    | some x => exact readObject_taken (hpart x rfl).1
  rw [hbytes, readStream_flatten hobjects hrest]

/-- Snapshots whose frames were sent in full. -/
theorem eq_map_of_complete {sends : List (SensorSnapshot × Int)}
    (h : ∀ x ∈ sends, (sendOf x).Complete) :
    sends = (sends.map Prod.fst).map fun x => (x, ((encodeFrame x 512).length : Int)) := by
  rw [List.map_map]
  exact (List.map_id' sends).symm.trans
    (List.map_congr_left fun x hx => Prod.ext rfl ((sendOf_complete x).mp (h x hx)))

/-- A connection that has been closed was closed once and is in no slot. -/
theorem Sound.removed (h : c.Sound) (hclosed : c.net.closes k ≠ 0) :
    c.net.closes k = 1 ∧ ∀ i, ¬ c.Stored i k := by
  have hk : k < c.net.accepted := by
    by_contra hk
    exact hclosed (h.unmade k (Nat.le_of_not_lt hk))
  exact (h.accounted hk).resolve_left fun hopen => hclosed hopen.1

/-- Each connection receives the frames of the snapshots that are sent to it, complete and in
order, and at most a part of the last one. No snapshot is dropped before it is sent, and what is
read of a snapshot determines it. -/
theorem received_of_run (ops : List Op) (c : Clients) (hrun : run step init ops = some c)
    (k : Nat) :
    (∀ snapshot, 0 < (encodeFrame snapshot 512).length) ∧
    Function.Injective SensorSnapshot.object ∧
    ∃ whole part, snapshotsTo k init ops =
        (whole.map fun x => (x, ((encodeFrame x 512).length : Int))) ++ part.toList ∧
      c.Received k whole part := by
  refine ⟨encodeFrame_length_pos, object_injective, ?_⟩
  obtain ⟨hsound, hwhole⟩ := delivering_of_run hrun
  have hlog : c.net.log k = (snapshotsTo k init ops).map sendOf := run_log hrun k
  have hbefore : ∀ s ∈ (c.net.log k).dropLast, Send.Complete s := (hwhole k).before
  have hle := fun x => sent_le (x := x) (k := k) hrun
  rcases List.eq_nil_or_concat (snapshotsTo k init ops) with hnil | ⟨sends, x, hsends⟩
  · rw [hnil] at hlog
    exact ⟨[], none, hnil, received_of_log hlog (by simp)⟩
  rw [List.concat_eq_append] at hsends
  rw [hlog, hsends, List.map_append, List.map_singleton, List.dropLast_concat,
    List.forall_mem_map] at hbefore
  rw [hsends] at hlog
  -- All sends but the last were complete. If the last was not, the connection has been closed.
  by_cases hx : (sendOf x).Complete
  · have hall : ∀ y ∈ sends ++ [x], (sendOf y).Complete := by
      simpa [or_imp, forall_and] using ⟨fun a b => hbefore (a, b), hx⟩
    rw [eq_map_of_complete hall] at hsends hlog
    exact ⟨(sends ++ [x]).map Prod.fst, none, hsends.trans (List.append_nil _).symm,
      received_of_log (hlog.trans (List.append_nil _).symm) (by simp)⟩
  · have hpart : x.2 < (encodeFrame x.1 512).length :=
      Int.lt_iff_le_and_ne.mpr
        ⟨hle x (hsends ▸ List.mem_concat_self ..), mt (sendOf_complete x).mpr hx⟩
    have hclosed : c.net.closes k ≠ 0 := fun hopen =>
      hx ((hwhole k).opened hopen _ (hlog ▸ List.mem_map_of_mem (List.mem_concat_self ..)))
    rw [eq_map_of_complete hbefore] at hsends hlog
    rw [List.map_append] at hlog
    refine ⟨sends.map Prod.fst, some x, hsends, received_of_log hlog ?_⟩
    rintro _ ⟨⟩
    exact ⟨hpart, hsound.removed hclosed⟩

/-- The system may take a byte of a frame only. -/
theorem allowed_first_byte (c : Clients) (snapshot : SensorSnapshot) :
    Op.Allowed c (.broadcast snapshot fun _ => 1) :=
  fun _ => Int.ofNat_le.mpr (encodeFrame_length_pos snapshot)

/-- A client that takes the first byte of a frame. -/
theorem received_of_run_first_byte :
    let ops : List Op := [.accept 4, .broadcast ⟨fun _ => true, 72, 1769516986221⟩ fun _ => 1]
    ∃ c, run step init ops = some c ∧ ∃ whole part, snapshotsTo 0 init ops =
        (whole.map fun x => (x, ((encodeFrame x 512).length : Int))) ++ part.toList ∧
      c.Received 0 whole part := by
  intro ops
  obtain ⟨c, hrun⟩ : ∃ c, run step init ops = some c := by
    have haccept : Op.Allowed init (.accept 4) := rfl
    rw [run, step_of_allowed haccept, Option.bind_some, run,
      step_of_allowed (allowed_first_byte _ _), Option.bind_some]
    exact ⟨_, rfl⟩
  exact ⟨c, hrun, (received_of_run ops c hrun 0).2.2⟩

end Clients

end SmartFactory.TcpBridge
