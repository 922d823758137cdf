import SmartFactory.Lib.MessagePackTally
import SmartFactory.Proofs.Plant.Discovery
import SmartFactory.Proofs.Gui.NodeTexts
import SmartFactory.Proofs.Bridge.WireFormat
import SmartFactory.Proofs.Typing

/-!
# `SmartFactory.Proofs.Plant.SameFrames`: three bridges and one plant

The repository has the same bridge three times: in C for the five sensors of the plant, and in Go
and with Qt for whatever the user has put into the table. Here the Go bridge and the Qt bridge have
the five sensors in their tables, and all three read the same values.

`framesAgree_iff` says when a client cannot tell their frames apart: exactly when the sensors that
are there are Booleans. The C bridge sends `false` for everything else. The server never lets a
client change the type of a sensor, so the bridges of a plant that was started with the default
configuration always agree (`framesAgree_of_start`).
-/

set_option autoImplicit false

namespace SmartFactory.Plant

open Bridge (NodeID Scalar Wire Sensor Mapping Service MapOrder Reading ReadValue ReadResult
  SensorMapping NodeIdLibrary utf8 cString)
open Gui (Prints Readable Engine.sensorMapping)
open MessagePack (Object Token Encodes readUnordered readUnordered_of_encodes tallyAll
  tally_eq_of_unordered tally_eq_of_tallyAll_eq)
open Server (World AddressSpace ServerDataType HttpEnv serverConfigSeedDefaults)
open TcpBridge (SensorSnapshot sensorCount sensorBrowseNames)

variable {N : UInt16} {w : World} {worlds : Fin sensorCount → World} {print : NodeID → String}
variable {readGo : Nat → NodeID → ReadResult} {readQt : Nat → NodeID → ReadValue}
variable {snap : SensorSnapshot} {lib : NodeIdLibrary} {s : Service}

/-! ### What the bridges read -/

/-- The node id of a sensor, as it is shown. -/
def plantNode (N : UInt16) (i : Fin sensorCount) : NodeID := ⟨N, .str (sensorBrowseNames i)⟩

/-- The row of a sensor in a table. -/
def plantMapping (print : NodeID → String) (N : UInt16) (i : Fin sensorCount) : Mapping :=
  ⟨sensorBrowseNames i, print (plantNode N i), 0, true⟩

/-- The table with the five sensors. -/
def plantMappings (print : NodeID → String) (N : UInt16) : List Mapping :=
  (List.finRange sensorCount).map (plantMapping print N)

/-- The bridges read the sensors, each of them in the same world. -/
structure SameReads (N : UInt16) (worlds : Fin sensorCount → World)
    (readGo : Nat → NodeID → ReadResult) (readQt : Nat → NodeID → ReadValue)
    (snap : SensorSnapshot) : Prop where
  go : ∀ i : Fin sensorCount,
    (readGo i (plantNode N i)).Shows (delivered (worlds i).space (plantNode N i))
  qt : ∀ i : Fin sensorCount,
    (readQt i (plantNode N i)).Shows (delivered (worlds i).space (plantNode N i))
  c : ∀ i, snap.values i = sensorOn N (worlds i) i

/-- The three frames are read as the same object. -/
def FramesAgree (lib : NodeIdLibrary) (o : MapOrder) (s : Service)
    (readGo : Nat → NodeID → ReadResult) (readQt : Nat → NodeID → ReadValue)
    (snap : SensorSnapshot) : Prop :=
  ∃ go qt frame,
    Bridge.readFrame lib.parseNodeID readGo o snap.timestampMs s = .ok go ∧
    Bridge.encodeFrame (s.cfg.mappings.map Engine.sensorMapping) s.seq snap.timestampMs readQt
      = some qt ∧
    readUnordered go = some frame ∧ readUnordered qt = some frame ∧
    readUnordered (TcpBridge.encodeFrame snap 512) = some frame

/-- The sensors that are there are Booleans. -/
def BooleanSensors (N : UInt16) (worlds : Fin sensorCount → World) : Prop :=
  ∀ i v, variableAt (worlds i).space (plantNode N i) = some v → ∃ b, v.value = .boolean b

/-- Nobody has written anything but scalars to them. -/
def ScalarSensors (N : UInt16) (worlds : Fin sensorCount → World) : Prop :=
  ∀ i v, variableAt (worlds i).space (plantNode N i) = some v → ∃ x : Server.Scalar, v.value = x

/-- The sensor that the Go bridge sends for what it has read. -/
def wireOf (x : Option Scalar) : Wire := x.elim (.bool false) Scalar.toWire

/-! ### The table -/

/-- The texts of the sensors come back as they are. -/
theorem readable_plantNode (hN : N ≠ 0) (i : Fin sensorCount) : Readable (plantNode N i) := by
  have hname : sensorBrowseNames i ≠ "" ∧ '\n' ∉ (sensorBrowseNames i).toList ∧
      '\x00' ∉ (sensorBrowseNames i).toList ∧
      (sensorBrowseNames i).toList.getLast?.all fun c => !Bridge.isSpace c := by
    fin_cases i <;> decide
  obtain ⟨hne, hline, hnul, hlast⟩ := hname
  refine ⟨hN, hne, hline, hnul, ?_⟩
  rintro ⟨c, hc, hspace⟩
  rw [hc, Option.all_some, hspace] at hlast
  exact absurd hlast (by decide)

/-- What comes back was not empty. -/
theorem print_ne_empty (h : Prints print) {id : NodeID} (hid : Readable id) : print id ≠ "" := by
  intro hempty
  have hparse := Gui.parseNodeId_print h hid
  rw [hempty] at hparse
  cases hparse

/-- The rows are numbered like the sensors. -/
theorem zipIdx_plantMappings : (plantMappings print N).zipIdx =
    (List.finRange sensorCount).map fun i => (plantMapping print N i, i.val) := rfl

/-- All rows count. -/
theorem selected_plantMappings (hprint : Prints print) (hN : N ≠ 0) :
    Bridge.selected (plantMappings print N) = plantMappings print N := by
  rw [Bridge.selected, List.filter_eq_self]
  intro m hm
  obtain ⟨i, -, rfl⟩ := List.mem_map.mp hm
  simp [plantMapping, print_ne_empty hprint (readable_plantNode hN i)]

/-- A row is sent under the name of its sensor. -/
theorem msgID_plantMapping (i : Fin sensorCount) :
    (plantMapping print N i).msgID = sensorBrowseNames i := by
  refine if_neg ?_
  show sensorBrowseNames i ≠ ""
  fin_cases i <;> decide

/-! ### The Go bridge -/

/-- The sensors of the Go bridge. -/
def goSensors (N : UInt16) (worlds : Fin sensorCount → World) : List Sensor :=
  (List.finRange sensorCount).map fun i =>
    ⟨sensorBrowseNames i, 0, wireOf (delivered (worlds i).space (plantNode N i))⟩

/-- The Go bridge sends what was delivered to it. -/
theorem readSensor_of_delivered (m : Bridge.ResolvedMapping) {r : ReadResult} {x : Option Scalar}
    (h : r.Shows x) : Bridge.readSensor m r = .ok ⟨m.msgID, m.typeCode, wireOf x⟩ := by
  cases x with
  | none => exact Bridge.readSensor_of_fails m h
  | some v =>
      obtain ⟨rest, rfl⟩ := h
      rfl

/-- The frame of the Go bridge has the five sensors. -/
theorem frameSensors_plant (hprint : Prints print) (hN : N ≠ 0) (hclient : s.client ≠ none)
    (hmappings : s.cfg.mappings = plantMappings print N)
    (hread : SameReads N worlds readGo readQt snap) :
    Bridge.frameSensors lib.parseNodeID readGo s = .ok (goSensors N worlds) := by
  rw [Bridge.frameSensors_ok_iff, hmappings, selected_plantMappings hprint hN,
    zipIdx_plantMappings, goSensors, List.forall₂_map_left_iff, List.forall₂_map_right_iff,
    List.forall₂_same]
  refine ⟨hclient, fun i _ => ?_⟩
  refine ⟨plantNode N i, Gui.parseQt_print lib hprint (readable_plantNode hN i), ?_⟩
  rw [readSensor_of_delivered _ (hread.go i), msgID_plantMapping]
  rfl

/-! ### The Qt bridge -/

/-- The Qt bridge packs what was delivered to it. -/
theorem packSensors_of_delivered {reading : Nat → Reading} (k : Nat) (ms : List SensorMapping)
    (h : ∀ m ∈ ms.zipIdx k, (readQt m.2 m.1.nodeId).Shows (reading m.2).scalar?) :
    Bridge.packSensors readQt k ms =
      some (Bridge.packedSensors reading (ms.zipIdx k)) := by
  induction ms generalizing k with
  | nil => rfl
  | cons m ms ih =>
      rw [List.zipIdx_cons, List.forall_mem_cons] at h
      rw [Bridge.packSensors, Bridge.packSensor_of_shows m h.1, ih (k + 1) h.2]
      simp [Bridge.packedSensors]

/-- What has been read of a Boolean sensor. -/
def readingOf (x : Option Scalar) : Reading :=
  match x with
  | some (.boolean b) => .boolean b
  | _ => .failed

/-- The readings of the sensors. -/
def plantReading (N : UInt16) (worlds : Fin sensorCount → World) (k : Nat) : Reading :=
  if h : k < sensorCount then
    readingOf (delivered (worlds ⟨k, h⟩).space (plantNode N ⟨k, h⟩))
  else .failed

/-- What a read of a sensor delivers. -/
theorem delivered_eq (i : Fin sensorCount) : delivered w.space (plantNode N i) =
    ((w.space.find (sensorId N i)).bind Server.UaNode.vAttr).bind
      fun v => v.value.scalar?.map deliver := by
  have hid : serverId (plantNode N i) = some (sensorId N i) := rfl
  rw [delivered, variableAt_of_serverId hid]

/-- A Boolean sensor, as all of the bridges see it. -/
theorem delivered_boolean (h : BooleanSensors N worlds) (i : Fin sensorCount) :
    (plantReading N worlds i).scalar? = delivered (worlds i).space (plantNode N i) ∧
      wireOf (delivered (worlds i).space (plantNode N i)) = .bool (sensorOn N (worlds i) i) := by
  have hboolean := h i
  have hid : serverId (plantNode N i) = some (sensorId N i) := rfl
  rw [variableAt_of_serverId hid] at hboolean
  rw [plantReading, dif_pos i.isLt, delivered_eq, sensorOn]
  show _ ∧ wireOf _ = .bool (Option.any _ ((Server.AddressSpace.find _ (sensorId N i)).bind _))
  cases hv : ((worlds i).space.find (sensorId N i)).bind Server.UaNode.vAttr with
  | none => exact ⟨rfl, rfl⟩
  | some v =>
      obtain ⟨b, hvalue⟩ := hboolean v hv
      rw [Option.bind_some, Option.any_some, hvalue]
      cases b
      · exact ⟨rfl, rfl⟩
      · exact ⟨rfl, rfl⟩

/-- The engine and the configuration have the same rows. -/
theorem mapping_sensorMapping (ms : List Mapping) :
    (ms.map Engine.sensorMapping).map SensorMapping.mapping = ms := by
  rw [List.map_map]
  exact List.map_id' ms

/-- The engine leaves out none of them. -/
theorem enabledOf_plantMappings (hprint : Prints print) (hN : N ≠ 0) :
    Bridge.enabledOf ((plantMappings print N).map Engine.sensorMapping) =
      (plantMappings print N).map Engine.sensorMapping := by
  have hselected := selected_plantMappings hprint hN
  rw [Bridge.selected, List.filter_eq_self] at hselected
  rw [Bridge.enabledOf, List.filter_eq_self]
  intro q hq
  obtain ⟨m, hm, rfl⟩ := List.mem_map.mp hq
  exact hselected m hm

/-- The engine reads the node of the row. -/
theorem nodeId_plantMapping (hprint : Prints print) (hN : N ≠ 0) (i : Fin sensorCount) :
    (Engine.sensorMapping (plantMapping print N i)).nodeId = plantNode N i := by
  have hid := readable_plantNode hN i
  simp only [Gui.Engine.sensorMapping, plantMapping, print_ne_empty hprint hid, if_false,
    Gui.Engine.nodeIdOf, Gui.parseNodeId_print hprint hid, Option.getD_some]

/-- So it packs the five sensors. -/
theorem packSensors_plant (hprint : Prints print) (hN : N ≠ 0)
    (hread : SameReads N worlds readGo readQt snap) (hboolean : BooleanSensors N worlds) :
    Bridge.packSensors readQt 0 ((plantMappings print N).map Engine.sensorMapping) =
      some (Bridge.packedSensors (plantReading N worlds)
        ((plantMappings print N).map Engine.sensorMapping).zipIdx) := by
  refine packSensors_of_delivered 0 _ fun m hm => ?_
  rw [List.zipIdx_map, zipIdx_plantMappings, List.map_map] at hm
  obtain ⟨i, -, rfl⟩ := List.mem_map.mp hm
  show (readQt i (Engine.sensorMapping (plantMapping print N i)).nodeId).Shows
    (plantReading N worlds i).scalar?
  rw [nodeId_plantMapping hprint hN, (delivered_boolean hboolean i).1]
  exact hread.qt i

/-! ### The frames -/

/-- The sensors of the C bridge. -/
def cSensors (snap : SensorSnapshot) : List Sensor :=
  (List.finRange sensorCount).map fun i => ⟨sensorBrowseNames i, 0, .bool (snap.values i)⟩

/-- The frame of the C bridge as an object, with its sensors. -/
theorem object_eq (snap : SensorSnapshot) :
    snap.object = Bridge.frameObject snap.seq snap.timestampMs (cSensors snap) := by
  rw [Bridge.frameObject, cSensors, List.map_map]
  rfl

/-- It is read as this object. -/
theorem readUnordered_encodeFrame (snap : SensorSnapshot) :
    readUnordered (TcpBridge.encodeFrame snap 512) = some snap.object.unordered := by
  rw [TcpBridge.encodeFrame_eq]
  exact readUnordered_of_encodes ⟨snap.object, TcpBridge.stream_packFrame snap, rfl⟩

/-- The object fits the buffer of the C bridge. -/
theorem size_object_le (snap : SensorSnapshot) : snap.object.size ≤ 512 := by
  have hread := readUnordered_encodeFrame snap
  rw [TcpBridge.encodeFrame_eq] at hread
  exact (MessagePack.size_le_of_readUnordered hread).trans (TcpBridge.packFrame_length_le snap)

/-- The frame of the Go bridge is read as what it has sent, if its strings are short enough. -/
theorem readUnordered_encode (o : MapOrder) (sequence ts : UInt64)
    (hshort : ∀ i v text, variableAt (worlds i).space (plantNode N i) = some v →
      v.value = Server.Scalar.string text → text.length < 2 ^ 31) :
    readUnordered (Bridge.encode o sequence ts (goSensors N worlds)) =
      some (Bridge.frameObject sequence ts (goSensors N worlds)).unordered := by
  refine readUnordered_of_encodes (Bridge.encodes_encode o sequence ts (fun x hx => ?_) ?_)
  · obtain ⟨i, -, rfl⟩ := List.mem_map.mp hx
    refine ⟨?_, fun b hb => ?_⟩
    · have hle := TcpBridge.utf8_browseName_length i
      show (utf8 (sensorBrowseNames i)).length < 2 ^ 32
      omega
    · -- Only a string has a length that could be too long.
      dsimp only [wireOf, delivered] at hb
      cases hv : variableAt (worlds i).space (plantNode N i) with
      | none =>
          rw [hv] at hb
          cases hb
      | some v =>
          rw [hv, Option.bind_some] at hb
          cases hx : v.value.scalar? with
          | none =>
              rw [hx] at hb
              cases hb
          | some x =>
              rw [hx, Option.map_some] at hb
              cases x with
              | boolean b | int32 n | double bits => cases hb
              | string text =>
                  have hlt := hshort i v text hv (Server.scalar?_eq_some.mp hx)
                  cases hb
                  rw [List.length_map]
                  omega
  · rw [goSensors, List.length_map, List.length_finRange]
    decide

/-- What the Go bridge reads and sends in a tick. -/
theorem readFrame_plant (lib : NodeIdLibrary) (o : MapOrder) (hprint : Prints print) (hN : N ≠ 0)
    (hclient : s.client ≠ none) (hmappings : s.cfg.mappings = plantMappings print N)
    (hread : SameReads N worlds readGo readQt snap) (ts : UInt64) :
    Bridge.readFrame lib.parseNodeID readGo o ts s =
      .ok (Bridge.encode o (s.seq + 1) ts (goSensors N worlds)) := by
  rw [Bridge.readFrame, frameSensors_plant hprint hN hclient hmappings hread]
  rfl

/-- The Go bridge sends Booleans as the C bridge does. -/
theorem goSensors_boolean (hread : SameReads N worlds readGo readQt snap)
    (hboolean : BooleanSensors N worlds) : goSensors N worlds = cSensors snap := by
  refine List.map_congr_left fun i _ => ?_
  rw [(delivered_boolean hboolean i).2, hread.c i]

/-- The Qt bridge sends what the C bridge sends. -/
theorem encodeFrame_plant (hprint : Prints print) (hN : N ≠ 0)
    (hread : SameReads N worlds readGo readQt snap) (hboolean : BooleanSensors N worlds)
    {sequence : UInt64} (hseq : snap.seq = sequence + 1) :
    ∃ qt, Bridge.encodeFrame ((plantMappings print N).map Engine.sensorMapping) sequence
      snap.timestampMs readQt = some qt ∧ readUnordered qt = some snap.object.unordered := by
  have hsensors : Bridge.sensorsOf (plantReading N worlds) (plantMappings print N) =
      cSensors snap := by
    rw [Bridge.sensorsOf, selected_plantMappings hprint hN, zipIdx_plantMappings, List.map_map,
      ← goSensors_boolean hread hboolean]
    refine List.map_congr_left fun i _ => ?_
    rw [Function.comp_apply, msgID_plantMapping, Reading.wire_eq, (delivered_boolean hboolean i).1]
    rfl
  have hobject : Bridge.frameObject (sequence + 1) snap.timestampMs
      (Bridge.sensorsOf (plantReading N worlds)
        (((plantMappings print N).map Engine.sensorMapping).map SensorMapping.mapping)) =
      snap.object := by
    rw [mapping_sensorMapping, hsensors, ← hseq, ← object_eq]
  have hshort : Bridge.Short
      (Bridge.enabledOf ((plantMappings print N).map Engine.sensorMapping)) := by
    rw [enabledOf_plantMappings hprint hN]
    refine ⟨?_, fun q hq => ?_⟩
    · rw [plantMappings, List.length_map, List.length_map, List.length_finRange]
      decide
    · obtain ⟨m, hm, rfl⟩ := List.mem_map.mp hq
      obtain ⟨i, -, rfl⟩ := List.mem_map.mp hm
      have hle := TcpBridge.utf8_browseName_length i
      have hid := Bridge.utf8_msgID (Engine.sensorMapping (plantMapping print N i))
      have hname : (Engine.sensorMapping (plantMapping print N i)).mapping.msgID =
          sensorBrowseNames i := msgID_plantMapping i
      rw [hname] at hid
      rw [← hid]
      omega
  have hcut := Bridge.cut_packedFrame (plantReading N worlds)
    ((plantMappings print N).map Engine.sensorMapping) sequence snap.timestampMs
  have hencodes : Encodes _ (Bridge.packedFrame (plantReading N worlds) _ sequence
    snap.timestampMs) := Bridge.encodes_packedFrame hshort sequence snap.timestampMs
  -- The packed frame is one of the object of the C bridge, and short: five sensors with Booleans.
  rw [hobject] at hcut hencodes
  have hsize := size_object_le snap
  refine ⟨_, ?_, readUnordered_of_encodes hencodes⟩
  rw [← Bridge.qByteArray_of_lt (hcut.lt_iff.mpr (by omega)), Bridge.packedFrame,
    enabledOf_plantMappings hprint hN]
  have hpacked := packSensors_plant hprint hN hread hboolean
  have henabled := enabledOf_plantMappings hprint hN
  rw [Bridge.enabledOf] at henabled
  simp only [Bridge.encodeFrame, henabled, hpacked, Option.bind_eq_bind, Option.bind_some]

/-! ### The Booleans of a frame -/

/-- A Boolean counts. -/
def countBool : Token → Int
  | .atom (.bool _) => 1
  | _ => 0

/-- A frame has the Booleans of its sensors. -/
theorem countBool_frameObject (sequence ts : UInt64) (sensors : List Sensor) :
    (Bridge.frameObject sequence ts sensors).tally countBool =
      tallyAll countBool (sensors.map Sensor.object) := by
  simp [Bridge.frameObject, Bridge.fields, Object.tally, MessagePack.tallyEntries, countBool]

/-- And a sensor has that of its value. -/
theorem countBool_object (x : Sensor) :
    x.object.tally countBool = x.value.object.tally countBool := by
  simp [Sensor.object, Bridge.fields, Object.tally, MessagePack.tallyEntries, countBool]

/-- A sensor that is not a Boolean is missing among the Booleans. -/
theorem countBool_deliver (x : Server.Scalar) : (deliver x).toWire.object.tally countBool =
    if x.dataType = .boolean then 1 else 0 := by
  cases x with
  | boolean b => rfl
  | int32 n => rfl
  | double bits => rfl
  | string text => rfl

/-- A frame that is read as that of the C bridge has a Boolean for each sensor. -/
theorem booleanSensors_of_same (hscalar : ScalarSensors N worlds) {sequence ts : UInt64}
    (hsame : snap.object.unordered =
      (Bridge.frameObject sequence ts (goSensors N worlds)).unordered) :
    BooleanSensors N worlds := by
  have hsum := tally_eq_of_unordered countBool hsame
  rw [object_eq, countBool_frameObject, countBool_frameObject, cSensors, goSensors, List.map_map,
    List.map_map] at hsum
  -- The C bridge sends a Boolean for each sensor, and the Go bridge at most one. With the same sum
  -- it sends exactly one.
  have hle (i : Fin sensorCount) :
      (wireOf (delivered (worlds i).space (plantNode N i))).object.tally countBool ≤ 1 := by
    rw [delivered]
    cases hv : variableAt (worlds i).space (plantNode N i) with
    | none => exact Int.le_refl 1
    | some v =>
        obtain ⟨x, hx⟩ := hscalar i v hv
        rw [Option.bind_some, hx]
        show (deliver x).toWire.object.tally countBool ≤ 1
        rw [countBool_deliver]
        split_ifs <;> decide
  have hcount := tally_eq_of_tallyAll_eq countBool (fun i _ => ?_) hsum
  · intro i v hv
    have hi := hcount i (List.mem_finRange i)
    obtain ⟨x, hx⟩ := hscalar i v hv
    rw [Function.comp_apply, Function.comp_apply, countBool_object, countBool_object, delivered,
      hv, Option.bind_some, hx] at hi
    have hdeliver : (1 : Int) = if x.dataType = .boolean then 1 else 0 :=
      hi.trans (countBool_deliver x)
    cases x with
    | boolean b => exact ⟨b, hx⟩
    | int32 n | double bits | string text =>
        have hne : (1 : Int) ≠ 0 := by decide
        exact absurd hdeliver hne
  · rw [Function.comp_apply, Function.comp_apply, countBool_object, countBool_object]
    exact hle i

/-- **The three bridges agree** exactly when the sensors that are there are Booleans. The tables of
the Go and of the Qt bridge have the five sensors, in a namespace that is not 0, all three read the
same scalars, and the frames are to have the same sequence number and time. -/
theorem framesAgree_iff (hprint : Prints print) (hN : N ≠ 0) (o : MapOrder)
    (hclient : s.client ≠ none) (hmappings : s.cfg.mappings = plantMappings print N)
    (hseq : snap.seq = s.seq + 1) (hread : SameReads N worlds readGo readQt snap)
    (hscalar : ScalarSensors N worlds)
    (hshort : ∀ i v text, variableAt (worlds i).space (plantNode N i) = some v →
      v.value = Server.Scalar.string text → text.length < 2 ^ 31) :
    FramesAgree lib o s readGo readQt snap ↔ BooleanSensors N worlds := by
  have hgo := readFrame_plant lib o hprint hN hclient hmappings hread snap.timestampMs
  have hgoRead := readUnordered_encode o (s.seq + 1) snap.timestampMs hshort
  have hcRead := readUnordered_encodeFrame snap
  constructor
  · rintro ⟨go, qt, frame, hgo', -, hgoFrame, -, hcFrame⟩
    -- The Go bridge sends what was read, and the C bridge a Boolean for each sensor.
    obtain rfl := Except.ok.inj (hgo.symm.trans hgo')
    have hsame : snap.object.unordered =
        (Bridge.frameObject (s.seq + 1) snap.timestampMs (goSensors N worlds)).unordered := by
      rw [hgoRead] at hgoFrame
      rw [hcRead] at hcFrame
      exact Option.some.inj (hcFrame.trans hgoFrame.symm)
    exact booleanSensors_of_same hscalar hsame
  · intro hboolean
    obtain ⟨qt, hqt, hqtRead⟩ := encodeFrame_plant hprint hN hread hboolean hseq
    rw [← hmappings] at hqt
    refine ⟨_, qt, snap.object.unordered, hgo, hqt, ?_, hqtRead, hcRead⟩
    rw [hgoRead, goSensors_boolean hread hboolean, object_eq, hseq]

/-- An answer of the server for the Go bridge. -/
def goAnswer (space : AddressSpace) (nodeId : NodeID) : ReadResult :=
  match delivered space nodeId with
  | none => .results [some ⟨0x80340000, none⟩]
  | some v => .results [some ⟨Bridge.statusOK, some (.scalar v)⟩]

/-- Three reads of one world, which nothing has changed in between. -/
theorem sameReads_answered (w : World) (sequence ts : UInt64) :
    SameReads N (fun _ => w) (fun _ => goAnswer w.space) (fun _ => answerRead w.space)
      ⟨sensorOn N w, sequence, ts⟩ where
  go i := by
    rw [goAnswer]
    cases delivered w.space (plantNode N i) with
    | none => exact .inl (by decide)
    | some v => exact ⟨[], rfl⟩
  qt i := by
    rw [answerRead]
    cases delivered w.space (plantNode N i) with
    | none => exact .inr rfl
    | some v => rfl
  c _ := rfl

/-- A server on which the first sensor is a number. -/
def numberWorld : World :=
  { Server.nodeManagerCreate 1 serverConfigSeedDefaults none with
    space := [⟨sensorId 1 0, Server.objectsFolder, Server.snprintf _ (cString "Sensor1"),
      some ⟨.int32, .scalar (.int32 7), none, none⟩⟩] }

/-- A service that has the sensors in its table. -/
def plantService : Service :=
  Bridge.connected ((plantMappings Bridge.showNodeID 1).map Engine.sensorMapping)

/-- The Go bridge sends the number. -/
theorem framesAgree_iff_number : ¬ FramesAgree Bridge.basicLibrary
    ⟨fun _ fs => fs.reverse, fun _ fs => fs.reverse_perm⟩ plantService
    (fun _ => goAnswer numberWorld.space) (fun _ => answerRead numberWorld.space)
    ⟨sensorOn 1 numberWorld, 1, 1769516986221⟩ := by
  have hfirst : variableAt numberWorld.space (plantNode 1 0) =
      some ⟨.int32, .scalar (.int32 7), none, none⟩ := by
    decide
  have hnumber : ∀ i v, variableAt numberWorld.space (plantNode 1 i) = some v →
      v.value = .scalar (.int32 7) := by
    intro i v hv
    have hid : serverId (plantNode 1 i) = some (sensorId 1 i) := rfl
    rw [variableAt_of_serverId hid] at hv
    obtain ⟨n, hn, hattr⟩ := Option.bind_eq_some_iff.mp hv
    obtain rfl := List.mem_singleton.mp (List.mem_of_find?_eq_some hn)
    obtain rfl := Option.some.inj hattr
    rfl
  intro hagree
  have hboolean := (framesAgree_iff Gui.prints_showNodeID (by decide) _ (Option.some_ne_none 0)
    rfl rfl (sameReads_answered numberWorld 1 1769516986221) (fun i v hv => ⟨_, hnumber i v hv⟩)
    ?_).mp hagree
  · -- The first sensor holds the number 7.
    obtain ⟨b, hb⟩ := hboolean 0 _ hfirst
    cases hb
  · intro i v text hv htext
    cases (hnumber i v hv).symm.trans htext

/-! ### The plant -/

variable {env : HttpEnv}

/-- Whatever the server does, its values keep their types. -/
theorem typed_later {w' : World} (h : Equipped N w) (htyped : w.Typed)
    (hlater : Relation.ReflTransGen (Spares env N) w w') : w'.Typed := by
  induction hlater with
  | refl => exact htyped
  | tail hbefore hs ih =>
      have hsound := (h.later hbefore).sound
      cases hs with
      | event _ hs =>
          rcases Server.stepEvent_cases hsound.mutex hs with hsame | ⟨op, -, hstep⟩
          · rw [hsame]
            exact ih
          · exact ih.operation hstep
      | restart hs _ => exact Server.typed_start hs

/-- The sensors of the plant are Booleans. -/
theorem booleanSensors_of_equipped (h : ∀ i, Equipped N (worlds i) ∧ (worlds i).Typed) :
    BooleanSensors N worlds := by
  intro i v hv
  obtain ⟨hequipped, htyped⟩ := h i
  obtain ⟨name, htree⟩ := hequipped.hasSensors.sensors i
  have hid : serverId (plantNode N i) = some (sensorId N i) := rfl
  rw [variableAt_of_serverId hid] at hv
  obtain ⟨n, hn, hattr⟩ := Option.bind_eq_some_iff.mp hv
  rw [World.tree, hn, Option.map_some, Option.some.injEq, Server.TreeNode.mk.injEq, hattr] at htree
  obtain ⟨x, hx, htype⟩ := htyped.node n (List.mem_of_find?_eq_some hn) v hattr
  have hboolean : x.dataType = .boolean := htype.trans (Option.some.inj htree.1)
  cases x with
  | boolean b => exact ⟨b, hx⟩
  | int32 n | double bits | string text => cases hboolean

/-- **The bridges of the plant agree.** The server was started with the default configuration, and
nobody has deleted a sensor since. Whatever else has happened to it, the three bridges send the
same. -/
theorem framesAgree_of_start {host : Server.Host} {file : Option Server.CString}
    (hprint : Prints print) (hN : N ≠ 0) (o : MapOrder)
    (hstart : Server.start host N.toNat serverConfigSeedDefaults file = some w)
    (hlater : ∀ i, Relation.ReflTransGen (Spares env N) w (worlds i))
    (hclient : s.client ≠ none) (hmappings : s.cfg.mappings = plantMappings print N)
    (hseq : snap.seq = s.seq + 1) (hread : SameReads N worlds readGo readQt snap) :
    FramesAgree lib o s readGo readQt snap := by
  have hequipped := equipped_start hstart
  -- Client writes keep the type of a node, so that a sensor holds a Boolean at all times.
  have hboolean : BooleanSensors N worlds := booleanSensors_of_equipped fun i =>
    ⟨hequipped.later (hlater i), typed_later hequipped (Server.typed_start hstart) (hlater i)⟩
  have hscalar : ScalarSensors N worlds := fun i v hv =>
    have ⟨b, hb⟩ := hboolean i v hv
    ⟨_, hb⟩
  refine (framesAgree_iff hprint hN o hclient hmappings hseq hread hscalar ?_).mpr hboolean
  intro i v text hv htext
  obtain ⟨b, hb⟩ := hboolean i v hv
  cases htext.symm.trans hb

/-- The server has just been started. -/
theorem framesAgree_of_start_answered : ∃ w,
    Server.start .ok 1 serverConfigSeedDefaults none = some w ∧
    FramesAgree Bridge.basicLibrary ⟨fun _ fs => fs.reverse, fun _ fs => fs.reverse_perm⟩
      plantService (fun _ => goAnswer w.space) (fun _ => answerRead w.space)
      ⟨sensorOn 1 w, 1, 1769516986221⟩ := by
  obtain ⟨w, hw⟩ := Server.exists_start .ok 1 none (fun _ => rfl) Server.distinctNames_defaults
  have hlater : ∀ _ : Fin sensorCount, Relation.ReflTransGen (Spares Server.fillEnv 1) w w :=
    fun _ => .refl
  have hN : (1 : UInt16) ≠ 0 := by decide
  exact ⟨w, hw, framesAgree_of_start Gui.prints_showNodeID hN _ hw hlater (Option.some_ne_none 0)
    rfl rfl (sameReads_answered w 1 1769516986221)⟩

end SmartFactory.Plant
