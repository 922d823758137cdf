import SmartFactory.Bridge.BridgeEngine
import SmartFactory.Proofs.Bridge.FrameBytes
import Mathlib.Data.List.TakeWhile

/-!
# `SmartFactory.Proofs.Bridge.WireFormat`: the two bridges send the same frames

Both bridges answer the same reads, so they are compared on `Reading`s: a read that failed or
a scalar of one of the five types that both of them know. The Go bridge sees it as a
`ReadResult` and the Qt bridge as a `ReadValue`.

`bridgesAgree_iff` is when their frames are read as the same object. The bytes differ, since
only the Qt bridge writes shortest integers and only the Go bridge leaves the order of the
entries open. What stands in the way is the size: the Qt bridge casts that of the whole frame
to an `int`, so from 2^31 bytes on it sends a part of the frame.
-/

set_option autoImplicit false

namespace SmartFactory.Bridge

open MessagePack (Object Encodes IsToken shortNat shortInt bigEndian strHeader arrayHeader
  strHeaderSize arrayHeaderSize intSize isToken_str isToken_arrayHeader isToken_shortInt
  isToken_shortNat isToken_float32 isToken_float64 isToken_bool encodes_atom
  encodes_array readUnordered readUnordered_of_encodes size_le_of_readUnordered
  shortInt_length shortNat_length)

/-! ### Readings -/

/-- What a read of a node gives: nothing, or a scalar that both bridges can send. -/
inductive Reading where
  | failed
  | boolean (b : Bool)
  | int32 (n : Int32)
  | int64 (n : Int64)
  | float (bits : UInt32)
  | double (bits : UInt64)
  deriving DecidableEq

/-- The scalar that was read. -/
def Reading.scalar? : Reading → Option Scalar
  | .failed => none
  | .boolean b => some (.boolean b)
  | .int32 n => some (.int32 n)
  | .int64 n => some (.int64 n)
  | .float bits => some (.float bits)
  | .double bits => some (.double bits)

/-- The value that is sent. -/
def Reading.wire : Reading → Wire
  | .failed => .bool false
  | .boolean b => .bool b
  | .int32 n => .int32 n
  | .int64 n => .int64 n
  | .float bits => .float32 bits
  | .double bits => .float64 bits

/-- A read of the Go bridge that failed: an error, no result, a bad status or no value. -/
def ReadResult.Fails : ReadResult → Prop
  | .failed _ => True
  | .results [] => True
  | .results (none :: _) => True
  | .results (some dv :: _) => dv.status ≠ statusOK ∨ dv.value = none

/-- The read of the Go bridge gave this scalar, or it failed. -/
def ReadResult.Shows (r : ReadResult) : Option Scalar → Prop
  | none => r.Fails
  | some v => ∃ rest, r = .results (some ⟨statusOK, some (.scalar v)⟩ :: rest)

/-- The read of the Qt bridge gave this scalar, or it failed. -/
def ReadValue.Shows (r : ReadValue) : Option Scalar → Prop
  | none => r.ret ≠ statusCodeGood ∨ r.value = none
  | some v => r = ⟨statusCodeGood, some (.scalar v)⟩

/-- The sensors of a frame: one for each mapping that counts, in the order of the
configuration. -/
def sensorsOf (reading : Nat → Reading) (ms : List Mapping) : List Sensor :=
  (selected ms).zipIdx.map fun m => ⟨m.1.msgID, m.1.typeCode, (reading m.2).wire⟩

/-- The mapping of the configuration that the Qt bridge has as this one. -/
def SensorMapping.mapping (m : SensorMapping) : Mapping :=
  ⟨m.messagePackId, m.nodeIdString, m.typeCode, m.enabled⟩

/-- A read that has failed is sent as `false`. -/
theorem Reading.wire_eq (x : Reading) : x.wire = x.scalar?.elim (.bool false) Scalar.toWire := by
  cases x <;> rfl

/-! ### The Go bridge -/

section
variable {native : String → Option NodeID} {read : Nat → NodeID → ReadResult}
  {reading : Nat → Reading}

/-- A failed read is sent as `false`. -/
theorem readSensor_of_fails (m : ResolvedMapping) {r : ReadResult} (h : r.Fails) :
    readSensor m r = .ok ⟨m.msgID, m.typeCode, .bool false⟩ := by
  rcases r with err | ⟨_ | ⟨_ | ⟨status, value⟩, rest⟩⟩
  · rfl
  · rfl
  · rfl
  · have hfalse : dataValueToWire (some ⟨status, value⟩) = some (.bool false) := by
      rw [dataValueToWire]
      split
      · rfl
      · rename_i hstatus
        rcases h with h | h
        · exact absurd h hstatus
        · dsimp only at h
          rw [h]
    rw [readSensor, hfalse]

/-- The Go bridge sends the reading. -/
theorem readSensor_of_shows (m : ResolvedMapping) {r : ReadResult} {x : Reading}
    (h : r.Shows x.scalar?) : readSensor m r = .ok ⟨m.msgID, m.typeCode, x.wire⟩ := by
  rw [x.wire_eq]
  cases hx : x.scalar? with
  | none =>
      rw [hx] at h
      exact readSensor_of_fails m h
  | some v =>
      rw [hx] at h
      obtain ⟨rest, rfl⟩ := h
      rfl

/-- The Go bridge makes a frame of the readings. -/
theorem frameSensors_of_shows {s : Service} (hclient : s.client ≠ none)
    (hparse : ∀ m ∈ s.cfg.mappings, m.nodeIDString ≠ "" →
      ∃ nid, parseQt native m.nodeIDString = .ok nid)
    (hread : ∀ i nid, (read i nid).Shows (reading i).scalar?) :
    frameSensors native read s = .ok (sensorsOf reading s.cfg.mappings) := by
  rw [frameSensors_ok_iff, sensorsOf, List.forall₂_map_right_iff, List.forall₂_same]
  refine ⟨hclient, fun m hm => ?_⟩
  have hmem := List.mem_filter.mp (List.fst_mem_of_mem_zipIdx hm)
  obtain ⟨nid, hnid⟩ := hparse m.1 hmem.1 (by simpa using (Bool.and_eq_true_iff.mp hmem.2).2)
  exact ⟨nid, hnid, readSensor_of_shows _ (hread m.2 nid)⟩

end

/-! ### The Qt bridge -/

/-- The bytes of a value in the Qt bridge. -/
def Reading.packed (x : Reading) : MessagePack.Bytes :=
  match x.scalar? with
  | none => packBool false
  | some v => packScalar v

/-- The Qt bridge packs it. -/
theorem packValue_of_shows {r : ReadValue} {x : Reading} (h : r.Shows x.scalar?) :
    packValue r = some x.packed := by
  rw [Reading.packed, packValue]
  cases hx : x.scalar? with
  | none =>
      rw [hx] at h
      split
      · rename_i hret
        rcases h with h | h
        · exact absurd hret h
        · rw [h]
      · rfl
  | some v =>
      rw [hx] at h
      cases h
      rfl

/-- The Qt bridge sends the value that the Go bridge sends. -/
theorem isToken_packed (x : Reading) : IsToken (.atom x.wire.object) x.packed := by
  cases x with
  | failed => exact isToken_bool false
  | boolean b => exact isToken_bool b
  | int32 n =>
      have hlo := n.le_toInt
      have hhi := n.toInt_lt
      exact isToken_shortInt (by omega) (by omega)
  | int64 n =>
      have hlo := n.le_toInt
      have hhi := n.toInt_lt
      exact isToken_shortInt (by omega) (by omega)
  | float bits => exact isToken_float32 bits
  | double bits => exact isToken_float64 bits

/-- Both take the same number of bytes for it. -/
theorem packed_length (x : Reading) : x.packed.length = x.wire.object.size := by
  cases x with
  | failed => rfl
  | boolean b => rfl
  | int32 n => exact shortInt_length _
  | int64 n => exact shortInt_length _
  | float bits => rfl
  | double bits => rfl

/-- A string that was measured right is packed as the specification has it. -/
theorem packStr_eq {k : String} {n : UInt32} (h : (utf8 k).length = n.toNat) :
    packStr n ++ utf8 k = encodeString (utf8 k) := by
  rw [packStr, encodeString, h]

/-- The bytes of a sensor in the Qt bridge. -/
def packedSensor (m : SensorMapping) (x : Reading) : MessagePack.Bytes :=
  encodeMap [("id", packStr (UInt32.ofNat m.msgId.length) ++ m.msgId),
    ("type", shortNat m.typeCode.toNat), ("value", x.packed)]

/-- The keys are written with the lengths that they have. -/
theorem packSensor_of_shows (m : SensorMapping) {r : ReadValue} {x : Reading}
    (h : r.Shows x.scalar?) : packSensor m r = some (packedSensor m x) := by
  have hid : packStr 2 ++ utf8 "id" = encodeString (utf8 "id") := packStr_eq (by decide)
  have htype : packStr 4 ++ utf8 "type" = encodeString (utf8 "type") := packStr_eq (by decide)
  have hvalue : packStr 5 ++ utf8 "value" = encodeString (utf8 "value") :=
    packStr_eq (by decide)
  simp [packSensor, packValue_of_shows h, packedSensor, encodeMap, ← hid, ← htype, ← hvalue,
    packMap]

/-- The Qt bridge packs one reading after the other. -/
theorem packSensors_of_shows {readQt : Nat → NodeID → ReadValue} {reading : Nat → Reading}
    (hread : ∀ i nid, (readQt i nid).Shows (reading i).scalar?) (i : Nat)
    (ms : List SensorMapping) :
    packSensors readQt i ms =
      some (((ms.zipIdx i).map fun m => packedSensor m.1 (reading m.2)).flatten) := by
  induction ms generalizing i with
  | nil => rfl
  | cons m ms ih => simp [packSensors, packSensor_of_shows m (hread i m.nodeId), ih]

/-- The frame of the Qt bridge is a map of four entries. -/
theorem packFrame_eq (sequence ts : UInt64) (enabled : List SensorMapping)
    (sensors : MessagePack.Bytes) :
    packFrame sequence ts enabled sensors =
      encodeMap [("version", shortNat protocolVersion.toNat), ("sequence", shortNat sequence.toNat),
        ("timestampMs", shortNat ts.toNat),
        ("sensors", packArray (UInt32.ofNat enabled.length) ++ sensors)] := by
  have hversion : packStr 7 ++ utf8 "version" = encodeString (utf8 "version") :=
    packStr_eq (by decide)
  have hsequence : packStr 8 ++ utf8 "sequence" = encodeString (utf8 "sequence") :=
    packStr_eq (by decide)
  have hts : packStr 11 ++ utf8 "timestampMs" = encodeString (utf8 "timestampMs") :=
    packStr_eq (by decide)
  have hsensors : packStr 7 ++ utf8 "sensors" = encodeString (utf8 "sensors") :=
    packStr_eq (by decide)
  simp [packFrame, encodeMap, ← hversion, ← hsequence, ← hts, ← hsensors, packMap]

/-! ### What the Qt bridge writes -/

/-- A number is encoded in its shortest form. -/
theorem encodes_shortNat {n : Nat} (hn : n < 2 ^ 64) : Encodes (.int n) (shortNat n) :=
  encodes_atom (isToken_shortNat hn)

/-- The sensor that the Go bridge sends for a mapping of the Qt bridge. -/
def sensorOf (m : SensorMapping) (x : Reading) : Sensor := ⟨m.mapping.msgID, m.typeCode, x.wire⟩

/-- Both bridges send a row under the same name. -/
theorem utf8_msgID (m : SensorMapping) : utf8 m.mapping.msgID = m.msgId := by
  rw [Mapping.msgID, SensorMapping.msgId, apply_ite utf8]
  rfl

/-- A packed sensor encodes the object of the sensor. -/
theorem encodes_packedSensor {m : SensorMapping} (hm : m.msgId.length < 2 ^ 32) (x : Reading) :
    Encodes (sensorOf m x).object (packedSensor m x) := by
  have hid : Encodes (.str (utf8 (sensorOf m x).id))
      (packStr (UInt32.ofNat m.msgId.length) ++ m.msgId) := by
    rw [packStr, UInt32.toNat_ofNat', Nat.mod_eq_of_lt hm, sensorOf, utf8_msgID]
    exact encodes_atom (isToken_str hm)
  exact encodes_encodeMap (by simp)
    (.cons (encodesField (by decide) hid)
      (.cons (encodesField (by decide) (encodes_shortNat (by
          have hlt := m.typeCode.toNat_lt
          simp only [sensorOf]
          omega)))
        (.cons (encodesField (by decide) (encodes_atom (isToken_packed x))) .nil)))
    (List.Perm.refl _)

section
variable (reading : Nat → Reading)

/-- The mappings for which the Qt bridge writes a sensor. -/
def enabledOf (qs : List SensorMapping) : List SensorMapping :=
  qs.filter fun m => m.enabled && m.nodeIdString ≠ ""

/-- The bytes of the sensors in the Qt bridge. -/
def packedSensors (ms : List (SensorMapping × Nat)) : MessagePack.Bytes :=
  (ms.map fun m => packedSensor m.1 (reading m.2)).flatten

/-- The bytes of the frame in the Qt bridge, before it is copied. -/
def packedFrame (qs : List SensorMapping) (sequence ts : UInt64) : MessagePack.Bytes :=
  packFrame (sequence + 1) ts (enabledOf qs) (packedSensors reading (enabledOf qs).zipIdx)

variable {reading}

/-- The frame of the Qt bridge, with its length in an `int`. -/
theorem encodeFrame_of_shows {readQt : Nat → NodeID → ReadValue}
    (hread : ∀ i nid, (readQt i nid).Shows (reading i).scalar?) (qs : List SensorMapping)
    (sequence ts : UInt64) :
    encodeFrame qs sequence ts readQt =
      qByteArray (packedFrame reading qs sequence ts)
        (Int32.ofNat (packedFrame reading qs sequence ts).length).toInt := by
  simp only [encodeFrame, packSensors_of_shows hread, packedFrame, packedSensors, enabledOf,
    Option.bind_eq_bind, Option.bind_some]

/-- Both bridges pick the same mappings. -/
theorem selected_mapping (qs : List SensorMapping) :
    selected (qs.map SensorMapping.mapping) = (enabledOf qs).map SensorMapping.mapping := by
  rw [selected, List.filter_map]
  rfl

/-- The sensors of the frame are those of the rows that count. -/
theorem sensorsOf_mapping (qs : List SensorMapping) :
    sensorsOf reading (qs.map SensorMapping.mapping) =
      (enabledOf qs).zipIdx.map fun m => sensorOf m.1 (reading m.2) := by
  rw [sensorsOf, selected_mapping, List.zipIdx_map, List.map_map]
  rfl

/-- The lengths in the frame are those that the format can write. -/
structure Short (ms : List SensorMapping) : Prop where
  length : ms.length < 2 ^ 32
  msgId : ∀ m ∈ ms, m.msgId.length < 2 ^ 32

/-- Sensors that fit have short names. -/
theorem short_of_fits {qs : List SensorMapping}
    (hlen : (sensorsOf reading (qs.map SensorMapping.mapping)).length < 2 ^ 32)
    (hfits : ∀ s ∈ sensorsOf reading (qs.map SensorMapping.mapping), s.Fits) :
    Short (enabledOf qs) := by
  rw [sensorsOf_mapping] at hlen hfits
  refine ⟨by simpa using hlen, fun m hm => ?_⟩
  obtain ⟨i, hi, rfl⟩ := List.getElem_of_mem hm
  have hid := (hfits _ (List.mem_map_of_mem
    (List.mk_mem_zipIdx_iff_getElem?.mpr (List.getElem?_eq_getElem hi)))).id
  rwa [sensorOf, utf8_msgID] at hid

/-- A packed frame encodes the object of the frame. -/
theorem encodes_packedFrame {qs : List SensorMapping} (hshort : Short (enabledOf qs))
    (sequence ts : UInt64) :
    Encodes (frameObject (sequence + 1) ts (sensorsOf reading (qs.map SensorMapping.mapping)))
      (packedFrame reading qs sequence ts) := by
  have hsensors : List.Forall₂ Encodes
      ((sensorsOf reading (qs.map SensorMapping.mapping)).map Sensor.object)
      ((enabledOf qs).zipIdx.map fun m => packedSensor m.1 (reading m.2)) := by
    rw [sensorsOf_mapping, List.map_map, List.forall₂_map_left_iff, List.forall₂_map_right_iff,
      List.forall₂_same]
    exact fun m hm =>
      encodes_packedSensor (hshort.msgId m.1 (List.fst_mem_of_mem_zipIdx hm)) (reading m.2)
  have hlen : ((sensorsOf reading (qs.map SensorMapping.mapping)).map Sensor.object).length =
      (enabledOf qs).length := by
    rw [sensorsOf_mapping, List.length_map, List.length_map, List.length_zipIdx]
  -- The length of the list is cast to 32 bits, and the frame is short enough for that.
  have hhd : IsToken (.array
        ((sensorsOf reading (qs.map SensorMapping.mapping)).map Sensor.object).length)
      (packArray (UInt32.ofNat (enabledOf qs).length)) := by
    rw [hlen, packArray, UInt32.toNat_ofNat', Nat.mod_eq_of_lt hshort.length]
    exact isToken_arrayHeader hshort.length
  have hversion := protocolVersion.toNat_lt
  have hsequence := (sequence + 1).toNat_lt
  have hts := ts.toNat_lt
  rw [packedFrame, packFrame_eq]
  exact encodes_encodeMap (by simp)
    (.cons (encodesField (by decide) (encodes_shortNat (by omega)))
      (.cons (encodesField (by decide) (encodes_shortNat hsequence))
        (.cons (encodesField (by decide) (encodes_shortNat hts))
          (.cons (encodesField (by decide) (encodes_array hhd hsensors)) .nil))))
    (List.Perm.refl _)

end

/-! ### Sizes -/

/-- So many bytes are written for an object of this size: as many as its shortest form has, or
more than an `int` can count. -/
def Cut (written size : Nat) : Prop := written ≤ size ∧ (written = size ∨ 2 ^ 31 ≤ written)

/-- What is not cut has its length. -/
theorem Cut.refl (n : Nat) : Cut n n := ⟨Nat.le_refl n, .inl rfl⟩

/-- Two parts, one behind the other. -/
theorem Cut.add {c c' n n' : Nat} (h : Cut c n) (h' : Cut c' n') : Cut (c + c') (n + n') := by
  unfold Cut at *
  omega

/-- A cut does not bring a length below the limit. -/
theorem Cut.lt_iff {c n : Nat} (h : Cut c n) : c < 2 ^ 31 ↔ n < 2 ^ 31 := by
  unfold Cut at h
  omega

/-- Any number of parts. -/
theorem Cut.sum {α : Type} {f g : α → Nat} {as : List α} (h : ∀ a ∈ as, Cut (f a) (g a)) :
    Cut (as.map f).sum (as.map g).sum := by
  induction as with
  | nil => exact Cut.refl 0
  | cons a as ih =>
      rw [List.forall_mem_cons] at h
      simpa using h.1.add (ih h.2)

/-- A header for a length that is cut, before a body of at least that length. `size` is the
size of the header. -/
theorem Cut.header {size : Nat → Nat} (hsmall : ∀ n, 1 ≤ size n ∧ size n ≤ 5)
    (hlarge : ∀ n, 0x10000 ≤ n → size n = 5) {n c s : Nat} (hbody : Cut c s) (hn : n ≤ c) :
    Cut (size (n % 2 ^ 32) + c) (size n + s) := by
  rcases Nat.lt_or_ge n (2 ^ 32) with hlt | hge
  · rw [Nat.mod_eq_of_lt hlt]
    exact (Cut.refl _).add hbody
  · have hcut := hsmall (n % 2 ^ 32)
    have hfull := hlarge n (by omega)
    unfold Cut at *
    omega

/-- A string whose length is cut. -/
theorem cut_string (s : MessagePack.Bytes) :
    Cut (packStr (UInt32.ofNat s.length) ++ s).length (Object.str s).size := by
  rw [List.length_append, packStr, MessagePack.strHeader_length, UInt32.toNat_ofNat',
    Object.size]
  exact Cut.header MessagePack.strHeaderSize_bounds (fun _ => MessagePack.strHeaderSize_of_large)
    (Cut.refl _) (Nat.le_refl _)

/-- An array whose length is cut. Its elements have one byte each at least. -/
theorem cut_array {os : List Object} {body : MessagePack.Bytes}
    (hbody : Cut body.length (MessagePack.sizeAll os)) (hlen : os.length ≤ body.length) :
    Cut (packArray (UInt32.ofNat os.length) ++ body).length (Object.array os).size := by
  rw [List.length_append, packArray, MessagePack.arrayHeader_length, UInt32.toNat_ofNat',
    Object.size]
  exact Cut.header MessagePack.arrayHeaderSize_bounds
    (fun _ => MessagePack.arrayHeaderSize_of_large) hbody hlen

/-- The keys of a map are written in full. -/
theorem cut_encodeMap {es : List (String × Object)} {fs : Fields}
    (h : List.Forall₂ (fun e f => e.1 = f.1 ∧ Cut f.2.length e.2.size) es fs) :
    Cut (encodeMap fs).length (fields es).size := by
  have hentries : Cut (fs.flatMap fun f => encodeString (utf8 f.1) ++ f.2).length
      (MessagePack.sizeEntries (es.map fun e => (.str (utf8 e.1), e.2))) := by
    induction h with
    | nil => exact Cut.refl 0
    | @cons e f es fs hef _ ih =>
        have hkey : Cut (encodeString (utf8 f.1)).length (Object.str (utf8 e.1)).size := by
          rw [hef.1, encodeString, List.length_append, MessagePack.strHeader_length, Object.size]
          exact Cut.refl _
        simpa [MessagePack.sizeEntries, Nat.add_assoc] using (hkey.add hef.2).add ih
  rw [encodeMap, List.length_append, MessagePack.mapHeader_length, fields, Object.size,
    List.length_map, h.length_eq]
  exact (Cut.refl _).add hentries

/-- A number is not cut. -/
theorem cut_int (n : Nat) : Cut (shortNat n).length (Object.int n).size := by
  rw [shortNat_length, Object.size]
  exact Cut.refl _

/-- A packed sensor against its object. -/
theorem cut_packedSensor (m : SensorMapping) (x : Reading) :
    Cut (packedSensor m x).length (sensorOf m x).object.size := by
  have hid : Cut (packStr (UInt32.ofNat m.msgId.length) ++ m.msgId).length
      (Object.str (utf8 (sensorOf m x).id)).size := by
    rw [sensorOf, utf8_msgID]
    exact cut_string m.msgId
  have hvalue : Cut x.packed.length x.wire.object.size := packed_length x ▸ Cut.refl _
  exact cut_encodeMap (.cons ⟨rfl, hid⟩
    (.cons ⟨rfl, cut_int m.typeCode.toNat⟩ (.cons ⟨rfl, hvalue⟩ .nil)))

/-- A sensor has one byte at least. -/
theorem packedSensor_length_pos (m : SensorMapping) (x : Reading) :
    1 ≤ (packedSensor m x).length := by
  rw [packedSensor, encodeMap, List.length_append, MessagePack.mapHeader_length]
  exact Nat.le_add_right 1 _

/-- A packed frame against its object. -/
theorem cut_packedFrame (reading : Nat → Reading) (qs : List SensorMapping)
    (sequence ts : UInt64) :
    Cut (packedFrame reading qs sequence ts).length
      (frameObject (sequence + 1) ts (sensorsOf reading (qs.map SensorMapping.mapping))).size := by
  have hbody : Cut (packedSensors reading (enabledOf qs).zipIdx).length (MessagePack.sizeAll
      ((sensorsOf reading (qs.map SensorMapping.mapping)).map Sensor.object)) := by
    rw [packedSensors, List.length_flatten, List.map_map, MessagePack.sizeAll_eq_sum,
      sensorsOf_mapping, List.map_map, List.map_map]
    exact Cut.sum fun m _ => cut_packedSensor m.1 (reading m.2)
  have hlen : ((sensorsOf reading (qs.map SensorMapping.mapping)).map Sensor.object).length =
      (enabledOf qs).length := by
    rw [sensorsOf_mapping, List.length_map, List.length_map, List.length_zipIdx]
  -- Each entry has at least one byte, so that a list whose length does not fit is long as well.
  have hle : (enabledOf qs).length ≤ (packedSensors reading (enabledOf qs).zipIdx).length := by
    rw [packedSensors, List.length_flatten, List.map_map]
    have hone := List.length_le_sum_of_one_le ((enabledOf qs).zipIdx.map
      (List.length ∘ fun m => packedSensor m.1 (reading m.2))) (by
        intro n hn
        obtain ⟨m, -, rfl⟩ := List.mem_map.mp hn
        exact packedSensor_length_pos m.1 (reading m.2))
    rwa [List.length_map, List.length_zipIdx] at hone
  have harray := cut_array hbody (hlen ▸ hle)
  rw [hlen] at harray
  rw [packedFrame, packFrame_eq]
  exact cut_encodeMap (.cons ⟨rfl, cut_int protocolVersion.toNat⟩
    (.cons ⟨rfl, cut_int (sequence + 1).toNat⟩
      (.cons ⟨rfl, cut_int ts.toNat⟩ (.cons ⟨rfl, harray⟩ .nil))))

/-! ### The cast of the size -/

/-- A length below the limit is a length of the array. -/
theorem qByteArray_of_lt {data : MessagePack.Bytes} (h : data.length < 2 ^ 31) :
    qByteArray data (Int32.ofNat data.length).toInt = some data := by
  have hint : (Int32.ofNat data.length).toInt = data.length := Int32.toInt_ofNat_of_lt h
  rw [hint, qByteArray, if_pos (Int.natCast_nonneg _), Int.toNat_natCast, List.take_length]

/-- A size that an `int` cannot hold loses a part of the data. -/
theorem qByteArray_length_lt {data bs : MessagePack.Bytes} (h : 2 ^ 31 ≤ data.length)
    (hbs : qByteArray data (Int32.ofNat data.length).toInt = some bs) :
    bs.length < data.length := by
  have hhi := (Int32.ofNat data.length).toInt_lt
  unfold qByteArray at hbs
  split at hbs
  · cases hbs
    rw [List.length_take]
    omega
  · split at hbs
    · -- A negative size keeps the data before its first zero byte, and there is one.
      rename_i hzero
      cases hbs
      have hle := (List.takeWhile_prefix (l := data) (· ≠ 0)).length_le
      refine Nat.lt_of_le_of_ne hle fun hlen => ?_
      have hall := (List.takeWhile_prefix (l := data) (· ≠ 0)).eq_of_length hlen
      rw [← hall] at hzero
      simpa using List.mem_takeWhile_imp hzero
    · cases hbs

/-! ### Agreement -/

/-- Both bridges make a frame, and both frames are read as the same object: the map with the
entries `version`, `sequence`, `timestampMs` and `sensors`, and in the array of sensors a map
with the entries `id`, `type` and `value` for each mapping that counts, in the order of the
configuration. -/
def BridgesAgree (native : String → Option NodeID) (o : MapOrder)
    (read : Nat → NodeID → ReadResult) (readQt : Nat → NodeID → ReadValue)
    (reading : Nat → Reading) (s : Service) (qs : List SensorMapping) (ts : UInt64) : Prop :=
  ∃ go qt, readFrame native read o ts s = .ok go ∧ encodeFrame qs s.seq ts readQt = some qt ∧
    readUnordered go =
      some (frameObject (s.seq + 1) ts (sensorsOf reading s.cfg.mappings)).unordered ∧
    readUnordered qt =
      some (frameObject (s.seq + 1) ts (sensorsOf reading s.cfg.mappings)).unordered

section
variable {native : String → Option NodeID} {read : Nat → NodeID → ReadResult}
  {readQt : Nat → NodeID → ReadValue} {reading : Nat → Reading} {s : Service}
  {qs : List SensorMapping}

/-- A frame that is too large is not what the Qt bridge sends. -/
theorem not_bridgesAgree_of_large (o : MapOrder) (ts : UInt64)
    (hmappings : s.cfg.mappings = qs.map SensorMapping.mapping)
    (hqt : ∀ i nid, (readQt i nid).Shows (reading i).scalar?)
    (hlarge : 2 ^ 31 ≤
      (frameObject (s.seq + 1) ts (sensorsOf reading s.cfg.mappings)).size) :
    ¬ BridgesAgree native o read readQt reading s qs ts := by
  rintro ⟨go, qt, -, henc, -, hread⟩
  have hcut := cut_packedFrame reading qs s.seq ts
  rw [← hmappings] at hcut
  have hwritten : 2 ^ 31 ≤ (packedFrame reading qs s.seq ts).length := by
    have hiff := hcut.lt_iff
    omega
  rw [encodeFrame_of_shows hqt] at henc
  have hlt := qByteArray_length_lt hwritten henc
  -- The part that is left is shorter than the shortest form of the object.
  have hsize := size_le_of_readUnordered hread
  have hle := hcut.1
  omega

/-- The bridges agree exactly on the frames whose shortest form has fewer than 2^31 bytes. -/
theorem bridgesAgree_iff (o : MapOrder) (ts : UInt64) (hclient : s.client ≠ none)
    (hmappings : s.cfg.mappings = qs.map SensorMapping.mapping)
    (hparse : ∀ m ∈ s.cfg.mappings, m.nodeIDString ≠ "" →
      ∃ nid, parseQt native m.nodeIDString = .ok nid)
    (hgo : ∀ i nid, (read i nid).Shows (reading i).scalar?)
    (hqt : ∀ i nid, (readQt i nid).Shows (reading i).scalar?) :
    BridgesAgree native o read readQt reading s qs ts ↔
      (frameObject (s.seq + 1) ts (sensorsOf reading s.cfg.mappings)).size < 2 ^ 31 := by
  constructor
  · intro h
    by_contra hlarge
    exact not_bridgesAgree_of_large o ts hmappings hqt (Nat.le_of_not_lt hlarge) h
  · intro hsmall
    obtain ⟨hlen, hfits⟩ := fits_of_frameObject_size (Nat.lt_trans hsmall (by omega))
    have hshort : Short (enabledOf qs) := by
      rw [hmappings] at hlen hfits
      exact short_of_fits hlen hfits
    have hcut := cut_packedFrame reading qs s.seq ts
    rw [← hmappings] at hcut
    have hgoFrame : readFrame native read o ts s =
        .ok (encode o (s.seq + 1) ts (sensorsOf reading s.cfg.mappings)) := by
      rw [readFrame, frameSensors_of_shows hclient hparse hgo]
      rfl
    -- The buffer is cast to an `int`, which is where 2^31 comes from.
    have hqtFrame : encodeFrame qs s.seq ts readQt = some (packedFrame reading qs s.seq ts) := by
      rw [encodeFrame_of_shows hqt]
      exact qByteArray_of_lt (hcut.lt_iff.mpr hsmall)
    refine ⟨_, _, hgoFrame, hqtFrame,
      readUnordered_of_encodes (encodes_encode o (s.seq + 1) ts hfits hlen), ?_⟩
    rw [hmappings]
    exact readUnordered_of_encodes (encodes_packedFrame hshort s.seq ts)

end

/-- An answer of the server for the Go bridge. -/
def Reading.result (x : Reading) : ReadResult :=
  match x.scalar? with
  | none => .failed "timeout"
  | some v => .results [some ⟨statusOK, some (.scalar v)⟩]

/-- An answer of the server for the Qt bridge. -/
def Reading.value (x : Reading) : ReadValue :=
  match x.scalar? with
  | none => ⟨0x800a0000, none⟩
  | some v => ⟨statusCodeGood, some (.scalar v)⟩

/-- A result of the Go bridge that shows the reading. -/
theorem Reading.result_shows (x : Reading) : x.result.Shows x.scalar? := by
  rw [Reading.result]
  cases x.scalar? with
  | none => exact trivial
  | some v => exact ⟨[], rfl⟩

/-- And one of the Qt bridge. -/
theorem Reading.value_shows (x : Reading) : x.value.Shows x.scalar? := by
  rw [Reading.value]
  cases x.scalar? with
  | none => exact .inr rfl
  | some v => exact rfl

/-- A service that is connected, with these mappings. -/
def connected (qs : List SensorMapping) : Service :=
  { (newService { defaultConfig with mappings := qs.map SensorMapping.mapping }).toService with
    client := some 0 }

/-- A negative number and a node that cannot be read, with the entries of the maps in reverse
order. -/
theorem bridgesAgree_level :
    let qs : List SensorMapping := [⟨"Level", "ns=2;i=7", 1, true, ⟨2, .numeric 7⟩⟩,
      ⟨"", "ns=2;s=Lamp", 0, true, ⟨2, .str "Lamp"⟩⟩]
    let reading := fun i => if i = 0 then Reading.int32 (-5) else .failed
    BridgesAgree (fun _ => none) ⟨fun _ fs => fs.reverse, fun _ fs => fs.reverse_perm⟩
      (fun i _ => (reading i).result) (fun i _ => (reading i).value) reading (connected qs) qs
      1769516986221 := by
  intro qs reading
  refine (bridgesAgree_iff _ _ (Option.some_ne_none 0) rfl ?_ (fun i _ => (reading i).result_shows)
    (fun i _ => (reading i).value_shows)).mpr (by decide)
  intro m hm _
  rcases List.mem_pair.mp hm with rfl | rfl
  · exact ⟨⟨2, .numeric 7⟩, by decide⟩
  · exact ⟨⟨2, .str "Lamp"⟩, by decide⟩

/-- The bytes of a string. -/
theorem utf8_length (s : String) : (utf8 s).length = s.utf8ByteSize := by
  rw [utf8, Array.length_toList]
  rfl

/-- A text of one letter has as many bytes as letters. -/
theorem utf8_replicate_length (n : Nat) :
    (utf8 (String.ofList (List.replicate n 'a'))).length = n := by
  rw [utf8_length, String.utf8ByteSize, String.toByteArray_ofList]
  induction n with
  | zero => rfl
  | succ n ih =>
      rw [List.replicate_succ, List.utf8Encode_cons, ByteArray.size_append, ih, Nat.add_comm]
      rfl

/-- A mapping with an identifier of `n` bytes. -/
def longMapping (n : Nat) : SensorMapping :=
  ⟨String.ofList (List.replicate n 'a'), "ns=2;i=7", 0, true, ⟨2, .numeric 7⟩⟩

/-- A long name makes a long frame. -/
theorem le_size_longMapping (n : Nat) (reading : Nat → Reading) (sequence ts : UInt64) :
    n ≤ (frameObject sequence ts (sensorsOf reading [(longMapping n).mapping])).size := by
  have hid : n ≤ (utf8 (longMapping n).mapping.msgID).length := by
    rw [utf8_msgID, SensorMapping.msgId]
    split
    · rename_i hempty
      have hlen := utf8_replicate_length n
      rw [show String.ofList (List.replicate n 'a') = "" from hempty] at hlen
      exact hlen ▸ Nat.zero_le _
    · exact (utf8_replicate_length n).ge
  exact Nat.le_trans hid (Nat.le_trans
    (Sensor.id_length_le_size ⟨(longMapping n).mapping.msgID, 0, (reading 0).wire⟩)
    (sensor_size_le sequence ts (List.mem_singleton.mpr rfl)))

/-- An identifier of 2^31 bytes, for a node id that is accepted. -/
theorem not_bridgesAgree_long :
    parseQt (fun _ => none) (longMapping (2 ^ 31)).nodeIdString = .ok ⟨2, .numeric 7⟩ ∧
    ¬ BridgesAgree (fun _ => none) ⟨fun _ fs => fs, fun _ fs => .refl fs⟩
      (fun _ _ => Reading.failed.result) (fun _ _ => Reading.failed.value) (fun _ => .failed)
      (connected [longMapping (2 ^ 31)]) [longMapping (2 ^ 31)] 0 := by
  refine ⟨?_, not_bridgesAgree_of_large _ _ rfl (fun _ _ => Reading.failed.value_shows)
    (le_size_longMapping _ _ _ _)⟩
  show parseQt (fun _ => none) "ns=2;i=7" = .ok ⟨2, .numeric 7⟩
  decide

end SmartFactory.Bridge
