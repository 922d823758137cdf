import SmartFactory.Proofs.Bridge.TypeCodes

/-!
# `SmartFactory.Proofs.Bridge.FrameBytes`: what the bytes of a frame stand for

`frameObject` is the object that a frame is meant to be: a map with four entries, one of which
is the list of sensors. `encodes_encode` is that the Go encoder writes it, whatever order
the runtime goes through the maps in. The only limit is that of the format, which has no
strings or arrays of 2^32 elements or more.
-/

set_option autoImplicit false

namespace SmartFactory.Bridge

open MessagePack (Object Encodes EncodesEntry IsToken isToken_str isToken_mapHeader
  isToken_arrayHeader isToken_number isToken_twosComplement isToken_float32 isToken_float64
  isToken_bool encodes_atom encodes_map encodes_array readUnordered readUnordered_of_encodes)

/-- A map whose keys are strings. -/
def fields (es : List (String × Object)) : Object := .map (es.map fun e => (.str (utf8 e.1), e.2))

/-- The entry of a sensor. -/
def Sensor.object (s : Sensor) : Object :=
  fields [("id", .str (utf8 s.id)), ("type", .int s.typeCode.toNat), ("value", s.value.object)]

/-- The object that is sent for a frame. -/
def frameObject (sequence timestampMs : UInt64) (sensors : List Sensor) : Object :=
  fields [("version", .int protocolVersion.toNat), ("sequence", .int sequence.toNat),
    ("timestampMs", .int timestampMs.toNat), ("sensors", .array (sensors.map Sensor.object))]

/-- The strings of a sensor have a length that the format can write. -/
structure Sensor.Fits (s : Sensor) : Prop where
  id : (utf8 s.id).length < 2 ^ 32
  value : ∀ b, s.value = .string b → b.length < 2 ^ 32

/-- A string that is not too long is encoded. -/
theorem encodes_string {s : MessagePack.Bytes} (hs : s.length < 2 ^ 32) :
    Encodes (.str s) (encodeString s) :=
  encodes_atom (isToken_str hs)

/-- An entry with a string key. -/
def EncodesField (e : String × Object) (f : String × MessagePack.Bytes) : Prop :=
  e.1 = f.1 ∧ (utf8 e.1).length < 2 ^ 32 ∧ Encodes e.2 f.2

/-- A map with string keys, in any order. -/
theorem encodes_encodeMap {es : List (String × Object)} {fs fs' : Fields}
    (hlen : es.length < 2 ^ 32) (h : List.Forall₂ EncodesField es fs) (hp : fs'.Perm fs) :
    Encodes (fields es) (encodeMap fs') := by
  have hentries : List.Forall₂ EncodesEntry (es.map fun e => (Object.str (utf8 e.1), e.2))
      (fs.map fun f => (encodeString (utf8 f.1), f.2)) := by
    rw [List.forall₂_map_left_iff, List.forall₂_map_right_iff]
    refine h.imp fun e f hef => ?_
    obtain ⟨hkey, hshort, hval⟩ := hef
    exact ⟨hkey ▸ encodes_string hshort, hval⟩
  have hhd : IsToken (.map (es.map fun e => (Object.str (utf8 e.1), e.2)).length)
      (MessagePack.mapHeader fs'.length) := by
    rw [List.length_map, h.length_eq, ← hp.length_eq]
    exact isToken_mapHeader (by rw [hp.length_eq, ← h.length_eq]; exact hlen)
  have hmap := encodes_map hhd hentries (hp.map _)
  rwa [List.flatMap_map] at hmap

/-- A byte is encoded. -/
theorem encodes_uint8 (n : UInt8) : Encodes (.int n.toNat) (encodeUint8 n) :=
  encodes_atom (isToken_number (b := 0xcc) rfl n.toNat_lt)

/-- And a number of 64 bits. -/
theorem encodes_uint64 (n : UInt64) : Encodes (.int n.toNat) (encodeUint64 n) :=
  encodes_atom (isToken_number (b := 0xcf) rfl n.toNat_lt)

/-- A value in the form of its Go type. -/
theorem encodes_wire {w : Wire} (hw : ∀ b, w = .string b → b.length < 2 ^ 32) :
    Encodes w.object w.encode := by
  cases w with
  | bool b => exact encodes_atom (isToken_bool b)
  | int32 n =>
      have hlo := n.le_toInt
      have hhi := n.toInt_lt
      exact encodes_atom (isToken_twosComplement rfl (by omega) (by omega))
  | int64 n =>
      have hlo := n.le_toInt
      have hhi := n.toInt_lt
      exact encodes_atom (isToken_twosComplement rfl (by omega) (by omega))
  | float32 bits => exact encodes_atom (isToken_float32 bits)
  | float64 bits => exact encodes_atom (isToken_float64 bits)
  | string s => exact encodes_string (hw s rfl)

/-- A field is encoded when its value is and its name is not too long. -/
theorem encodesField {k : String} {o : Object} {b : MessagePack.Bytes}
    (hk : (utf8 k).length < 2 ^ 32) (h : Encodes o b) : EncodesField (k, o) (k, b) :=
  ⟨rfl, hk, h⟩

/-- The map of a sensor. -/
theorem encodes_sensor {s : Sensor} (hs : s.Fits) {fs : Fields}
    (hp : fs.Perm [("id", encodeString (utf8 s.id)), ("type", encodeUint8 s.typeCode),
      ("value", s.value.encode)]) : Encodes s.object (encodeMap fs) :=
  encodes_encodeMap (by simp)
    (.cons (encodesField (by decide) (encodes_string hs.id))
      (.cons (encodesField (by decide) (encodes_uint8 s.typeCode))
        (.cons (encodesField (by decide) (encodes_wire hs.value)) .nil))) hp

/-- The elements of the array of sensors. -/
theorem forall₂_encodes_sensor (o : MapOrder) {ss : List Sensor} (hs : ∀ s ∈ ss, s.Fits)
    (i : Nat) :
    List.Forall₂ (fun s (x : Sensor × Nat) => Encodes s.object (encodeMap (o.order x.2
      [("id", encodeString (utf8 x.1.id)), ("type", encodeUint8 x.1.typeCode),
        ("value", x.1.value.encode)]))) ss (ss.zipIdx i) := by
  induction ss generalizing i with
  | nil => exact .nil
  | cons s ss ih =>
      rw [List.forall_mem_cons] at hs
      exact .cons (encodes_sensor hs.1 (o.perm _ _)) (ih hs.2 (i + 1))

/-- The array of sensors. -/
theorem encodes_sensorMaps (o : MapOrder) {ss : List Sensor} (hs : ∀ s ∈ ss, s.Fits)
    (hlen : ss.length < 2 ^ 32) :
    Encodes (.array (ss.map Sensor.object)) (encodeSlice (sensorMaps o ss)) := by
  have hhd : IsToken (.array (ss.map Sensor.object).length)
      (MessagePack.arrayHeader (sensorMaps o ss).length) := by
    rw [sensorMaps, List.length_map, List.length_map, List.length_zipIdx]
    exact isToken_arrayHeader hlen
  refine encodes_array hhd ?_
  rw [sensorMaps, List.forall₂_map_left_iff, List.forall₂_map_right_iff]
  exact forall₂_encodes_sensor o hs 1

/-- The Go encoder writes the object of the frame. -/
theorem encodes_encode (o : MapOrder) (sequence timestampMs : UInt64) {ss : List Sensor}
    (hs : ∀ s ∈ ss, s.Fits) (hlen : ss.length < 2 ^ 32) :
    Encodes (frameObject sequence timestampMs ss) (encode o sequence timestampMs ss) :=
  encodes_encodeMap (by simp)
    (.cons (encodesField (by decide) (encodes_uint8 protocolVersion))
      (.cons (encodesField (by decide) (encodes_uint64 sequence))
        (.cons (encodesField (by decide) (encodes_uint64 timestampMs))
          (.cons (encodesField (by decide) (encodes_sensorMaps o hs hlen)) .nil))))
    (o.perm _ _)

/-! ### Sizes -/

/-- The size of a record, as a sum over its fields. -/
theorem fields_size (es : List (String × Object)) :
    (fields es).size = MessagePack.arrayHeaderSize es.length +
      (es.map fun e => (Object.str (utf8 e.1)).size + e.2.size).sum := by
  rw [fields, Object.size, MessagePack.sizeEntries_eq_sum, List.map_map, List.length_map]
  rfl

/-- A value is no larger than the map that it is in. -/
theorem size_le_fields {es : List (String × Object)} {e : String × Object} (he : e ∈ es) :
    e.2.size ≤ (fields es).size := by
  have hmem := List.le_sum_of_mem (List.mem_map_of_mem
    (f := fun e => (Object.str (utf8 e.1)).size + e.2.size) he)
  rw [fields_size]
  omega

/-- An element is no larger than the array that it is in. -/
theorem size_le_array {os : List Object} {o : Object} (ho : o ∈ os) :
    o.size ≤ (Object.array os).size := by
  have hmem := List.le_sum_of_mem (List.mem_map_of_mem (f := Object.size) ho)
  rw [Object.size, MessagePack.sizeAll_eq_sum]
  omega

/-- A string is not longer than its encoding. -/
theorem length_le_size_str (b : MessagePack.Bytes) : b.length ≤ (Object.str b).size := by
  rw [Object.size]
  exact Nat.le_add_left _ _

/-- Nor the id of a sensor longer than the sensor. -/
theorem Sensor.id_length_le_size (s : Sensor) : (utf8 s.id).length ≤ s.object.size :=
  Nat.le_trans (length_le_size_str (utf8 s.id))
    (size_le_fields (e := ("id", .str (utf8 s.id))) (by simp))

/-- A sensor whose map is small has short strings. -/
theorem Sensor.fits_of_size {s : Sensor} (h : s.object.size < 2 ^ 32) : s.Fits where
  id := Nat.lt_of_le_of_lt s.id_length_le_size h
  value := by
    intro b hb
    have hvalue : (s.value.object).size ≤ s.object.size :=
      size_le_fields (e := ("value", s.value.object)) (by simp)
    rw [hb] at hvalue
    have hlen := length_le_size_str b
    simp only [Wire.object] at hvalue
    omega

/-- The sensors are no larger than the frame. -/
theorem sensors_size_le (sequence timestampMs : UInt64) (ss : List Sensor) :
    (Object.array (ss.map Sensor.object)).size ≤ (frameObject sequence timestampMs ss).size :=
  size_le_fields (e := ("sensors", .array (ss.map Sensor.object))) (by simp)

/-- Nor a sensor larger than its frame. -/
theorem sensor_size_le (sequence timestampMs : UInt64) {s : Sensor} {ss : List Sensor}
    (hs : s ∈ ss) : s.object.size ≤ (frameObject sequence timestampMs ss).size :=
  Nat.le_trans (size_le_array (List.mem_map_of_mem (f := Sensor.object) hs))
    (sensors_size_le sequence timestampMs ss)

/-- A frame that is small enough has sensors that the format can write. -/
theorem fits_of_frameObject_size {sequence timestampMs : UInt64} {ss : List Sensor}
    (h : (frameObject sequence timestampMs ss).size < 2 ^ 32) :
    ss.length < 2 ^ 32 ∧ ∀ s ∈ ss, s.Fits := by
  constructor
  · have hsensors := sensors_size_le sequence timestampMs ss
    -- Each sensor takes a byte at least, so that there are fewer of them than bytes.
    have hpos : ∀ n ∈ (ss.map Sensor.object).map Object.size, 1 ≤ n := by
      intro n hn
      obtain ⟨o, ho, rfl⟩ := List.mem_map.mp hn
      obtain ⟨s, -, rfl⟩ := List.mem_map.mp ho
      rw [Sensor.object, fields_size]
      exact Nat.le_add_right 1 _
    have hlen := List.length_le_sum_of_one_le _ hpos
    rw [List.length_map, List.length_map, ← MessagePack.sizeAll_eq_sum] at hlen
    rw [Object.size] at hsensors
    omega
  · intro s hs
    exact Sensor.fits_of_size (Nat.lt_of_le_of_lt (sensor_size_le sequence timestampMs hs) h)

/-- What is read from the bytes that `readFrame` returns: the sensors that it gave to the
encoder. -/
theorem readFrame_reads {native : String → Option NodeID} {read : Nat → NodeID → ReadResult}
    {o : MapOrder} {ts : UInt64} {s : Service} {bs : MessagePack.Bytes}
    (h : readFrame native read o ts s = .ok bs) :
    ∃ ss, frameSensors native read s = .ok ss ∧
      ((frameObject (s.seq + 1) ts ss).size < 2 ^ 32 →
        readUnordered bs = some (frameObject (s.seq + 1) ts ss).unordered) := by
  obtain ⟨ss, hss, hbs⟩ := bind_eq_ok_iff.mp h
  cases hbs
  refine ⟨ss, hss, fun hsize => ?_⟩
  obtain ⟨hlen, hfits⟩ := fits_of_frameObject_size hsize
  exact readUnordered_of_encodes (encodes_encode o (s.seq + 1) ts hfits hlen)

end SmartFactory.Bridge
