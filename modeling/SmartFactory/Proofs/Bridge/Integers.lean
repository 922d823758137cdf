import SmartFactory.Lib.MessagePackTally
import SmartFactory.Proofs.Bridge.FrameBytes

/-!
# `SmartFactory.Proofs.Bridge.Integers`: the integers of a frame

`exactFrame` is the object that a frame should be when its integers are those of the nodes: the
entry of a node that holds an integer carries this integer. `readsExactly_iff` is when the bytes
of a frame are read as this object.

Seven of the eight integer types are widened on the way. A `uint64` is converted to an `int64`,
so from 2^63 on it wraps around, and what is read is negative. The other limits are those of the
format: a longer string or array cannot be written at all.

Two objects are told apart here by the sum of their integers, which a wrapped integer lowers.
-/

set_option autoImplicit false

namespace SmartFactory.Bridge

open MessagePack (Object Token readUnordered readUnordered_of_encodes overlong_of_readUnordered
  tally_le_array tally_le_map tally_eq_of_unordered tally_eq_of_tallyAll_eq)

/-! ### What is read and what is sent -/

/-- The integer that a value of an integer type is. -/
def Scalar.integer? : Scalar → Option Int
  | .sByte n => some n.toInt
  | .byte n => some n.toNat
  | .int16 n => some n.toInt
  | .uint16 n => some n.toNat
  | .int32 n => some n.toInt
  | .uint32 n => some n.toNat
  | .int64 n => some n.toInt
  | .uint64 n => some n.toNat
  | _ => none

/-- The value that is sent for a read. -/
def ReadResult.wire (r : ReadResult) : Wire := r.scalar?.elim (.bool false) Scalar.toWire

/-- The value that a read calls for: the integer of the node, when it holds one with a good
status. -/
def ReadResult.exact (r : ReadResult) : Object :=
  match r.scalar?.bind Scalar.integer? with
  | some i => .int i
  | none => r.wire.object

/-- The entry of a mapping in a frame. -/
def entryOf (m : ResolvedMapping) (value : Object) : Object :=
  fields [("id", .str (utf8 m.msgID)), ("type", .int m.typeCode.toNat), ("value", value)]

/-- A frame with these entries. -/
def frameWith (sequence timestampMs : UInt64) (entries : List Object) : Object :=
  fields [("version", .int protocolVersion.toNat), ("sequence", .int sequence.toNat),
    ("timestampMs", .int timestampMs.toNat), ("sensors", .array entries)]

/-- The frame with the integers of the nodes. -/
def exactFrame (read : Nat → NodeID → ReadResult) (sequence timestampMs : UInt64)
    (rs : List ResolvedMapping) : Object :=
  frameWith sequence timestampMs
    (rs.zipIdx.map fun r => entryOf r.1 (read r.2 r.1.nid).exact)

/-- How much the conversion takes from an integer. -/
def Scalar.lost : Scalar → Int
  | .uint64 n => if n.toNat < 2 ^ 63 then 0 else 2 ^ 64
  | _ => 0

/-- How much the conversion takes from what was read. -/
def ReadResult.lost (r : ReadResult) : Int := r.scalar?.elim 0 Scalar.lost

/-- The read gave no `uint64` from 2^63 on. -/
def ReadResult.NoLargeUInt64 (r : ReadResult) : Prop :=
  ∀ n : UInt64, r.scalar? = some (.uint64 n) → n.toNat < 2 ^ 63

theorem lost_nonneg (r : ReadResult) : 0 ≤ r.lost := by
  unfold ReadResult.lost
  cases r.scalar? with
  | none => exact Int.le_refl 0
  | some v =>
      cases v with
      | uint64 n =>
          show 0 ≤ if n.toNat < 2 ^ 63 then 0 else 2 ^ 64
          split <;> decide
      | _ => exact Int.le_refl 0

theorem lost_eq_zero_iff (r : ReadResult) : r.lost = 0 ↔ r.NoLargeUInt64 := by
  unfold ReadResult.lost ReadResult.NoLargeUInt64
  cases r.scalar? with
  | none => simp
  | some v =>
      cases v with
      | uint64 n => simp [Scalar.lost]
      | _ => simp [Scalar.lost]

/-- The conversion of an integer. Only a `uint64` can lose something. -/
theorem toWire_object_of_integer {v : Scalar} {i : Int} (h : v.integer? = some i) :
    v.toWire.object = .int (i - v.lost) := by
  cases v with
  | sByte n =>
      cases h
      simp only [Scalar.toWire, Wire.object, Scalar.lost, Int8.toInt_toInt32, Int.sub_zero]
  | byte n =>
      cases h
      simp only [Scalar.toWire, Wire.object, Scalar.lost, toInt_uint8, Int.sub_zero]
  | int16 n =>
      cases h
      simp only [Scalar.toWire, Wire.object, Scalar.lost, Int16.toInt_toInt32, Int.sub_zero]
  | uint16 n =>
      cases h
      simp only [Scalar.toWire, Wire.object, Scalar.lost, toInt_uint16, Int.sub_zero]
  | int32 n =>
      cases h
      simp only [Scalar.toWire, Wire.object, Scalar.lost, Int.sub_zero]
  | uint32 n =>
      cases h
      simp only [Scalar.toWire, Wire.object, Scalar.lost, toInt_uint32, Int.sub_zero]
  | int64 n =>
      cases h
      simp only [Scalar.toWire, Wire.object, Scalar.lost, Int.sub_zero]
  | uint64 n =>
      cases h
      -- `int64(v)` in `toWire`: from 2^63 on the number is off by 2^64.
      have hlt := n.toNat_lt
      simp only [Scalar.toWire, Wire.object, Scalar.lost, toInt_int64, Int.bmod_eq_emod]
      congr 1
      split <;> split <;> omega
  | _ => cases h

/-- The sum of the integers of a value that is read, and of the one that is sent. -/
theorem intSum_exact (r : ReadResult) : r.exact.intSum = r.wire.object.intSum + r.lost := by
  unfold ReadResult.exact ReadResult.wire ReadResult.lost
  cases r.scalar? with
  | none => exact (Int.add_zero _).symm
  | some v =>
      show (match v.integer? with
        | some i => Object.int i
        | none => v.toWire.object).intSum = v.toWire.object.intSum + v.lost
      cases hi : v.integer? with
      | some i =>
          rw [toWire_object_of_integer hi]
          show i = i - v.lost + v.lost
          omega
      | none =>
          have hlost : v.lost = 0 := by cases v <;> first | rfl | cases hi
          simp only [hlost, Int.add_zero]

/-- A value is sent as it is when nothing is lost. -/
theorem exact_eq_of_lost {r : ReadResult} (h : r.lost = 0) : r.exact = r.wire.object := by
  unfold ReadResult.exact
  cases hi : r.scalar?.bind Scalar.integer? with
  | none => rfl
  | some i =>
      obtain ⟨v, hv, hi⟩ := Option.bind_eq_some_iff.mp hi
      have hlost : v.lost = 0 := by simpa [ReadResult.lost, hv] using h
      simp [ReadResult.wire, hv, toWire_object_of_integer hi, hlost]

/-! ### The sensors of a frame -/

/-- A read that gives a sensor gives this one. -/
theorem readSensor_eq {m : ResolvedMapping} {r : ReadResult} {s : Sensor}
    (h : readSensor m r = .ok s) : s = ⟨m.msgID, m.typeCode, r.wire⟩ := by
  unfold readSensor at h
  split at h
  · cases h; rfl
  · cases h; rfl
  · rename_i dv rest
    split at h
    · rename_i val hval
      cases h
      suffices hwire : val = (ReadResult.results (dv :: rest)).wire by rw [hwire]
      -- No result, a result without a value, one value, or an array. An array of one of the types
      -- of the conversion panics, and any other one becomes `false`.
      rcases dv with _ | ⟨status, _ | v | ⟨type, vs, hvs⟩⟩
      · cases hval; rfl
      · simp only [dataValueToWire, ite_self, Option.some.injEq] at hval
        exact hval.symm
      · simp only [dataValueToWire, Variant.toWire] at hval
        simp only [ReadResult.wire, ReadResult.scalar?]
        split at hval <;> simp_all
      · simp only [dataValueToWire, Variant.toWire] at hval
        simp only [ReadResult.wire, ReadResult.scalar?]
        split at hval
        · cases hval; rfl
        · split at hval
          · cases hval
          · cases hval; rfl
    · cases h

/-- The sensors that `readFrame` gives to the encoder, one for each mapping. -/
theorem readSensors_eq {read : Nat → NodeID → ReadResult} {i : Nat} {rs : List ResolvedMapping}
    {ss : List Sensor} (h : readSensors read i rs = .ok ss) :
    ss = (rs.zipIdx i).map fun r => ⟨r.1.msgID, r.1.typeCode, (read r.2 r.1.nid).wire⟩ := by
  have hss := ((readSensors_ok_iff i rs ss).mp h).imp fun _ _ hs => (readSensor_eq hs).symm
  rw [← List.forall₂_map_left_iff (R := Eq), List.forall₂_eq_eq_eq] at hss
  exact hss.symm

/-! ### The law and its extent -/

/-- The integers of the nodes have an `int64`, and the lengths of the frame four bytes. -/
structure Representable (read : Nat → NodeID → ReadResult) (rs : List ResolvedMapping) :
    Prop where
  integers : ∀ r ∈ rs.zipIdx, (read r.2 r.1.nid).NoLargeUInt64
  count : rs.length < 2 ^ 32
  ids : ∀ m ∈ rs, (utf8 m.msgID).length < 2 ^ 32
  strings : ∀ r ∈ rs.zipIdx, ∀ b, (read r.2 r.1.nid).scalar? = some (.string b) ∨
    (read r.2 r.1.nid).scalar? = some (.byteString b) → b.length < 2 ^ 32

/-- A string is sent for a string. -/
theorem wire_eq_string_iff {r : ReadResult} {b : MessagePack.Bytes} : r.wire = .string b ↔
    r.scalar? = some (.string b) ∨ r.scalar? = some (.byteString b) := by
  unfold ReadResult.wire
  cases r.scalar? with
  | none => simp
  | some v => cases v <;> simp [Scalar.toWire]

variable {read : Nat → NodeID → ReadResult} {rs : List ResolvedMapping}

/-- No token counts less than nothing. -/
theorem overlong_nonneg (t : Token) : 0 ≤ t.overlong := by
  unfold Token.overlong
  split <;> decide

/-- A value of a map is no longer than the map. -/
theorem overlong_le_fields {es : List (String × Object)} {e : String × Object} (he : e ∈ es) :
    e.2.overlong ≤ (fields es).overlong :=
  tally_le_map overlong_nonneg (List.mem_map_of_mem (f := fun e => (Object.str (utf8 e.1), e.2)) he)

theorem length_lt_of_overlong {b : MessagePack.Bytes} (h : (Object.str b).overlong ≤ 0) :
    b.length < 2 ^ 32 := by
  by_contra hlong
  have hone : (Object.str b).overlong = 1 := if_neg hlong
  omega

/-- The lengths of a frame that is not overlong. -/
theorem lengths_of_overlong {sequence timestampMs : UInt64}
    (h : (exactFrame read sequence timestampMs rs).overlong = 0) :
    rs.length < 2 ^ 32 ∧ ∀ r ∈ rs.zipIdx, (utf8 r.1.msgID).length < 2 ^ 32 ∧
      (read r.2 r.1.nid).exact.overlong ≤ 0 := by
  -- No part counts more than the whole: first the list of the sensors, then each entry, then the
  -- two fields of it that have a length.
  have harray : (Object.array (rs.zipIdx.map fun r =>
      entryOf r.1 (read r.2 r.1.nid).exact)).overlong ≤ 0 := by
    rw [← h]
    exact overlong_le_fields (e := ("sensors", _)) (by simp)
  constructor
  · by_contra hlong
    have hrest := MessagePack.tallyAll_nonneg overlong_nonneg
      (rs.zipIdx.map fun r => entryOf r.1 (read r.2 r.1.nid).exact)
    have hhead : (Token.array rs.length).overlong = 1 := if_neg hlong
    simp only [Object.overlong, Object.tally, List.length_map, List.length_zipIdx, hhead] at harray
    omega
  · intro r hr
    have hentry : (entryOf r.1 (read r.2 r.1.nid).exact).overlong ≤ 0 :=
      Int.le_trans (tally_le_array overlong_nonneg (List.mem_map_of_mem
        (f := fun r => entryOf r.1 (read r.2 r.1.nid).exact) hr)) harray
    have hid : (Object.str (utf8 r.1.msgID)).overlong
        ≤ (entryOf r.1 (read r.2 r.1.nid).exact).overlong := by
      apply overlong_le_fields (e := ("id", .str (utf8 r.1.msgID)))
      simp
    have hvalue : (read r.2 r.1.nid).exact.overlong
        ≤ (entryOf r.1 (read r.2 r.1.nid).exact).overlong := by
      apply overlong_le_fields (e := ("value", (read r.2 r.1.nid).exact))
      simp
    exact ⟨length_lt_of_overlong (Int.le_trans hid hentry), Int.le_trans hvalue hentry⟩

/-- A string is sent as it was read. -/
theorem exact_of_wire_string {r : ReadResult} {b : MessagePack.Bytes} (h : r.wire = .string b) :
    r.exact = .str b := by
  have hnone : r.scalar?.bind Scalar.integer? = none := by
    rcases wire_eq_string_iff.mp h with hs | hs <;> rw [hs] <;> rfl
  rw [ReadResult.exact, hnone, h]
  rfl

/-- The sensors have lengths that the format can write. -/
theorem sensors_fit (hrep : ∀ r ∈ rs.zipIdx, (utf8 r.1.msgID).length < 2 ^ 32 ∧
      ∀ b, (read r.2 r.1.nid).wire = .string b → b.length < 2 ^ 32) :
    ∀ s ∈ rs.zipIdx.map fun r => (⟨r.1.msgID, r.1.typeCode, (read r.2 r.1.nid).wire⟩ : Sensor),
      s.Fits := by
  intro s hs
  obtain ⟨r, hr, rfl⟩ := List.mem_map.mp hs
  exact ⟨(hrep r hr).1, (hrep r hr).2⟩

/-- The frame that is sent has the entries that are sent. -/
theorem frameObject_eq (sequence timestampMs : UInt64) :
    frameObject sequence timestampMs
        (rs.zipIdx.map fun r => ⟨r.1.msgID, r.1.typeCode, (read r.2 r.1.nid).wire⟩)
      = frameWith sequence timestampMs
          (rs.zipIdx.map fun r => entryOf r.1 (read r.2 r.1.nid).wire.object) := by
  rw [frameObject, frameWith, List.map_map]
  rfl

/-- Two frames of as many entries have the same sum of integers exactly when the entries
have. -/
theorem intSum_frameWith {sequence timestampMs : UInt64} {es es' : List Object}
    (hlen : es.length = es'.length)
    (h : (frameWith sequence timestampMs es).intSum
      = (frameWith sequence timestampMs es').intSum) :
    MessagePack.tallyAll Token.int es = MessagePack.tallyAll Token.int es' := by
  simp only [frameWith, fields, List.map_cons, List.map_nil, Object.intSum, Object.tally,
    MessagePack.tallyEntries, List.length_cons, List.length_nil, hlen] at h
  omega

theorem intSum_entryOf (m : ResolvedMapping) (value : Object) :
    (entryOf m value).intSum = m.typeCode.toNat + value.intSum := by
  simp only [entryOf, fields, List.map_cons, List.map_nil, Object.intSum, Object.tally,
    MessagePack.tallyEntries, Token.int]
  omega

/-- A frame that is the same with the integers of the nodes and with those that are sent has
lost none of them. -/
theorem lost_of_unordered {sequence timestampMs : UInt64}
    (h : (exactFrame read sequence timestampMs rs).unordered
      = (frameWith sequence timestampMs
          (rs.zipIdx.map fun r => entryOf r.1 (read r.2 r.1.nid).wire.object)).unordered) :
    ∀ r ∈ rs.zipIdx, (read r.2 r.1.nid).lost = 0 := by
  -- The sums of all integers are the same, and no reading is sent as more than it is.
  have hsum := intSum_frameWith (by simp) (tally_eq_of_unordered Token.int h)
  have hsame := tally_eq_of_tallyAll_eq Token.int (fun r _ => ?_) hsum
  · intro r hr
    have hentry : (entryOf r.1 (read r.2 r.1.nid).exact).intSum
        = (entryOf r.1 (read r.2 r.1.nid).wire.object).intSum := hsame r hr
    rw [intSum_entryOf, intSum_entryOf, intSum_exact] at hentry
    omega
  · have hle := lost_nonneg (read r.2 r.1.nid)
    show (entryOf r.1 (read r.2 r.1.nid).wire.object).intSum
      ≤ (entryOf r.1 (read r.2 r.1.nid).exact).intSum
    rw [intSum_entryOf, intSum_entryOf, intSum_exact]
    omega

/-- The frame that is sent is read back when its lengths are those that the format can write. -/
theorem reads_sent (o : MapOrder) (sequence timestampMs : UInt64) (hcount : rs.length < 2 ^ 32)
    (hrep : ∀ r ∈ rs.zipIdx, (utf8 r.1.msgID).length < 2 ^ 32 ∧
      ∀ b, (read r.2 r.1.nid).wire = .string b → b.length < 2 ^ 32) :
    readUnordered (encode o sequence timestampMs
        (rs.zipIdx.map fun r => ⟨r.1.msgID, r.1.typeCode, (read r.2 r.1.nid).wire⟩))
      = some (frameWith sequence timestampMs
          (rs.zipIdx.map fun r => entryOf r.1 (read r.2 r.1.nid).wire.object)).unordered := by
  rw [← frameObject_eq]
  exact readUnordered_of_encodes
    (encodes_encode o sequence timestampMs (sensors_fit hrep) (by simpa using hcount))

/-- **The extent of it.** The bytes of a frame are read as the frame with the integers of the
nodes exactly when no node holds a `uint64` from 2^63 on and the format can write the
lengths. -/
theorem readsExactly_iff {native : String → Option NodeID} {o : MapOrder} {ts : UInt64}
    {s : Service} {bs : MessagePack.Bytes} (hframe : readFrame native read o ts s = .ok bs)
    (hrs : resolveMappings native s.cfg.mappings = .ok rs) :
    readUnordered bs = some (exactFrame read (s.seq + 1) ts rs).unordered ↔
      Representable read rs := by
  obtain ⟨ss, hss, hbs⟩ := bind_eq_ok_iff.mp hframe
  cases hbs
  -- The sensors that are encoded are those of the mappings.
  have hsensors : readSensors read 0 rs = .ok ss := by
    rw [frameSensors] at hss
    split at hss
    · cases hss
    · obtain ⟨rs', hrs', hss⟩ := bind_eq_ok_iff.mp hss
      obtain rfl : rs = rs' := Except.ok.inj (hrs.symm.trans (mapError_eq_ok_iff.mp hrs'))
      exact hss
  obtain rfl := readSensors_eq hsensors
  constructor
  · intro hreads
    obtain ⟨hcount, hlengths⟩ := lengths_of_overlong (overlong_of_readUnordered hreads)
    have hstrings : ∀ r ∈ rs.zipIdx, ∀ b, (read r.2 r.1.nid).wire = .string b →
        b.length < 2 ^ 32 := by
      intro r hr b hb
      have hvalue := (hlengths r hr).2
      rw [exact_of_wire_string hb] at hvalue
      exact length_lt_of_overlong hvalue
    have hsent := reads_sent o (s.seq + 1) ts hcount
      fun r hr => ⟨(hlengths r hr).1, hstrings r hr⟩
    have hlost := lost_of_unordered (Option.some.inj (hreads.symm.trans hsent))
    refine ⟨fun r hr => (lost_eq_zero_iff _).mp (hlost r hr), hcount, fun m hm => ?_, ?_⟩
    · obtain ⟨i, hi, rfl⟩ := List.getElem_of_mem hm
      exact (hlengths _ (List.mk_mem_zipIdx_iff_getElem?.mpr (List.getElem?_eq_getElem hi))).1
    · exact fun r hr b hb => hstrings r hr b (wire_eq_string_iff.mpr hb)
  · intro hrep
    have hlengths : ∀ r ∈ rs.zipIdx, (utf8 r.1.msgID).length < 2 ^ 32 ∧
        ∀ b, (read r.2 r.1.nid).wire = .string b → b.length < 2 ^ 32 := fun r hr =>
      ⟨hrep.ids r.1 (List.fst_mem_of_mem_zipIdx hr),
        fun b hb => hrep.strings r hr b (wire_eq_string_iff.mp hb)⟩
    have hsent := reads_sent o (s.seq + 1) ts hrep.count hlengths
    have hexact : rs.zipIdx.map (fun r => entryOf r.1 (read r.2 r.1.nid).exact)
        = rs.zipIdx.map fun r => entryOf r.1 (read r.2 r.1.nid).wire.object := by
      refine List.map_congr_left fun r hr => ?_
      rw [exact_eq_of_lost ((lost_eq_zero_iff _).mpr (hrep.integers r hr))]
    rw [exactFrame, hexact]
    exact hsent

/-- A node of a meter that counts in a `uint64`. -/
def meterRead (n : UInt64) : Nat → NodeID → ReadResult :=
  fun _ _ => .results [some ⟨statusOK, some (.scalar (.uint64 n))⟩]

/-- The service that reads the meter. -/
def meterService : Service :=
  { (newService { defaultConfig with
      mappings := [⟨"Energy", "ns=2;i=7", 2, true⟩] }).toService with
    client := some 0 }

/-- Its mapping, with the parsed node id. -/
def meterMapping : ResolvedMapping := ⟨"Energy", 2, ⟨2, .numeric 7⟩⟩

theorem resolve_meter :
    resolveMappings (fun _ => none) meterService.cfg.mappings = .ok [meterMapping] := by
  decide

/-- The frame of the meter. -/
def meterFrame (n : UInt64) : MessagePack.Bytes :=
  encode ⟨fun _ fs => fs, fun _ fs => .refl fs⟩ 1 0
    [⟨"Energy", 2, (meterRead n 0 ⟨2, .numeric 7⟩).wire⟩]

theorem readFrame_meter (n : UInt64) :
    readFrame (fun _ => none) (meterRead n) ⟨fun _ fs => fs, fun _ fs => .refl fs⟩ 0 meterService
      = .ok (meterFrame n) := by
  rfl

theorem representable_meter_iff (n : UInt64) :
    Representable (meterRead n) [meterMapping] ↔ n.toNat < 2 ^ 63 := by
  constructor
  · intro h
    exact h.integers _ (List.mem_singleton_self _) n rfl
  · intro hn
    refine ⟨?_, by decide, by decide, ?_⟩
    · intro r hr m hm
      obtain rfl := List.mem_singleton.mp hr
      cases hm
      exact hn
    · intro r hr b hb
      obtain rfl := List.mem_singleton.mp hr
      rcases hb with hb | hb <;> cases hb

/-- The largest count that comes through. -/
theorem readsExactly_meter :
    readUnordered (meterFrame 0x7fffffffffffffff) =
      some (exactFrame (meterRead 0x7fffffffffffffff) 1 0 [meterMapping]).unordered :=
  (readsExactly_iff (readFrame_meter _) resolve_meter).mpr
    ((representable_meter_iff _).mpr (by decide))

/-- The next count is sent as a negative number. -/
theorem not_readsExactly_meter :
    readFrame (fun _ => none) (meterRead 0x8000000000000000) ⟨fun _ fs => fs, fun _ fs => .refl fs⟩
        0 meterService = .ok (meterFrame 0x8000000000000000) ∧
    (meterRead 0x8000000000000000 0 meterMapping.nid).wire.object = .int (-2 ^ 63) ∧
    readUnordered (meterFrame 0x8000000000000000) ≠
      some (exactFrame (meterRead 0x8000000000000000) 1 0 [meterMapping]).unordered := by
  refine ⟨readFrame_meter _, rfl, fun hreads => ?_⟩
  have hrep := (readsExactly_iff (readFrame_meter _) resolve_meter).mp hreads
  exact absurd ((representable_meter_iff _).mp hrep) (by decide)

end SmartFactory.Bridge
