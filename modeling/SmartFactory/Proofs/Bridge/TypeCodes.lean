import SmartFactory.Bridge.Frame

/-!
# `SmartFactory.Proofs.Bridge.TypeCodes`: type codes and values of a frame

`frameSensors_ok_iff` is what `readFrame` does before it encodes: there is a client, every
mapping that counts has a node id, and each of them gives one sensor.

The protocol wants the value of a sensor to be of the kind that its type code names.
`typeCodesMatch_iff` is when that is so: the code that is configured for a node is one of
those that its server type `Agrees` with. Nothing in the bridge compares the two, and a node
that cannot be read is sent as a Boolean, whatever its code.
-/

set_option autoImplicit false

namespace SmartFactory.Bridge

open MessagePack (Object)

/-! ### The sensors of a frame -/

/-- The mappings that count: enabled, and with a node id. -/
def selected (ms : List Mapping) : List Mapping :=
  ms.filter fun m => m.enabled && m.nodeIDString ≠ ""

/-- An enabled mapping with a node is selected. -/
theorem selected_cons_of_pos {m : Mapping} (ms : List Mapping) (he : m.enabled = true)
    (hn : m.nodeIDString ≠ "") : selected (m :: ms) = m :: selected ms :=
  List.filter_cons_of_pos (by simp [he, hn])

/-- Any other is left out. -/
theorem selected_cons_of_neg {m : Mapping} (ms : List Mapping)
    (h : (!m.enabled || m.nodeIDString = "") = true) : selected (m :: ms) = selected ms :=
  List.filter_cons_of_neg (by
    simp only [Bool.or_eq_true, Bool.not_eq_true', decide_eq_true_eq] at h
    rcases h with h | h <;> simp [h])

/-- A part of a computation without errors has none. -/
theorem bind_eq_ok_iff {ε α β : Type} {x : Except ε α} {f : α → Except ε β} {b : β} :
    x >>= f = .ok b ↔ ∃ a, x = .ok a ∧ f a = .ok b := by
  cases x with
  | error e => exact ⟨nofun, fun ⟨_, h, _⟩ => by cases h⟩
  | ok a => exact ⟨fun h => ⟨a, rfl, h⟩, fun ⟨_, ha, h⟩ => by cases ha; exact h⟩

/-- Another error text does not change the results. -/
theorem mapError_eq_ok_iff {ε ε' α : Type} {x : Except ε α} {f : ε → ε'} {a : α} :
    x.mapError f = .ok a ↔ x = .ok a := by
  cases x with
  | error e => exact ⟨nofun, nofun⟩
  | ok b => exact ⟨fun h => by cases h; rfl, fun h => by cases h; rfl⟩

section
variable {native : String → Option NodeID} {read : Nat → NodeID → ReadResult}

/-- A mapping with its parsed node id. -/
def Resolves (native : String → Option NodeID) (m : Mapping) (r : ResolvedMapping) : Prop :=
  ∃ nid, parseQt native m.nodeIDString = .ok nid ∧ r = ⟨m.msgID, m.typeCode, nid⟩

/-- The selected mappings are resolved one by one. -/
theorem resolveMappings_ok_iff (ms : List Mapping) (rs : List ResolvedMapping) :
    resolveMappings native ms = .ok rs ↔ List.Forall₂ (Resolves native) (selected ms) rs := by
  induction ms generalizing rs with
  | nil =>
      rw [selected, List.filter_nil, List.forall₂_nil_left_iff]
      exact ⟨fun h => by cases h; rfl, fun h => by rw [h]; rfl⟩
  | cons m ms ih =>
      rw [resolveMappings]
      split
      · rename_i hm
        -- A mapping that is off or has no text is passed over.
        rw [selected_cons_of_neg ms hm, ih]
      · rename_i hm
        simp only [Bool.or_eq_true, Bool.not_eq_true', decide_eq_true_eq, not_or,
          Bool.not_eq_false] at hm
        rw [selected_cons_of_pos ms hm.1 hm.2, List.forall₂_cons_left_iff, bind_eq_ok_iff]
        constructor
        · rintro ⟨nid, hnid, h⟩
          obtain ⟨out, hout, h⟩ := bind_eq_ok_iff.mp h
          cases h
          exact ⟨_, out, ⟨nid, hnid, rfl⟩, (ih out).mp hout, rfl⟩
        · rintro ⟨_, out, ⟨nid, hnid, rfl⟩, hout, rfl⟩
          exact ⟨nid, hnid, bind_eq_ok_iff.mpr ⟨out, (ih out).mpr hout, rfl⟩⟩

/-- The sensors are read one by one, with their places. -/
theorem readSensors_ok_iff (i : Nat) (rs : List ResolvedMapping) (ss : List Sensor) :
    readSensors read i rs = .ok ss ↔
      List.Forall₂ (fun r s => readSensor r.1 (read r.2 r.1.nid) = .ok s) (rs.zipIdx i) ss := by
  induction rs generalizing i ss with
  | nil =>
      rw [List.zipIdx_nil, List.forall₂_nil_left_iff]
      exact ⟨fun h => by cases h; rfl, fun h => by rw [h]; rfl⟩
  | cons r rs ih =>
      rw [readSensors, List.zipIdx_cons, List.forall₂_cons_left_iff, bind_eq_ok_iff]
      constructor
      · rintro ⟨s, hs, h⟩
        obtain ⟨ss', hss, h⟩ := bind_eq_ok_iff.mp h
        cases h
        exact ⟨s, ss', hs, (ih (i + 1) ss').mp hss, rfl⟩
      · rintro ⟨s, ss', hs, hss, rfl⟩
        exact ⟨s, hs, bind_eq_ok_iff.mpr ⟨ss', (ih (i + 1) ss').mpr hss, rfl⟩⟩

/-- The sensor of a mapping, whose read has this number. -/
def Senses (native : String → Option NodeID) (read : Nat → NodeID → ReadResult)
    (m : Mapping × Nat) (s : Sensor) : Prop :=
  ∃ nid, parseQt native m.1.nodeIDString = .ok nid ∧
    readSensor ⟨m.1.msgID, m.1.typeCode, nid⟩ (read m.2 nid) = .ok s

/-- First all mappings are resolved and then all of them are read. -/
theorem forall₂_senses_iff (i : Nat) (ms : List Mapping) (ss : List Sensor) :
    List.Forall₂ (Senses native read) (ms.zipIdx i) ss ↔
      ∃ rs, List.Forall₂ (Resolves native) ms rs ∧
        List.Forall₂ (fun r s => readSensor r.1 (read r.2 r.1.nid) = .ok s) (rs.zipIdx i) ss := by
  induction ms generalizing i ss with
  | nil => simp
  | cons m ms ih =>
      rw [List.zipIdx_cons, List.forall₂_cons_left_iff]
      constructor
      · rintro ⟨s, ss', ⟨nid, hnid, hs⟩, hss, rfl⟩
        obtain ⟨rs, hrs, hss⟩ := (ih (i + 1) ss').mp hss
        exact ⟨⟨m.msgID, m.typeCode, nid⟩ :: rs, .cons ⟨nid, hnid, rfl⟩ hrs,
          by rw [List.zipIdx_cons]; exact .cons hs hss⟩
      · rintro ⟨_, hmrs, hss⟩
        obtain ⟨_, rs, ⟨nid, hnid, rfl⟩, hrs, rfl⟩ := List.forall₂_cons_left_iff.mp hmrs
        rw [List.zipIdx_cons] at hss
        obtain ⟨s, ss', hs, hss', rfl⟩ := List.forall₂_cons_left_iff.mp hss
        exact ⟨s, ss', ⟨nid, hnid, hs⟩, (ih (i + 1) ss').mpr ⟨rs, hrs, hss'⟩, rfl⟩

/-- What `readFrame` gives to the encoder: with a client, one sensor for each mapping that
counts. -/
theorem frameSensors_ok_iff (s : Service) (ss : List Sensor) :
    frameSensors native read s = .ok ss ↔
      s.client ≠ none ∧
        List.Forall₂ (Senses native read) (selected s.cfg.mappings).zipIdx ss := by
  rw [forall₂_senses_iff, frameSensors]
  split
  · rename_i hc
    exact ⟨nofun, fun h => absurd hc h.1⟩
  · rename_i hc
    simp only [bind_eq_ok_iff, mapError_eq_ok_iff, resolveMappings_ok_iff, readSensors_ok_iff, hc]
    simp

end

/-! ### Types of values -/

/-- The object that is sent for a value. -/
def Wire.object : Wire → Object
  | .bool b => .bool b
  | .int32 n => .int n.toInt
  | .int64 n => .int n.toInt
  | .float32 bits => .float32 bits
  | .float64 bits => .float64 bits
  | .string s => .str s

/-- The object is of the kind that the protocol names for the type code. It names none from 6
on. -/
def Matches (code : UInt8) : Object → Prop
  | .bool _ => code = 0
  | .int i => code = 1 ∧ -2 ^ 31 ≤ i ∧ i < 2 ^ 31 ∨ code = 2 ∧ -2 ^ 63 ≤ i ∧ i < 2 ^ 63
  | .float32 _ => code = 3
  | .float64 _ => code = 4
  | .str _ => code = 5
  | _ => False

/-- The scalar that was read, with a good status. -/
def ReadResult.scalar? : ReadResult → Option Scalar
  | .results (some ⟨status, some (.scalar v)⟩ :: _) => if status = statusOK then some v else none
  | _ => none

/-- An array was read, with a good status, whose elements are of a type that the conversion
knows. -/
def ReadResult.isArray : ReadResult → Bool
  | .results (some ⟨status, some (.array type _ _)⟩ :: _) => status = statusOK && type.hasCase
  | _ => false

/-- The type code that fits what was read. Only Booleans have the code of what cannot be read
and of what the conversion does not know. A `uint64` from 2^63 on is sent as a negative
number. -/
def Agrees (code : UInt8) : Option Scalar → Prop
  | none => code = 0
  | some (.boolean _) => code = 0
  | some (.other _ _) => code = 0
  | some (.sByte _) | some (.byte _) | some (.int16 _) | some (.uint16 _) | some (.int32 _) =>
      code = 1 ∨ code = 2
  | some (.uint32 n) => code = 1 ∧ n.toNat < 2 ^ 31 ∨ code = 2
  | some (.int64 n) => code = 1 ∧ -2 ^ 31 ≤ n.toInt ∧ n.toInt < 2 ^ 31 ∨ code = 2
  | some (.uint64 n) =>
      code = 1 ∧ (n.toNat < 2 ^ 31 ∨ 2 ^ 64 - 2 ^ 31 ≤ n.toNat) ∨ code = 2
  | some (.float _) => code = 3
  | some (.double _) => code = 4
  | some (.string _) | some (.byteString _) => code = 5

/-! ### Conversions of integers -/

/-- A conversion to 32 bits wraps. -/
theorem toInt_int32 (n : UInt32) : n.toInt32.toInt = (n.toNat : Int).bmod (2 ^ 32) :=
  BitVec.toInt_eq_toNat_bmod n.toBitVec

/-- And one to 64 bits. -/
theorem toInt_int64 (n : UInt64) : n.toInt64.toInt = (n.toNat : Int).bmod (2 ^ 64) :=
  BitVec.toInt_eq_toNat_bmod n.toBitVec

/-- Eight bits fit into 32. -/
theorem toInt_uint8 (n : UInt8) : n.toUInt32.toInt32.toInt = n.toNat := by
  have hlt := n.toNat_lt
  rw [toInt_int32, UInt8.toNat_toUInt32, Int.bmod_eq_of_le_mul_two (by omega) (by omega)]

/-- So do 16. -/
theorem toInt_uint16 (n : UInt16) : n.toUInt32.toInt32.toInt = n.toNat := by
  have hlt := n.toNat_lt
  rw [toInt_int32, UInt16.toNat_toUInt32, Int.bmod_eq_of_le_mul_two (by omega) (by omega)]

/-- And 32 fit into 64. -/
theorem toInt_uint32 (n : UInt32) : n.toUInt64.toInt64.toInt = n.toNat := by
  have hlt := n.toNat_lt
  rw [toInt_int64, UInt32.toNat_toUInt64, Int.bmod_eq_of_le_mul_two (by omega) (by omega)]

/-- An integer that has 32 bits. -/
theorem matches_int_of_small {code : UInt8} {i : Int} (hlo : -2 ^ 31 ≤ i) (hhi : i < 2 ^ 31) :
    Matches code (.int i) ↔ code = 1 ∨ code = 2 := by
  have h2 : -2 ^ 63 ≤ i ∧ i < 2 ^ 63 := by omega
  simp only [Matches, hlo, hhi, h2.1, h2.2, and_true]

/-- An integer that has 64 bits. -/
theorem matches_int {code : UInt8} {i : Int} (hlo : -2 ^ 63 ≤ i) (hhi : i < 2 ^ 63) :
    Matches code (.int i) ↔ code = 1 ∧ -2 ^ 31 ≤ i ∧ i < 2 ^ 31 ∨ code = 2 := by
  simp only [Matches, hlo, hhi, and_true]

/-- The object of a value matches a type code exactly when the value has the type. -/
theorem matches_toWire_iff (code : UInt8) (v : Scalar) :
    Matches code v.toWire.object ↔ Agrees code (some v) := by
  cases v with
  | sByte n =>
      have hlo := n.le_toInt
      have hhi := n.toInt_lt
      rw [Scalar.toWire, Wire.object, Int8.toInt_toInt32]
      exact matches_int_of_small (by omega) (by omega)
  | byte n =>
      have hlt := n.toNat_lt
      rw [Scalar.toWire, Wire.object, toInt_uint8]
      exact matches_int_of_small (by omega) (by omega)
  | int16 n =>
      have hlo := n.le_toInt
      have hhi := n.toInt_lt
      rw [Scalar.toWire, Wire.object, Int16.toInt_toInt32]
      exact matches_int_of_small (by omega) (by omega)
  | uint16 n =>
      have hlt := n.toNat_lt
      rw [Scalar.toWire, Wire.object, toInt_uint16]
      exact matches_int_of_small (by omega) (by omega)
  | int32 n => exact matches_int_of_small n.le_toInt n.toInt_lt
  -- Up to here the values fit both integer codes. From here on the range decides.
  | uint32 n =>
      have hlt := n.toNat_lt
      rw [Scalar.toWire, Wire.object, toInt_uint32, matches_int (by omega) (by omega), Agrees]
      refine or_congr_left (and_congr_right fun _ => ?_)
      omega
  | int64 n => exact matches_int n.le_toInt n.toInt_lt
  | uint64 n =>
      have hlt := n.toNat_lt
      rw [Scalar.toWire, Wire.object, matches_int (Int64.le_toInt _) (Int64.toInt_lt _), Agrees,
        toInt_int64]
      refine or_congr_left (and_congr_right fun _ => ?_)
      -- A value from 2^63 on comes out negative, and the last 2^31 of these fit code 1.
      rw [Int.bmod_eq_emod]
      split <;> omega
  | boolean _ => exact Iff.rfl
  | float _ => exact Iff.rfl
  | double _ => exact Iff.rfl
  | string _ => exact Iff.rfl
  | byteString _ => exact Iff.rfl
  | other _ _ => exact Iff.rfl

/-! ### The law and its extent -/

/-- What the conversion makes of a data value, if it does not panic, fits the type codes that
agree with it. -/
theorem dataValueToWire_matches_iff {code : UInt8} {dv : Option DataValue} {val : Wire}
    (rest : List (Option DataValue)) (h : dataValueToWire dv = some val) :
    Matches code val.object ↔ Agrees code (ReadResult.results (dv :: rest)).scalar? := by
  cases dv with
  | none => cases h; exact Iff.rfl
  | some dv =>
      obtain ⟨status, value⟩ := dv
      rw [dataValueToWire] at h
      split at h
      · rename_i hstatus
        cases h
        -- Whatever the value is, a bad status hides it.
        have hnone : (ReadResult.results (some ⟨status, value⟩ :: rest)).scalar? = none := by
          rcases value with _ | v | _
          · rfl
          · exact if_neg hstatus
          · rfl
        rw [hnone]
        exact Iff.rfl
      · rename_i hstatus
        rcases value with _ | v | ⟨type, vs, hvs⟩
        · cases h; exact Iff.rfl
        · cases h
          rw [matches_toWire_iff, ReadResult.scalar?, if_pos (not_not.mp hstatus)]
        · dsimp only [Variant.toWire] at h
          split at h
          · cases h
          · cases h; exact Iff.rfl

/-- The conversion panics for arrays of the types that it knows. -/
theorem dataValueToWire_eq_none_iff (dv : Option DataValue) (rest : List (Option DataValue)) :
    dataValueToWire dv = none ↔ (ReadResult.results (dv :: rest)).isArray = true := by
  rcases dv with _ | ⟨status, _ | v | ⟨type, vs, hvs⟩⟩
  · exact ⟨nofun, nofun⟩
  · simp [dataValueToWire, ReadResult.isArray]
  · simp only [dataValueToWire, ReadResult.isArray, Variant.toWire]
    split <;> simp
  · simp only [dataValueToWire, ReadResult.isArray, Variant.toWire]
    by_cases hstatus : status = statusOK <;> cases htype : type.hasCase <;> simp [hstatus]

/-- The value of a sensor is of the right kind when its type code fits what was read. -/
theorem readSensor_matches_iff {m : ResolvedMapping} {r : ReadResult} {s : Sensor}
    (h : readSensor m r = .ok s) :
    Matches s.typeCode s.value.object ↔ Agrees m.typeCode r.scalar? := by
  unfold readSensor at h
  split at h
  · cases h; exact Iff.rfl
  · cases h; exact Iff.rfl
  · rename_i dv rest
    split at h
    · rename_i val hval
      cases h
      exact dataValueToWire_matches_iff rest hval
    · cases h

/-- A mapping gets a sensor unless the conversion panics. -/
theorem exists_readSensor_iff (m : ResolvedMapping) (r : ReadResult) :
    (∃ s, readSensor m r = .ok s) ↔ r.isArray = false := by
  unfold readSensor
  split
  · exact ⟨fun _ => rfl, fun _ => ⟨_, rfl⟩⟩
  · exact ⟨fun _ => rfl, fun _ => ⟨_, rfl⟩⟩
  · rename_i dv rest
    -- Only the first result is converted.
    have hnone := dataValueToWire_eq_none_iff dv rest
    split
    · rename_i val hval
      rw [hval] at hnone
      exact ⟨fun _ => by simpa using hnone, fun _ => ⟨_, rfl⟩⟩
    · rename_i hval
      rw [hnone.mp hval]
      constructor
      · rintro ⟨_, h⟩
        cases h
      · exact nofun

section
variable (native : String → Option NodeID) (read : Nat → NodeID → ReadResult)

/-- Every sensor of the frame that `readFrame` makes carries a value of the kind that its type
code names. -/
def TypeCodesMatch (s : Service) : Prop :=
  ∀ ss, frameSensors native read s = .ok ss → ∀ x ∈ ss, Matches x.typeCode x.value.object

/-- There is a frame: a client, a node id for each mapping that counts, and no array among the
values whose type the conversion knows. -/
def MakesFrame (s : Service) : Prop :=
  s.client ≠ none ∧ ∀ m ∈ (selected s.cfg.mappings).zipIdx,
    ∃ nid, parseQt native m.1.nodeIDString = .ok nid ∧ (read m.2 nid).isArray = false

/-- The configuration gives each mapping that counts a type code that fits what is read. -/
def TypesDeclared (s : Service) : Prop :=
  ∀ m ∈ (selected s.cfg.mappings).zipIdx, ∀ nid, parseQt native m.1.nodeIDString = .ok nid →
    Agrees m.1.typeCode (read m.2 nid).scalar?

variable {native read}

/-- A sensor matches its code exactly when what has been read agrees with it. -/
theorem senses_matches_iff {m : Mapping × Nat} {x : Sensor} (h : Senses native read m x) :
    Matches x.typeCode x.value.object ↔
      ∀ nid, parseQt native m.1.nodeIDString = .ok nid →
        Agrees m.1.typeCode (read m.2 nid).scalar? := by
  obtain ⟨nid, hnid, hs⟩ := h
  rw [readSensor_matches_iff hs]
  constructor
  · intro hagree nid' hnid'
    cases hnid.symm.trans hnid'
    exact hagree
  · intro hagree
    exact hagree nid hnid

/-- Related elements have a property together. -/
theorem forall₂_forall_iff {α β : Type} {R : α → β → Prop} {P : α → Prop} {Q : β → Prop}
    (hPQ : ∀ a b, R a b → (Q b ↔ P a)) {as : List α} {bs : List β} (h : List.Forall₂ R as bs) :
    (∀ b ∈ bs, Q b) ↔ ∀ a ∈ as, P a := by
  induction h with
  | nil => simp
  | cons hab _ ih => rw [List.forall_mem_cons, List.forall_mem_cons, hPQ _ _ hab, ih]

/-- There is a related list as soon as every element has a partner. -/
theorem exists_forall₂_iff {α β : Type} {R : α → β → Prop} (as : List α) :
    (∃ bs, List.Forall₂ R as bs) ↔ ∀ a ∈ as, ∃ b, R a b := by
  induction as with
  | nil => simp
  | cons a as ih =>
      rw [List.forall_mem_cons, ← ih]
      constructor
      · rintro ⟨_, h⟩
        obtain ⟨b, bs, hab, hbs, rfl⟩ := List.forall₂_cons_left_iff.mp h
        exact ⟨⟨b, hab⟩, bs, hbs⟩
      · rintro ⟨⟨b, hab⟩, bs, hbs⟩
        exact ⟨b :: bs, .cons hab hbs⟩

/-- When `readFrame` gets as far as the encoder. -/
theorem exists_frameSensors_iff (s : Service) :
    (∃ ss, frameSensors native read s = .ok ss) ↔ MakesFrame native read s := by
  simp only [frameSensors_ok_iff, exists_and_left, exists_forall₂_iff, MakesFrame, Senses]
  refine and_congr_right fun _ => forall₂_congr fun m _ => ?_
  rw [exists_comm]
  refine exists_congr fun nid => ?_
  rw [exists_and_left, exists_readSensor_iff]

/-- The type codes match exactly when the configuration declares the types of what is read, or
there is no frame. -/
theorem typeCodesMatch_iff (s : Service) :
    TypeCodesMatch native read s ↔ (MakesFrame native read s → TypesDeclared native read s) := by
  have hmatch : ∀ ss, frameSensors native read s = .ok ss →
      ((∀ x ∈ ss, Matches x.typeCode x.value.object) ↔ TypesDeclared native read s) := by
    intro ss h
    exact forall₂_forall_iff (fun _ _ => senses_matches_iff) ((frameSensors_ok_iff s ss).mp h).2
  rw [← exists_frameSensors_iff]
  constructor
  · rintro h ⟨ss, hss⟩
    exact (hmatch ss hss).mp (h ss hss)
  · intro h ss hss
    exact (hmatch ss hss).mpr (h ⟨ss, hss⟩)

end

/-- A node that is configured as an integer and cannot be read. -/
theorem not_typeCodesMatch_failed :
    ¬ TypeCodesMatch (fun _ => none) (fun _ _ => .failed "timeout")
      { (newService { defaultConfig with
          mappings := [⟨"Temperature", "ns=2;i=7", 1, true⟩] }).toService with
        client := some 0 } := by
  intro h
  have hbool : Matches 1 (.bool false) :=
    h [⟨"Temperature", 1, .bool false⟩] (by decide) _ (List.mem_singleton.mpr rfl)
  exact absurd (show (1 : UInt8) = 0 from hbool) (by decide)

end SmartFactory.Bridge
