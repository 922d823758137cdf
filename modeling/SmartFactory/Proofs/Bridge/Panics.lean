import SmartFactory.Proofs.Bridge.TypeCodes

/-!
# `SmartFactory.Proofs.Bridge.Panics`: which values end the Go bridge

Each case of `dataValueToWire` asserts a Go type for the value of the variant. An assertion
that does not hold panics, and nothing between `dataValueToWire` and `tickLoop` recovers: the
process ends.

`toWire_eq_none_iff` is what is behind the panics of the model. The type tag of an array is the
one of its elements, but its value is a slice, so the assertion fails whatever the length and
the number of dimensions. `noPanic_iff` is the extent of it, for one value and for a frame.
-/

set_option autoImplicit false

namespace SmartFactory.Bridge

/-! ### The assertions -/

/-- The Go types that the values of variants have. -/
inductive GoType where
  | bool | int8 | uint8 | int16 | uint16 | int32 | uint32 | int64 | uint64
  | float32 | float64 | string
  | slice (elem : GoType)
  | other (type : TypeID)
  deriving DecidableEq

/-- The Go type of a value that is not an array. -/
def TypeID.goType : TypeID → GoType
  | .boolean => .bool
  | .sByte => .int8
  | .byte => .uint8
  | .int16 => .int16
  | .uint16 => .uint16
  | .int32 => .int32
  | .uint32 => .uint32
  | .int64 => .int64
  | .uint64 => .uint64
  | .float => .float32
  | .double => .float64
  | .string => .string
  | .byteString => .slice .uint8
  | type => .other type

/-- Slices of slices, for an array of `n` dimensions. -/
def GoType.sliced (t : GoType) : Nat → GoType
  | 0 => t
  | n + 1 => .slice (t.sliced n)

/-- The Go type of `Variant.Value`. An array has `dims + 1` dimensions. -/
def Variant.goType (dims : Nat) : Variant → GoType
  | .scalar v => v.type.goType
  | .array type _ _ => type.goType.sliced (dims + 1)

/-- The Go type that the case of `dataValueToWire` asserts. The default case asserts none. -/
def TypeID.asserted : TypeID → Option GoType
  | .boolean => some .bool
  | .sByte => some .int8
  | .byte => some .uint8
  | .int16 => some .int16
  | .uint16 => some .uint16
  | .int32 => some .int32
  | .uint32 => some .uint32
  | .int64 => some .int64
  | .uint64 => some .uint64
  | .float => some .float32
  | .double => some .float64
  | .string => some .string
  | .byteString => some (.slice .uint8)
  | _ => none

/-- The assertion of a case is right for the scalars of its type. -/
theorem asserted_eq (t : TypeID) : t.asserted = if t.hasCase then some t.goType else none := by
  cases t <;> rfl

/-- How deep the slices of a type nest. -/
def GoType.depth : GoType → Nat
  | .slice t => t.depth + 1
  | _ => 0

theorem depth_sliced (t : GoType) (n : Nat) : (t.sliced n).depth = t.depth + n := by
  induction n with
  | zero => rfl
  | succ n ih =>
      show (t.sliced n).depth + 1 = t.depth + (n + 1)
      omega

/-- A slice is never of the type of its elements. -/
theorem sliced_ne (t : GoType) (n : Nat) : t.sliced (n + 1) ≠ t := by
  intro h
  have hdepth := congrArg GoType.depth h
  rw [depth_sliced] at hdepth
  omega

/-- **The panics of the conversion** are the assertions that do not hold. -/
theorem toWire_eq_none_iff (v : Variant) (dims : Nat) :
    v.toWire = none ↔ ∃ t, v.type.asserted = some t ∧ v.goType dims ≠ t := by
  rw [asserted_eq]
  cases v with
  | scalar v =>
      simp only [Variant.toWire, Variant.type, Variant.goType]
      by_cases hcase : v.type.hasCase = true <;> simp [hcase]
  | array type vs h =>
      simp only [Variant.toWire, Variant.type, Variant.goType]
      by_cases hcase : type.hasCase = true
      · simp [hcase, sliced_ne]
      · simp [hcase]

/-! ### The frame -/

section
variable {native : String → Option NodeID} {read : Nat → NodeID → ReadResult}

/-- The loop panics or reads everything. -/
theorem readSensors_eq_error {i : Nat} {rs : List ResolvedMapping} {e : ReadFrameErr}
    (h : readSensors read i rs = .error e) : e = .panicked := by
  induction rs generalizing i with
  | nil => cases h
  | cons r rs ih =>
      rw [readSensors] at h
      cases hsensor : readSensor r (read i r.nid) with
      | error e' =>
          rw [hsensor] at h
          cases h
          -- A read that fails gives `false` and no error. Only the conversion of a value can panic.
          simp only [readSensor] at hsensor
          split at hsensor
          · cases hsensor
          · cases hsensor
          · split at hsensor
            · cases hsensor
            · cases hsensor
              rfl
      | ok sensor =>
          rw [hsensor] at h
          cases hrest : readSensors read (i + 1) rs with
          | error e' =>
              rw [hrest] at h
              cases h
              exact ih hrest
          | ok sensors =>
              rw [hrest] at h
              cases h

/-- The loop panics exactly when an array is among the values whose type the conversion
knows. -/
theorem readSensors_panics_iff (i : Nat) (rs : List ResolvedMapping) :
    readSensors read i rs = .error .panicked ↔
      ∃ r ∈ rs.zipIdx i, (read r.2 r.1.nid).isArray = true := by
  have hreads : (∃ ss, readSensors read i rs = .ok ss) ↔
      ∀ r ∈ rs.zipIdx i, (read r.2 r.1.nid).isArray = false := by
    simp only [readSensors_ok_iff, exists_forall₂_iff, exists_readSensor_iff]
  cases hloop : readSensors read i rs with
  | error e =>
      rw [readSensors_eq_error hloop]
      have hnot : ¬ ∃ ss, readSensors read i rs = .ok ss := by simp [hloop]
      rw [hreads] at hnot
      simpa using hnot
  | ok ss =>
      have hall := hreads.mp ⟨ss, hloop⟩
      refine iff_of_false nofun ?_
      rintro ⟨r, hr, harray⟩
      cases (hall r hr).symm.trans harray

variable (native read)

/-- A frame gets as far as the reads, and one of them answers with an array of a type that the
conversion knows. -/
def ReadsArray (s : Service) : Prop :=
  s.client ≠ none ∧ ∃ rs, resolveMappings native s.cfg.mappings = .ok rs ∧
    ∃ r ∈ rs.zipIdx, (read r.2 r.1.nid).isArray = true

variable {native read}

/-- A frame panics exactly when it reads such an array. -/
theorem readFrame_panics_iff (o : MapOrder) (ts : UInt64) (s : Service) :
    readFrame native read o ts s = .error .panicked ↔ ReadsArray native read s := by
  have hframe : readFrame native read o ts s = .error .panicked ↔
      frameSensors native read s = .error .panicked := by
    rw [readFrame]
    cases frameSensors native read s with
    | error e =>
        show Except.error e = _ ↔ _
        constructor <;>
          · intro h
            cases h
            rfl
    | ok ss => exact ⟨nofun, nofun⟩
  rw [hframe, frameSensors, ReadsArray]
  cases s.client with
  | none => simp
  | some c =>
      cases hrs : resolveMappings native s.cfg.mappings with
      | error e =>
          -- A node id that is not parsed is an error, and no panic.
          refine iff_of_false (fun h => ?_) (by simp)
          cases h
      | ok rs =>
          show readSensors read 0 rs = .error .panicked ↔ _
          rw [readSensors_panics_iff]
          simp

end

/-- **The extent of it.** A value is converted exactly when it is no array, of good status, of a
type that the conversion knows, and `readFrame` returns exactly when it reads none. -/
theorem noPanic_iff (dv : Option DataValue) (native : String → Option NodeID)
    (read : Nat → NodeID → ReadResult) (o : MapOrder) (ts : UInt64) (s : Service) :
    (dataValueToWire dv ≠ none ↔ (ReadResult.results [dv]).isArray = false) ∧
    (readFrame native read o ts s ≠ .error .panicked ↔ ¬ ReadsArray native read s) := by
  constructor
  · rw [Ne, dataValueToWire_eq_none_iff dv [], Bool.not_eq_true]
  · exact not_congr (readFrame_panics_iff o ts s)

/-- The two limit switches of a machine, as one Boolean array. -/
def limitSwitches : DataValue :=
  ⟨statusOK, some (.array .boolean [.boolean true, .boolean false] (by decide))⟩

/-- A node that holds the array is mapped: the conversion panics, and the frame with it. -/
theorem panics_limitSwitches :
    dataValueToWire (some limitSwitches) = none ∧
    readFrame (fun _ => none) (fun _ _ => .results [some limitSwitches]) ⟨fun _ fs => fs, fun _ _ =>
        .refl _⟩ 0
      { (newService { defaultConfig with
          mappings := [⟨"Limits", "ns=2;i=7", 0, true⟩] }).toService with
        client := some 0, opcConnected := true, bridgeRunning := true } = .error .panicked := by
  refine ⟨rfl, (readFrame_panics_iff _ _ _).mpr ⟨nofun, ?_⟩⟩
  exact ⟨[⟨"Limits", 0, ⟨2, .numeric 7⟩⟩], by decide, _, List.mem_singleton_self _, rfl⟩

end SmartFactory.Bridge
