import SmartFactory.Bridge.NodeId
import SmartFactory.Lib.MessagePackWriting

/-!
# `SmartFactory.Bridge.Frame`: how the Go bridge makes a frame

`readFrame` of `internal/bridge/service.go`, with the conversion of values
(`internal/bridge/value.go`) and the encoder (`internal/frame/encode.go`).

The type code of a sensor comes from the configuration and its value from the server. What the
server answers is a `ReadResult` for each read. A value of the server is a `Variant`: its type
is one of the built-in types of OPC UA, and it holds a value of that type or an array.

The MessagePack library writes each Go type in a form of its own, and the entries of a map in
the order in which the runtime goes through it. That order is a `MapOrder`.
-/

set_option autoImplicit false

namespace SmartFactory.Bridge

open MessagePack (Object bigEndian twosComplement strHeader arrayHeader mapHeader)

/-! ### Values of the server -/

/-- `ua.TypeID`. -/
inductive TypeID where
  | null | boolean | sByte | byte | int16 | uint16 | int32 | uint32 | int64 | uint64
  | float | double | string | dateTime | guid | byteString | xmlElement | nodeID
  | expandedNodeID | statusCode | qualifiedName | localizedText | extensionObject
  | dataValue | variant | diagnosticInfo
  deriving DecidableEq

/-- The types with a case of their own in `dataValueToWire`. -/
def TypeID.hasCase : TypeID → Bool
  | .boolean | .sByte | .byte | .int16 | .uint16 | .int32 | .uint32 | .int64 | .uint64
  | .float | .double | .string | .byteString => true
  | _ => false

/-- A value that is not an array. The bits of a float stand for it, and a string is a sequence
of bytes. -/
inductive Scalar where
  | boolean (b : Bool)
  | sByte (n : Int8)
  | byte (n : UInt8)
  | int16 (n : Int16)
  | uint16 (n : UInt16)
  | int32 (n : Int32)
  | uint32 (n : UInt32)
  | int64 (n : Int64)
  | uint64 (n : UInt64)
  | float (bits : UInt32)
  | double (bits : UInt64)
  | string (s : MessagePack.Bytes)
  | byteString (s : MessagePack.Bytes)
  | other (type : TypeID) (h : type.hasCase = false)
  deriving DecidableEq

/-- The type of a value. -/
def Scalar.type : Scalar → TypeID
  | .boolean _ => .boolean
  | .sByte _ => .sByte
  | .byte _ => .byte
  | .int16 _ => .int16
  | .uint16 _ => .uint16
  | .int32 _ => .int32
  | .uint32 _ => .uint32
  | .int64 _ => .int64
  | .uint64 _ => .uint64
  | .float _ => .float
  | .double _ => .double
  | .string _ => .string
  | .byteString _ => .byteString
  | .other type _ => type

/-- `ua.Variant`. An array of several dimensions is the list of its elements. -/
inductive Variant where
  | scalar (v : Scalar)
  | array (type : TypeID) (vs : List Scalar) (h : ∀ v ∈ vs, v.type = type)

/-- `Variant.Type`: an array has the type of its elements. -/
def Variant.type : Variant → TypeID
  | .scalar v => v.type
  | .array type _ _ => type

/-- `ua.DataValue`, as far as the bridge reads it. -/
structure DataValue where
  status : UInt32
  value : Option Variant

/-- `ua.StatusOK`. -/
def statusOK : UInt32 := 0

/-- What a `Read` of one node returns. -/
inductive ReadResult where
  | failed (err : String)
  | results (dvs : List (Option DataValue))

/-! ### `value.go` -/

/-- The values that the bridge gives to the encoder. -/
inductive Wire where
  | bool (b : Bool)
  | int32 (n : Int32)
  | int64 (n : Int64)
  | float32 (bits : UInt32)
  | float64 (bits : UInt64)
  | string (s : MessagePack.Bytes)
  deriving DecidableEq

/-- The cases of `dataValueToWire` for a value that is not an array. -/
def Scalar.toWire : Scalar → Wire
  | .boolean b => .bool b
  | .sByte n => .int32 n.toInt32
  | .byte n => .int32 n.toUInt32.toInt32
  | .int16 n => .int32 n.toInt32
  | .uint16 n => .int32 n.toUInt32.toInt32
  | .int32 n => .int32 n
  | .uint32 n => .int64 n.toUInt64.toInt64
  | .int64 n => .int64 n
  | .uint64 n => .int64 n.toInt64
  | .float bits => .float32 bits
  | .double bits => .float64 bits
  | .string s => .string s
  | .byteString s => .string s
  | .other _ _ => .bool false

/-- The `switch` of `dataValueToWire`. The cases are chosen by the type, and each of them
asserts that the value is a scalar: for an array the assertion panics. -/
def Variant.toWire : Variant → Option Wire
  | .scalar v => some v.toWire
  | .array type _ _ => if type.hasCase then none else some (.bool false)

/-- `dataValueToWire`. There is no result when it panics. -/
def dataValueToWire : Option DataValue → Option Wire
  | none => some (.bool false)
  | some dv =>
      if dv.status ≠ statusOK then some (.bool false)
      else match dv.value with
        | none => some (.bool false)
        | some v => v.toWire

/-! ### `encode.go` -/

/-- The bytes of a string. -/
def utf8 (s : String) : MessagePack.Bytes := s.toUTF8.data.toList

/-- A string. The length of a longer one is cut to four bytes. -/
def encodeString (s : MessagePack.Bytes) : MessagePack.Bytes := strHeader s.length ++ s

/-- A `uint8`, which the encoder does not shorten. -/
def encodeUint8 (n : UInt8) : MessagePack.Bytes := 0xcc :: bigEndian 1 n.toNat

/-- A `uint64`. -/
def encodeUint64 (n : UInt64) : MessagePack.Bytes := 0xcf :: bigEndian 8 n.toNat

/-- A value, in the form of its Go type. -/
def Wire.encode : Wire → MessagePack.Bytes
  | .bool b => [if b then 0xc3 else 0xc2]
  | .int32 n => 0xd2 :: twosComplement 4 n.toInt
  | .int64 n => 0xd3 :: twosComplement 8 n.toInt
  | .float32 bits => 0xca :: bigEndian 4 bits.toNat
  | .float64 bits => 0xcb :: bigEndian 8 bits.toNat
  | .string s => encodeString s

/-- The keys of a map with the bytes of its values. -/
abbrev Fields := List (String × MessagePack.Bytes)

/-- In which order the runtime goes through each map of a frame. -/
structure MapOrder where
  order : Nat → Fields → Fields
  perm : ∀ n fs, (order n fs).Perm fs

/-- A map with string keys. -/
def encodeMap (fs : Fields) : MessagePack.Bytes :=
  mapHeader fs.length ++ fs.flatMap fun f => encodeString (utf8 f.1) ++ f.2

/-- A slice. -/
def encodeSlice (vs : List MessagePack.Bytes) : MessagePack.Bytes :=
  arrayHeader vs.length ++ vs.flatten

/-- `frame.ProtocolVersion`. -/
def protocolVersion : UInt8 := 0x01

/-- `frame.Sensor`. -/
structure Sensor where
  id : String
  typeCode : UInt8
  value : Wire
  deriving DecidableEq

/-- `sensorMaps`. The map of the frame is the first one, so the sensors begin at 1. -/
def sensorMaps (o : MapOrder) (sensors : List Sensor) : List MessagePack.Bytes :=
  (sensors.zipIdx 1).map fun s => encodeMap (o.order s.2
    [("id", encodeString (utf8 s.1.id)), ("type", encodeUint8 s.1.typeCode),
      ("value", s.1.value.encode)])

/-- `frame.Encode`. -/
def encode (o : MapOrder) (sequence timestampMs : UInt64) (sensors : List Sensor) :
    MessagePack.Bytes :=
  encodeMap (o.order 0
    [("version", encodeUint8 protocolVersion), ("sequence", encodeUint64 sequence),
      ("timestampMs", encodeUint64 timestampMs),
      ("sensors", encodeSlice (sensorMaps o sensors))])

/-! ### `service.go` -/

/-- `resolvedMapping`. -/
structure ResolvedMapping where
  msgID : String
  typeCode : UInt8
  nid : NodeID
  deriving DecidableEq

/-- The identifier that is sent for a mapping. -/
def Mapping.msgID (m : Mapping) : String :=
  if m.messagePackID = "" then m.nodeIDString else m.messagePackID

section
variable (native : String → Option NodeID)

/-- `resolveMappings`. -/
def resolveMappings : List Mapping → Except ParseErr (List ResolvedMapping)
  | [] => .ok []
  | m :: ms =>
      if !m.enabled || m.nodeIDString = "" then resolveMappings ms
      else do
        let nid ← parseQt native m.nodeIDString
        let out ← resolveMappings ms
        .ok (⟨m.msgID, m.typeCode, nid⟩ :: out)

/-- Why `readFrame` returns no frame. A panic is not caught: it ends the process. -/
inductive ReadFrameErr where
  | noClient
  | nodeID (err : ParseErr)
  | panicked
  deriving DecidableEq

/-- The sensor of one mapping. -/
def readSensor (m : ResolvedMapping) : ReadResult → Except ReadFrameErr Sensor
  | .failed _ => .ok ⟨m.msgID, m.typeCode, .bool false⟩
  | .results [] => .ok ⟨m.msgID, m.typeCode, .bool false⟩
  | .results (dv :: _) =>
      match dataValueToWire dv with
      | some val => .ok ⟨m.msgID, m.typeCode, val⟩
      | none => .error .panicked

variable (read : Nat → NodeID → ReadResult)

/-- The loop of `readFrame`. `read` is what each read of the frame returns, and `i` the number
of the next one. -/
def readSensors : Nat → List ResolvedMapping → Except ReadFrameErr (List Sensor)
  | _, [] => .ok []
  | i, m :: ms => do
      let sensor ← readSensor m (read i m.nid)
      let sensors ← readSensors (i + 1) ms
      .ok (sensor :: sensors)

/-- `readFrame` up to the sensors that it gives to `frame.Encode`. -/
def frameSensors (s : Service) : Except ReadFrameErr (List Sensor) :=
  match s.client with
  | none => .error .noClient
  | some _ => do
      let mappings ← (resolveMappings native s.cfg.mappings).mapError .nodeID
      readSensors read 0 mappings

/-- `readFrame`, at the time `ts`. The number of the frame is drawn last. -/
def readFrame (o : MapOrder) (ts : UInt64) (s : Service) :
    Except ReadFrameErr MessagePack.Bytes := do
  let sensors ← frameSensors native read s
  .ok (encode o (s.seq + 1) ts sensors)

end

end SmartFactory.Bridge
