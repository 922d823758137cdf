import SmartFactory.Bridge.Frame

/-!
# `SmartFactory.Bridge.BridgeEngine`: how the Qt bridge makes a frame

`BridgeEngine::encodeFrame` of `src/gui/BridgeEngine.cpp`. It writes the frame piece by piece
into a buffer of the MessagePack library, which writes every integer in its shortest form, and
copies the buffer into a `QByteArray`. The lengths go through 32-bit integers on the way: the
headers of arrays and strings take a `uint32_t`, and the size of the whole frame is cast to an
`int`.
-/

set_option autoImplicit false

namespace SmartFactory.Bridge

open MessagePack (shortNat shortInt bigEndian strHeader arrayHeader mapHeader)

/-- `SensorMapping`. -/
structure SensorMapping where
  messagePackId : String
  nodeIdString : String
  typeCode : UInt8
  enabled : Bool
  nodeId : NodeID
  deriving DecidableEq

/-- What `UA_Client_readValueAttribute` returns, and the variant that it filled or left
empty. -/
structure ReadValue where
  ret : UInt32
  value : Option Variant

/-- `UA_STATUSCODE_GOOD`. -/
def statusCodeGood : UInt32 := 0

/-! ### The MessagePack library -/

/-- `msgpack_pack_map`. -/
def packMap (n : UInt32) : MessagePack.Bytes := mapHeader n.toNat

/-- `msgpack_pack_array`. -/
def packArray (n : UInt32) : MessagePack.Bytes := arrayHeader n.toNat

/-- `msgpack_pack_str`. -/
def packStr (n : UInt32) : MessagePack.Bytes := strHeader n.toNat

/-- `msgpack_pack_true` and `msgpack_pack_false`. -/
def packBool (b : Bool) : MessagePack.Bytes := [if b then 0xc3 else 0xc2]

/-- `msgpack_pack_float`. -/
def packFloat (bits : UInt32) : MessagePack.Bytes := 0xca :: bigEndian 4 bits.toNat

/-- `msgpack_pack_double`. -/
def packDouble (bits : UInt64) : MessagePack.Bytes := 0xcb :: bigEndian 8 bits.toNat

/-! ### `encodeFrame` -/

/-- The first value of a variant. Only five types are sent as what they are. -/
def packScalar : Scalar → MessagePack.Bytes
  | .boolean b => packBool b
  | .int32 n => shortInt n.toInt
  | .int64 n => shortInt n.toInt
  | .float bits => packFloat bits
  | .double bits => packDouble bits
  | _ => packBool false

/-- The types that `encodeFrame` compares with. -/
def TypeID.isPacked : TypeID → Bool
  | .boolean | .int32 | .int64 | .float | .double => true
  | _ => false

/-- The value of a sensor. Of an array the first element is sent; an empty one has none, and
what its pointer refers to is undefined. -/
def packValue (r : ReadValue) : Option MessagePack.Bytes :=
  if r.ret = statusCodeGood then
    match r.value with
    | none => some (packBool false)
    | some (.scalar v) => some (packScalar v)
    | some (.array _ (v :: _) _) => some (packScalar v)
    | some (.array type [] _) => if type.isPacked then none else some (packBool false)
  else some (packBool false)

/-- The identifier that is sent. -/
def SensorMapping.msgId (m : SensorMapping) : MessagePack.Bytes :=
  if m.messagePackId = "" then utf8 m.nodeIdString else utf8 m.messagePackId

/-- One entry of the array of sensors. -/
def packSensor (m : SensorMapping) (r : ReadValue) : Option MessagePack.Bytes := do
  let value ← packValue r
  return packMap 3 ++
    packStr 2 ++ utf8 "id" ++ packStr (UInt32.ofNat m.msgId.length) ++ m.msgId ++
    packStr 4 ++ utf8 "type" ++ shortNat m.typeCode.toNat ++
    packStr 5 ++ utf8 "value" ++ value

/-- The loop over the mappings. `read` is what each read of the frame returns, and `i` the
number of the next one. -/
def packSensors (read : Nat → NodeID → ReadValue) :
    Nat → List SensorMapping → Option MessagePack.Bytes
  | _, [] => some []
  | i, m :: ms => do
      let sensor ← packSensor m (read i m.nodeId)
      let sensors ← packSensors read (i + 1) ms
      return sensor ++ sensors

/-- The buffer. -/
def packFrame (sequence timestampMs : UInt64) (enabled : List SensorMapping)
    (sensors : MessagePack.Bytes) : MessagePack.Bytes :=
  packMap 4 ++
    packStr 7 ++ utf8 "version" ++ shortNat protocolVersion.toNat ++
    packStr 8 ++ utf8 "sequence" ++ shortNat sequence.toNat ++
    packStr 11 ++ utf8 "timestampMs" ++ shortNat timestampMs.toNat ++
    packStr 7 ++ utf8 "sensors" ++ packArray (UInt32.ofNat enabled.length) ++ sensors

/-- `QByteArray(data, size)`. A negative size means that the data ends before its first zero
byte; without one the constructor reads past the end of the buffer. -/
def qByteArray (data : MessagePack.Bytes) (size : Int) : Option MessagePack.Bytes :=
  if 0 ≤ size then some (data.take size.toNat)
  else if 0 ∈ data then some (data.takeWhile (· ≠ 0))
  else none

/-- `BridgeEngine::encodeFrame`, at the time `ts`. There is no result when it is undefined. -/
def encodeFrame (mappings : List SensorMapping) (sequence ts : UInt64)
    (read : Nat → NodeID → ReadValue) : Option MessagePack.Bytes := do
  let enabled := mappings.filter fun m => m.enabled && m.nodeIdString ≠ ""
  let sensors ← packSensors read 0 enabled
  let sbuf := packFrame (sequence + 1) ts enabled sensors
  qByteArray sbuf (Int32.ofNat sbuf.length).toInt

end SmartFactory.Bridge
