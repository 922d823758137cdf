import SmartFactory.Bridge.BridgeEngine

/-!
# `SmartFactory.TcpBridge.Frame`: how the C bridge makes a frame

`encodeFrame` of `src/opcua_tcp_bridge.c`. The C bridge sends the values of five Boolean sensors,
whose names are fixed. It writes the frame piece by piece with the same library as the Qt bridge,
and every length is written out by hand.
-/

set_option autoImplicit false

namespace SmartFactory.TcpBridge

open MessagePack (Bytes shortNat)
open Bridge (packMap packArray packStr packBool utf8)

/-- `SENSOR_COUNT`. -/
abbrev sensorCount : Nat := 5

/-- `SENSOR_BROWSE_NAMES`. -/
def sensorBrowseNames : Fin sensorCount → String
  | 0 => "Sensor1"
  | 1 => "Sensor2"
  | 2 => "Sensor3"
  | 3 => "Sensor4"
  | 4 => "Pi1_InductionSwitch1"

/-- `PROTOCOL_VERSION`. -/
def protocolVersion : UInt8 := 0x01

/-- `SensorSnapshot`. -/
structure SensorSnapshot where
  values : Fin sensorCount → Bool
  seq : UInt64
  timestampMs : UInt64

/-- One turn of the loop of `encodeFrame`. -/
def packSensor (sensorName : String) (value : Bool) : Bytes :=
  packMap 3 ++
    packStr 2 ++ utf8 "id" ++
      packStr (UInt32.ofNat (utf8 sensorName).length) ++ utf8 sensorName ++
    packStr 4 ++ utf8 "type" ++ shortNat 0 ++
    packStr 5 ++ utf8 "value" ++ packBool value

/-- The buffer of the library. -/
def packFrame (snap : SensorSnapshot) : Bytes :=
  packMap 4 ++
    packStr 7 ++ utf8 "version" ++ shortNat protocolVersion.toNat ++
    packStr 8 ++ utf8 "sequence" ++ shortNat snap.seq.toNat ++
    packStr 11 ++ utf8 "timestampMs" ++ shortNat snap.timestampMs.toNat ++
    packStr 7 ++ utf8 "sensors" ++ packArray (UInt32.ofNat sensorCount) ++
      (List.finRange sensorCount).flatMap fun i => packSensor (sensorBrowseNames i) (snap.values i)

/-- `encodeFrame`. The result is what has been copied to `buf`, so its length is what is returned:
0 when the frame does not fit. -/
def encodeFrame (snap : SensorSnapshot) (bufSize : Nat) : Bytes :=
  if (packFrame snap).length ≤ bufSize then packFrame snap else []

end SmartFactory.TcpBridge
