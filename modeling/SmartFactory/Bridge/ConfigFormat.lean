import SmartFactory.Bridge.NodeId

/-!
# `SmartFactory.Bridge.ConfigFormat`: the JSON of a bridge configuration

`LoadFile` and `SaveFile` of `internal/config/config.go`, and `onLoadConfig` and `onSaveConfig` of
`src/gui/MainWindow.cpp` with `SensorMapping::fromJson` and `toJson`. A file is the JSON document in
it.

`encoding/json` takes an entry for a field when its key is the name of the field or, when it is the
name of none, when both are the same without regard to case. `foldName` is what it compares then. It
reads an integer from digits only; Qt reads any number that is an integer.
-/

set_option autoImplicit false

namespace SmartFactory.Bridge

/-- A number: the digits of an integer, or one with a fraction or an exponent. Of the latter only
the integer is kept that its `double` is, if it is one. The text `-0` is left out: Go reads it into
an `int`, but not into a `uint8`. -/
inductive JsonNumber where
  | digits (n : Int)
  | real (n : Option Int)
  deriving DecidableEq

/-- A JSON document. -/
inductive JsonValue where
  | null
  | bool (b : Bool)
  | number (n : JsonNumber)
  | string (s : String)
  | array (vs : List JsonValue)
  | object (es : List (String × JsonValue))

/-- The entries of an object. -/
abbrev JsonEntries := List (String × JsonValue)

/-! ### `encoding/json` -/

section
variable (foldName : String → String)

/-- The field of a struct that an entry belongs to. -/
def structField (names : List String) (key : String) : Option String :=
  if key ∈ names then some key else names.find? fun name => foldName name = foldName key

/-- The values of the entries that belong to a field, in their order. -/
def fieldValues (names : List String) (name : String) (es : JsonEntries) : List JsonValue :=
  es.filterMap fun e => if structField foldName names e.1 = some name then some e.2 else none

end

/-- A field takes one value after the other, and each replaces what was there. `null` leaves it as
it is. So it does for a string, a number and a Boolean. -/
def assign {α : Type} (read : JsonValue → Option α) (zero : α) (vs : List JsonValue) : Option α :=
  vs.foldlM (fun a v => match v with | .null => some a | v => read v) zero

def unmarshalString : JsonValue → Option String
  | .string s => some s
  | _ => none

def unmarshalBool : JsonValue → Option Bool
  | .bool b => some b
  | _ => none

def unmarshalInt : JsonValue → Option Int
  | .number (.digits n) => if -2 ^ 63 ≤ n ∧ n < 2 ^ 63 then some n else none
  | _ => none

def unmarshalUint8 : JsonValue → Option UInt8
  | .number (.digits n) => if 0 ≤ n ∧ n < 2 ^ 8 then some (UInt8.ofNat n.toNat) else none
  | _ => none

/-- The keys of a `config.Mapping`. -/
def mappingNames : List String := ["messagePackId", "nodeIdString", "typeCode", "enabled"]

/-- The keys of a `config.Config`. -/
def configNames : List String := ["endpointUrl", "namespaceUri", "tcpPort", "mappings"]

section
variable (foldName : String → String)

/-- `json.Unmarshal` into a `config.Mapping`. -/
def unmarshalMapping : JsonValue → Option Mapping
  | .null => some ⟨"", "", 0, false⟩
  | .object es => do
      let values (name : String) := fieldValues foldName mappingNames name es
      let messagePackID ← assign unmarshalString "" (values "messagePackId")
      let nodeIDString ← assign unmarshalString "" (values "nodeIdString")
      let typeCode ← assign unmarshalUint8 0 (values "typeCode")
      let enabled ← assign unmarshalBool false (values "enabled")
      return ⟨messagePackID, nodeIDString, typeCode, enabled⟩
  | _ => none

/-- `json.Unmarshal` into a slice of mappings, which is empty before. A key that occurs once and is
not `null` is all that this describes: a `null` would set the slice to `nil`, and the elements of a
second array would be read into those of the first. -/
def unmarshalMappings : JsonValue → Option (List Mapping)
  | .array vs => vs.mapM (unmarshalMapping foldName)
  | _ => none

/-- `LoadFile` of a file that can be read. -/
def loadConfig : JsonValue → Option Config
  | .null => some ⟨"", "", 0, []⟩
  | .object es => do
      let values (name : String) := fieldValues foldName configNames name es
      let endpointURL ← assign unmarshalString "" (values "endpointUrl")
      let namespaceURI ← assign unmarshalString "" (values "namespaceUri")
      let tcpPort ← assign unmarshalInt 0 (values "tcpPort")
      let mappings ← assign (unmarshalMappings foldName) [] (values "mappings")
      return ⟨endpointURL, namespaceURI, tcpPort, mappings⟩
  | _ => none

end

/-- `json.MarshalIndent` of a `config.Mapping`. -/
def marshalMapping (m : Mapping) : JsonValue :=
  .object [("messagePackId", .string m.messagePackID), ("nodeIdString", .string m.nodeIDString),
    ("typeCode", .number (.digits m.typeCode.toNat)), ("enabled", .bool m.enabled)]

/-- `SaveFile`. Without mappings, the slice is `nil` or has been made. -/
def saveConfig (made : Bool) (c : Config) : JsonValue :=
  .object [("endpointUrl", .string c.endpointURL), ("namespaceUri", .string c.namespaceURI),
    ("tcpPort", .number (.digits c.tcpPort)),
    ("mappings", if c.mappings = [] ∧ !made then .null
      else .array (c.mappings.map marshalMapping))]

/-! ### Qt -/

/-- `QJsonObject::operator[]`. Of several entries with a key the last one is kept. -/
def jsonValue (es : JsonEntries) (key : String) : Option JsonValue :=
  ((es.filter fun e => e.1 = key).getLast?).map Prod.snd

/-- `QJsonValue::toString`. -/
def jsonToString : Option JsonValue → String
  | some (.string s) => s
  | _ => ""

/-- `QJsonValue::toBool`. -/
def jsonToBool (defaultValue : Bool) : Option JsonValue → Bool
  | some (.bool b) => b
  | _ => defaultValue

/-- `QJsonValue::toInt`. -/
def jsonToInt (defaultValue : Int) : Option JsonValue → Int
  | some (.number (.digits n)) | some (.number (.real (some n))) =>
      if -2 ^ 31 ≤ n ∧ n < 2 ^ 31 then n else defaultValue
  | _ => defaultValue

/-- `QJsonValue::toArray`. -/
def jsonToArray : Option JsonValue → List JsonValue
  | some (.array vs) => vs
  | _ => []

/-- `QJsonValue::toObject` and `QJsonDocument::object`. -/
def jsonToObject : JsonValue → JsonEntries
  | .object es => es
  | _ => []

/-- `SensorMapping::fromJson`. The four fields that it sets are those of a `config.Mapping`. -/
def sensorMappingFromJson (obj : JsonEntries) : Mapping :=
  { messagePackID := jsonToString (jsonValue obj "messagePackId")
    nodeIDString := jsonToString (jsonValue obj "nodeIdString")
    -- A cast to `quint8`.
    typeCode := UInt8.ofInt (jsonToInt 0 (jsonValue obj "typeCode"))
    enabled := jsonToBool true (jsonValue obj "enabled") }

/-- `SensorMapping::toJson`. An object of Qt has its keys in alphabetical order. -/
def sensorMappingToJson (m : Mapping) : JsonValue :=
  .object [("enabled", .bool m.enabled), ("messagePackId", .string m.messagePackID),
    ("nodeIdString", .string m.nodeIDString), ("typeCode", .number (.digits m.typeCode.toNat))]

/-- The value of a `QSpinBox` with the range of `m_portSpin`. -/
structure PortSpin where
  value : Int
  range : 1 ≤ value ∧ value ≤ 65535
  deriving DecidableEq

/-- `m_portSpin->setValue`. -/
def PortSpin.ofInt (n : Int) : PortSpin := ⟨max 1 (min n 65535), by omega⟩

/-- What the main window shows of a configuration: two texts, the port and a table with one row for
each mapping. -/
structure MainWindow where
  endpointEdit : String
  namespaceEdit : String
  portSpin : PortSpin
  mappingTable : List Mapping
  deriving DecidableEq

/-- `onLoadConfig`, of a file that can be read. -/
def onLoadConfig (doc : JsonValue) : MainWindow :=
  let root := jsonToObject doc
  { endpointEdit := jsonToString (jsonValue root "endpointUrl")
    namespaceEdit := jsonToString (jsonValue root "namespaceUri")
    portSpin := .ofInt (jsonToInt 9000 (jsonValue root "tcpPort"))
    mappingTable := (jsonToArray (jsonValue root "mappings")).map fun v =>
      sensorMappingFromJson (jsonToObject v) }

/-- `mappingsFromTable`. -/
def MainWindow.mappingsFromTable (w : MainWindow) : List Mapping :=
  w.mappingTable.map fun m => { m with
    messagePackID := trimSpace m.messagePackID
    nodeIDString := trimSpace m.nodeIDString }

/-- `onSaveConfig`. -/
def onSaveConfig (w : MainWindow) : JsonValue :=
  .object [("endpointUrl", .string (trimSpace w.endpointEdit)),
    ("mappings", .array (w.mappingsFromTable.map sensorMappingToJson)),
    ("namespaceUri", .string (trimSpace w.namespaceEdit)),
    ("tcpPort", .number (.digits w.portSpin.value))]

end SmartFactory.Bridge
