import Mathlib.Data.List.Basic
import Mathlib.Algebra.GroupWithZero.Nat

/-!
# `SmartFactory.Server.Config`: the server configuration (`server_config.c`)

The configuration holds a namespace URI and at most `SERVER_MAX_NODES` node definitions.
It is kept in memory and in one JSON file.

A C string is a list of characters, one `Char` per byte, without the terminating NUL. A
`char buf[size]` is a `CharBuf size`: the string it holds is shorter than the buffer, and
`snprintf` is the only way to fill one, so a definition never overruns its fields.

cJSON is not part of the repository. `CJson` is its pair of functions: `print` turns a
document into text and `parse` reads a text. The file operations of a save and of a load
report their outcomes through `SaveIo` and `LoadIo`.
-/

set_option autoImplicit false

namespace SmartFactory.Server

/-! ### Strings and buffers -/

/-- A C string: its bytes up to the terminating NUL. -/
abbrev CString := List Char

/-- The content of a `char` array of the given size. -/
structure CharBuf (size : Nat) where
  chars : CString
  fits : chars.length < size
  deriving DecidableEq

/-- `snprintf(buf, sizeof(buf), "%s", s)`: a string that does not fit is cut. -/
def snprintf (size : Nat) [NeZero size] (s : CString) : CharBuf size :=
  ⟨s.take (size - 1), by
    have hpos := Nat.pos_of_ne_zero (NeZero.ne size)
    rw [List.length_take]
    omega⟩

/-- `snprintf` cuts the text. -/
@[simp] theorem snprintf_chars (size : Nat) [NeZero size] (s : CString) :
    (snprintf size s).chars = s.take (size - 1) := rfl

/-- A string that fits is stored as it is. -/
theorem snprintf_of_lt {size : Nat} [NeZero size] {s : CString} (h : s.length < size) :
    (snprintf size s).chars = s :=
  List.take_of_length_le (by omega)

/-- Copying a buffer into one of the same size copies it whole. -/
@[simp] theorem snprintf_buf {size : Nat} [NeZero size] (b : CharBuf size) :
    snprintf size b.chars = b := by
  cases b with
  | mk chars fits => simp only [snprintf, CharBuf.mk.injEq]; exact List.take_of_length_le (by omega)

/-! ### The configuration record -/

def serverNodeKindFolder : CString := "folder".toList
def serverNodeKindVariable : CString := "variable".toList
def serverRoleSimulationEnabled : CString := "simulationEnabled".toList

abbrev serverMaxNodes : Nat := 256
abbrev serverBrowseNameMax : Nat := 64
abbrev serverDisplayNameMax : Nat := 128
abbrev serverNamespaceMax : Nat := 256

-- None of the buffers is empty, those of `kind` and `role` included.
instance neZero_serverBrowseNameMax : NeZero serverBrowseNameMax := ⟨by decide⟩
instance neZero_serverDisplayNameMax : NeZero serverDisplayNameMax := ⟨by decide⟩
instance neZero_serverNamespaceMax : NeZero serverNamespaceMax := ⟨by decide⟩
instance neZero_kind : NeZero 16 := ⟨by decide⟩
instance neZero_role : NeZero 32 := ⟨by decide⟩

/-- `ServerDataType`. -/
inductive ServerDataType where
  | boolean
  | int32
  | double
  | string
  deriving DecidableEq

/-- `ServerNodeDef`: one node of the configuration. -/
structure ServerNodeDef where
  kind : CharBuf 16
  browseName : CharBuf serverBrowseNameMax
  displayName : CharBuf serverDisplayNameMax
  parentBrowseName : CharBuf serverBrowseNameMax
  dataType : ServerDataType
  simulation : Bool
  role : CharBuf 32
  deriving DecidableEq

/-- `strcmp(n->kind, "folder") == 0`. -/
def ServerNodeDef.isFolder (n : ServerNodeDef) : Bool := n.kind.chars == serverNodeKindFolder

/-- `strcmp(n->kind, "variable") == 0`. -/
def ServerNodeDef.isVariable (n : ServerNodeDef) : Bool :=
  n.kind.chars == serverNodeKindVariable

/-- `n->role[0] && strcmp(n->role, "simulationEnabled") == 0`. -/
def ServerNodeDef.isSimulationSwitch (n : ServerNodeDef) : Bool :=
  n.role.chars ≠ [] && n.role.chars == serverRoleSimulationEnabled

/-- `ServerConfig`. The array `nodes` and its counter are one list that never outgrows the
array. -/
structure ServerConfig where
  namespaceUri : CharBuf serverNamespaceMax
  nodes : List ServerNodeDef
  nodes_le : nodes.length ≤ serverMaxNodes
  deriving DecidableEq

/-- `cfg->nodes[cfg->nodeCount++] = n`, with room for it. -/
def ServerConfig.push (cfg : ServerConfig) (n : ServerNodeDef)
    (h : cfg.nodes.length < serverMaxNodes) : ServerConfig :=
  { cfg with
    nodes := cfg.nodes ++ [n]
    nodes_le := by
      rw [List.length_append]
      exact h }

/-- A definition is added at the end. -/
@[simp] theorem ServerConfig.push_nodes (cfg : ServerConfig) (n : ServerNodeDef)
    (h : cfg.nodes.length < serverMaxNodes) : (cfg.push n h).nodes = cfg.nodes ++ [n] := rfl

/-- Adding one leaves the namespace. -/
@[simp] theorem ServerConfig.push_namespaceUri (cfg : ServerConfig) (n : ServerNodeDef)
    (h : cfg.nodes.length < serverMaxNodes) :
    (cfg.push n h).namespaceUri = cfg.namespaceUri := rfl

/-- Remove the node at an index: the `memmove` of `node_manager_delete`. -/
def ServerConfig.removeAt (cfg : ServerConfig) (i : Nat) : ServerConfig :=
  { cfg with
    nodes := cfg.nodes.eraseIdx i
    nodes_le := Nat.le_trans (List.length_eraseIdx_le cfg.nodes i) cfg.nodes_le }

/-- Removing a definition keeps the order of the others. -/
@[simp] theorem ServerConfig.removeAt_nodes (cfg : ServerConfig) (i : Nat) :
    (cfg.removeAt i).nodes = cfg.nodes.eraseIdx i := rfl

/-- And leaves the namespace. -/
@[simp] theorem ServerConfig.removeAt_namespaceUri (cfg : ServerConfig) (i : Nat) :
    (cfg.removeAt i).namespaceUri = cfg.namespaceUri := rfl

/-! ### Defaults and checks -/

/-- `add_node`: append a definition, unless the configuration is full. -/
def addNode (cfg : ServerConfig) (kind browseName displayName parent : CString)
    (dt : ServerDataType) (simulation : Bool) (role : CString) : ServerConfig :=
  if h : cfg.nodes.length < serverMaxNodes then
    cfg.push
      { kind := snprintf 16 kind
        browseName := snprintf serverBrowseNameMax browseName
        displayName := snprintf serverDisplayNameMax displayName
        parentBrowseName := snprintf serverBrowseNameMax parent
        dataType := dt
        simulation := simulation
        role := snprintf 32 role } h
  else cfg

/-- The configuration without nodes that `server_config_seed_defaults` starts from. -/
def emptyConfig : ServerConfig :=
  { namespaceUri := snprintf serverNamespaceMax "urn:binary-sensors-demo".toList
    nodes := []
    nodes_le := Nat.zero_le _ }

/-- `server_config_seed_defaults`: the `Sensors` folder, four simulated sensors, one plain
Boolean variable and the simulation switch. -/
def serverConfigSeedDefaults : ServerConfig :=
  let cfg := addNode emptyConfig serverNodeKindFolder "Sensors".toList "Sensors".toList []
    .boolean false []
  let cfg := ['1', '2', '3', '4'].foldl (fun cfg i =>
    addNode cfg serverNodeKindVariable ("Sensor".toList ++ [i]) ("Sensor ".toList ++ [i])
      "Sensors".toList .boolean true []) cfg
  let cfg := addNode cfg serverNodeKindVariable "Pi1_InductionSwitch1".toList
    "Induction Switch 1 (Pi 1)".toList "Sensors".toList .boolean false []
  addNode cfg serverNodeKindVariable "SimulationEnabled".toList "Simulation Enabled".toList
    "Sensors".toList .boolean false serverRoleSimulationEnabled

/-- The characters that `server_config_validate_browse_name` accepts. -/
def isBrowseNameChar (c : Char) : Bool :=
  ('a' ≤ c && c ≤ 'z') || ('A' ≤ c && c ≤ 'Z') || ('0' ≤ c && c ≤ '9') || c == '_'

/-- `server_config_validate_browse_name`. -/
def serverConfigValidateBrowseName (name : CString) : Bool :=
  if name.isEmpty then false
  else if name.length ≥ serverBrowseNameMax then false
  else name.all isBrowseNameChar

/-- A valid browse name fits its buffer. -/
theorem length_lt_of_valid {name : CString} (h : serverConfigValidateBrowseName name = true) :
    name.length < serverBrowseNameMax := by
  unfold serverConfigValidateBrowseName at h
  split at h
  · cases h
  · split at h
    · cases h
    · omega

/-- `server_data_type_to_string`. -/
def serverDataTypeToString : ServerDataType → CString
  | .boolean => "Boolean".toList
  | .int32 => "Int32".toList
  | .double => "Double".toList
  | .string => "String".toList

/-- `server_data_type_from_string`. -/
def serverDataTypeFromString (s : CString) : Option ServerDataType :=
  if s == "Boolean".toList then some .boolean
  else if s == "Int32".toList then some .int32
  else if s == "Double".toList then some .double
  else if s == "String".toList then some .string
  else none

/-- A data type is read back from its own name. -/
theorem serverDataTypeFromString_toString (dt : ServerDataType) :
    serverDataTypeFromString (serverDataTypeToString dt) = some dt := by
  cases dt <;> decide

/-! ### JSON documents -/

/-- A JSON document as cJSON holds it. -/
inductive Json where
  | null
  | bool (b : Bool)
  | number (text : CString)
  | string (s : CString)
  | array (items : List Json)
  | object (fields : List (CString × Json))

/-- The two functions of cJSON that the configuration uses. -/
structure CJson where
  print : Json → CString
  parse : CString → Option Json

/-- `cJSON_GetObjectItemCaseSensitive`: the first field of that name. -/
def Json.getObjectItem : Json → CString → Option Json
  | .object fields, name => (fields.find? (fun f => f.1 == name)).map Prod.snd
  | _, _ => none

/-- `valuestring` of an item for which `cJSON_IsString` holds. -/
def Json.stringValue : Option Json → Option CString
  | some (.string s) => some s
  | _ => none

/-- `cJSON_IsTrue`. -/
def Json.isTrue : Option Json → Bool
  | some (.bool b) => b
  | _ => false

/-- `parse_node`: `none` when a required field is not a string. -/
def parseNode (item : Json) : Option ServerNodeDef :=
  match Json.stringValue (item.getObjectItem "kind".toList),
      Json.stringValue (item.getObjectItem "browseName".toList),
      Json.stringValue (item.getObjectItem "displayName".toList) with
  | some kind, some browse, some display =>
      some
        { kind := snprintf 16 kind
          browseName := snprintf serverBrowseNameMax browse
          displayName := snprintf serverDisplayNameMax display
          parentBrowseName := snprintf serverBrowseNameMax
            ((Json.stringValue (item.getObjectItem "parentBrowseName".toList)).getD [])
          -- An unknown or missing data type is read as `Boolean`.
          dataType :=
            match Json.stringValue (item.getObjectItem "dataType".toList) with
            | some dtype => (serverDataTypeFromString dtype).getD .boolean
            | none => .boolean
          simulation := Json.isTrue (item.getObjectItem "simulation".toList)
          role := snprintf 32
            ((Json.stringValue (item.getObjectItem "role".toList)).getD []) }
  | _, _, _ => none

/-- `node_to_json`. -/
def nodeToJson (n : ServerNodeDef) : Json :=
  .object
    ([("kind".toList, .string n.kind.chars),
      ("browseName".toList, .string n.browseName.chars),
      ("displayName".toList, .string n.displayName.chars),
      ("parentBrowseName".toList, .string n.parentBrowseName.chars)]
     -- The optional fields are written only when they say something.
     ++ (if n.isVariable then
          [("dataType".toList, .string (serverDataTypeToString n.dataType))] else [])
     ++ (if n.simulation then [("simulation".toList, .bool true)] else [])
     ++ (if n.role.chars ≠ [] then [("role".toList, .string n.role.chars)] else []))

/-- The document that `server_config_save` prints. -/
def configToJson (cfg : ServerConfig) : Json :=
  .object [("namespaceUri".toList, .string cfg.namespaceUri.chars),
    ("nodes".toList, .array (cfg.nodes.map nodeToJson))]

/-- The loop of `server_config_load` over the `nodes` array. -/
def loadNodes (cfg : ServerConfig) : List Json → ServerConfig
  | [] => cfg
  | item :: rest =>
      if h : cfg.nodes.length < serverMaxNodes then
        match parseNode item with
        | some n => loadNodes (cfg.push n h) rest
        -- An item that is no node definition is skipped.
        | none => loadNodes cfg rest
      else cfg

/-- The part of `server_config_load` that reads the parsed document. A document that
leaves no node behind gives the defaults. -/
def configOfJson (root : Json) : ServerConfig :=
  let cfg := serverConfigSeedDefaults
  let cfg : ServerConfig :=
    match Json.stringValue (root.getObjectItem "namespaceUri".toList) with
    | some ns => { cfg with namespaceUri := snprintf serverNamespaceMax ns }
    | none => cfg
  let cfg : ServerConfig :=
    match root.getObjectItem "nodes".toList with
    | some (.array items) => loadNodes { cfg with nodes := [], nodes_le := Nat.zero_le _ } items
    | _ => cfg
  -- This also replaces a configuration whose last node was deleted.
  if cfg.nodes.length = 0 then serverConfigSeedDefaults else cfg

/-! ### The configuration file -/

/-- Outcomes of the library calls of one `server_config_save`. -/
structure SaveIo where
  /-- `cJSON_Print` returned a text. -/
  printed : Bool
  /-- `fopen` of the temporary file succeeded. -/
  opened : Bool
  /-- `fwrite` took the whole text. -/
  written : Bool
  /-- The number of bytes that the file holds after `fclose`, when not all of them. -/
  truncated : Option Nat
  /-- `rename` succeeded. -/
  renamed : Bool

/-- Every file operation succeeds. -/
def SaveIo.ok : SaveIo :=
  { printed := true, opened := true, written := true, truncated := none, renamed := true }

/-- `server_config_save`: the result, and the content of the configuration file
afterwards. The result of `fclose` is not looked at. -/
def serverConfigSave (cjson : CJson) (io : SaveIo) (cfg : ServerConfig)
    (file : Option CString) : Bool × Option CString :=
  let text := cjson.print (configToJson cfg)
  if !io.printed then (false, file)
  else if !io.opened then (false, file)
  else if !io.written then (false, file)
  else if !io.renamed then (false, file)
  else (true, some (match io.truncated with
    | some n => text.take n
    | none => text))

/-- With all file operations succeeding, a save replaces the file by the printed
configuration. -/
@[simp] theorem serverConfigSave_ok (cjson : CJson) (cfg : ServerConfig)
    (file : Option CString) :
    serverConfigSave cjson .ok cfg file = (true, some (cjson.print (configToJson cfg))) := rfl

/-- Outcomes of the library calls of one `server_config_load`. -/
structure LoadIo where
  /-- `fopen` of an existing file succeeded. -/
  opened : Bool
  /-- `malloc` of the read buffer succeeded. -/
  allocated : Bool
  /-- `fread` returned the whole file. -/
  complete : Bool
  /-- The calls of the save that writes the defaults. -/
  save : SaveIo

/-- Every call of a load succeeds. -/
def LoadIo.ok : LoadIo :=
  { opened := true, allocated := true, complete := true, save := .ok }

/-- `server_config_load`: the configuration, `none` when the load fails, and the file
afterwards. A file that cannot be opened or is empty is replaced by the defaults. -/
def serverConfigLoad (cjson : CJson) (io : LoadIo) (file : Option CString) :
    Option ServerConfig × Option CString :=
  match file with
  | none =>
      (some serverConfigSeedDefaults,
        (serverConfigSave cjson io.save serverConfigSeedDefaults file).2)
  | some text =>
      if !io.opened || text.length = 0 then
        (some serverConfigSeedDefaults,
          (serverConfigSave cjson io.save serverConfigSeedDefaults file).2)
      else if !io.allocated then (none, file)
      else if !io.complete then (none, file)
      else match cjson.parse text with
        | none => (none, file)
        | some root => (some (configOfJson root), file)

end SmartFactory.Server
