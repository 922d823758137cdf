import SmartFactory.Bridge.Service

/-!
# `SmartFactory.Bridge.ConfigStore`: the configuration of the bridge and its file

`main` loads the file at `CONFIG_PATH`, lets three environment variables override what it read
and hands the result to the service. From then on `GetConfig` reads the copy in memory, and
`SetConfig` replaces that copy under the mutex and writes the file after it has released the
mutex. The two parts are two steps of a goroutine, and `SmartFactory.Pool` interleaves any
number of calls.

`encoding/json` is not part of the repository: `ConfigJson` is the pair of functions that the
bridge uses of it. `os.WriteFile` empties the file before it writes, so a failed `SaveFile` has
either left the file alone or put a first part of the text into it.
-/

set_option autoImplicit false

namespace SmartFactory.Bridge

/-- The content of a file. -/
abbrev Bytes := List UInt8

/-- `json.MarshalIndent` and `json.Unmarshal` on a `config.Config`. -/
structure ConfigJson where
  marshalIndent : Config → Bytes
  unmarshal : Bytes → Option Config

/-- The JSON of a configuration is read back as that configuration. -/
def ConfigJson.RoundTrips (json : ConfigJson) (c : Config) : Prop :=
  json.unmarshal (json.marshalIndent c) = some c

instance (json : ConfigJson) (c : Config) : Decidable (json.RoundTrips c) :=
  inferInstanceAs (Decidable (_ = _))

/-- `SaveFile` either succeeds, or it fails with an error. `written` is the number of bytes
that had reached the file by then, and `none` when it was not opened. -/
inductive SaveFile where
  | ok
  | failed (written : Option Nat) (err : String)
  deriving DecidableEq

/-- What `SetConfig` returns. -/
def SaveFile.err : SaveFile → Option String
  | .ok => none
  | .failed _ err => some err

/-- The file after a `SaveFile` of the text. -/
def SaveFile.content (text : Bytes) (file : Option Bytes) : SaveFile → Option Bytes
  | .ok => some text
  | .failed none _ => file
  | .failed (some n) _ => some (text.take n)

/-- The part of the service that `GetConfig` and `SetConfig` touch, and the file at
`configPath`. -/
structure ConfigStore where
  cfg : Config
  configPath : String
  file : Option Bytes
  deriving DecidableEq

/-- Positions in a call of `SetConfig`. `before` is what memory and file held when the call
stored its configuration; the code does not read it. -/
inductive SetConfig where
  | store (c : Config)
  | save (c : Config) (before : Config × Option Bytes)
  | returned (err : Option String)
  deriving DecidableEq

/-- `GetConfig`. -/
def ConfigStore.getConfig (s : ConfigStore) : Config := s.cfg

section
variable (json : ConfigJson)

/-- `LoadFile` of the configured path. -/
def loadFile (file : Option Bytes) : Option Config := file.bind json.unmarshal

/-- `SetConfig`. -/
def execSetConfig (s : ConfigStore) :
    SetConfig → SaveFile → Option (ConfigStore × SetConfig × List SetConfig)
  | .store c, _ =>
      -- Memory changes first, whatever becomes of the file.
      if s.configPath ≠ "" then
        some ({ s with cfg := c }, .save c (s.cfg, s.file), [])
      else some ({ s with cfg := c }, .returned none, [])
  | .save c _, o =>
      some ({ s with file := o.content (json.marshalIndent c) s.file }, .returned o.err, [])
  | .returned _, _ => none

/-- A call begins with its locked section. -/
def isSetConfig : SetConfig → Bool
  | .store _ => true
  | _ => false

/-- The store with any number of calls. -/
abbrev ConfigPool := Pool ConfigStore SetConfig

/-- A new call, or one step of a call. -/
abbrev ConfigMove := SmartFactory.Move SetConfig SaveFile

/-- One move. -/
def stepConfig (p : ConfigPool) (m : ConfigMove) : Option ConfigPool :=
  p.move isSetConfig (execSetConfig json) m

/-- The environment variables that `main` reads. `tcpPort` is the result of `TCPPortFromEnv`;
an empty string is a variable that is not set. -/
structure Environment where
  configPath : String
  tcpPort : Option Int
  endpoint : String
  namespaceURI : String
  deriving DecidableEq

/-- The overrides of `main`. -/
def Environment.override (env : Environment) (cfg : Config) : Config :=
  { cfg with
    tcpPort := env.tcpPort.getD cfg.tcpPort
    endpointURL := if env.endpoint ≠ "" then env.endpoint else cfg.endpointURL
    namespaceURI := if env.namespaceURI ≠ "" then env.namespaceURI else cfg.namespaceURI }

/-- The configuration that `main` starts the service with. A file that cannot be read or
decoded is passed over. -/
def mainConfig (env : Environment) (readable : Bool) (file : Option Bytes) : Config :=
  env.override
    (if env.configPath ≠ "" ∧ readable = true then (loadFile json file).getD defaultConfig
    else defaultConfig)

/-- The store before the first call. -/
def bootConfig (env : Environment) (readable : Bool) (file : Option Bytes) : ConfigPool :=
  ⟨{ cfg := mainConfig json env readable file, configPath := env.configPath, file := file }, []⟩

end

end SmartFactory.Bridge
