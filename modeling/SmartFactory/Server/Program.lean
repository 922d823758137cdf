import SmartFactory.Lib.Run
import SmartFactory.Server.NodeManager

/-!
# `SmartFactory.Server.Program`: runs of the server

`start` is the part of `main` that matters here: the node manager is created for a loaded
configuration and the address space is built. The server exits when the build fails.

After that the program reacts to operations: HTTP requests that change the address space
or the simulation, the repeated callback of the simulation, and writes of OPC UA clients.
`Op` lists them, `perform` runs one, and `stepOp` is the step function whose runs
(`SmartFactory.Run`) are the runs of the server.
-/

set_option autoImplicit false

namespace SmartFactory.Server

/-- The world after a successful build. -/
def start (host : Host) (nsIdx : Nat) (cfg : ServerConfig) (file : Option CString) :
    Option World :=
  match nodeManagerBuild host (nodeManagerCreate nsIdx cfg file) with
  | (.good, w) => some w
  | _ => none

/-- A restart: the file is loaded and the address space is built from it. -/
def restart (cjson : CJson) (host : Host) (nsIdx : Nat) (file : Option CString) :
    Option World :=
  match serverConfigLoad cjson .ok file with
  | (some cfg, file) => start host nsIdx cfg file
  | (none, _) => none

/-- The operations of the running server. The ones that create or delete nodes carry the
outcomes of their library calls. -/
inductive Op where
  | addFolder (host : Host) (parent : Option CString) (browseName displayName : CString)
  | addVariable (host : Host) (parent : Option CString) (browseName displayName : CString)
      (dataType : ServerDataType) (simulation : Bool)
  | delete (host : Host) (browseName : CString)
  | tick
  | setSimulationEnabled (enabled : Bool)
  | resetOverrides
  | clientWrite (nodeId : NodeId) (v : Scalar)

variable (cjson : CJson)

/-- Run one operation. Operations without a result report `good`. -/
def perform : Op → M StatusCode
  | .addFolder host parent browseName displayName =>
      nodeManagerAddFolder cjson host parent browseName displayName
  | .addVariable host parent browseName displayName dataType simulation =>
      nodeManagerAddVariable cjson host parent browseName displayName dataType simulation
  | .delete host browseName => nodeManagerDelete cjson host browseName
  | .tick => do nodeManagerRunSimulationTick; return .good
  | .setSimulationEnabled enabled => do nodeManagerSetSimulationEnabled enabled; return .good
  | .resetOverrides => do nodeManagerResetOverrides; return .good
  | .clientWrite nodeId v => uaServerWriteValue nodeId v

/-- One step of the running server; `none` after a fault. -/
def stepOp (w : World) (op : Op) : Option World :=
  match (perform cjson op).run w with
  | .ok (_, w') => some w'
  | .error _ => none

/-- The operation is a simulation tick, a change of the simulation switch, a reset or a
client write. -/
def Op.isSimulationOp : Op → Bool
  | .tick | .setSimulationEnabled _ | .resetOverrides | .clientWrite _ _ => true
  | _ => false

end SmartFactory.Server
