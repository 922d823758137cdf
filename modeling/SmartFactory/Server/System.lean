import SmartFactory.Server.Http

/-!
# `SmartFactory.Server.System`: the running server as a whole

Three things happen to a running server: a request on the HTTP thread, the repeated callback
of the simulation, and a write of an OPC UA client. `Event` lists them with all their arguments
and with the outcomes of the library calls, and the runs of `stepEvent` are the runs of the
server.
-/

set_option autoImplicit false

namespace SmartFactory.Server

/-- What happens to the running server. -/
inductive Event where
  | request (host : Host) (method url : CString) (chunks : List (List Char))
  | tick
  | clientWrite (nodeId : NodeId) (v : Scalar)

/-- Let it happen. -/
def handleEvent (env : HttpEnv) : Event → H Unit
  | .request host method url chunks => do
      let _ ← request env host method url chunks
  | .tick => nodeManager nodeManagerRunSimulationTick
  | .clientWrite nodeId v => do
      let _ ← nodeManager (uaServerWriteValue nodeId v)

/-- One step of the running server; `none` after a fault. -/
def stepEvent (env : HttpEnv) (s : HttpServer) (e : Event) : Option HttpServer :=
  match (handleEvent env e).run s with
  | .ok (_, s') => some s'
  | .error _ => none

/-- A client may also send an array, or a value without data. -/
inductive AnyEvent where
  | event (e : Event)
  | clientWrite (nodeId : NodeId) (v : Variant)

/-- Let it happen. -/
def handleAny (env : HttpEnv) : AnyEvent → H Unit
  | .event e => handleEvent env e
  | .clientWrite nodeId v => do
      let _ ← nodeManager (uaServerWriteValue nodeId v)

/-- One step of the running server with such writes. -/
def stepAny (env : HttpEnv) (s : HttpServer) (e : AnyEvent) : Option HttpServer :=
  match (handleAny env e).run s with
  | .ok (_, s') => some s'
  | .error _ => none

end SmartFactory.Server
