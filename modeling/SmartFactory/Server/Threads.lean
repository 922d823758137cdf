import SmartFactory.Server.Program

/-!
# `SmartFactory.Server.Threads`: ticks and switches at the same time

The simulation ticks on the thread of the OPC UA server, while the HTTP thread runs
`node_manager_set_simulation_enabled`. Both start with a section under `nm->mutex` and then
make their writes one by one, without the mutex, from a list that they copied.

`Threads` is the world together with the writes that each thread has still to make. A
`ThreadStep` is one section or one `UA_Server_writeValue` with the callback that it runs.
Every interleaving is a list of steps (`SmartFactory.Run`).
-/

set_option autoImplicit false

namespace SmartFactory.Server

/-- The world, and the writes that a tick and a switch have still to make. A thread whose list
is empty is between two operations. -/
structure Threads where
  world : World
  tickWrites : List (NodeId × Bool)
  httpWrites : List (NodeId × Bool)

/-- The atomic steps of the two threads. -/
inductive ThreadStep where
  /-- The server thread begins a tick. -/
  | tick
  /-- The server thread makes the next write of its tick. -/
  | tickWrite
  /-- The HTTP thread begins `node_manager_set_simulation_enabled`. -/
  | setSimulationEnabled (enabled : Bool)
  /-- The HTTP thread makes the next write of its call. -/
  | httpWrite

/-- The writes of `node_manager_set_simulation_enabled` after its section: the node of the
switch, if there is one, and on a switch to off the sensors. -/
def switchWrites (enabled : Bool) (r : Option NodeId × List NodeId) : List (NodeId × Bool) :=
  r.1.toList.map (fun nodeId => (nodeId, enabled)) ++
    if !enabled then r.2.map (fun id => (id, false)) else []

/-- Make the first of some writes: the world afterwards and the writes that remain. -/
def firstWrite (w : World) : List (NodeId × Bool) → Option (World × List (NodeId × Bool))
  | [] => none
  | (nodeId, v) :: rest =>
      match (uaServerWriteValue nodeId (.boolean v)).run w with
      | .ok (_, w') => some (w', rest)
      | .error _ => none

/-- One step of one of the threads; `none` when the thread is not at that point, and after a
fault. -/
def stepThreads (t : Threads) : ThreadStep → Option Threads
  | .tick =>
      if t.tickWrites ≠ [] then none
      else match tickSection.run t.world with
        | .ok (writes, w) => some { t with world := w, tickWrites := writes }
        | .error _ => none
  | .tickWrite =>
      (firstWrite t.world t.tickWrites).map fun r =>
        { t with world := r.1, tickWrites := r.2 }
  | .setSimulationEnabled enabled =>
      if t.httpWrites ≠ [] then none
      else match (switchSection enabled).run t.world with
        | .ok (r, w) => some { t with world := w, httpWrites := switchWrites enabled r }
        | .error _ => none
  | .httpWrite =>
      (firstWrite t.world t.httpWrites).map fun r =>
        { t with world := r.1, httpWrites := r.2 }

end SmartFactory.Server
