import SmartFactory.Lib.SlotTable
import SmartFactory.Lib.ExchangeSort
import SmartFactory.Server.AddressSpace

/-!
# `SmartFactory.Server.NodeManager`: the node manager (`node_manager.c`)

`World` is everything that `node_manager.c` reads and writes: the `NodeManager` record, the
static browse map `g_map`, the address space of the OPC UA server and the configuration
file. `createFolder`, `createVariable` and `nodeManagerBuild` run without the mutex and are
plain functions of the world. Whatever takes `nm->mutex` runs in `M`, a state monad with
five faults:

* `relock`: a thread locks the mutex that it holds;
* `arrayOverflow`: a store past the end of one of the arrays of `SERVER_MAX_NODES` elements
  on the stack;
* `useAfterFree`: a store into an allocation that `realloc` has given back;
* `invalidPointer`: a read through a pointer that points nowhere;
* `callbackDepth`: the callbacks nest deeper than `maxCallbackDepth`.

The last one is not a fault of the C program. It bounds the recursion
`writeValue` → callback → `writeValue`, and the proofs show that it is not met.

A node context is the address of an element of the sensors array. `realloc` may leave the
array where it is or move it; a moved array has a new allocation number, so a context that
was handed out before does not refer to it any more, and a write through it is the fault
`useAfterFree`.
-/

set_option autoImplicit false

namespace SmartFactory.Server

/-- `NM_MAX_ENTRIES`. -/
abbrev nmMaxEntries : Nat := serverMaxNodes + 4

/-- A used entry of `g_map`. -/
structure BrowseMapEntry where
  browseName : CharBuf serverBrowseNameMax
  nodeId : NodeId
  deriving DecidableEq

/-- `SimulatedSensor`. -/
structure SimulatedSensor where
  nodeId : NodeId
  value : Bool
  overridden : Bool
  browseName : CharBuf serverBrowseNameMax
  deriving DecidableEq

/-- `NodeManager`. `sensors` are the first `sensorCount` elements of the array;
`sensorsAlloc` numbers its allocation. `simulationEnabledNodeId` is set when
`simulationNodeSet` is. -/
structure NodeManager where
  nsIdx : Nat
  config : ServerConfig
  mutexHeld : Bool
  sensors : List SimulatedSensor
  sensorsAlloc : Nat
  sensorCapacity : Nat
  simulationEnabled : Bool
  simulationEnabledNodeId : Option NodeId
  deriving DecidableEq

/-- The state of the program around the node manager. -/
structure World where
  nm : NodeManager
  map : SlotTable BrowseMapEntry nmMaxEntries
  space : AddressSpace
  file : Option CString
  deriving DecidableEq

/-- Outcomes of `realloc`. -/
inductive Realloc where
  | inPlace
  | moved
  | failed
  deriving DecidableEq

/-- Outcomes of the library calls of one operation: why the server refuses the new node of
that browse name, how `realloc` behaves when the sensor of that name needs room, the
file operations of the save, and which documents `cJSON_PrintUnformatted` has the memory for. -/
structure Host where
  refuse : CString → Option BadStatus
  realloc : CString → Realloc
  save : SaveIo
  prints : Json → Bool

/-- Every call succeeds, and `realloc` extends the array where it is. -/
def Host.ok : Host :=
  { refuse := fun _ => none
    realloc := fun _ => .inPlace
    save := .ok
    prints := fun _ => true }

/-! ### The browse map -/

/-- `map_find`. -/
def World.mapFind (w : World) (browseName : CString) : Option BrowseMapEntry :=
  w.map.find? (fun e => e.browseName.chars == browseName)

/-- `resolve_parent`. -/
def World.resolveParent (w : World) (parentBrowseName : CString) : NodeId :=
  -- An unknown parent is not an error: the node goes below the Objects folder.
  if parentBrowseName = [] then objectsFolder
  else match w.mapFind parentBrowseName with
    | some e => e.nodeId
    | none => objectsFolder

/-- `map_add`. A full map stays as it is. -/
def World.mapAdd (w : World) (browseName : CString) (nodeId : NodeId) : World :=
  { w with map := w.map.insert ⟨snprintf serverBrowseNameMax browseName, nodeId⟩ }

/-- `map_remove`. -/
def World.mapRemove (w : World) (browseName : CString) : World :=
  { w with map := w.map.erase (fun e => e.browseName.chars == browseName) }

/-! ### The order of the build -/

/-- The loop of `node_depth`, with `guard` rounds left. -/
def nodeDepthLoop (cfg : ServerConfig) : (guard depth : Nat) → (parent : CString) → Nat
  | 0, depth, _ => depth
  | guard + 1, depth, parent =>
      if parent = [] then depth
      else match cfg.nodes.find? (fun n => n.browseName.chars == parent) with
        | some n => nodeDepthLoop cfg guard (depth + 1) n.parentBrowseName.chars
        | none => depth

/-- `node_depth`: the number of ancestors found in the configuration, at most 32. -/
def nodeDepth (cfg : ServerConfig) (node : ServerNodeDef) : Nat :=
  nodeDepthLoop cfg 32 0 node.parentBrowseName.chars

/-- `sort_nodes_by_depth`, for the whole node array. -/
def sortNodesByDepth (cfg : ServerConfig) : List ServerNodeDef :=
  exchangeSort (nodeDepth cfg) cfg.nodes

/-- `sort_nodes_by_depth`, for the first `n` nodes of `n` or more: they are copied into `sorted` and
exchanged there. -/
def sortFirstNodesByDepth (cfg : ServerConfig) (n : Nat) : List ServerNodeDef :=
  exchangeInPlace (nodeDepth cfg) (cfg.nodes.take n)

/-! ### Creating nodes -/

/-- The element that `add_simulated_sensor` fills in. -/
def newSensor (browseName : CString) (nodeId : NodeId) : SimulatedSensor :=
  { nodeId := nodeId
    value := false
    overridden := false
    browseName := snprintf serverBrowseNameMax browseName }

/-- `nm->sensors[nm->sensorCount++] = ..`. -/
def World.pushSensor (w : World) (st : SimulatedSensor) : World :=
  { w with nm := { w.nm with sensors := w.nm.sensors ++ [st] } }

/-- The growth step of `add_simulated_sensor`: the array with room for one more sensor,
`none` when `realloc` fails. -/
def World.growSensors (host : Host) (w : World) (browseName : CString) : Option World :=
  if w.nm.sensors.length ≥ w.nm.sensorCapacity then
    -- `realloc` may leave the array where it is or move it. No context is updated.
    let cap := if w.nm.sensorCapacity ≠ 0 then w.nm.sensorCapacity * 2 else 8
    match host.realloc browseName with
    | .failed => none
    | .inPlace => some { w with nm := { w.nm with sensorCapacity := cap } }
    | .moved => some { w with nm := { w.nm with
        sensorsAlloc := w.nm.sensorsAlloc + 1, sensorCapacity := cap } }
  else some w

/-- `add_simulated_sensor`: `none` when `realloc` fails. -/
def addSimulatedSensor (host : Host) (w : World) (browseName : CString) (nodeId : NodeId) :
    Option World :=
  (w.growSensors host browseName).map (fun w => w.pushSensor (newSensor browseName nodeId))

/-- The id that the program gives to a node. -/
def World.nodeIdOf (w : World) (browseName : CString) : NodeId := .string w.nm.nsIdx browseName

/-- The node that `create_folder` asks the server for. -/
def World.folderNode (w : World) (d : ServerNodeDef) : UaNode :=
  { nodeId := w.nodeIdOf d.browseName.chars
    parent := w.resolveParent d.parentBrowseName.chars
    displayName := d.displayName
    vAttr := none }

/-- `create_folder`. -/
def createFolder (host : Host) (d : ServerNodeDef) (w : World) : StatusCode × World :=
  let (space, retval) := w.space.addNode (host.refuse d.browseName.chars) (w.folderNode d)
  if retval = .good then
    (retval,
      { w with space := space }.mapAdd d.browseName.chars (w.nodeIdOf d.browseName.chars))
  else (retval, w)

/-- The value that `create_variable` gives to a new node of the data type. -/
def initialValue : ServerDataType → Scalar
  | .boolean => .boolean false
  | .int32 => .int32 0
  | .double => .double 0
  | .string => .string []

/-- The node that `create_variable` asks the server for. -/
def World.variableNode (w : World) (d : ServerNodeDef) : UaNode :=
  { nodeId := w.nodeIdOf d.browseName.chars
    parent := w.resolveParent d.parentBrowseName.chars
    displayName := d.displayName
    vAttr := some
      { dataType := d.dataType
        value := initialValue d.dataType
        context := none
        onWrite := none } }

/-- The last part of `create_variable`: the simulation switch and the simulated sensors are
connected to their callbacks. -/
def connectVariable (host : Host) (d : ServerNodeDef) (nodeId : NodeId) (w : World) :
    World :=
  -- The role decides first: a switch gets no sensor, even with `simulation` set.
  if d.isSimulationSwitch then
    { w with
      nm := { w.nm with simulationEnabledNodeId := some nodeId, simulationEnabled := true }
      space := w.space.setValueCallback nodeId .simulationEnabledWrite }
  else if d.dataType = .boolean ∧ d.simulation = true then
    match addSimulatedSensor host w d.browseName.chars nodeId with
    | some w =>
        { w with
          space := (w.space.setNodeContext nodeId
              ⟨w.nm.sensorsAlloc, w.nm.sensors.length - 1⟩).setValueCallback nodeId
                .sensorWrite }
    -- The node stays without its sensor, and nobody is told.
    | none => w
  else w

/-- `create_variable`. -/
def createVariable (host : Host) (d : ServerNodeDef) (w : World) : StatusCode × World :=
  let (space, retval) := w.space.addNode (host.refuse d.browseName.chars) (w.variableNode d)
  -- The server refused the node: nothing was recorded.
  if retval ≠ .good then (retval, w)
  else
    let nodeId := w.nodeIdOf d.browseName.chars
    (.good, connectVariable host d nodeId
      ({ w with space := space }.mapAdd d.browseName.chars nodeId))

/-- `node_manager_create`. -/
def nodeManagerCreate (nsIdx : Nat) (cfg : ServerConfig) (file : Option CString) : World :=
  { nm :=
      { nsIdx := nsIdx, config := cfg, mutexHeld := false, sensors := [], sensorsAlloc := 0
        sensorCapacity := 0, simulationEnabled := true, simulationEnabledNodeId := none }
    map := SlotTable.empty _ _
    space := []
    file := file }

/-- The loop of `node_manager_build` over the sorted definitions. Other kinds are
skipped; the first refusal ends the build. -/
def buildLoop (host : Host) : List ServerNodeDef → World → StatusCode × World
  | [], w => (.good, w)
  | d :: rest, w =>
      let create (r : StatusCode × World) :=
        if r.1 ≠ .good then r else buildLoop host rest r.2
      if d.isFolder then create (createFolder host d w)
      else if d.isVariable then create (createVariable host d w)
      else buildLoop host rest w

/-- `node_manager_build`. -/
def nodeManagerBuild (host : Host) (w : World) : StatusCode × World :=
  buildLoop host (sortNodesByDepth w.nm.config) w

/-! ### Queries -/

/-- `config_has_browse`. -/
def configHasBrowse (cfg : ServerConfig) (browseName : CString) : Bool :=
  cfg.nodes.any (fun n => n.browseName.chars == browseName)

/-- `has_children_in_config`. -/
def hasChildrenInConfig (cfg : ServerConfig) (browseName : CString) : Bool :=
  cfg.nodes.any (fun n => n.parentBrowseName.chars == browseName)

/-- `node_manager_find_node_index`. -/
def nodeManagerFindNodeIndex (nm : NodeManager) (browseName : CString) : Option Nat :=
  nm.config.nodes.findIdx? (fun n => n.browseName.chars == browseName)

/-! ### The locked operations -/

/-- How an operation fails. -/
inductive Fault where
  | relock
  | arrayOverflow
  | useAfterFree
  | invalidPointer
  | callbackDepth
  deriving DecidableEq

/-- Operations of the program. -/
abbrev M := StateT World (Except Fault)

/-- Record who holds the mutex. -/
def World.setMutex (w : World) (held : Bool) : World :=
  { w with nm := { w.nm with mutexHeld := held } }

/-- `pthread_mutex_lock(&nm->mutex)`. -/
def lock : M Unit := do
  if (← get).nm.mutexHeld then throw .relock
  modify fun w => w.setMutex true

/-- `pthread_mutex_unlock(&nm->mutex)`. -/
def unlock : M Unit := modify fun w => w.setMutex false

section
variable (cjson : CJson)

/-- `node_manager_save_config`. -/
def nodeManagerSaveConfig (io : SaveIo) (w : World) : Bool × World :=
  let (ok, file) := serverConfigSave cjson io w.nm.config w.file
  (ok, { w with file := file })

/-- Append the definition and save, unless the configuration is full. -/
def appendAndSave (io : SaveIo) (d : ServerNodeDef) (w : World) : World :=
  -- The result of the save is dropped, and a full configuration is passed over in silence.
  if h : w.nm.config.nodes.length < serverMaxNodes then
    (nodeManagerSaveConfig cjson io
      { w with nm := { w.nm with config := w.nm.config.push d h } }).2
  else w

/-- The definition that `node_manager_add_folder` fills in. -/
def folderDef (parent : Option CString) (browseName displayName : CString) :
    ServerNodeDef :=
  { kind := snprintf 16 serverNodeKindFolder
    browseName := snprintf serverBrowseNameMax browseName
    displayName := snprintf serverDisplayNameMax displayName
    parentBrowseName := snprintf serverBrowseNameMax (parent.getD [])
    dataType := .boolean
    simulation := false
    role := snprintf 32 [] }

/-- The definition that `node_manager_add_variable` fills in. -/
def variableDef (parent : Option CString) (browseName displayName : CString)
    (dataType : ServerDataType) (simulation : Bool) : ServerNodeDef :=
  { kind := snprintf 16 serverNodeKindVariable
    browseName := snprintf serverBrowseNameMax browseName
    displayName := snprintf serverDisplayNameMax displayName
    parentBrowseName := snprintf serverBrowseNameMax (parent.getD [])
    dataType := dataType
    simulation := simulation
    role := snprintf 32 [] }

/-- `node_manager_add_folder`. -/
def nodeManagerAddFolder (host : Host) (parent : Option CString)
    (browseName displayName : CString) : M StatusCode := do
  -- The checks run before the mutex is taken.
  if !serverConfigValidateBrowseName browseName then return .badInvalidArgument
  if configHasBrowse (← get).nm.config browseName then return .badNodeIdExists
  lock
  let d := folderDef parent browseName displayName
  let rc ← modifyGet (createFolder host d)
  if rc = .good then modify (appendAndSave cjson host.save d)
  unlock
  return rc

/-- `node_manager_add_variable`. -/
def nodeManagerAddVariable (host : Host) (parent : Option CString)
    (browseName displayName : CString) (dataType : ServerDataType) (simulation : Bool) :
    M StatusCode := do
  if !serverConfigValidateBrowseName browseName then return .badInvalidArgument
  if configHasBrowse (← get).nm.config browseName then return .badNodeIdExists
  if simulation && dataType ≠ .boolean then return .badInvalidArgument
  lock
  let d := variableDef parent browseName displayName dataType simulation
  let rc ← modifyGet (createVariable host d)
  if rc = .good then modify (appendAndSave cjson host.save d)
  unlock
  return rc

/-- The node leaves the address space and the browse map, if the map knows it. -/
def deleteFromServer (browseName : CString) (w : World) : World :=
  match w.mapFind browseName with
  | some e => { w with space := w.space.deleteNode e.nodeId }.mapRemove browseName
  | none => w

/-- The first sensor of that name leaves the sensors array; the later ones move down. -/
def removeSensor (browseName : CString) (w : World) : World :=
  { w with nm := { w.nm with
      sensors := w.nm.sensors.eraseP (fun st => st.browseName.chars == browseName) } }

/-- The definition leaves the configuration, and the configuration is saved. -/
def removeFromConfig (io : SaveIo) (idx : Nat) (w : World) : World :=
  (nodeManagerSaveConfig cjson io
    { w with nm := { w.nm with config := w.nm.config.removeAt idx } }).2

/-- `node_manager_delete`. -/
def nodeManagerDelete (host : Host) (browseName : CString) : M StatusCode := do
  lock
  match nodeManagerFindNodeIndex (← get).nm browseName with
  | none =>
      unlock
      return .badNodeIdUnknown
  | some idx =>
      let nm := (← get).nm
      if (nm.config.nodes[idx]?).any ServerNodeDef.isSimulationSwitch then
        unlock
        return .badUserAccessDenied
      if hasChildrenInConfig nm.config browseName then
        unlock
        return .badNotImplemented
      -- The result of `UA_Server_deleteNode` is not looked at.
      modify (deleteFromServer browseName)
      modify (removeSensor browseName)
      modify (removeFromConfig cjson host.save idx)
      unlock
      return .good

end

/-! ### Writes and callbacks -/

/-- Change the element of the sensors array that a context points at. -/
def World.updateSensor (w : World) (ref : SensorRef)
    (f : SimulatedSensor → SimulatedSensor) : Except Fault World :=
  -- The address is taken as it is: nothing compares the node ids or the allocations.
  if ref.alloc = w.nm.sensorsAlloc then
    .ok { w with nm := { w.nm with sensors := w.nm.sensors.modify ref.index f } }
  else .error .useAfterFree

/-- `*(UA_Boolean *)data->value.data`, behind the test of the callbacks: `none` when there are no
data of type Boolean. The test lets arrays pass. The data of an empty one are not null, but they
point nowhere. -/
def Variant.readBoolean : Variant → Option (Except Fault Bool)
  | .scalar (.boolean b) => some (.ok b)
  | .array (.boolean (b :: _)) => some (.ok b)
  | .array (.boolean []) => some (.error .invalidPointer)
  | _ => none

/-- `sensor_write_callback`. -/
def sensorWriteCallback (nodeContext : Option SensorRef) (data : Variant) : M Unit := do
  match nodeContext, data.readBoolean with
  | some ref, some value =>
      lock
      let b ← value
      let w ← (← get).updateSensor ref (fun st => { st with value := b, overridden := true })
      set w
      unlock
  | _, _ => return

/-- `array[array.length] = x` for an array of `SERVER_MAX_NODES` elements. -/
def storeNext {α : Type} (array : List α) (x : α) : Except Fault (List α) :=
  if array.length < serverMaxNodes then .ok (array ++ [x]) else .error .arrayOverflow

/-- One sensor of the loop that `simulation_enabled_write_callback` and
`node_manager_set_simulation_enabled` share. -/
def SimulatedSensor.switched (st : SimulatedSensor) (enabled : Bool) : SimulatedSensor :=
  if !enabled then { st with value := false, overridden := false }
  else { st with overridden := false }

/-- That loop: the sensors afterwards and the array `sensorIds`. -/
def switchLoop (enabled : Bool) :
    List SimulatedSensor → List NodeId → Except Fault (List SimulatedSensor × List NodeId)
  | [], sensorIds => .ok ([], sensorIds)
  | st :: rest, sensorIds => do
      -- `sensorIds[count++]` has no bound of its own.
      let sensorIds ← storeNext sensorIds st.nodeId
      let (rest, sensorIds) ← switchLoop enabled rest sensorIds
      return (st.switched enabled :: rest, sensorIds)

/-- The locked section of both: the flag is set and the sensors are switched. The result
is the node of the simulation switch, which only `node_manager_set_simulation_enabled`
uses, and the array `sensorIds`. -/
def switchSection (enabled : Bool) : M (Option NodeId × List NodeId) := do
  lock
  modify fun w => { w with nm := { w.nm with simulationEnabled := enabled } }
  let simulationNodeId := (← get).nm.simulationEnabledNodeId
  -- The loop collects the ids under the mutex; the writes come after it.
  let (sensors, sensorIds) ← switchLoop enabled (← get).nm.sensors []
  modify fun w => { w with nm := { w.nm with sensors := sensors } }
  unlock
  return (simulationNodeId, sensorIds)

/-- The unlocked loop of writes: each node gets its value. -/
def writeAll (write : NodeId → Variant → M StatusCode) : List (NodeId × Bool) → M Unit
  | [] => return
  | (nodeId, v) :: rest => do
      discard (write nodeId (.boolean v))
      writeAll write rest

/-- `simulation_enabled_write_callback`. `write` is `UA_Server_writeValue`. -/
def simulationEnabledWriteCallback (write : NodeId → Variant → M StatusCode)
    (data : Variant) : M Unit := do
  match data.readBoolean with
  | none => return
  | some (.error fault) =>
      lock
      throw fault
  | some (.ok enabled) =>
      let (_, sensorIds) ← switchSection enabled
      if !enabled then writeAll write (sensorIds.map (fun id => (id, false)))

/-- Store a value in a node. -/
def World.storeValue (w : World) (nodeId : NodeId) (v : Variant) : World :=
  { w with space := w.space.updateVariable nodeId (fun vAttr => { vAttr with value := v }) }

/-- `UA_Server_writeValue`, and the write of a client: the value is stored when it has the
data type of the node, then the `onWrite` callback of the node runs. `depth` bounds the
nesting of the callbacks. -/
def writeValue : (depth : Nat) → NodeId → Variant → M StatusCode
  | 0, _, _ => throw .callbackDepth
  | depth + 1, nodeId, v => do
      match (← get).space.find nodeId with
      | none => return .badNodeIdUnknown
      | some node =>
          match node.vAttr with
          | none => return .badNodeClassInvalid
          | some vAttr =>
              if !v.storable vAttr.dataType then return .badTypeMismatch
              -- The value is stored before the callback runs.
              modify fun w => w.storeValue nodeId v
              match vAttr.onWrite with
              | none => return .good
              | some .sensorWrite =>
                  sensorWriteCallback vAttr.context v
                  return .good
              | some .simulationEnabledWrite =>
                  simulationEnabledWriteCallback (writeValue depth) v
                  return .good

/-- The nesting of callbacks that the model allows. -/
def maxCallbackDepth : Nat := 8

/-- `UA_Server_writeValue`. -/
def uaServerWriteValue : NodeId → Variant → M StatusCode := writeValue maxCallbackDepth

/-! ### The simulation -/

/-- The loop of `node_manager_run_simulation_tick`: the sensors afterwards and the arrays
`writeIds` and `writeValues`, filled together. -/
def tickLoop :
    List SimulatedSensor → List (NodeId × Bool) →
      Except Fault (List SimulatedSensor × List (NodeId × Bool))
  | [], writes => .ok ([], writes)
  | st :: rest, writes => do
      -- Sensors that a client took over keep their values.
      if st.overridden then
        let (rest, writes) ← tickLoop rest writes
        return (st :: rest, writes)
      else
        let writes ← storeNext writes (st.nodeId, !st.value)
        let (rest, writes) ← tickLoop rest writes
        return ({ st with value := !st.value } :: rest, writes)

/-- The locked section of a tick: the values to write. -/
def tickSection : M (List (NodeId × Bool)) := do
  lock
  -- Nothing to write while the simulation is off.
  if !(← get).nm.simulationEnabled then
    unlock
    return []
  let (sensors, writes) ← tickLoop (← get).nm.sensors []
  modify fun w => { w with nm := { w.nm with sensors := sensors } }
  unlock
  return writes

/-- `node_manager_run_simulation_tick`. -/
def nodeManagerRunSimulationTick : M Unit := do
  let writes ← tickSection
  writeAll uaServerWriteValue writes

/-- `node_manager_set_simulation_enabled`. -/
def nodeManagerSetSimulationEnabled (enabled : Bool) : M Unit := do
  let (simulationNodeId, sensorIds) ← switchSection enabled
  -- This write runs `simulation_enabled_write_callback` for the node once more.
  match simulationNodeId with
  | some nodeId => discard (uaServerWriteValue nodeId (.boolean enabled))
  | none => pure ()
  if !enabled then writeAll uaServerWriteValue (sensorIds.map (fun id => (id, false)))

/-- `node_manager_reset_overrides`. -/
def nodeManagerResetOverrides : M Unit := do
  lock
  modify fun w => { w with nm := { w.nm with
    sensors := w.nm.sensors.map (fun st => { st with overridden := false }) } }
  unlock

end SmartFactory.Server
