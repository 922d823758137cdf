import SmartFactory.Server.Program

/-!
# `SmartFactory.Proofs.Creation`: what creating a node does

`createFolder` and `createVariable` either refuse and leave the world as it was, or they
create the node. `Created` says everything that a creation changes and everything that it
leaves alone; `Wired` is the part of it about the sensors array. The invariants of the
following modules are derived from these two, not from the code again.

`createNode` is the dispatch of `node_manager_build` on the kind of a definition. The
definitions that `node_manager_add_folder` and `node_manager_add_variable` fill in go
through it as well.
-/

set_option autoImplicit false

namespace SmartFactory.Server

/-- A definition that `create_variable` connects to an element of the sensors array. -/
def ServerNodeDef.isSimulated (d : ServerNodeDef) : Bool :=
  d.isVariable && !d.isSimulationSwitch && d.dataType = .boolean && d.simulation

theorem isSimulated_iff {d : ServerNodeDef} : d.isSimulated = true ↔
    d.isVariable = true ∧ d.isSimulationSwitch = false ∧
      d.dataType = .boolean ∧ d.simulation = true := by
  simp [ServerNodeDef.isSimulated, and_assoc]

/-- A definition that `node_manager_build` creates a node for. -/
def ServerNodeDef.isNode (d : ServerNodeDef) : Bool := d.isFolder || d.isVariable

/-- A kind is not both. -/
theorem isVariable_of_isFolder {d : ServerNodeDef} (h : d.isFolder = true) :
    d.isVariable = false := by
  have hk : d.kind.chars = serverNodeKindFolder := by simpa [ServerNodeDef.isFolder] using h
  rw [ServerNodeDef.isVariable, hk]
  decide

/-- A definition of another kind is neither. -/
theorem kinds_of_other {d : ServerNodeDef} (h : d.isNode = false) :
    d.isFolder = false ∧ d.isVariable = false := by
  simpa [ServerNodeDef.isNode] using h

/-- A definition of another kind is not simulated. -/
theorem isSimulated_of_other {d : ServerNodeDef} (h : d.isNode = false) :
    d.isSimulated = false := by
  simp [ServerNodeDef.isSimulated, (kinds_of_other h).2]

/-- An id has one node, and a node one attribute. -/
theorem attribute_unique {space : AddressSpace} {id : NodeId} {n n' : UaNode} {v v' : UaVariable}
    (hn : space.find id = some n) (hv : n.vAttr = some v) (hn' : space.find id = some n')
    (hv' : n'.vAttr = some v') : n = n' ∧ v = v' := by
  obtain rfl := Option.some.inj (hn.symm.trans hn')
  exact ⟨rfl, Option.some.inj (hv.symm.trans hv')⟩

/-- Creating the node of a definition of kind folder or variable. -/
def createNode (host : Host) (d : ServerNodeDef) (w : World) : StatusCode × World :=
  if d.isFolder then createFolder host d w else createVariable host d w

/-- The capacity after a growth of the sensors array. -/
def grownCapacity (cap : Nat) : Nat := if cap ≠ 0 then cap * 2 else 8

/-- How the sensors array gets room for one more sensor. -/
inductive Grown (host : Host) (name : CString) (w w' : World) : Prop where
  /-- There is room already. -/
  | room (hroom : w.nm.sensors.length < w.nm.sensorCapacity)
      (halloc : w'.nm.sensorsAlloc = w.nm.sensorsAlloc)
      (hcap : w'.nm.sensorCapacity = w.nm.sensorCapacity)
  /-- The array grows where it is. -/
  | extended (hfull : w.nm.sensorCapacity ≤ w.nm.sensors.length)
      (hrealloc : host.realloc name = .inPlace)
      (halloc : w'.nm.sensorsAlloc = w.nm.sensorsAlloc)
      (hcap : w'.nm.sensorCapacity = grownCapacity w.nm.sensorCapacity)
  /-- The array grows and moves. -/
  | moved (hfull : w.nm.sensorCapacity ≤ w.nm.sensors.length)
      (hrealloc : host.realloc name = .moved)
      (halloc : w'.nm.sensorsAlloc = w.nm.sensorsAlloc + 1)
      (hcap : w'.nm.sensorCapacity = grownCapacity w.nm.sensorCapacity)

/-- An array that grows had room, or `realloc` made room. -/
theorem Grown.canGrow {host : Host} {name : CString} {w w' : World}
    (h : Grown host name w w') : w.nm.sensors.length < w.nm.sensorCapacity ∨
      host.realloc name ≠ .failed := by
  cases h with
  | room hroom => exact Or.inl hroom
  | extended _ hrealloc => exact Or.inr fun hfailed => nomatch hrealloc.symm.trans hfailed
  | moved _ hrealloc => exact Or.inr fun hfailed => nomatch hrealloc.symm.trans hfailed

/-- What a creation does to the sensors array and to the callbacks of the new node. -/
inductive Wired (host : Host) (d : ServerNodeDef) (w w' : World) (n : UaNode) : Prop where
  /-- The definition is not simulated. -/
  | plain (hsim : d.isSimulated = false)
      (hsensors : w'.nm.sensors = w.nm.sensors)
      (halloc : w'.nm.sensorsAlloc = w.nm.sensorsAlloc)
      (hcap : w'.nm.sensorCapacity = w.nm.sensorCapacity)
      (hcb : ∀ v, n.vAttr = some v → v.onWrite ≠ some .sensorWrite)
  /-- `realloc` failed, and the node stays without a sensor. -/
  | failed (hsim : d.isSimulated = true)
      (hfull : w.nm.sensorCapacity ≤ w.nm.sensors.length)
      (hrealloc : host.realloc d.browseName.chars = .failed)
      (hsensors : w'.nm.sensors = w.nm.sensors)
      (halloc : w'.nm.sensorsAlloc = w.nm.sensorsAlloc)
      (hcap : w'.nm.sensorCapacity = w.nm.sensorCapacity)
      (hcb : ∀ v, n.vAttr = some v → v.onWrite = none)
  /-- The node is connected to a new sensor. -/
  | connected (hsim : d.isSimulated = true)
      (hsensors : w'.nm.sensors =
        w.nm.sensors ++ [newSensor d.browseName.chars (w.nodeIdOf d.browseName.chars)])
      (hgrown : Grown host d.browseName.chars w w')
      (hv : n.vAttr = some
        { dataType := .boolean
          value := .boolean false
          context := some ⟨w'.nm.sensorsAlloc, w.nm.sensors.length⟩
          onWrite := some .sensorWrite })

/-- Everything that the creation of a node changes. -/
structure Created (host : Host) (d : ServerNodeDef) (w w' : World) : Prop where
  fresh : w.space.find (w.nodeIdOf d.browseName.chars) = none
  accepted : host.refuse d.browseName.chars = none
  nsIdx : w'.nm.nsIdx = w.nm.nsIdx
  config : w'.nm.config = w.nm.config
  mutexHeld : w'.nm.mutexHeld = w.nm.mutexHeld
  file : w'.file = w.file
  map : w'.map = w.map.insert ⟨d.browseName, w.nodeIdOf d.browseName.chars⟩
  ids : w'.space.ids = w.space.ids ++ [w.nodeIdOf d.browseName.chars]
  others : ∀ id, id ≠ w.nodeIdOf d.browseName.chars →
    w'.space.find id = w.space.find id
  self : ∃ n, w'.space.find (w.nodeIdOf d.browseName.chars) = some n ∧
    n.parent = w.resolveParent d.parentBrowseName.chars ∧ n.displayName = d.displayName ∧
    n.vAttr.map UaVariable.dataType = (if d.isFolder then none else some d.dataType) ∧
    Wired host d w w' n
  switch :
    (w'.nm.simulationEnabledNodeId = w.nm.simulationEnabledNodeId ∧
      w'.nm.simulationEnabled = w.nm.simulationEnabled) ∨
    (w'.nm.simulationEnabledNodeId = some (w.nodeIdOf d.browseName.chars) ∧
      w'.nm.simulationEnabled = true ∧
      ∃ n v, w'.space.find (w.nodeIdOf d.browseName.chars) = some n ∧ n.vAttr = some v ∧
        v.onWrite = some .simulationEnabledWrite)

variable {host : Host} {d : ServerNodeDef} {w : World}

/-- `create_folder` creates the node, or it refuses and changes nothing. -/
theorem createFolder_cases (hd : d.isFolder = true) :
    ((createFolder host d w).1 = .good ∧ Created host d w (createFolder host d w).2) ∨
    ((w.space.find (w.nodeIdOf d.browseName.chars) ≠ none ∨
        host.refuse d.browseName.chars ≠ none) ∧
      (createFolder host d w).1 ≠ .good ∧ (createFolder host d w).2 = w) := by
  have hsim : d.isSimulated = false := by
    simp [ServerNodeDef.isSimulated, isVariable_of_isFolder hd]
  -- The server decides: a node that it takes is entered in the map, and nothing else happens.
  rcases AddressSpace.addNode_cases w.space
      (host.refuse d.browseName.chars) (w.folderNode d) with
    ⟨hfresh, haccept, hadd⟩ | ⟨hreason, hbad⟩
  · left
    have hrun : createFolder host d w = (.good,
        { w with space := w.space ++ [w.folderNode d] }.mapAdd d.browseName.chars
          (w.nodeIdOf d.browseName.chars)) := by
      simp only [createFolder, hadd, if_true]
    rw [hrun]
    have hfind : ∀ id, AddressSpace.find (w.space ++ [w.folderNode d]) id
        = if id = w.nodeIdOf d.browseName.chars then some (w.folderNode d)
          else w.space.find id :=
      fun id => AddressSpace.find_append (w.folderNode d) id hfresh
    exact ⟨rfl,
      { fresh := hfresh
        accepted := haccept
        nsIdx := rfl
        config := rfl
        mutexHeld := rfl
        file := rfl
        map := by simp [World.mapAdd]
        ids := by simp [World.mapAdd, AddressSpace.ids, World.folderNode]
        others := fun id hid => (hfind id).trans (if_neg hid)
        self := ⟨w.folderNode d, (hfind _).trans (if_pos rfl), rfl, rfl,
          by simp [World.folderNode, hd],
          Wired.plain hsim rfl rfl rfl (fun v hv => nomatch hv)⟩
        switch := Or.inl ⟨rfl, rfl⟩ }⟩
  · right
    have hrun : createFolder host d w
        = ((w.space.addNode (host.refuse d.browseName.chars) (w.folderNode d)).2, w) := by
      simp only [createFolder, if_neg hbad]
    rw [hrun]
    exact ⟨hreason, hbad, rfl⟩

/-- The world in which `create_variable` connects the new node. -/
def World.withVariable (w : World) (d : ServerNodeDef) : World :=
  { w with space := w.space ++ [w.variableNode d] }.mapAdd d.browseName.chars
    (w.nodeIdOf d.browseName.chars)

/-- Growing the sensors array changes its allocation and its capacity only. -/
theorem growSensors_some {w w₁ : World} {name : CString}
    (h : w.growSensors host name = some w₁) :
    w₁ = { w with nm := { w.nm with
      sensorsAlloc := w₁.nm.sensorsAlloc, sensorCapacity := w₁.nm.sensorCapacity } } ∧
    Grown host name w w₁ := by
  simp only [World.growSensors] at h
  split at h
  · rename_i hfull
    cases hr : host.realloc name with
    | failed => simp [hr] at h
    | inPlace =>
        simp only [hr, Option.some.injEq] at h
        exact h ▸ ⟨rfl, .extended hfull hr rfl rfl⟩
    | moved =>
        simp only [hr, Option.some.injEq] at h
        exact h ▸ ⟨rfl, .moved hfull hr rfl rfl⟩
  · -- There is room, and `realloc` is not called.
    rename_i hroom
    rw [Option.some.injEq] at h
    exact h ▸ ⟨rfl, .room (Nat.lt_of_not_le hroom) rfl rfl⟩

/-- The array does not grow only when it is full and `realloc` fails. -/
theorem growSensors_none {w : World} {name : CString}
    (h : w.growSensors host name = none) :
    w.nm.sensorCapacity ≤ w.nm.sensors.length ∧ host.realloc name = .failed := by
  simp only [World.growSensors] at h
  split at h
  · rename_i hfull
    cases hr : host.realloc name with
    | failed => exact ⟨hfull, rfl⟩
    | inPlace => simp [hr] at h
    | moved => simp [hr] at h
  · cases h

/-- A node that is changed in place is found as changed, the others as they were. -/
theorem find_update_append {space : AddressSpace} (node : UaNode)
    (hfresh : space.find node.nodeId = none) (f : UaVariable → UaVariable) (id : NodeId) :
    (AddressSpace.updateVariable (space ++ [node]) node.nodeId f).find id
      = if id = node.nodeId then some { node with vAttr := node.vAttr.map f }
        else space.find id := by
  rw [AddressSpace.find_updateVariable, AddressSpace.find_append node id hfresh]
  by_cases hid : id = node.nodeId
  · rw [if_pos hid, if_pos hid, Option.map_some, if_pos hid]
  -- The nodes with another id keep their attributes.
  · rw [if_neg hid, if_neg hid]
    cases space.find id with
    | none => rfl
    | some n => rw [Option.map_some, if_neg hid]

/-! ### The connection of a new variable -/

/-- A variable is no folder. -/
theorem isFolder_of_isVariable (hd : d.isVariable = true) : d.isFolder = false := by
  cases hf : d.isFolder with
  | false => rfl
  | true => cases (isVariable_of_isFolder hf).symm.trans hd

/-- The new node is the last one of the address space. -/
theorem ids_withVariable :
    (w.withVariable d).space.ids = w.space.ids ++ [w.nodeIdOf d.browseName.chars] := by
  simp [World.withVariable, World.mapAdd, AddressSpace.ids, World.variableNode]

/-- The new node is found as it was made. -/
theorem find_withVariable (hfresh : w.space.find (w.nodeIdOf d.browseName.chars) = none)
    (id : NodeId) : (w.withVariable d).space.find id
      = if id = w.nodeIdOf d.browseName.chars then some (w.variableNode d)
        else w.space.find id :=
  AddressSpace.find_append (w.variableNode d) id hfresh

/-- The new node is found as it was changed. -/
theorem find_updateVariable_withVariable
    (hfresh : w.space.find (w.nodeIdOf d.browseName.chars) = none)
    (f : UaVariable → UaVariable) (id : NodeId) :
    ((w.withVariable d).space.updateVariable (w.nodeIdOf d.browseName.chars) f).find id
      = if id = w.nodeIdOf d.browseName.chars then
          some { w.variableNode d with vAttr := (w.variableNode d).vAttr.map f }
        else w.space.find id :=
  find_update_append (w.variableNode d) hfresh f id

/-- A variable is created when its node is the only one that was changed, and only the
sensors and the switch of the node manager were. -/
theorem created_of_find {w' : World} {vAttr : UaVariable}
    (hfresh : w.space.find (w.nodeIdOf d.browseName.chars) = none)
    (haccept : host.refuse d.browseName.chars = none) (hd : d.isVariable = true)
    (hnm : w'.nm = { w.nm with
      sensors := w'.nm.sensors
      sensorsAlloc := w'.nm.sensorsAlloc
      sensorCapacity := w'.nm.sensorCapacity
      simulationEnabledNodeId := w'.nm.simulationEnabledNodeId
      simulationEnabled := w'.nm.simulationEnabled })
    (hmap : w'.map = (w.withVariable d).map) (hfile : w'.file = w.file)
    (hids : w'.space.ids = (w.withVariable d).space.ids)
    (hfind : ∀ id, w'.space.find id = if id = w.nodeIdOf d.browseName.chars then
      some { w.variableNode d with vAttr := some vAttr } else w.space.find id)
    (hdt : vAttr.dataType = d.dataType)
    (hwired : Wired host d w w' { w.variableNode d with vAttr := some vAttr })
    (hswitch : (w'.nm.simulationEnabledNodeId = w.nm.simulationEnabledNodeId ∧
        w'.nm.simulationEnabled = w.nm.simulationEnabled) ∨
      (w'.nm.simulationEnabledNodeId = some (w.nodeIdOf d.browseName.chars) ∧
        w'.nm.simulationEnabled = true ∧ vAttr.onWrite = some .simulationEnabledWrite)) :
    Created host d w w' := by
  have hself := (hfind (w.nodeIdOf d.browseName.chars)).trans (if_pos rfl)
  refine
    { fresh := hfresh
      accepted := haccept
      nsIdx := by rw [hnm]
      config := by rw [hnm]
      mutexHeld := by rw [hnm]
      file := hfile
      map := ?_
      ids := hids.trans ids_withVariable
      others := fun id hid => (hfind id).trans (if_neg hid)
      self := ⟨_, hself, rfl, rfl, ?_, hwired⟩
      switch := ?_ }
  · rw [hmap]
    simp [World.withVariable, World.mapAdd]
  · rw [isFolder_of_isVariable hd, Option.map_some, hdt]
    rfl
  · -- The switch is the one of before, or the new node.
    rcases hswitch with hkept | ⟨hid, hon, hcb⟩
    · exact Or.inl hkept
    · exact Or.inr ⟨hid, hon, _, vAttr, hself, rfl, hcb⟩

section Connected

variable (hfresh : w.space.find (w.nodeIdOf d.browseName.chars) = none)
  (haccept : host.refuse d.browseName.chars = none) (hd : d.isVariable = true)

include hfresh haccept hd

/-- The simulation switch gets its callback, and the simulation is on. -/
theorem created_switch (hswitch : d.isSimulationSwitch = true) :
    Created host d w
      (connectVariable host d (w.nodeIdOf d.browseName.chars) (w.withVariable d)) := by
  have hsim : d.isSimulated = false := by simp [ServerNodeDef.isSimulated, hswitch]
  rw [connectVariable, if_pos hswitch]
  refine created_of_find hfresh haccept hd rfl rfl rfl (AddressSpace.ids_updateVariable _)
    (find_updateVariable_withVariable hfresh _) rfl ?_ (Or.inr ⟨rfl, rfl, rfl⟩)
  refine Wired.plain hsim rfl rfl rfl fun v hv => ?_
  cases hv
  simp

/-- Any other variable without simulation is left as it was made. -/
theorem created_plain (hswitch : d.isSimulationSwitch = false)
    (hplain : ¬ (d.dataType = .boolean ∧ d.simulation = true)) :
    Created host d w
      (connectVariable host d (w.nodeIdOf d.browseName.chars) (w.withVariable d)) := by
  have hsim : d.isSimulated = false := by
    simpa [ServerNodeDef.isSimulated, hd, hswitch] using hplain
  rw [connectVariable, if_neg (by simp [hswitch]), if_neg hplain]
  refine created_of_find hfresh haccept hd rfl rfl rfl rfl (find_withVariable hfresh) rfl ?_
    (Or.inl ⟨rfl, rfl⟩)
  refine Wired.plain hsim rfl rfl rfl fun v hv => ?_
  cases hv
  simp

/-- A simulated sensor stays without an element of the array when `realloc` fails. -/
theorem created_failed (hsim : d.isSimulated = true)
    (hgrow : (w.withVariable d).growSensors host d.browseName.chars = none) :
    Created host d w
      (connectVariable host d (w.nodeIdOf d.browseName.chars) (w.withVariable d)) := by
  obtain ⟨-, hswitch, hbool⟩ := isSimulated_iff.mp hsim
  obtain ⟨hfull, hfail⟩ := growSensors_none hgrow
  rw [connectVariable, if_neg (by simp [hswitch]), if_pos hbool, addSimulatedSensor, hgrow,
    Option.map_none]
  refine created_of_find hfresh haccept hd rfl rfl rfl rfl (find_withVariable hfresh) rfl ?_
    (Or.inl ⟨rfl, rfl⟩)
  refine Wired.failed hsim hfull hfail rfl rfl rfl fun v hv => ?_
  cases hv
  rfl

/-- A simulated sensor is connected to the element that the array grew by. -/
theorem created_sensor (hsim : d.isSimulated = true) {w₁ : World}
    (hgrow : (w.withVariable d).growSensors host d.browseName.chars = some w₁) :
    Created host d w
      (connectVariable host d (w.nodeIdOf d.browseName.chars) (w.withVariable d)) := by
  obtain ⟨-, hswitch, hbool⟩ := isSimulated_iff.mp hsim
  obtain ⟨hw₁, hgrown⟩ := growSensors_some hgrow
  have hsensors : w₁.nm.sensors = w.nm.sensors := by
    rw [hw₁]
    rfl
  have hspace : w₁.space = (w.withVariable d).space := by rw [hw₁]
  -- The context is set first, and then the callback.
  have hfind : ∀ (ctx : SensorRef) id,
      ((w₁.space.setNodeContext (w.nodeIdOf d.browseName.chars) ctx).setValueCallback
          (w.nodeIdOf d.browseName.chars) .sensorWrite).find id
        = if id = w.nodeIdOf d.browseName.chars then
            some { w.variableNode d with
              vAttr := some
                { dataType := .boolean
                  value := .boolean false
                  context := some ctx
                  onWrite := some .sensorWrite } }
          else w.space.find id := by
    intro ctx id
    rw [AddressSpace.setValueCallback, AddressSpace.find_updateVariable,
      AddressSpace.setNodeContext, hspace, find_updateVariable_withVariable hfresh]
    by_cases hid : id = w.nodeIdOf d.browseName.chars
    · simp [hid, World.variableNode, hbool.1, initialValue]
    · simp [hid]
  rw [connectVariable, if_neg (by simp [hswitch]), if_pos hbool, addSimulatedSensor, hgrow,
    Option.map_some]
  refine created_of_find hfresh haccept hd ?_ ?_ ?_ ?_ (hfind _) hbool.1.symm ?_ ?_
  · rw [hw₁]
    rfl
  · rw [hw₁]
    rfl
  · rw [hw₁]
    rfl
  · refine (AddressSpace.ids_updateVariable _).trans ?_
    refine (AddressSpace.ids_updateVariable _).trans ?_
    show w₁.space.ids = _
    rw [hspace]
  · refine Wired.connected hsim ?_ ?_ ?_
    · simp [World.pushSensor, hsensors]
    · cases hgrown with
      | room hroom halloc hcap => exact .room hroom halloc hcap
      | extended hfull hr halloc hcap => exact .extended hfull hr halloc hcap
      | moved hfull hr halloc hcap => exact .moved hfull hr halloc hcap
    · simp [World.pushSensor, hsensors]
  · left
    rw [hw₁]
    exact ⟨rfl, rfl⟩

end Connected

/-- `create_variable` creates the node, or it refuses and changes nothing. The node is a
simulation switch, a simulated sensor with or without an element of the sensors array, or
a plain variable. -/
theorem createVariable_cases (hd : d.isVariable = true) :
    ((createVariable host d w).1 = .good ∧ Created host d w (createVariable host d w).2) ∨
    ((w.space.find (w.nodeIdOf d.browseName.chars) ≠ none ∨
        host.refuse d.browseName.chars ≠ none) ∧
      (createVariable host d w).1 ≠ .good ∧ (createVariable host d w).2 = w) := by
  rcases AddressSpace.addNode_cases w.space
      (host.refuse d.browseName.chars) (w.variableNode d) with
    ⟨hfresh, haccept, hadd⟩ | ⟨hreason, hbad⟩
  · left
    have hrun : createVariable host d w = (.good,
        connectVariable host d (w.nodeIdOf d.browseName.chars) (w.withVariable d)) := by
      simp only [createVariable, hadd, ne_eq, not_true_eq_false, if_false]
      rfl
    rw [hrun]
    refine ⟨rfl, ?_⟩
    show Created host d w
      (connectVariable host d (w.nodeIdOf d.browseName.chars) (w.withVariable d))
    cases hsim : d.isSimulated with
    | true =>
        -- A failed `realloc` leaves a simulated node without an entry, and GOOD all the same.
        cases hgrow : (w.withVariable d).growSensors host d.browseName.chars with
        | none => exact created_failed hfresh haccept hd hsim hgrow
        | some w₁ => exact created_sensor hfresh haccept hd hsim hgrow
    | false =>
        cases hswitch : d.isSimulationSwitch with
        | true => exact created_switch hfresh haccept hd hswitch
        | false =>
            refine created_plain hfresh haccept hd hswitch fun hbool => ?_
            rw [isSimulated_iff.mpr ⟨hd, hswitch, hbool⟩] at hsim
            cases hsim
  · right
    have hrun : createVariable host d w
        = ((w.space.addNode (host.refuse d.browseName.chars) (w.variableNode d)).2, w) := by
      simp only [createVariable, if_pos hbad]
    rw [hrun]
    exact ⟨hreason, hbad, rfl⟩

/-- A creation reports `good` after it created the node. Otherwise the server had a reason
to refuse it, and nothing changed. -/
theorem createNode_cases (host : Host) (w : World) (hd : d.isNode = true) :
    ((createNode host d w).1 = .good ∧ Created host d w (createNode host d w).2) ∨
    ((w.space.find (w.nodeIdOf d.browseName.chars) ≠ none ∨
        host.refuse d.browseName.chars ≠ none) ∧
      (createNode host d w).1 ≠ .good ∧ (createNode host d w).2 = w) := by
  by_cases hf : d.isFolder = true
  · simp only [createNode, hf, if_true]
    exact createFolder_cases hf
  · have hv : d.isVariable = true := by
      simpa [ServerNodeDef.isNode, hf] using hd
    simp only [createNode, hf]
    exact createVariable_cases hv

/-- A creation that reports `good` created the node. -/
theorem created_of_good (hd : d.isNode = true) (hgood : (createNode host d w).1 = .good) :
    Created host d w (createNode host d w).2 := by
  rcases createNode_cases host w hd with ⟨-, hc⟩ | ⟨-, hbad, -⟩
  · exact hc
  · exact absurd hgood hbad

/-! ### The simulation switch -/

/-- A new variable that the server takes is connected as it is. -/
theorem createNode_variable (hv : d.isVariable = true) (hgood : (createNode host d w).1 = .good) :
    w.space.find (w.nodeIdOf d.browseName.chars) = none ∧
      (createNode host d w).2
        = connectVariable host d (w.nodeIdOf d.browseName.chars) (w.withVariable d) := by
  have hc := created_of_good (by simp [ServerNodeDef.isNode, hv]) hgood
  refine ⟨hc.fresh, ?_⟩
  have hadd : w.space.addNode (host.refuse d.browseName.chars) (w.variableNode d)
      = (w.space ++ [w.variableNode d], .good) := by
    rcases AddressSpace.addNode_cases w.space (host.refuse d.browseName.chars)
        (w.variableNode d) with ⟨-, -, hadd⟩ | ⟨hlive | hrefused, -⟩
    · exact hadd
    · exact absurd hc.fresh hlive
    · exact absurd hc.accepted hrefused
  simp only [createNode, isFolder_of_isVariable hv, Bool.false_eq_true, if_false, createVariable,
    hadd, ne_eq, not_true_eq_false]
  rfl

/-- A new switch is remembered, holds the initial value of its data type, and calls
`simulation_enabled_write_callback`. -/
theorem createNode_switch (hv : d.isVariable = true) (hswitch : d.isSimulationSwitch = true)
    (hgood : (createNode host d w).1 = .good) :
    (createNode host d w).2.nm.simulationEnabledNodeId = some (w.nodeIdOf d.browseName.chars) ∧
      (createNode host d w).2.nm.simulationEnabled = true ∧
      ∃ n, (createNode host d w).2.space.find (w.nodeIdOf d.browseName.chars) = some n ∧
        n.vAttr = some
          { dataType := d.dataType
            value := initialValue d.dataType
            context := none
            onWrite := some .simulationEnabledWrite } := by
  obtain ⟨hfresh, hworld⟩ := createNode_variable hv hgood
  rw [hworld, connectVariable, if_pos hswitch]
  exact ⟨rfl, rfl, _, (find_updateVariable_withVariable hfresh _ _).trans (if_pos rfl), rfl⟩

/-- Any other new node leaves the switch and the flag alone, and it is no switch itself. -/
theorem createNode_other (hd : d.isNode = true)
    (hother : d.isVariable = true → d.isSimulationSwitch = false)
    (hgood : (createNode host d w).1 = .good) :
    (createNode host d w).2.nm.simulationEnabledNodeId = w.nm.simulationEnabledNodeId ∧
      (createNode host d w).2.nm.simulationEnabled = w.nm.simulationEnabled ∧
      ∀ n v, (createNode host d w).2.space.find (w.nodeIdOf d.browseName.chars) = some n →
        n.vAttr = some v → v.onWrite ≠ some .simulationEnabledWrite := by
  have hc := created_of_good hd hgood
  obtain ⟨n, hn, -, -, hdt, hwired⟩ := hc.self
  -- What the new node calls: for a sensor, `Wired` says it.
  have hcb : ∀ v, n.vAttr = some v → v.onWrite ≠ some .simulationEnabledWrite := by
    intro v hv
    cases hwired with
    | connected _ _ _ hself =>
        rw [hself, Option.some.injEq] at hv
        subst hv
        simp
    | failed _ _ _ _ _ _ hnone =>
        rw [hnone v hv]
        simp
    | plain hsim =>
        have hvar : d.isVariable = true := by
          by_contra hno
          have hf : d.isFolder = true := by simpa [ServerNodeDef.isNode, hno] using hd
          rw [hv, if_pos hf] at hdt
          cases hdt
        have hplain : ¬ (d.dataType = .boolean ∧ d.simulation = true) := fun hboth => by
          cases hsim.symm.trans (isSimulated_iff.mpr ⟨hvar, hother hvar, hboth⟩)
        obtain ⟨hfresh, hworld⟩ := createNode_variable hvar hgood
        rw [hworld, connectVariable, if_neg (by simp [hother hvar]), if_neg hplain,
          find_withVariable hfresh, if_pos rfl, Option.some.injEq] at hn
        subst hn
        rw [World.variableNode, Option.some.injEq] at hv
        subst hv
        simp
  refine ⟨?_, ?_, fun n' v hn' hv => ?_⟩
  · rcases hc.switch with ⟨hid, -⟩ | ⟨-, -, n', v, hn', hv, hswitch⟩
    · exact hid
    · obtain rfl := Option.some.inj (hn.symm.trans hn')
      exact absurd hswitch (hcb v hv)
  · rcases hc.switch with ⟨-, hflag⟩ | ⟨-, -, n', v, hn', hv, hswitch⟩
    · exact hflag
    · obtain rfl := Option.some.inj (hn.symm.trans hn')
      exact absurd hswitch (hcb v hv)
  · obtain rfl := Option.some.inj (hn.symm.trans hn')
    exact hcb v hv

end SmartFactory.Server
