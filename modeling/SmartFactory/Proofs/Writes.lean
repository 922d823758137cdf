import SmartFactory.Proofs.Soundness

/-!
# `SmartFactory.Proofs.Writes`: writes, callbacks and the simulation

A write to a node may run a callback, and the callback of the simulation switch writes to
the sensors again. None of this creates or deletes anything: `SameShape` says that two
worlds differ in values and flags only.

The first half proves that every operation of the simulation runs to its end without a
fault and keeps the shape, as long as the sensors fit the arrays on the stack. The second
half says exactly which values and flags the operations leave behind, for a world in which
every sensor node points at its own element of the sensors array (`ContextsOwn`).
-/

set_option autoImplicit false

namespace SmartFactory.Server

/-! ### Worlds of one shape -/

/-- The node without its value. -/
def UaNode.shape (n : UaNode) : UaNode :=
  { n with vAttr := n.vAttr.map (fun v => { v with value := .boolean false }) }

/-- The two worlds differ in the values of nodes, in the values and flags of the sensors
and in the simulation flag only. -/
structure SameShape (w w' : World) : Prop where
  nm : w'.nm = { w.nm with
    sensors := w'.nm.sensors
    simulationEnabled := w'.nm.simulationEnabled }
  sensors : w'.nm.sensors.map (fun st => (st.nodeId, st.browseName))
    = w.nm.sensors.map (fun st => (st.nodeId, st.browseName))
  map : w'.map = w.map
  file : w'.file = w.file
  space : w'.space.map UaNode.shape = w.space.map UaNode.shape

theorem SameShape.refl (w : World) : SameShape w w := ⟨rfl, rfl, rfl, rfl, rfl⟩

theorem SameShape.trans {w₁ w₂ w₃ : World} (h : SameShape w₁ w₂) (h' : SameShape w₂ w₃) :
    SameShape w₁ w₃ where
  nm := by
    rw [h'.nm, h.nm]
  sensors := h'.sensors.trans h.sensors
  map := h'.map.trans h.map
  file := h'.file.trans h.file
  space := h'.space.trans h.space

variable {w w' : World}

/-- The ids of the nodes. -/
theorem SameShape.ids (h : SameShape w w') : w'.space.ids = w.space.ids := by
  -- The ids are part of the shapes.
  have hids : ∀ space : AddressSpace,
      space.ids = (space.map UaNode.shape).map UaNode.nodeId := by
    intro space
    rw [List.map_map]
    rfl
  rw [hids, hids, h.space]

/-- A node is found in both worlds, with the same shape. -/
theorem SameShape.find (h : SameShape w w') (id : NodeId) :
    (w'.space.find id).map UaNode.shape = (w.space.find id).map UaNode.shape := by
  have hfind : ∀ space : AddressSpace, (space.find id).map UaNode.shape
      = (space.map UaNode.shape).find? (fun n => n.nodeId = id) := by
    intro space
    rw [List.find?_map]
    rfl
  rw [hfind, hfind, h.space]

/-- The attributes of a variable apart from its value. -/
theorem SameShape.find_some (h : SameShape w w') {id : NodeId} {n : UaNode}
    {v : UaVariable} (hn : w.space.find id = some n) (hv : n.vAttr = some v) :
    ∃ n' v', w'.space.find id = some n' ∧ n'.vAttr = some v' ∧ v'.dataType = v.dataType ∧
      v'.context = v.context ∧ v'.onWrite = v.onWrite ∧ n'.parent = n.parent ∧
      n'.displayName = n.displayName := by
  have hfind := h.find id
  rw [hn, Option.map_some] at hfind
  obtain ⟨n', hn', hshape⟩ := Option.map_eq_some_iff.mp hfind
  -- Two attributes that agree but for the value.
  have hattr : n'.vAttr.map (fun v => { v with value := Variant.boolean false })
      = n.vAttr.map (fun v => { v with value := Variant.boolean false }) :=
    congrArg UaNode.vAttr hshape
  rw [hv, Option.map_some] at hattr
  obtain ⟨v', hv', hsame⟩ := Option.map_eq_some_iff.mp hattr
  exact ⟨n', v', hn', hv', congrArg (fun v => v.dataType) hsame,
    congrArg (fun v => v.context) hsame, congrArg (fun v => v.onWrite) hsame,
    congrArg (fun n => n.parent) hshape, congrArg (fun n => n.displayName) hshape⟩

theorem SameShape.symm (h : SameShape w w') : SameShape w' w where
  nm := by
    rw [h.nm]
  sensors := h.sensors.symm
  map := h.map.symm
  file := h.file.symm
  space := h.space.symm

/-- Being a sensor node does not depend on the value. -/
theorem SameShape.sensorNode (h : SameShape w w') {id : NodeId}
    (hid : SensorNode w.space id) : SensorNode w'.space id := by
  obtain ⟨n, v, hn, hv, hdt, hcb⟩ := hid
  obtain ⟨n', v', hn', hv', hdt', -, hcb', -⟩ := h.find_some hn hv
  exact ⟨n', v', hn', hv', hdt'.trans hdt, hcb'.trans hcb⟩

/-- The number of sensors. -/
theorem SameShape.length_sensors (h : SameShape w w') :
    w'.nm.sensors.length = w.nm.sensors.length := by
  simpa using congrArg List.length h.sensors

/-- The ids of the sensors. -/
theorem SameShape.sensor_ids (h : SameShape w w') :
    w'.nm.sensors.map SimulatedSensor.nodeId = w.nm.sensors.map SimulatedSensor.nodeId := by
  have hids := congrArg (List.map Prod.fst) h.sensors
  rw [List.map_map, List.map_map] at hids
  exact hids

/-- The sensors have the same ids and names in both worlds. -/
theorem SameShape.mem_sensors (h : SameShape w w') {st : SimulatedSensor}
    (hst : st ∈ w'.nm.sensors) :
    ∃ st₀ ∈ w.nm.sensors, st₀.nodeId = st.nodeId ∧ st₀.browseName = st.browseName := by
  have hmem : (st.nodeId, st.browseName)
      ∈ w.nm.sensors.map (fun st => (st.nodeId, st.browseName)) := by
    rw [← h.sensors]
    exact List.mem_map.mpr ⟨st, hst, rfl⟩
  obtain ⟨st₀, hst₀, heq⟩ := List.mem_map.mp hmem
  rw [Prod.mk.injEq] at heq
  exact ⟨st₀, hst₀, heq⟩

/-- A world of the same shape as a sound one is sound. -/
theorem SameShape.sound (h : SameShape w w') (hw : Sound w) : Sound w' := by
  have hns : w'.nm.nsIdx = w.nm.nsIdx := by rw [h.nm]
  -- Each clause speaks of names and ids only, and these are the same.
  have hid : ∀ b, w'.nodeIdOf b = w.nodeIdOf b := nodeIdOf_congr hns
  have hnames : w'.nm.sensors.map (fun st => st.browseName.chars)
      = w.nm.sensors.map (fun st => st.browseName.chars) := by
    have h' := congrArg (List.map (fun p : NodeId × CharBuf _ => p.2.chars)) h.sensors
    rw [List.map_map, List.map_map] at h'
    exact h'
  exact
    { mutex := by rw [h.nm]; exact hw.mutex
      ids_nodup := by rw [h.ids]; exact hw.ids_nodup
      ids_string := by
        intro id hmem
        rw [h.ids] at hmem
        obtain ⟨b, hb⟩ := hw.ids_string id hmem
        exact ⟨b, hb.trans (hid b).symm⟩
      map_id := by
        intro e he
        rw [hid]
        exact hw.map_id e (h.map ▸ he)
      map_live := by
        intro e he
        rw [h.ids]
        exact hw.map_live e (h.map ▸ he)
      map_nodup := by rw [h.map]; exact hw.map_nodup
      sensor_id := by
        intro st hst
        obtain ⟨st₀, hst₀, hsid, hname⟩ := h.mem_sensors hst
        rw [hid, ← hsid, ← hname]
        exact hw.sensor_id st₀ hst₀
      sensor_live := by
        intro st hst
        obtain ⟨st₀, hst₀, hsid, -⟩ := h.mem_sensors hst
        exact h.sensorNode (hsid ▸ hw.sensor_live st₀ hst₀)
      sensors_nodup := by rw [hnames]; exact hw.sensors_nodup }

/-! ### Elementary changes -/

/-- A stored value keeps the shape. -/
theorem sameShape_storeValue (w : World) (id : NodeId) (v : Variant) :
    SameShape w (w.storeValue id v) where
  nm := rfl
  sensors := rfl
  map := rfl
  file := rfl
  space := by
    show (w.space.updateVariable id _).map UaNode.shape = _
    rw [AddressSpace.updateVariable, List.map_map]
    refine List.map_congr_left fun n _ => ?_
    simp only [Function.comp_apply]
    split
    · simp only [UaNode.shape, Option.map_map]
      rfl
    · rfl

/-- New values and flags of the sensors keep the shape. -/
theorem sameShape_sensors {sensors : List SimulatedSensor} (enabled : Bool)
    (h : sensors.map (fun st => (st.nodeId, st.browseName))
      = w.nm.sensors.map (fun st => (st.nodeId, st.browseName))) :
    SameShape w { w with nm := { w.nm with
      sensors := sensors
      simulationEnabled := enabled } } :=
  ⟨rfl, h, rfl, rfl, rfl⟩

/-- Changing one element of a list keeps what the change does not touch. -/
theorem map_modify_of_eq {α β : Type*} (g : α → β) (f : α → α) (h : ∀ a, g (f a) = g a)
    (l : List α) (i : Nat) : (l.modify i f).map g = l.map g := by
  induction l generalizing i with
  | nil => simp
  | cons a rest ih =>
      cases i with
      | zero => simp [h]
      | succ i => simp [ih]

/-- `sensor_write_callback` as a change of the world, for a context that is an address in the array
as it is now. -/
def World.sensorWritten (w : World) (context : Option SensorRef) (b : Bool) : World :=
  match context with
  | some ref =>
      { w with nm := { w.nm with
        sensors := w.nm.sensors.modify ref.index
          fun st => { st with value := b, overridden := true } } }
  | none => w

/-- A write through a context keeps the shape. -/
theorem sameShape_sensorWritten (context : Option SensorRef) (b : Bool) :
    SameShape w (w.sensorWritten context b) := by
  cases context with
  | none => exact SameShape.refl w
  | some ref =>
      exact sameShape_sensors w.nm.simulationEnabled (map_modify_of_eq _
        (fun st : SimulatedSensor => { st with value := b, overridden := true })
        (fun _ => rfl) _ _)

/-- A write through a context leaves the simulation flag. -/
@[simp] theorem sensorWritten_enabled (context : Option SensorRef) (b : Bool) :
    (w.sensorWritten context b).nm.simulationEnabled = w.nm.simulationEnabled := by
  cases context <;> rfl

/-! ### Stale contexts -/

/-- The context of a node. -/
def AddressSpace.contextOf (space : AddressSpace) (id : NodeId) : Option SensorRef :=
  (space.find id).bind fun n => n.vAttr.bind UaVariable.context

theorem contextOf_of_find {n : UaNode} {v : UaVariable} {space : AddressSpace} {id : NodeId}
    (hn : space.find id = some n) (hv : n.vAttr = some v) : space.contextOf id = v.context := by
  rw [AddressSpace.contextOf, hn, Option.bind_some, hv, Option.bind_some]

/-- The context of the node is no address in an earlier allocation of the sensors array. -/
def World.Current (w : World) (id : NodeId) : Prop :=
  ∀ ref ∈ w.space.contextOf id, ref.alloc = w.nm.sensorsAlloc

instance decidableCurrent (w : World) (id : NodeId) : Decidable (w.Current id) :=
  inferInstanceAs (Decidable (∀ ref ∈ w.space.contextOf id, ref.alloc = w.nm.sensorsAlloc))

/-- Contexts belong to the shape. -/
theorem SameShape.contextOf (h : SameShape w w') (id : NodeId) :
    w'.space.contextOf id = w.space.contextOf id := by
  have hmap : ∀ n : UaNode, n.vAttr.bind UaVariable.context
      = n.shape.vAttr.bind UaVariable.context := by
    rintro ⟨nodeId, parent, displayName, vAttr⟩
    cases vAttr <;> rfl
  have hshape : ∀ space : AddressSpace, space.contextOf id
      = ((space.find id).map UaNode.shape).bind fun n => n.vAttr.bind UaVariable.context := by
    intro space
    rw [AddressSpace.contextOf, Option.bind_map]
    congr 1
    funext n
    exact hmap n
  rw [hshape, hshape, h.find]

theorem SameShape.current (h : SameShape w w') {id : NodeId} : w'.Current id ↔ w.Current id := by
  have halloc : w'.nm.sensorsAlloc = w.nm.sensorsAlloc := by rw [h.nm]
  rw [World.Current, World.Current, h.contextOf, halloc]

theorem SameShape.forall_current (h : SameShape w w') (ids : List NodeId) :
    (∀ id ∈ ids, w'.Current id) ↔ ∀ id ∈ ids, w.Current id :=
  forall₂_congr fun _ _ => h.current

/-- The operation stores through the contexts of the nodes `ids`. When they are all current it
returns, and `Q` holds of what it returns. Otherwise it stores into freed memory. -/
structure Through {α : Type} (ids : List NodeId) (x : M α) (w : World) (Q : α → World → Prop) :
    Prop where
  returns : (∀ id ∈ ids, w.Current id) → ∃ a w', x.run w = .ok (a, w') ∧ Q a w'
  faults : (¬ ∀ id ∈ ids, w.Current id) → x.run w = .error .useAfterFree

section Through

variable {α β : Type} {x : M α} {f : α → M β} {ids ids' : List NodeId}
variable {Q Q' : α → World → Prop} {R : β → World → Prop}

/-- An operation that stores through no context. -/
theorem Through.of_run {a : α} (hrun : x.run w = .ok (a, w')) (hQ : Q a w') :
    Through [] x w Q :=
  ⟨fun _ => ⟨a, w', hrun, hQ⟩, fun h => absurd (List.forall_mem_nil _) h⟩

/-- What holds of an operation that has returned. -/
theorem Through.of_ok (h : Through ids x w Q) {a : α} (hrun : x.run w = .ok (a, w')) : Q a w' := by
  by_cases hids : ∀ id ∈ ids, w.Current id
  · obtain ⟨a', w₁, hrun', hQ⟩ := h.returns hids
    obtain ⟨rfl, rfl⟩ := run_unique hrun' hrun
    exact hQ
  · cases (h.faults hids).symm.trans hrun

theorem Through.mono (h : Through ids x w Q) (hQ : ∀ a w', Q a w' → Q' a w') :
    Through ids x w Q' :=
  ⟨fun hids =>
    have ⟨a, w', hrun, hq⟩ := h.returns hids
    ⟨a, w', hrun, hQ a w' hq⟩, h.faults⟩

theorem Through.congr (h : Through ids x w Q) (hids : ∀ id, id ∈ ids ↔ id ∈ ids') :
    Through ids' x w Q := by
  have hall : (∀ id ∈ ids', w.Current id) ↔ ∀ id ∈ ids, w.Current id := by
    simp only [hids]
  exact ⟨fun hcurrent => h.returns (hall.mp hcurrent), fun hstale => h.faults (hall.not.mp hstale)⟩

/-- One operation after the other. The first one keeps the contexts. -/
theorem Through.bind (h : Through ids x w Q)
    (hf : ∀ a w₁, Q a w₁ → SameShape w w₁ ∧ Through ids' (f a) w₁ R) :
    Through (ids ++ ids') (x >>= f) w R := by
  constructor
  · intro hids
    obtain ⟨a, w₁, hrun, hQ⟩ := h.returns fun id hid => hids id (List.mem_append_left _ hid)
    obtain ⟨hshape, hnext⟩ := hf a w₁ hQ
    obtain ⟨b, w', hrun', hR⟩ := hnext.returns fun id hid =>
      hshape.current.mpr (hids id (List.mem_append_right _ hid))
    exact ⟨b, w', (run_bind_ok hrun).trans hrun', hR⟩
  · intro hstale
    -- The fault is in the second operation, or in the first one already.
    by_cases hids : ∀ id ∈ ids, w.Current id
    · obtain ⟨a, w₁, hrun, hQ⟩ := h.returns hids
      obtain ⟨hshape, hnext⟩ := hf a w₁ hQ
      refine (run_bind_ok hrun).trans (hnext.faults fun hids' => hstale fun id hid => ?_)
      rcases List.mem_append.mp hid with hid | hid
      · exact hids id hid
      · exact hshape.current.mp (hids' id hid)
    · exact run_bind_error (h.faults hids)

/-- An operation that goes on as another one does in a world of the same shape. -/
theorem Through.of_eq {y : M α} {w₁ : World} (hshape : SameShape w w₁)
    (hrun : x.run w = y.run w₁) (h : Through ids y w₁ Q) : Through ids x w Q := by
  have hcurrent := hshape.forall_current ids
  exact ⟨fun hids => hrun ▸ h.returns (hcurrent.mpr hids),
    fun hids => hrun.trans (h.faults (hcurrent.not.mpr hids))⟩

/-- An operation after one that stores through no context. -/
theorem Through.after {a : α} {w₁ : World} (hrun : x.run w = .ok (a, w₁)) (hshape : SameShape w w₁)
    (h : Through ids (f a) w₁ R) : Through ids (x >>= f) w R :=
  .of_eq hshape (run_bind_ok hrun) h

/-- An operation that returns something else. -/
theorem Through.andReturn {P : World → Prop} {b : β} (h : Through ids x w fun _ => P) :
    Through ids (x >>= fun _ => pure b) w fun _ => P := by
  refine ⟨fun hids => ?_, fun hstale => run_bind_error (h.faults hstale)⟩
  obtain ⟨a, w', hrun, hP⟩ := h.returns hids
  exact ⟨b, w', run_bind_ok hrun, hP⟩

/-- Dropping the result of an operation. -/
theorem Through.discard (h : Through ids x w Q) :
    Through ids (discard x) w fun _ w' => ∃ a, Q a w' := by
  refine ⟨fun hids => ?_, fun hstale => run_bind_error (f := fun _ => pure ()) (h.faults hstale)⟩
  obtain ⟨a, w', hrun, hQ⟩ := h.returns hids
  exact ⟨(), w', run_bind_ok (f := fun _ => pure ()) hrun, a, hQ⟩

end Through

/-- `sensor_write_callback`, when the mutex is free. -/
theorem sensorWriteCallback_through (hm : w.nm.mutexHeld = false) (id : NodeId) {v : Variant}
    {b : Bool} (hread : v.readBoolean = some (.ok b)) :
    Through [id] (sensorWriteCallback (w.space.contextOf id) v) w
      fun _ w' => w' = w.sensorWritten (w.space.contextOf id) b := by
  cases hcontext : w.space.contextOf id with
  | none =>
      have hids : ∀ id' ∈ [id], w.Current id' := by
        intro id' hid' ref href
        obtain rfl := List.mem_singleton.mp hid'
        cases hcontext.symm.trans href
      exact ⟨fun _ => ⟨(), w, rfl, rfl⟩, fun hstale => absurd hids hstale⟩
  | some ref =>
      have hcurrent : (∀ id' ∈ [id], w.Current id') ↔
          ref.alloc = (w.setMutex true).nm.sensorsAlloc := by
        rw [List.forall_mem_singleton, World.Current, hcontext]
        simp [World.setMutex]
      have hcallback : (sensorWriteCallback (some ref) v).run w =
          ((w.setMutex true).updateSensor ref
            (fun st => { st with value := b, overridden := true })).map
              fun w₁ => ((), w₁.setMutex false) := by
        simp only [sensorWriteCallback, hread]
        rw [run_bind_ok (lock_run hm), run_ok_bind, run_get_bind, run_lift_bind]
        cases (w.setMutex true).updateSensor ref _ <;> rfl
      constructor
      · intro hids
        refine ⟨(), w.sensorWritten (some ref) b, ?_, rfl⟩
        rw [hcallback, World.updateSensor, if_pos (hcurrent.mp hids)]
        -- The mutex was free before, so taking and releasing it leaves no trace.
        exact congrArg (fun w' => Except.ok ((), w'))
          (setMutex_of_eq (w := w.sensorWritten (some ref) b) hm)
      · intro hstale
        rw [hcallback, World.updateSensor, if_neg fun h => hstale (hcurrent.mpr h)]
        rfl

/-- A write that is no Boolean does not get past the test of the callback. -/
theorem sensorWriteCallback_ignored (context : Option SensorRef) {v : Variant}
    (hread : v.readBoolean = none) : (sensorWriteCallback context v).run w = .ok ((), w) := by
  cases context <;> simp only [sensorWriteCallback, hread] <;> rfl

/-! ### Writing to a sensor node -/

/-- Dropping the result of an operation. -/
theorem discard_run {α : Type} {x : M α} {a : α} (h : x.run w = .ok (a, w')) :
    (discard x).run w = .ok ((), w') := by
  show (Functor.map _ x).run w = _
  rw [StateT.run_map, h]
  rfl

/-- An operation whose result is dropped ran through. -/
theorem ok_of_discard {α : Type} {x : M α} (h : (discard x).run w = .ok ((), w')) :
    ∃ a, x.run w = .ok (a, w') := by
  obtain ⟨a, w₁, hrun, hret⟩ := ok_of_run_bind (x := x) (f := fun _ => pure ()) h
  obtain ⟨-, rfl⟩ := ok_of_run_return hret
  exact ⟨a, hrun⟩

/-- The `onWrite` callback of a node. -/
def runCallback (write : NodeId → Variant → M StatusCode) (vAttr : UaVariable)
    (v : Variant) : M Unit :=
  match vAttr.onWrite with
  | none => pure ()
  | some .sensorWrite => sensorWriteCallback vAttr.context v
  | some .simulationEnabledWrite => simulationEnabledWriteCallback write v

/-- A write that the server takes stores the value and runs the callback. -/
theorem writeValue_run (depth : Nat) {id : NodeId} {n : UaNode} {vAttr : UaVariable} {v : Variant}
    (hn : w.space.find id = some n) (hv : n.vAttr = some vAttr)
    (htake : v.storable vAttr.dataType = true) :
    (writeValue (depth + 1) id v).run w =
      ((runCallback (writeValue depth) vAttr v).run (w.storeValue id v)).map
        fun r => (.good, r.2) := by
  rw [writeValue, run_get_bind]
  simp only [hn, hv, htake, Bool.not_true, Bool.false_eq_true, if_false]
  rw [run_modify_bind]
  -- The three branches of the write are the three branches of `runCallback`.
  simp only [runCallback]
  cases hcb : vAttr.onWrite with
  | none => rfl
  | some callback =>
      cases callback with
      | sensorWrite =>
          show StateT.run (sensorWriteCallback vAttr.context v >>= _) _ = _
          rw [StateT.run_bind]
          cases (sensorWriteCallback vAttr.context v).run (w.storeValue id v) <;> rfl
      | simulationEnabledWrite =>
          show StateT.run (simulationEnabledWriteCallback (writeValue depth) v >>= _) _ = _
          rw [StateT.run_bind]
          cases (simulationEnabledWriteCallback (writeValue depth) v).run (w.storeValue id v) <;>
            rfl

/-- The callback of a write that returns has returned. -/
theorem writeValue_stored (depth : Nat) {id : NodeId} {n : UaNode} {vAttr : UaVariable}
    {v : Variant} (hn : w.space.find id = some n) (hv : n.vAttr = some vAttr)
    (htake : v.storable vAttr.dataType = true)
    (h : (runCallback (writeValue depth) vAttr v).run (w.storeValue id v) = .ok ((), w')) :
    (writeValue (depth + 1) id v).run w = .ok (.good, w') := by
  rw [writeValue_run depth hn hv htake, h]
  rfl

/-- A fault of the callback is a fault of the write. -/
theorem writeValue_fault (depth : Nat) {id : NodeId} {n : UaNode} {vAttr : UaVariable}
    {v : Variant} {fault : Fault} (hn : w.space.find id = some n) (hv : n.vAttr = some vAttr)
    (htake : v.storable vAttr.dataType = true)
    (h : (runCallback (writeValue depth) vAttr v).run (w.storeValue id v) = .error fault) :
    (writeValue (depth + 1) id v).run w = .error fault := by
  rw [writeValue_run depth hn hv htake, h]
  rfl

/-- Any other write changes nothing. -/
theorem writeValue_rejected (depth : Nat) {id : NodeId} {v : Variant}
    (h : ∀ n vAttr, w.space.find id = some n → n.vAttr = some vAttr →
      v.storable vAttr.dataType = false) :
    ∃ rc, rc ≠ .good ∧ (writeValue (depth + 1) id v).run w = .ok (rc, w) := by
  rw [writeValue, run_get_bind]
  cases hn : w.space.find id with
  | none => exact ⟨.badNodeIdUnknown, nofun, rfl⟩
  | some n =>
      cases hv : n.vAttr with
      | none =>
          simp only [hv]
          exact ⟨.badNodeClassInvalid, nofun, rfl⟩
      | some vAttr =>
          simp only [hv, h n vAttr hn hv, Bool.not_false, if_true]
          exact ⟨.badTypeMismatch, nofun, rfl⟩

/-- The server takes a write, or it does not. -/
theorem taken_or_rejected (w : World) (id : NodeId) (v : Variant) :
    (∃ n vAttr, w.space.find id = some n ∧ n.vAttr = some vAttr ∧
      v.storable vAttr.dataType = true) ∨
    ∀ n vAttr, w.space.find id = some n → n.vAttr = some vAttr →
      v.storable vAttr.dataType = false := by
  by_cases h : ∃ n vAttr, w.space.find id = some n ∧ n.vAttr = some vAttr ∧
      v.storable vAttr.dataType = true
  · exact .inl h
  · refine .inr fun n vAttr hn hv => Bool.eq_false_iff.mpr fun htake => h ?_
    exact ⟨n, vAttr, hn, hv, htake⟩

/-- A scalar is stored when it has the data type of the node. -/
@[simp] theorem storable_scalar {v : Scalar} {dataType : ServerDataType} :
    (Variant.scalar v).storable dataType = true ↔ v.dataType = dataType := by
  simp [Variant.storable]

/-- A Boolean is stored in Boolean nodes. -/
theorem storable_boolean {b : Bool} {dataType : ServerDataType} :
    (Variant.boolean b).storable dataType = true ↔ dataType = .boolean :=
  storable_scalar.trans eq_comm

/-- What a callback reads as a Boolean is stored in Boolean nodes. -/
theorem storable_of_readBoolean {v : Variant} {read : Except Fault Bool}
    (h : v.readBoolean = some read) (dataType : ServerDataType) :
    v.storable dataType = true ↔ dataType = .boolean := by
  cases v with
  | empty => cases h
  | scalar v =>
      cases v with
      | boolean b => exact storable_boolean
      | _ => cases h
  | array vs =>
      cases vs with
      | boolean bs => cases dataType <;> simp [Variant.storable, Elements.dataType]
      | _ => cases h

/-- A taken write goes through the contexts that its callback goes through. -/
theorem Through.write (depth : Nat) {ids : List NodeId} {id : NodeId} {n : UaNode}
    {vAttr : UaVariable} {v : Variant} {Q : World → Prop} (hn : w.space.find id = some n)
    (hv : n.vAttr = some vAttr) (htake : v.storable vAttr.dataType = true)
    (h : Through ids (runCallback (writeValue depth) vAttr v) (w.storeValue id v) fun _ => Q) :
    Through ids (writeValue (depth + 1) id v) w fun rc w' => rc = .good ∧ Q w' := by
  have hids : (∀ id' ∈ ids, (w.storeValue id v).Current id') ↔ ∀ id' ∈ ids, w.Current id' :=
    (sameShape_storeValue w id v).forall_current ids
  constructor
  · intro hcurrent
    obtain ⟨_, w', hrun, hQ⟩ := h.returns (hids.mpr hcurrent)
    exact ⟨.good, w', writeValue_stored depth hn hv htake hrun, rfl, hQ⟩
  · intro hstale
    exact writeValue_fault depth hn hv htake (h.faults (hids.not.mpr hstale))

/-- The world after a write of a Boolean to the node of a sensor. -/
def World.sensorNodeWritten (b : Bool) (w : World) (id : NodeId) : World :=
  (w.storeValue id (.boolean b)).sensorWritten (w.space.contextOf id) b

theorem sameShape_sensorNodeWritten (w : World) (id : NodeId) (b : Bool) :
    SameShape w (w.sensorNodeWritten b id) :=
  (sameShape_storeValue w id _).trans (sameShape_sensorWritten _ _)

/-- A write to a sensor node stores the value and runs `sensor_write_callback`. -/
theorem writeValue_sensor (depth : Nat) {id : NodeId} (hm : w.nm.mutexHeld = false)
    (hid : SensorNode w.space id) (b : Bool) :
    Through [id] (writeValue (depth + 1) id (.boolean b)) w
      fun rc w' => rc = .good ∧ w' = w.sensorNodeWritten b id := by
  obtain ⟨n, v, hn, hv, hdt, hcb⟩ := hid
  have hcontext := contextOf_of_find hn hv
  have hstored := (sameShape_storeValue w id (.boolean b)).contextOf id
  refine Through.write depth hn hv (storable_boolean.mpr hdt) ?_
  simp only [runCallback, hcb, World.sensorNodeWritten]
  rw [← hcontext, ← hstored]
  exact sensorWriteCallback_through (w := w.storeValue id (.boolean b)) hm id rfl

/-- The world after a list of writes to sensor nodes. -/
def World.sensorNodesWritten (w : World) (writes : List (NodeId × Bool)) : World :=
  writes.foldl (fun w p => w.sensorNodeWritten p.2 p.1) w

theorem sameShape_sensorNodesWritten (w : World) (writes : List (NodeId × Bool)) :
    SameShape w (w.sensorNodesWritten writes) := by
  induction writes generalizing w with
  | nil => exact SameShape.refl w
  | cons p rest ih => exact (sameShape_sensorNodeWritten w p.1 p.2).trans (ih _)

/-- What each write keeps. -/
theorem sensorNodesWritten_keeps {P : World → Prop} {writes : List (NodeId × Bool)}
    (keep : ∀ w₁, ∀ p ∈ writes, P w₁ → P (w₁.sensorNodeWritten p.2 p.1)) (hP : P w) :
    P (w.sensorNodesWritten writes) := by
  induction writes generalizing w with
  | nil => exact hP
  | cons p rest ih =>
      exact ih (fun w₁ q hq => keep w₁ q (List.mem_cons_of_mem _ hq))
        (keep w p (List.mem_cons_self ..) hP)

/-- A list of writes to sensor nodes, at any depth. -/
theorem writeAll_through (depth : Nat) {writes : List (NodeId × Bool)} (hw : Sound w)
    (h : ∀ p ∈ writes, SensorNode w.space p.1) :
    Through (writes.map Prod.fst) (writeAll (writeValue (depth + 1)) writes) w
      fun _ w' => w' = w.sensorNodesWritten writes := by
  -- Each write keeps the shape, so the rest of the list still goes to sensor nodes.
  induction writes generalizing w with
  | nil => exact .of_run rfl rfl
  | cons p rest ih =>
      have hfirst := writeValue_sensor depth hw.mutex (h p (List.mem_cons_self ..)) p.2
      refine hfirst.discard.bind fun _ w₁ hw₁ => ?_
      obtain ⟨_, -, rfl⟩ := hw₁
      have hshape := sameShape_sensorNodeWritten w p.1 p.2
      exact ⟨hshape, ih (hshape.sound hw)
        fun q hq => hshape.sensorNode (h q (List.mem_cons_of_mem _ hq))⟩

/-- It keeps the shape, and it keeps what each of its writes keeps. -/
theorem writeAll_keeps (depth : Nat) {P : World → Prop} {writes : List (NodeId × Bool)}
    (hw : Sound w) (h : ∀ p ∈ writes, SensorNode w.space p.1)
    (keep : ∀ w₁, ∀ p ∈ writes, P w₁ → P (w₁.sensorNodeWritten p.2 p.1)) (hP : P w) :
    Through (writes.map Prod.fst) (writeAll (writeValue (depth + 1)) writes) w
      fun _ w' => SameShape w w' ∧ P w' := by
  refine (writeAll_through depth hw h).mono ?_
  rintro _ _ rfl
  exact ⟨sameShape_sensorNodesWritten w writes, sensorNodesWritten_keeps keep hP⟩

/-- A list of writes to sensor nodes keeps the shape and the flag. -/
theorem writeAll_shape (depth : Nat) {writes : List (NodeId × Bool)} (hw : Sound w)
    (h : ∀ p ∈ writes, SensorNode w.space p.1) :
    Through (writes.map Prod.fst) (writeAll (writeValue (depth + 1)) writes) w
      fun _ w' => SameShape w w' ∧ w'.nm.simulationEnabled = w.nm.simulationEnabled :=
  writeAll_keeps depth hw h (fun _ _ _ hP => (sensorWritten_enabled _ _).trans hP) rfl

/-! ### The locked loops -/

/-- The loop of the switch, with the array filled so far. When the ids do not fit it stores past the
end. -/
theorem switchLoop_run (enabled : Bool) (sensors : List SimulatedSensor) {ids : List NodeId}
    (h : ids.length ≤ serverMaxNodes) :
    switchLoop enabled sensors ids
      = if ids.length + sensors.length ≤ serverMaxNodes then
          .ok (sensors.map (fun st => st.switched enabled),
            ids ++ sensors.map SimulatedSensor.nodeId)
        else .error .arrayOverflow := by
  induction sensors generalizing ids with
  | nil =>
      rw [if_pos (by simpa using h)]
      simp [switchLoop]
  | cons st rest ih =>
      rw [switchLoop, storeNext, List.length_cons]
      split
      · -- The array grows by one and the list gets shorter by one.
        have hlen : (ids ++ [st.nodeId]).length = ids.length + 1 := by simp
        show (switchLoop enabled rest (ids ++ [st.nodeId]) >>= _) = _
        rw [ih (by omega), hlen, Nat.add_assoc, Nat.add_comm 1]
        split
        · rw [List.append_assoc]
          rfl
        · rfl
      · rw [if_neg (by omega)]
        rfl

/-- A sensor after the loop of a tick. -/
def SimulatedSensor.ticked (st : SimulatedSensor) : SimulatedSensor :=
  if st.overridden then st else { st with value := !st.value }

/-- The writes of a tick. -/
def tickWrites (sensors : List SimulatedSensor) : List (NodeId × Bool) :=
  (sensors.filter (fun st => !st.overridden)).map (fun st => (st.nodeId, !st.value))

/-- The loop of a tick, with the arrays filled so far. -/
theorem tickLoop_run (sensors : List SimulatedSensor) {writes : List (NodeId × Bool)}
    (h : writes.length ≤ serverMaxNodes) :
    tickLoop sensors writes
      = if writes.length + (tickWrites sensors).length ≤ serverMaxNodes then
          .ok (sensors.map SimulatedSensor.ticked, writes ++ tickWrites sensors)
        else .error .arrayOverflow := by
  induction sensors generalizing writes with
  | nil =>
      rw [if_pos (by simpa [tickWrites] using h)]
      simp [tickLoop, tickWrites]
  | cons st rest ih =>
      -- An overridden sensor uses no element of the arrays.
      cases ho : st.overridden with
      | true =>
          have hwrites : tickWrites (st :: rest) = tickWrites rest := by simp [tickWrites, ho]
          rw [tickLoop, if_pos ho, ih h, hwrites]
          split
          · simp only [List.map_cons, SimulatedSensor.ticked, ho, if_true]
            rfl
          · rfl
      | false =>
          have hwrites : tickWrites (st :: rest) = (st.nodeId, !st.value) :: tickWrites rest := by
            simp [tickWrites, ho]
          rw [tickLoop, if_neg (by simp [ho]), storeNext, hwrites, List.length_cons]
          split
          · rename_i hroom
            have hlen : (writes ++ [(st.nodeId, !st.value)]).length = writes.length + 1 := by simp
            show (tickLoop rest (writes ++ [(st.nodeId, !st.value)]) >>= _) = _
            rw [ih (by omega), hlen, Nat.add_assoc, Nat.add_comm 1]
            split
            · simp only [List.map_cons, SimulatedSensor.ticked, ho, Bool.false_eq_true, if_false,
                List.append_assoc, List.singleton_append]
              rfl
            · rfl
          · rw [if_neg (by omega)]
            rfl

/-- There is at most one write for each sensor. -/
theorem length_tickWrites_le (sensors : List SimulatedSensor) :
    (tickWrites sensors).length ≤ sensors.length := by
  rw [tickWrites, List.length_map]
  exact List.length_filter_le _ _

/-- The parts of a sequence that ran through. -/
theorem ok_of_bind {α β : Type} {x : Except Fault α} {f : α → Except Fault β} {b : β}
    (h : x >>= f = .ok b) : ∃ a, x = .ok a ∧ f a = .ok b := by
  cases x with
  | error e => cases h
  | ok a => exact ⟨a, rfl, h⟩

/-- Switching keeps the ids and names of the sensors. -/
theorem map_switched (enabled : Bool) (sensors : List SimulatedSensor) :
    (sensors.map (fun st => st.switched enabled)).map (fun st => (st.nodeId, st.browseName))
      = sensors.map (fun st => (st.nodeId, st.browseName)) := by
  rw [List.map_map]
  refine List.map_congr_left fun st _ => ?_
  simp only [Function.comp_apply, SimulatedSensor.switched]
  split <;> rfl

/-- A tick keeps the ids and names of the sensors. -/
theorem map_ticked (sensors : List SimulatedSensor) :
    (sensors.map SimulatedSensor.ticked).map (fun st => (st.nodeId, st.browseName))
      = sensors.map (fun st => (st.nodeId, st.browseName)) := by
  rw [List.map_map]
  refine List.map_congr_left fun st _ => ?_
  simp only [Function.comp_apply, SimulatedSensor.ticked]
  split <;> rfl

/-- The world after the locked section of a switch. -/
def World.switched (w : World) (enabled : Bool) : World :=
  { w with nm := { w.nm with
    sensors := w.nm.sensors.map (fun st => st.switched enabled)
    simulationEnabled := enabled } }

theorem sameShape_switched (w : World) (enabled : Bool) : SameShape w (w.switched enabled) :=
  sameShape_sensors enabled (map_switched enabled w.nm.sensors)

/-- The locked section of a switch. -/
theorem switchSection_eq (hm : w.nm.mutexHeld = false) (enabled : Bool) :
    (switchSection enabled).run w
      = if w.nm.sensors.length ≤ serverMaxNodes then
          .ok ((w.nm.simulationEnabledNodeId, w.nm.sensors.map SimulatedSensor.nodeId),
            w.switched enabled)
        else .error .arrayOverflow := by
  have hempty : ([] : List NodeId).length ≤ serverMaxNodes := Nat.zero_le _
  have hloop := switchLoop_run enabled w.nm.sensors hempty
  rw [List.length_nil, Nat.zero_add, List.nil_append] at hloop
  rw [switchSection, run_bind_ok (lock_run hm), run_modify_bind, run_get_bind, run_get_bind]
  show ((liftM (switchLoop enabled w.nm.sensors []) >>= _ : M _).run _) = _
  rw [hloop]
  split
  · show Except.ok _ = Except.ok _
    -- The mutex was free before, so taking and releasing it leaves no trace.
    refine congrArg (fun w' => Except.ok (_, w')) ?_
    exact setMutex_of_eq (w := w.switched enabled) hm
  · rfl

/-- It returns when the ids of the sensors fit its array. -/
theorem switchSection_run (hm : w.nm.mutexHeld = false)
    (hfit : w.nm.sensors.length ≤ serverMaxNodes) (enabled : Bool) :
    (switchSection enabled).run w
      = .ok ((w.nm.simulationEnabledNodeId, w.nm.sensors.map SimulatedSensor.nodeId),
          w.switched enabled) := by
  rw [switchSection_eq hm, if_pos hfit]

/-- It stores past the end of its array when there are too many sensors. -/
theorem switchSection_overflow (hm : w.nm.mutexHeld = false)
    (h : serverMaxNodes < w.nm.sensors.length) (enabled : Bool) :
    (switchSection enabled).run w = .error .arrayOverflow := by
  rw [switchSection_eq hm, if_neg (Nat.not_le_of_lt h)]

/-- The world after the locked section of a tick. -/
def World.ticked (w : World) : World :=
  { w with nm := { w.nm with sensors := w.nm.sensors.map SimulatedSensor.ticked } }

theorem sameShape_ticked (w : World) : SameShape w w.ticked :=
  sameShape_sensors w.nm.simulationEnabled (map_ticked w.nm.sensors)

/-- The locked section of a tick while the simulation is off. -/
theorem tickSection_off (hm : w.nm.mutexHeld = false) (he : w.nm.simulationEnabled = false) :
    tickSection.run w = .ok ([], w) := by
  rw [tickSection, run_bind_ok (lock_run hm), run_get_bind,
    if_pos (show (!(w.setMutex true).nm.simulationEnabled) = true by
      show (!w.nm.simulationEnabled) = true
      rw [he]
      rfl),
    run_unlock_bind, run_return, setMutex_setMutex, setMutex_of_eq hm]

/-- The locked section of a tick. -/
theorem tickSection_eq (hm : w.nm.mutexHeld = false) :
    tickSection.run w
      = if w.nm.simulationEnabled then
          if (tickWrites w.nm.sensors).length ≤ serverMaxNodes then
            .ok (tickWrites w.nm.sensors, w.ticked)
          else .error .arrayOverflow
        else .ok ([], w) := by
  cases he : w.nm.simulationEnabled with
  | false => rw [tickSection_off hm he, if_neg Bool.false_ne_true]
  | true =>
      have hempty : ([] : List (NodeId × Bool)).length ≤ serverMaxNodes := Nat.zero_le _
      have hloop := tickLoop_run w.nm.sensors hempty
      rw [List.length_nil, Nat.zero_add, List.nil_append] at hloop
      rw [tickSection, run_bind_ok (lock_run hm), run_get_bind,
        if_neg (show ¬ (!(w.setMutex true).nm.simulationEnabled) = true by
          show ¬ (!w.nm.simulationEnabled) = true
          rw [he]
          exact Bool.false_ne_true),
        run_get_bind]
      show ((liftM (tickLoop w.nm.sensors []) >>= _ : M _).run _) = _
      rw [hloop, if_pos rfl]
      split
      · show Except.ok _ = Except.ok _
        -- The mutex was free before, so taking and releasing it leaves no trace.
        refine congrArg (fun w' => Except.ok (_, w')) ?_
        exact setMutex_of_eq (w := w.ticked) hm
      · rfl

/-- It returns when the sensors fit its arrays. -/
theorem tickSection_run (hm : w.nm.mutexHeld = false)
    (hfit : w.nm.sensors.length ≤ serverMaxNodes) :
    tickSection.run w
      = if w.nm.simulationEnabled then .ok (tickWrites w.nm.sensors, w.ticked)
        else .ok ([], w) := by
  rw [tickSection_eq hm, if_pos ((length_tickWrites_le w.nm.sensors).trans hfit)]

/-- What it has done whenever it returns. -/
theorem tickSection_of_ok (hm : w.nm.mutexHeld = false) {writes : List (NodeId × Bool)}
    (h : tickSection.run w = .ok (writes, w')) :
    (w.nm.simulationEnabled = false ∧ writes = [] ∧ w' = w) ∨
    (w.nm.simulationEnabled = true ∧ writes = tickWrites w.nm.sensors ∧ w' = w.ticked) := by
  rw [tickSection_eq hm] at h
  split at h
  · rename_i he
    split at h
    · cases h
      exact Or.inr ⟨he, rfl, rfl⟩
    · cases h
  · rename_i he
    cases h
    exact Or.inl ⟨Bool.not_eq_true _ ▸ he, rfl, rfl⟩

/-! ### The operations of the simulation -/

/-- The nodes of the sensors. -/
def World.sensorIds (w : World) : List NodeId := w.nm.sensors.map SimulatedSensor.nodeId

/-- The nodes of the sensors are sensor nodes. -/
theorem Sound.sensorNodes (hw : Sound w) {writes : List (NodeId × Bool)}
    (h : ∀ p ∈ writes, p.1 ∈ w.sensorIds) : ∀ p ∈ writes, SensorNode w.space p.1 := by
  intro p hp
  obtain ⟨st, hst, hid⟩ := List.mem_map.mp (h p hp)
  exact hid ▸ hw.sensor_live st hst

/-- The writes of `false` that end a switch to off. -/
def offWrites (w : World) : List (NodeId × Bool) := w.sensorIds.map (fun id => (id, false))

/-- They go to sensors, in any world of the same shape. -/
theorem offWrites_mem (h : SameShape w w') : ∀ p ∈ offWrites w, p.1 ∈ w'.sensorIds := by
  intro p hp
  obtain ⟨id, hid, rfl⟩ := List.mem_map.mp hp
  rw [World.sensorIds, h.sensor_ids]
  exact hid

/-- The sensors that a switch writes to: only a switch to off does. -/
def World.offTargets (w : World) (enabled : Bool) : List NodeId :=
  if enabled then [] else w.sensorIds

theorem SameShape.offTargets (h : SameShape w w') (enabled : Bool) :
    w'.offTargets enabled = w.offTargets enabled := by
  rw [World.offTargets, World.offTargets, World.sensorIds, h.sensor_ids]
  rfl

/-- They are the same in any world of the same shape. -/
theorem SameShape.offWrites (h : SameShape w w') : Server.offWrites w' = Server.offWrites w := by
  rw [Server.offWrites, Server.offWrites, World.sensorIds, h.sensor_ids]
  rfl

/-- The world after the writes of `false` of a switch to off. -/
def World.offWritten (enabled : Bool) (w : World) : World :=
  if enabled then w
  else w.sensorNodesWritten (offWrites w)

/-- They keep the shape. -/
theorem sameShape_offWritten (w : World) (enabled : Bool) :
    SameShape w (w.offWritten enabled) := by
  cases enabled with
  | true => exact SameShape.refl w
  | false => exact sameShape_sensorNodesWritten w _

/-- The writes of `false` to the sensors, by either way. -/
theorem offWrites_run (depth : Nat) (hw : Sound w) {w₀ : World} (h : SameShape w₀ w)
    (enabled : Bool) :
    Through (w.offTargets enabled)
      (if !enabled then writeAll (writeValue (depth + 1)) (offWrites w₀) else pure ()) w
      fun _ w' => w' = w.offWritten enabled := by
  cases enabled with
  | true => exact .of_run rfl rfl
  | false =>
      have hids : (offWrites w).map Prod.fst = w.offTargets false := by
        rw [offWrites, List.map_map]
        exact List.map_id _
      rw [← h.offWrites, ← hids]
      exact writeAll_through depth hw (hw.sensorNodes (offWrites_mem (SameShape.refl w)))

/-- `simulation_enabled_write_callback` with a Boolean. -/
theorem simulationEnabledWriteCallback_through (depth : Nat) (hw : Sound w)
    (hfit : w.nm.sensors.length ≤ serverMaxNodes) {enabled : Bool} {v : Variant}
    (hread : v.readBoolean = some (.ok enabled)) :
    Through (w.offTargets enabled) (simulationEnabledWriteCallback (writeValue (depth + 1)) v) w
      fun _ w' => w' = (w.switched enabled).offWritten enabled := by
  have hshape := sameShape_switched w enabled
  have hoff := offWrites_run depth (hshape.sound hw) hshape enabled
  rw [hshape.offTargets] at hoff
  simp only [simulationEnabledWriteCallback, hread]
  exact .after (switchSection_run hw.mutex hfit enabled) hshape hoff

/-- A write that is no Boolean does not get past the test of the callback. -/
theorem simulationEnabledWriteCallback_ignored (write : NodeId → Variant → M StatusCode)
    {v : Variant} (hread : v.readBoolean = none) :
    (simulationEnabledWriteCallback write v).run w = .ok ((), w) := by
  simp only [simulationEnabledWriteCallback, hread]
  rfl

/-- Both callbacks read through a pointer that points nowhere when the array is empty. -/
theorem runCallback_invalid (write : NodeId → Variant → M StatusCode) (hm : w.nm.mutexHeld = false)
    {vAttr : UaVariable} {v : Variant} {fault : Fault} (hread : v.readBoolean = some (.error fault))
    (hcb : vAttr.onWrite = some .sensorWrite ∧ vAttr.context.isSome = true ∨
      vAttr.onWrite = some .simulationEnabledWrite) :
    (runCallback write vAttr v).run w = .error fault := by
  rcases hcb with ⟨hcb, hcontext⟩ | hcb
  · obtain ⟨ref, href⟩ := Option.isSome_iff_exists.mp hcontext
    simp only [runCallback, hcb, href, sensorWriteCallback, hread]
    rw [run_bind_ok (lock_run hm), run_lift_bind]
    rfl
  · simp only [runCallback, hcb, simulationEnabledWriteCallback, hread]
    rw [run_bind_ok (lock_run hm)]
    rfl

/-! ### Writes to any node -/

/-- The callback that a write runs and what it reads there, if it gets past the test. -/
def World.callback (w : World) (id : NodeId) (v : Variant) :
    Option (ValueCallback × Except Fault Bool) := do
  let n ← w.space.find id
  let vAttr ← n.vAttr
  let callback ← vAttr.onWrite
  let read ← v.readBoolean
  if vAttr.dataType = .boolean ∧ (callback = .sensorWrite → vAttr.context.isSome = true) then
    return (callback, read)
  else none

theorem callback_eq_some {id : NodeId} {v : Variant} {callback : ValueCallback}
    {read : Except Fault Bool} :
    w.callback id v = some (callback, read) ↔ ∃ n vAttr, w.space.find id = some n ∧
      n.vAttr = some vAttr ∧ vAttr.dataType = .boolean ∧ vAttr.onWrite = some callback ∧
      v.readBoolean = some read ∧ (callback = .sensorWrite → vAttr.context.isSome = true) := by
  simp only [World.callback, Option.bind_eq_bind, Option.bind_eq_some_iff,
    Option.ite_none_right_eq_some]
  constructor
  · rintro ⟨n, hn, vAttr, hv, callback', hcb, read', hread, ⟨hdt, hcontext⟩, hret⟩
    obtain ⟨rfl, rfl⟩ := Prod.mk.inj (Option.some.inj hret)
    exact ⟨n, vAttr, hn, hv, hdt, hcb, hread, hcontext⟩
  · rintro ⟨n, vAttr, hn, hv, hdt, hcb, hread, hcontext⟩
    exact ⟨n, hn, vAttr, hv, callback, hcb, read, hread, ⟨hdt, hcontext⟩, rfl⟩

/-- The callbacks belong to the shape. -/
theorem SameShape.callback (h : SameShape w w') (id : NodeId) (v : Variant) :
    w'.callback id v = w.callback id v := by
  refine Option.ext fun r => ?_
  obtain ⟨callback, read⟩ := r
  have hsame : ∀ {w w' : World}, SameShape w w' → w.callback id v = some (callback, read) →
      w'.callback id v = some (callback, read) := by
    intro w w' h hw
    obtain ⟨n, vAttr, hn, hv, hdt, hcb, hread, hcontext⟩ := callback_eq_some.mp hw
    obtain ⟨n', vAttr', hn', hv', hdt', hcontext', hcb', -⟩ := h.find_some hn hv
    refine callback_eq_some.mpr ⟨n', vAttr', hn', hv', hdt'.trans hdt, hcb'.trans hcb, hread, ?_⟩
    rw [hcontext']
    exact hcontext
  exact ⟨hsame h.symm, hsame h⟩

/-- A write that no callback takes up returns. -/
theorem writeValue_quiet (depth : Nat) {id : NodeId} {v : Variant}
    (h : w.callback id v = none) :
    ∃ rc w', (writeValue (depth + 1) id v).run w = .ok (rc, w') ∧ SameShape w w' := by
  rcases taken_or_rejected w id v with ⟨n, vAttr, hn, hv, htake⟩ | hrejected
  · have hstore := sameShape_storeValue w id v
    refine ⟨.good, w.storeValue id v, writeValue_stored depth hn hv htake ?_, hstore⟩
    have hnot : ∀ callback read, vAttr.onWrite = some callback → v.readBoolean = some read →
        ¬ (callback = .sensorWrite → vAttr.context.isSome = true) := by
      intro callback read hcb hread hcontext
      have hdt := (storable_of_readBoolean hread vAttr.dataType).mp htake
      cases h.symm.trans (callback_eq_some.mpr ⟨n, vAttr, hn, hv, hdt, hcb, hread, hcontext⟩)
    simp only [runCallback]
    cases hcb : vAttr.onWrite with
    | none => rfl
    | some callback =>
        cases hread : v.readBoolean with
        | none =>
            cases callback with
            | sensorWrite => exact sensorWriteCallback_ignored _ hread
            | simulationEnabledWrite => exact simulationEnabledWriteCallback_ignored _ hread
        | some read =>
            cases callback with
            | sensorWrite =>
                -- A node without a context has nothing to write through.
                cases hcontext : vAttr.context with
                | none => rfl
                | some ref =>
                    refine absurd (fun _ => ?_) (hnot _ _ hcb hread)
                    rw [hcontext]
                    rfl
            | simulationEnabledWrite => exact absurd nofun (hnot _ _ hcb hread)
  · obtain ⟨rc, -, hrun⟩ := writeValue_rejected depth hrejected
    exact ⟨rc, w, hrun, SameShape.refl w⟩

/-- An empty array of Booleans does not return from a callback. -/
theorem writeValue_invalid (depth : Nat) (hw : Sound w) {id : NodeId} {v : Variant}
    {callback : ValueCallback} {fault : Fault}
    (h : w.callback id v = some (callback, .error fault)) :
    (writeValue (depth + 1) id v).run w = .error fault := by
  obtain ⟨n, vAttr, hn, hv, hdt, hcb, hread, hcontext⟩ := callback_eq_some.mp h
  have hsound := (sameShape_storeValue w id v).sound hw
  refine writeValue_fault depth hn hv ((storable_of_readBoolean hread _).mpr hdt)
    (runCallback_invalid _ hsound.mutex hread ?_)
  cases callback with
  | sensorWrite => exact .inl ⟨hcb, hcontext rfl⟩
  | simulationEnabledWrite => exact .inr hcb

/-- A Boolean to a switch overruns the array on the stack when the ids of the sensors do not fit
it. -/
theorem writeValue_overflow (depth : Nat) (hw : Sound w) {id : NodeId} {v : Variant} {b : Bool}
    (h : w.callback id v = some (.simulationEnabledWrite, .ok b))
    (hover : serverMaxNodes < w.nm.sensors.length) :
    (writeValue (depth + 1) id v).run w = .error .arrayOverflow := by
  obtain ⟨n, vAttr, hn, hv, hdt, hcb, hread, -⟩ := callback_eq_some.mp h
  refine writeValue_fault depth hn hv ((storable_of_readBoolean hread _).mpr hdt) ?_
  simp only [runCallback, hcb, simulationEnabledWriteCallback, hread]
  exact run_bind_error (switchSection_overflow (w := w.storeValue id v) hw.mutex hover b)

/-- The nodes whose contexts a write goes through. -/
def World.writeTargets (w : World) (id : NodeId) (v : Variant) : List NodeId :=
  match w.callback id v with
  | some (.sensorWrite, .ok _) => [id]
  | some (.simulationEnabledWrite, .ok enabled) => w.offTargets enabled
  | _ => []

theorem SameShape.writeTargets (h : SameShape w w') (id : NodeId) (v : Variant) :
    w'.writeTargets id v = w.writeTargets id v := by
  simp only [World.writeTargets, h.callback, h.offTargets]

/-- How many elements a write stores in an array on the stack. -/
def World.writeCopies (w : World) (id : NodeId) (v : Variant) : Nat :=
  match w.callback id v with
  | some (.simulationEnabledWrite, .ok _) => w.nm.sensors.length
  | _ => 0

/-- A write keeps the shape: callbacks nest twice at most. -/
theorem writeValue_through (depth : Nat) (hw : Sound w) {id : NodeId} {v : Variant}
    (hfit : w.writeCopies id v ≤ serverMaxNodes)
    (hread : ∀ callback fault, w.callback id v ≠ some (callback, .error fault)) :
    Through (w.writeTargets id v) (writeValue (depth + 2) id v) w fun _ w' => SameShape w w' := by
  have hstore := sameShape_storeValue w id v
  have hsound := hstore.sound hw
  rw [World.writeCopies] at hfit
  rw [World.writeTargets]
  cases hcallback : w.callback id v with
  | none =>
      obtain ⟨rc, w', hrun, hshape⟩ := writeValue_quiet (depth + 1) hcallback
      exact .of_run hrun hshape
  | some r =>
      obtain ⟨callback, read⟩ := r
      obtain ⟨n, vAttr, hn, hv, hdt, hcb, hr, -⟩ := callback_eq_some.mp hcallback
      have htake := (storable_of_readBoolean hr vAttr.dataType).mpr hdt
      cases read with
      | error fault => exact absurd hcallback (hread callback fault)
      | ok b =>
          cases callback with
          -- The value is stored first, and the callback runs in the world after that.
          | sensorWrite =>
              have hcontext := (hstore.contextOf id).trans (contextOf_of_find hn hv)
              have hthrough := sensorWriteCallback_through hsound.mutex id hr
              rw [hcontext] at hthrough
              refine (Through.write (depth + 1) hn hv htake ?_).mono fun _ _ hkept => hkept.2
              simp only [runCallback, hcb]
              refine hthrough.mono ?_
              rintro _ _ rfl
              exact hstore.trans (sameShape_sensorWritten _ _)
          | simulationEnabledWrite =>
              rw [hcallback] at hfit
              have hthrough := simulationEnabledWriteCallback_through depth hsound hfit hr
              rw [hstore.offTargets] at hthrough
              refine (Through.write (depth + 1) hn hv htake ?_).mono fun _ _ hkept => hkept.2
              simp only [runCallback, hcb]
              refine hthrough.mono ?_
              rintro _ _ rfl
              exact (hstore.trans (sameShape_switched _ _)).trans (sameShape_offWritten _ _)

/-- A write that has returned has kept the shape. -/
theorem writeValue_shape (depth : Nat) (hw : Sound w) {id : NodeId} {v : Variant}
    {rc : StatusCode} (h : (writeValue (depth + 2) id v).run w = .ok (rc, w')) :
    SameShape w w' := by
  by_cases hfit : w.writeCopies id v ≤ serverMaxNodes
  · by_cases hread : ∀ callback fault, w.callback id v ≠ some (callback, .error fault)
    · exact (writeValue_through depth hw hfit hread).of_ok h
    · push Not at hread
      obtain ⟨callback, fault, hcallback⟩ := hread
      cases (writeValue_invalid (depth + 1) hw hcallback).symm.trans h
  · rw [World.writeCopies] at hfit
    split at hfit
    · rename_i hcallback
      have hover := writeValue_overflow (depth + 1) hw hcallback (Nat.lt_of_not_le hfit)
      cases hover.symm.trans h
    · exact absurd (Nat.zero_le _) hfit

/-! ### Ticks, switches and resets -/

/-- The writes of a tick go to sensors. -/
theorem mem_tickWrites {sensors : List SimulatedSensor} {p : NodeId × Bool} :
    p ∈ tickWrites sensors ↔
      ∃ st ∈ sensors, st.overridden = false ∧ p = (st.nodeId, !st.value) := by
  simp only [tickWrites, List.mem_map, List.mem_filter, Bool.not_eq_true']
  constructor
  · rintro ⟨st, ⟨hst, ho⟩, rfl⟩
    exact ⟨st, hst, ho, rfl⟩
  · rintro ⟨st, hst, ho, rfl⟩
    exact ⟨st, ⟨hst, ho⟩, rfl⟩

/-- The nodes whose contexts a tick goes through. -/
def World.tickTargets (w : World) : List NodeId :=
  if w.nm.simulationEnabled then (tickWrites w.nm.sensors).map Prod.fst else []

/-- A tick whose section returns keeps the shape. -/
theorem nodeManagerRunSimulationTick_through (hw : Sound w)
    (hsection : tickSection.run w
      = if w.nm.simulationEnabled then .ok (tickWrites w.nm.sensors, w.ticked) else .ok ([], w)) :
    Through w.tickTargets nodeManagerRunSimulationTick w fun _ w' => SameShape w w' := by
  rw [World.tickTargets]
  cases he : w.nm.simulationEnabled with
  | false =>
      rw [he, if_neg Bool.false_ne_true] at hsection
      exact .of_run (run_bind_ok hsection) (SameShape.refl w)
  | true =>
      rw [he, if_pos rfl] at hsection
      have hshape := sameShape_ticked w
      -- A tick writes to nodes of sensors only.
      have hmem : ∀ p ∈ tickWrites w.nm.sensors, SensorNode w.ticked.space p.1 := by
        intro p hp
        obtain ⟨st, hst, -, rfl⟩ := mem_tickWrites.mp hp
        exact hw.sensor_live st hst
      rw [if_pos rfl]
      exact .after hsection hshape ((writeAll_shape 7 (hshape.sound hw) hmem).mono
        fun _ _ hkeeps => hshape.trans hkeeps.1)

/-- The write of a switch over HTTP to the node of the switch, if there is one. -/
def switchNodeWrite (enabled : Bool) (node : Option NodeId) : M Unit :=
  match node with
  | some nodeId => discard (uaServerWriteValue nodeId (.boolean enabled))
  | none => pure ()

/-- A switch over HTTP is the locked section, the write to its node and the writes to the
sensors. -/
theorem nodeManagerSetSimulationEnabled_run (hm : w.nm.mutexHeld = false)
    (hfit : w.nm.sensors.length ≤ serverMaxNodes) (enabled : Bool) :
    (nodeManagerSetSimulationEnabled enabled).run w =
      (switchNodeWrite enabled w.nm.simulationEnabledNodeId >>= fun _ =>
        if !enabled then writeAll uaServerWriteValue (offWrites w) else pure ()).run
          (w.switched enabled) := by
  rw [nodeManagerSetSimulationEnabled, run_bind_ok (switchSection_run hm hfit enabled)]
  cases w.nm.simulationEnabledNodeId <;> rfl

/-- The nodes whose contexts a switch over HTTP goes through. -/
def World.switchTargets (w : World) (enabled : Bool) : List NodeId :=
  w.nm.simulationEnabledNodeId.elim [] (fun id => w.writeTargets id (.boolean enabled)) ++
    w.offTargets enabled

/-- A switch over HTTP keeps the shape. -/
theorem nodeManagerSetSimulationEnabled_through (hw : Sound w)
    (hfit : w.nm.sensors.length ≤ serverMaxNodes) (enabled : Bool) :
    Through (w.switchTargets enabled) (nodeManagerSetSimulationEnabled enabled) w
      fun _ w' => SameShape w w' := by
  have hshape := sameShape_switched w enabled
  have hsound := hshape.sound hw
  -- The node may be unknown to the program, or no longer a switch.
  have hnode : Through (w.nm.simulationEnabledNodeId.elim []
      (fun id => w.writeTargets id (.boolean enabled)))
      (switchNodeWrite enabled w.nm.simulationEnabledNodeId) (w.switched enabled)
      fun _ w₁ => SameShape (w.switched enabled) w₁ := by
    cases w.nm.simulationEnabledNodeId with
    | none => exact .of_run rfl (SameShape.refl _)
    | some id =>
        have hfit' : (w.switched enabled).writeCopies id (.boolean enabled) ≤ serverMaxNodes := by
          rw [World.writeCopies]
          split
          · rw [hshape.length_sensors]
            exact hfit
          · exact Nat.zero_le _
        have hread : ∀ callback fault, (w.switched enabled).callback id (.boolean enabled) ≠
            some (callback, .error fault) := by
          intro callback fault hcallback
          obtain ⟨_, _, _, _, _, _, hread, _⟩ := callback_eq_some.mp hcallback
          cases hread
        have hwrite := writeValue_through 6 hsound hfit' hread
        rw [hshape.writeTargets] at hwrite
        exact hwrite.discard.mono fun _ _ ⟨_, hkept⟩ => hkept
  refine .of_eq hshape (nodeManagerSetSimulationEnabled_run hw.mutex hfit enabled)
    (hnode.bind fun _ w₁ hshape₁ => ⟨hshape₁, ?_⟩)
  have hoff := offWrites_run 7 (hshape₁.sound hsound) (hshape.trans hshape₁) enabled
  rw [(hshape.trans hshape₁).offTargets] at hoff
  refine hoff.mono ?_
  rintro _ _ rfl
  exact (hshape.trans hshape₁).trans (sameShape_offWritten _ _)

/-- The world after a reset. -/
def World.reset (w : World) : World :=
  { w with nm := { w.nm with
    sensors := w.nm.sensors.map (fun st => { st with overridden := false }) } }

/-- `node_manager_reset_overrides` clears the flags and nothing else. -/
theorem nodeManagerResetOverrides_run (hm : w.nm.mutexHeld = false) :
    nodeManagerResetOverrides.run w = .ok ((), w.reset) := by
  rw [nodeManagerResetOverrides, run_bind_ok (lock_run hm), run_modify_bind]
  show Except.ok _ = Except.ok _
  refine congrArg (fun w' => Except.ok ((), w')) ?_
  exact setMutex_of_eq (w := w.reset) hm

theorem sameShape_reset (w : World) : SameShape w w.reset :=
  sameShape_sensors w.nm.simulationEnabled (by
    rw [List.map_map]
    rfl)

/-- The nodes whose contexts an operation goes through. -/
def World.targets (w : World) : Op → List NodeId
  | .tick => w.tickTargets
  | .setSimulationEnabled enabled => w.switchTargets enabled
  | .clientWrite nodeId v => w.writeTargets nodeId v
  | _ => []

/-- A scalar has an element to read. -/
theorem callback_scalar (w : World) (id : NodeId) (v : Scalar) (callback : ValueCallback)
    (fault : Fault) : w.callback id v ≠ some (callback, .error fault) := by
  intro hcallback
  obtain ⟨_, _, _, _, _, _, hread, _⟩ := callback_eq_some.mp hcallback
  cases v <;> cases hread

/-- **The operations of the simulation** create and delete nothing. As long as the sensors fit the
arrays on the stack, they fail only where they go through a stale context. -/
theorem simulationOp_through (cjson : CJson) (hw : Sound w)
    (hfit : w.nm.sensors.length ≤ serverMaxNodes) (op : Op)
    (hop : op.isSimulationOp = true) :
    Through (w.targets op) (perform cjson op) w fun _ w' => SameShape w w' := by
  cases op with
  | addFolder host parent b display => cases hop
  | addVariable host parent b display dt sim => cases hop
  | delete host b => cases hop
  | tick =>
      exact (nodeManagerRunSimulationTick_through hw (tickSection_run hw.mutex hfit)).andReturn
  | setSimulationEnabled enabled =>
      exact (nodeManagerSetSimulationEnabled_through hw hfit enabled).andReturn
  | resetOverrides =>
      exact .of_run (run_bind_ok (nodeManagerResetOverrides_run hw.mutex)) (sameShape_reset w)
  | clientWrite nodeId v =>
      refine writeValue_through 6 hw ?_ (callback_scalar w nodeId v)
      rw [World.writeCopies]
      split
      · exact hfit
      · exact Nat.zero_le _

end SmartFactory.Server
