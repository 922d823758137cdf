import SmartFactory.Proofs.Writes

/-!
# `SmartFactory.Proofs.Values`: the values and flags that the simulation leaves behind

In a world where every sensor node points at its own element of the sensors array
(`ContextsOwn`), a write to a sensor node changes exactly the element of that sensor. The
theorems of this module add up what the nested writes of a tick and of a switch do to the
array. All of them leave `overridden` set, because `sensor_write_callback` cannot tell the
writes of the program from the writes of a client.

`ValuesAgree` says that each sensor and its node hold the same value; every operation keeps
it.
-/

set_option autoImplicit false

namespace SmartFactory.Server

/-- The value that a variable node holds. -/
def AddressSpace.valueOf (space : AddressSpace) (id : NodeId) : Option Variant :=
  (space.find id).bind (fun n => n.vAttr.map UaVariable.value)

/-- The node of each sensor points at the sensor's own element of the array. -/
def ContextsOwn (w : World) : Prop :=
  ∀ i st, w.nm.sensors[i]? = some st →
    ∃ n v, w.space.find st.nodeId = some n ∧ n.vAttr = some v ∧
      v.context = some ⟨w.nm.sensorsAlloc, i⟩

/-- The node of each sensor holds the value of the sensor. -/
def ValuesAgree (w : World) : Prop :=
  ∀ st ∈ w.nm.sensors, w.space.valueOf st.nodeId = some (.boolean st.value)

variable {w w' : World}

/-- Contexts belong to the shape. -/
theorem SameShape.contextsOwn (h : SameShape w w') (hown : ContextsOwn w) :
    ContextsOwn w' := by
  intro i st hst
  have hi : (w.nm.sensors.map (fun st => (st.nodeId, st.browseName)))[i]?
      = some (st.nodeId, st.browseName) := by
    rw [← h.sensors, List.getElem?_map, hst, Option.map_some]
  rw [List.getElem?_map] at hi
  obtain ⟨st₀, hst₀, heq⟩ := Option.map_eq_some_iff.mp hi
  rw [Prod.mk.injEq] at heq
  obtain ⟨n, v, hn, hv, hcontext⟩ := hown i st₀ hst₀
  obtain ⟨n', v', hn', hv', -, hcontext', -⟩ := h.find_some hn hv
  have halloc : w'.nm.sensorsAlloc = w.nm.sensorsAlloc := by rw [h.nm]
  refine ⟨n', v', heq.1 ▸ hn', hv', ?_⟩
  rw [hcontext', hcontext, halloc]

/-! ### One write -/

/-- The nodes that are not written to keep their values. -/
theorem valueOf_storeValue_of_ne {id id' : NodeId} (hne : id' ≠ id) (v : Variant) :
    (w.storeValue id v).space.valueOf id' = w.space.valueOf id' := by
  show (AddressSpace.updateVariable w.space id _).valueOf id' = _
  rw [AddressSpace.valueOf, AddressSpace.find_updateVariable, AddressSpace.valueOf]
  cases w.space.find id' with
  | none => rfl
  | some n => rw [Option.map_some, if_neg hne]

/-- A stored value is held by its node, and the other nodes keep theirs. -/
theorem valueOf_storeValue {id : NodeId} {n : UaNode} {vAttr : UaVariable}
    (hn : w.space.find id = some n) (hv : n.vAttr = some vAttr) (v : Variant) (id' : NodeId) :
    (w.storeValue id v).space.valueOf id'
      = if id' = id then some v else w.space.valueOf id' := by
  by_cases h : id' = id
  · subst h
    show (AddressSpace.updateVariable w.space id' _).valueOf id' = _
    rw [if_pos rfl, AddressSpace.valueOf, AddressSpace.find_updateVariable, hn, Option.map_some,
      if_pos rfl, Option.bind_some, hv]
    rfl
  · rw [if_neg h, valueOf_storeValue_of_ne h]

/-- Writing through a context changes no node. -/
@[simp] theorem sensorWritten_space (context : Option SensorRef) (b : Bool) :
    (w.sensorWritten context b).space = w.space := by
  cases context <;> rfl

/-- The sensor after a client or the program wrote to its node. -/
def SimulatedSensor.written (st : SimulatedSensor) (b : Bool) : SimulatedSensor :=
  { st with value := b, overridden := true }

/-- What a write of `b` to the node `id` does when it belongs to a sensor. -/
structure Written (id : NodeId) (b : Bool) (w w' : World) : Prop where
  shape : SameShape w w'
  enabled : w'.nm.simulationEnabled = w.nm.simulationEnabled
  sensors : w'.nm.sensors
    = w.nm.sensors.map (fun st => if st.nodeId = id then st.written b else st)
  values : ∀ id', w'.space.valueOf id'
    = if id' = id then some (.boolean b) else w.space.valueOf id'

/-- A write to the node of a sensor changes the value of the node and the element of that
sensor, and nothing else. -/
theorem writeValue_own (depth : Nat) (hw : Sound w) (hown : ContextsOwn w)
    {st : SimulatedSensor} (hst : st ∈ w.nm.sensors) (b : Bool) :
    ∃ w', (writeValue (depth + 1) st.nodeId (.boolean b)).run w = .ok (.good, w') ∧
      Written st.nodeId b w w' := by
  obtain ⟨i, hi⟩ := List.mem_iff_getElem?.mp hst
  obtain ⟨n, v, hn, hv, -⟩ := hw.sensor_live st hst
  obtain ⟨n', v', hn', hv', hcontext⟩ := hown i st hi
  obtain ⟨rfl, rfl⟩ := attribute_unique hn hv hn' hv'
  have hat : w.space.contextOf st.nodeId = some ⟨w.nm.sensorsAlloc, i⟩ :=
    (contextOf_of_find hn hv).trans hcontext
  have hcurrent : ∀ id ∈ [st.nodeId], w.Current id := by
    intro id hid ref href
    obtain rfl := List.mem_singleton.mp hid
    obtain rfl := Option.some.inj (hat.symm.trans href)
    rfl
  obtain ⟨_, _, hrun, rfl, rfl⟩ :=
    (writeValue_sensor depth hw.mutex (hw.sensor_live st hst) b).returns hcurrent
  refine ⟨_, hrun, sameShape_sensorNodeWritten w st.nodeId b, sensorWritten_enabled _ _, ?_, ?_⟩
  -- The context is the address of the element at `i`, so the callback changes that one.
  · rw [World.sensorNodeWritten, hat]
    exact Keyed.modify_eq_map SimulatedSensor.nodeId (fun st => st.written b)
      hw.sensor_ids_nodup hi
  · intro id'
    rw [World.sensorNodeWritten, sensorWritten_space]
    exact valueOf_storeValue hn hv (.boolean b) id'

/-- A write to a sensor keeps the values agreeing. -/
theorem Written.valuesAgree {id : NodeId} {b : Bool} (h : Written id b w w')
    (hagree : ValuesAgree w) : ValuesAgree w' := by
  intro st' hst'
  rw [h.sensors] at hst'
  obtain ⟨st, hst, rfl⟩ := List.mem_map.mp hst'
  by_cases hid : st.nodeId = id
  · rw [if_pos hid, h.values]
    exact if_pos hid
  · rw [if_neg hid, h.values, if_neg hid]
    exact hagree st hst

/-! ### Lists of writes -/

/-- The sensor after the program wrote to its node the value that the sensor has. -/
def SimulatedSensor.marked (st : SimulatedSensor) (ids : List NodeId) : SimulatedSensor :=
  if st.nodeId ∈ ids then { st with overridden := true } else st

/-- What a list of writes does that gives each node the value of its sensor: the values of
the sensors stay, and the ones that are written to are marked as overridden. -/
structure AllWritten (writes : List (NodeId × Bool)) (w w' : World) : Prop where
  shape : SameShape w w'
  enabled : w'.nm.simulationEnabled = w.nm.simulationEnabled
  sensors : w'.nm.sensors
    = w.nm.sensors.map (fun st => st.marked (writes.map Prod.fst))
  others : ∀ id, id ∉ writes.map Prod.fst → w'.space.valueOf id = w.space.valueOf id
  values : ∀ p ∈ writes, w'.space.valueOf p.1 = some (.boolean p.2)

@[simp] theorem marked_nodeId (st : SimulatedSensor) (ids : List NodeId) :
    (st.marked ids).nodeId = st.nodeId := by
  unfold SimulatedSensor.marked
  split <;> rfl

@[simp] theorem marked_value (st : SimulatedSensor) (ids : List NodeId) :
    (st.marked ids).value = st.value := by
  unfold SimulatedSensor.marked
  split <;> rfl

/-- Marking for one id and then for others is marking for all of them. -/
theorem marked_marked (st : SimulatedSensor) (id : NodeId) (ids : List NodeId) :
    (st.marked [id]).marked ids = st.marked (id :: ids) := by
  simp only [SimulatedSensor.marked, List.mem_cons, List.not_mem_nil, or_false]
  by_cases hst : st.nodeId = id
  · simp [hst]
  · simp [hst]

/-- A write of the value that the sensor has only marks it. -/
theorem Written.sensors_marked {st : SimulatedSensor} (hw : Sound w)
    (h : Written st.nodeId st.value w w') (hst : st ∈ w.nm.sensors) :
    w'.nm.sensors = w.nm.sensors.map (fun x => x.marked [st.nodeId]) := by
  rw [h.sensors]
  refine List.map_congr_left fun x hx => ?_
  simp only [SimulatedSensor.marked, List.mem_singleton]
  by_cases hid : x.nodeId = st.nodeId
  · have hsame : x = st := Keyed.eq_of_key_eq SimulatedSensor.nodeId hw.sensor_ids_nodup hx
      hst hid
    rw [if_pos hid, if_pos hid, SimulatedSensor.written, hsame]
  · rw [if_neg hid, if_neg hid]

/-- The writes of a tick or of a switch to off, which give each node the value of its
sensor. -/
theorem writeAll_own (depth : Nat) (hw : Sound w) (hown : ContextsOwn w)
    {writes : List (NodeId × Bool)}
    (h : ∀ p ∈ writes, ∃ st ∈ w.nm.sensors, st.nodeId = p.1 ∧ st.value = p.2) :
    ∃ w', (writeAll (writeValue (depth + 1)) writes).run w = .ok ((), w') ∧
      AllWritten writes w w' := by
  induction writes generalizing w with
  | nil =>
      refine ⟨w, rfl, SameShape.refl w, rfl, ?_, fun _ _ => rfl, List.forall_mem_nil _⟩
      simp [SimulatedSensor.marked]
  | cons p rest ih =>
      obtain ⟨id, b⟩ := p
      obtain ⟨st, hst, rfl, rfl⟩ := h (id, b) (List.mem_cons_self ..)
      obtain ⟨w₁, hrun₁, hwritten⟩ := writeValue_own depth hw hown hst st.value
      -- The first write leaves the values of the sensors alone, so the rest still fits them.
      have hsensors₁ := hwritten.sensors_marked hw hst
      have hrest : ∀ q ∈ rest, ∃ x ∈ w₁.nm.sensors, x.nodeId = q.1 ∧ x.value = q.2 := by
        intro q hq
        obtain ⟨x, hx, hxid, hxvalue⟩ := h q (List.mem_cons_of_mem _ hq)
        refine ⟨x.marked [st.nodeId], ?_, ?_, ?_⟩
        · rw [hsensors₁]
          exact List.mem_map.mpr ⟨x, hx, rfl⟩
        · rw [marked_nodeId, hxid]
        · rw [marked_value, hxvalue]
      obtain ⟨w', hrun, hall⟩ := ih (hwritten.shape.sound hw)
        (hwritten.shape.contextsOwn hown) hrest
      refine ⟨w', ?_, hwritten.shape.trans hall.shape, hall.enabled.trans hwritten.enabled,
        ?_, ?_, ?_⟩
      · rw [writeAll, run_bind_ok (discard_run hrun₁), hrun]
      · rw [hall.sensors, hsensors₁, List.map_map]
        exact List.map_congr_left fun x _ => marked_marked x st.nodeId _
      · intro id hnot
        rw [List.map_cons, List.mem_cons, not_or] at hnot
        rw [hall.others id hnot.2, hwritten.values, if_neg hnot.1]
      · intro q hq
        rcases List.mem_cons.mp hq with rfl | hq
        · by_cases hagain : st.nodeId ∈ rest.map Prod.fst
          · -- A later write to the same node carries the value of the same sensor.
            obtain ⟨q', hq', hqid⟩ := List.mem_map.mp hagain
            obtain ⟨x, hx, hxid, hxvalue⟩ := h q' (List.mem_cons_of_mem _ hq')
            have hxst : x = st := Keyed.eq_of_key_eq SimulatedSensor.nodeId
              hw.sensor_ids_nodup hx hst (hxid.trans hqid)
            have hlater := hall.values q' hq'
            rw [hqid, ← hxvalue, hxst] at hlater
            exact hlater
          · rw [hall.others st.nodeId hagain, hwritten.values, if_pos rfl]
        · exact hall.values q hq

/-- After such writes the values agree, if they agreed for the sensors that were not
written to. -/
theorem AllWritten.valuesAgree {writes : List (NodeId × Bool)} (h : AllWritten writes w w')
    (hnd : (w.nm.sensors.map SimulatedSensor.nodeId).Nodup)
    (hsensor : ∀ p ∈ writes, ∃ st ∈ w.nm.sensors, st.nodeId = p.1 ∧ st.value = p.2)
    (hrest : ∀ st ∈ w.nm.sensors, st.nodeId ∉ writes.map Prod.fst →
      w.space.valueOf st.nodeId = some (.boolean st.value)) : ValuesAgree w' := by
  intro st' hst'
  rw [h.sensors] at hst'
  obtain ⟨st, hst, rfl⟩ := List.mem_map.mp hst'
  rw [marked_nodeId, marked_value]
  by_cases hmem : st.nodeId ∈ writes.map Prod.fst
  · obtain ⟨p, hp, hpid⟩ := List.mem_map.mp hmem
    obtain ⟨x, hx, hxid, hxvalue⟩ := hsensor p hp
    -- No two sensors share a node, so that the write to it is that of this sensor.
    have hxst : x = st := Keyed.eq_of_key_eq SimulatedSensor.nodeId hnd hx hst
      (hxid.trans hpid)
    rw [← hpid, h.values p hp, ← hxvalue, hxst]
  · rw [h.others _ hmem]
    exact hrest st hst hmem

/-! ### Ticks and switches -/

/-- The sensor after an enabled tick. -/
def SimulatedSensor.afterTick (st : SimulatedSensor) : SimulatedSensor :=
  { st with
    value := if st.overridden then st.value else !st.value
    overridden := true }

/-- An enabled tick negates the sensors that are not overridden, and marks them as
overridden. -/
theorem nodeManagerRunSimulationTick_own (hw : Sound w) (hown : ContextsOwn w)
    (hfit : w.nm.sensors.length ≤ serverMaxNodes) (he : w.nm.simulationEnabled = true) :
    ∃ w', nodeManagerRunSimulationTick.run w = .ok ((), w') ∧ SameShape w w' ∧
      w'.nm.simulationEnabled = true ∧
      w'.nm.sensors = w.nm.sensors.map SimulatedSensor.afterTick ∧
      (ValuesAgree w → ValuesAgree w') := by
  have hsection := tickSection_run hw.mutex hfit
  rw [he, if_pos rfl] at hsection
  have hshape := sameShape_ticked w
  -- The section has negated the sensors already, so each write carries the value that its
  -- sensor has by now.
  have hsensor : ∀ p ∈ tickWrites w.nm.sensors,
      ∃ st ∈ w.ticked.nm.sensors, st.nodeId = p.1 ∧ st.value = p.2 := by
    intro p hp
    obtain ⟨st, hst, ho, rfl⟩ := mem_tickWrites.mp hp
    refine ⟨st.ticked, List.mem_map.mpr ⟨st, hst, rfl⟩, ?_, ?_⟩
    · simp [SimulatedSensor.ticked, ho]
    · simp [SimulatedSensor.ticked, ho]
  have hticked_id : ∀ st : SimulatedSensor, st.ticked.nodeId = st.nodeId := by
    intro st
    rw [SimulatedSensor.ticked]
    split <;> rfl
  have hmem : ∀ st ∈ w.nm.sensors, st.overridden = false →
      st.nodeId ∈ (tickWrites w.nm.sensors).map Prod.fst := by
    intro st hst ho
    exact List.mem_map.mpr ⟨(st.nodeId, !st.value), mem_tickWrites.mpr ⟨st, hst, ho, rfl⟩, rfl⟩
  obtain ⟨w', hrun, hall⟩ := writeAll_own 7 (hshape.sound hw) (hshape.contextsOwn hown) hsensor
  refine ⟨w', (run_bind_ok hsection).trans hrun, hshape.trans hall.shape,
    hall.enabled.trans he, ?_, ?_⟩
  · rw [hall.sensors]
    show (w.nm.sensors.map SimulatedSensor.ticked).map _ = _
    rw [List.map_map]
    refine List.map_congr_left fun st hst => ?_
    simp only [Function.comp_apply, SimulatedSensor.marked, hticked_id]
    cases ho : st.overridden with
    | false =>
        rw [if_pos (hmem st hst ho)]
        simp [SimulatedSensor.ticked, SimulatedSensor.afterTick, ho]
    | true =>
        simp only [SimulatedSensor.ticked, SimulatedSensor.afterTick, ho, if_true]
        split
        · rfl
        · rw [← ho]
  · intro hagree
    refine hall.valuesAgree (hshape.sound hw).sensor_ids_nodup hsensor ?_
    intro st' hst' hnot
    obtain ⟨st, hst, rfl⟩ := List.mem_map.mp hst'
    rw [hticked_id] at hnot ⊢
    cases ho : st.overridden with
    | false => exact absurd (hmem st hst ho) hnot
    | true =>
        simp only [SimulatedSensor.ticked, ho, if_true]
        exact hagree st hst

/-- The sensor after the simulation is switched. -/
def SimulatedSensor.afterSwitch (st : SimulatedSensor) (enabled : Bool) : SimulatedSensor :=
  if enabled then { st with overridden := false }
  else { st with value := false, overridden := true }

/-- What switching the simulation does: the flags of all sensors are cleared, but a switch
to off writes to all of them and so marks them all as overridden. -/
structure Switched (enabled : Bool) (w w' : World) : Prop where
  shape : SameShape w w'
  flag : w'.nm.simulationEnabled = enabled
  sensors : w'.nm.sensors = w.nm.sensors.map (fun st => st.afterSwitch enabled)
  agree : ValuesAgree w → ValuesAgree w'

/-- The writes that end a switch to off, in a world whose sensors are all off. -/
theorem offWrites_own (depth : Nat) {w₁ : World} (hw : Sound w₁) (hown : ContextsOwn w₁)
    (hshape : SameShape w w₁) (hoff : ∀ st ∈ w₁.nm.sensors, st.value = false) :
    ∃ w', (writeAll (writeValue (depth + 1)) (offWrites w)).run w₁ = .ok ((), w') ∧
      SameShape w₁ w' ∧ w'.nm.simulationEnabled = w₁.nm.simulationEnabled ∧
      w'.nm.sensors = w₁.nm.sensors.map (fun st => { st with overridden := true }) ∧
      ValuesAgree w' := by
  -- Every sensor is written to, with the value that its entry has already.
  have hids : (offWrites w).map Prod.fst = w₁.nm.sensors.map SimulatedSensor.nodeId := by
    rw [offWrites, List.map_map, hshape.sensor_ids]
    exact List.map_id _
  have hsensor : ∀ p ∈ offWrites w,
      ∃ st ∈ w₁.nm.sensors, st.nodeId = p.1 ∧ st.value = p.2 := by
    intro p hp
    obtain ⟨st, hst, hid⟩ := List.mem_map.mp (offWrites_mem hshape p hp)
    obtain ⟨id, -, rfl⟩ := List.mem_map.mp hp
    exact ⟨st, hst, hid, hoff st hst⟩
  obtain ⟨w', hrun, hall⟩ := writeAll_own depth hw hown hsensor
  refine ⟨w', hrun, hall.shape, hall.enabled, ?_, ?_⟩
  · rw [hall.sensors]
    refine List.map_congr_left fun st hst => ?_
    rw [SimulatedSensor.marked, hids, if_pos (List.mem_map.mpr ⟨st, hst, rfl⟩)]
  · refine hall.valuesAgree hw.sensor_ids_nodup hsensor fun st hst hnot => absurd ?_ hnot
    rw [hids]
    exact List.mem_map.mpr ⟨st, hst, rfl⟩

/-- The locked section of a switch to on clears the flags and nothing else. -/
theorem switched_on (w : World) : Switched true w (w.switched true) := by
  refine ⟨sameShape_switched w true, rfl, rfl, fun h st' hst' => ?_⟩
  obtain ⟨st, hst, rfl⟩ := List.mem_map.mp hst'
  exact h st hst

/-- After the locked section of a switch to off, every sensor is off. -/
theorem switched_off (w : World) : ∀ st ∈ (w.switched false).nm.sensors, st.value = false := by
  intro st' hst'
  obtain ⟨st, -, rfl⟩ := List.mem_map.mp hst'
  rfl

/-- `simulation_enabled_write_callback` switches the simulation. -/
theorem simulationEnabledWriteCallback_own (depth : Nat) (hw : Sound w)
    (hown : ContextsOwn w) (hfit : w.nm.sensors.length ≤ serverMaxNodes) (enabled : Bool) :
    ∃ w', (simulationEnabledWriteCallback (writeValue (depth + 1)) (.boolean enabled)).run w
        = .ok ((), w') ∧ Switched enabled w w' := by
  have hshape := sameShape_switched w enabled
  cases enabled with
  | true =>
      refine ⟨w.switched true, ?_, switched_on w⟩
      simp only [simulationEnabledWriteCallback, Variant.readBoolean]
      rw [run_bind_ok (switchSection_run hw.mutex hfit true)]
      rfl
  | false =>
      obtain ⟨w', hrun, hshape', henabled, hsensors, hagree⟩ := offWrites_own depth
        (hshape.sound hw) (hshape.contextsOwn hown) hshape (switched_off w)
      refine ⟨w', ?_, hshape.trans hshape', henabled, ?_, fun _ => hagree⟩
      · simp only [simulationEnabledWriteCallback, Variant.readBoolean]
        rw [run_bind_ok (switchSection_run hw.mutex hfit false)]
        exact hrun
      · rw [hsensors]
        show (w.nm.sensors.map _).map _ = _
        rw [List.map_map]
        rfl

/-- The node of that id switches the simulation when it is written to. -/
def SwitchNode (space : AddressSpace) (id : NodeId) : Prop :=
  ∃ n v, space.find id = some n ∧ n.vAttr = some v ∧ v.onWrite = some .simulationEnabledWrite

/-- A sensor node is no switch. -/
theorem SensorNode.not_switch {space : AddressSpace} {id : NodeId} (h : SensorNode space id) :
    ¬ SwitchNode space id := by
  rintro ⟨n, v, hn, hv, hcb⟩
  obtain ⟨n', v', hn', hv', -, hcb'⟩ := h
  obtain ⟨rfl, rfl⟩ := attribute_unique hn hv hn' hv'
  cases hcb.symm.trans hcb'

/-- A client switches the simulation by writing a Boolean to the node of that id. -/
def AddressSpace.isSwitch (space : AddressSpace) (id : NodeId) : Bool :=
  match (space.find id).bind UaNode.vAttr with
  | some v => v.dataType = .boolean && v.onWrite = some .simulationEnabledWrite
  | none => false

theorem isSwitch_iff {space : AddressSpace} {id : NodeId} :
    space.isSwitch id = true ↔ ∃ n v, space.find id = some n ∧ n.vAttr = some v ∧
      v.dataType = .boolean ∧ v.onWrite = some .simulationEnabledWrite := by
  simp only [AddressSpace.isSwitch]
  constructor
  · intro h
    split at h
    · rename_i v hv
      obtain ⟨n, hn, hattr⟩ := Option.bind_eq_some_iff.mp hv
      simp only [Bool.and_eq_true, decide_eq_true_eq] at h
      exact ⟨n, v, hn, hattr, h⟩
    · cases h
  · rintro ⟨n, v, hn, hv, hdt, hcb⟩
    rw [hn, Option.bind_some, hv]
    simp [hdt, hcb]

/-- Which nodes are switches does not depend on the values. -/
theorem SameShape.isSwitch (h : SameShape w w') (id : NodeId) :
    w'.space.isSwitch id = w.space.isSwitch id := by
  rw [Bool.eq_iff_iff, isSwitch_iff, isSwitch_iff]
  constructor
  · rintro ⟨n, v, hn, hv, hdt, hcb⟩
    obtain ⟨n', v', hn', hv', hdt', -, hcb', -⟩ := h.symm.find_some hn hv
    exact ⟨n', v', hn', hv', hdt'.trans hdt, hcb'.trans hcb⟩
  · rintro ⟨n, v, hn, hv, hdt, hcb⟩
    obtain ⟨n', v', hn', hv', hdt', -, hcb', -⟩ := h.find_some hn hv
    exact ⟨n', v', hn', hv', hdt'.trans hdt, hcb'.trans hcb⟩

/-- Being a switch does not depend on the value. -/
theorem SameShape.switchNode (h : SameShape w w') {id : NodeId}
    (hid : SwitchNode w.space id) : SwitchNode w'.space id := by
  obtain ⟨n, v, hn, hv, hcb⟩ := hid
  obtain ⟨n', v', hn', hv', -, -, hcb', -⟩ := h.find_some hn hv
  exact ⟨n', v', hn', hv', hcb'.trans hcb⟩

/-- A value stored in another node does not touch the sensors. -/
theorem ValuesAgree.storeValue (h : ValuesAgree w) {id : NodeId} (v : Variant)
    (hid : ∀ st ∈ w.nm.sensors, st.nodeId ≠ id) : ValuesAgree (w.storeValue id v) := by
  intro st hst
  rw [← h st hst]
  exact valueOf_storeValue_of_ne (hid st hst) v

/-- Every node that calls `sensor_write_callback` has an element in the sensors array. -/
def SensorsCover (w : World) : Prop :=
  ∀ id n v, w.space.find id = some n → n.vAttr = some v → v.onWrite = some .sensorWrite →
    ∃ st ∈ w.nm.sensors, st.nodeId = id

/-- The shape tells which nodes call `sensor_write_callback`. -/
theorem SameShape.sensorsCover (h : SameShape w w') (hcover : SensorsCover w) :
    SensorsCover w' := by
  intro id n v hn hv hcb
  obtain ⟨n₀, v₀, hn₀, hv₀, -, -, hcb₀, -⟩ := h.symm.find_some hn hv
  obtain ⟨st, hst, hid⟩ := hcover id n₀ v₀ hn₀ hv₀ (hcb₀.trans hcb)
  have hmem : id ∈ w'.nm.sensors.map SimulatedSensor.nodeId := by
    rw [h.sensor_ids]
    exact List.mem_map.mpr ⟨st, hst, hid⟩
  obtain ⟨st', hst', hid'⟩ := List.mem_map.mp hmem
  exact ⟨st', hst', hid'⟩

/-- What a write to a node does. -/
inductive WriteEffect (id : NodeId) (v : Scalar) (w : World) : World → Prop where
  /-- The write is rejected, or the node has no callback that acts on it. -/
  | quiet (w' : World) (hquiet : ∀ st ∈ w.nm.sensors, st.nodeId ≠ id ∨ v.dataType ≠ .boolean)
      (hswitch : w.space.isSwitch id = true → v.dataType ≠ .boolean)
      (hshape : SameShape w w')
      (henabled : w'.nm.simulationEnabled = w.nm.simulationEnabled)
      (hsensors : w'.nm.sensors = w.nm.sensors)
      (hagree : ValuesAgree w → ValuesAgree w') : WriteEffect id v w w'
  /-- The node belongs to a sensor. -/
  | sensor (st : SimulatedSensor) (b : Bool) (w' : World) (hst : st ∈ w.nm.sensors)
      (hid : st.nodeId = id) (hv : v = .boolean b) (hwritten : Written id b w w') :
      WriteEffect id v w w'
  /-- The node switches the simulation. -/
  | switch (enabled : Bool) (w' : World) (hnode : w.space.isSwitch id = true)
      (hv : v = .boolean enabled) (hswitched : Switched enabled w w') : WriteEffect id v w w'

/-- A write keeps the shape and the agreement of the values. -/
theorem WriteEffect.keeps {id : NodeId} {v : Scalar} (h : WriteEffect id v w w') :
    SameShape w w' ∧ (ValuesAgree w → ValuesAgree w') := by
  cases h with
  | quiet _ _ _ hshape _ _ hagree => exact ⟨hshape, hagree⟩
  | sensor st b _ _ _ _ hwritten => exact ⟨hwritten.shape, hwritten.valuesAgree⟩
  | switch enabled _ _ _ hswitched => exact ⟨hswitched.shape, hswitched.agree⟩

/-- A rejected write has no effect: the server does not take a `Boolean` for the node. -/
theorem writeEffect_rejected (hw : Sound w) {id : NodeId} {v : Scalar}
    (h : ∀ n vAttr, w.space.find id = some n → n.vAttr = some vAttr →
      v.dataType ≠ vAttr.dataType) : WriteEffect id v w w := by
  refine .quiet w (fun st hst => ?_) (fun hswitch hbool => ?_) (SameShape.refl w) rfl rfl
    fun hagree => hagree
  -- The node of a sensor takes a `Boolean`, and so does the node of a switch.
  · by_contra hboth
    push Not at hboth
    obtain ⟨n, vAttr, hn, hv, hdt, -⟩ := hw.sensor_live st hst
    exact h n vAttr (hboth.1 ▸ hn) hv (hboth.2.trans hdt.symm)
  · obtain ⟨n, vAttr, hn, hv, hdt, -⟩ := isSwitch_iff.mp hswitch
    exact h n vAttr hn hv (hbool.trans hdt.symm)

section Accepted

variable {id : NodeId} {n : UaNode} {vAttr : UaVariable} {v : Scalar}
  (hn : w.space.find id = some n) (hv : n.vAttr = some vAttr)

include hn hv

/-- The node of a sensor is a `Boolean` that calls `sensor_write_callback`. -/
theorem attribute_of_sensor (hw : Sound w) {st : SimulatedSensor} (hst : st ∈ w.nm.sensors)
    (hid : st.nodeId = id) :
    vAttr.dataType = .boolean ∧ vAttr.onWrite = some .sensorWrite := by
  obtain ⟨n', v', hn', hv', hbool, hcb⟩ := hw.sensor_live st hst
  rw [hid, hn, Option.some.injEq] at hn'
  subst hn'
  rw [hv, Option.some.injEq] at hv'
  subst hv'
  exact ⟨hbool, hcb⟩

/-- A switch calls `simulation_enabled_write_callback`. -/
theorem attribute_of_switch (hswitch : w.space.isSwitch id = true) :
    vAttr.onWrite = some .simulationEnabledWrite := by
  obtain ⟨n', v', hn', hv', -, hcb⟩ := isSwitch_iff.mp hswitch
  rw [hn, Option.some.injEq] at hn'
  subst hn'
  rw [hv, Option.some.injEq] at hv'
  subst hv'
  exact hcb

/-- A write to a node without a callback stores the value. -/
theorem writeValue_plain (depth : Nat) (hw : Sound w) (hdt : v.dataType = vAttr.dataType)
    (hcb : vAttr.onWrite = none) :
    ∃ rc w', (writeValue (depth + 1) id v).run w = .ok (rc, w') ∧ WriteEffect id v w w' := by
  have hother : ∀ st ∈ w.nm.sensors, st.nodeId ≠ id := by
    intro st hst hid
    cases hcb.symm.trans (attribute_of_sensor hn hv hw hst hid).2
  refine ⟨.good, w.storeValue id v, writeValue_stored depth hn hv (storable_scalar.mpr hdt) ?_,
    .quiet _ (fun st hst => Or.inl (hother st hst)) (fun hswitch => ?_)
      (sameShape_storeValue w id v) rfl rfl fun hagree => hagree.storeValue v hother⟩
  · simp only [runCallback, hcb]
    rfl
  · cases hcb.symm.trans (attribute_of_switch hn hv hswitch)

/-- A write to the node of a sensor goes through to its element. -/
theorem writeValue_toSensor (depth : Nat) (hw : Sound w) (hown : ContextsOwn w)
    (hcover : SensorsCover w) (hdt : v.dataType = vAttr.dataType)
    (hcb : vAttr.onWrite = some .sensorWrite) :
    ∃ rc w', (writeValue (depth + 1) id v).run w = .ok (rc, w') ∧ WriteEffect id v w w' := by
  obtain ⟨st, hst, hid⟩ := hcover id n vAttr hn hv hcb
  have hbool : v.dataType = .boolean := hdt.trans (attribute_of_sensor hn hv hw hst hid).1
  cases v with
  | boolean b =>
      obtain ⟨w', hrun, hwritten⟩ := writeValue_own depth hw hown hst b
      rw [hid] at hrun hwritten
      exact ⟨.good, w', hrun, .sensor st b w' hst hid rfl hwritten⟩
  | int32 i => cases hbool
  | double bits => cases hbool
  | string s => cases hbool

/-- A write to a simulation switch switches the simulation, unless there are too many sensors
for the array on the stack. A switch of another data type ignores the value. -/
theorem writeValue_toSwitch (depth : Nat) (hw : Sound w) (hown : ContextsOwn w)
    (hdt : v.dataType = vAttr.dataType)
    (hcb : vAttr.onWrite = some .simulationEnabledWrite) :
    (∃ rc w', (writeValue (depth + 2) id v).run w = .ok (rc, w') ∧ WriteEffect id v w w') ∨
    (serverMaxNodes < w.nm.sensors.length ∧
      (writeValue (depth + 2) id v).run w = .error .arrayOverflow) := by
  have hstore := sameShape_storeValue w id v
  have hother : ∀ st ∈ w.nm.sensors, st.nodeId ≠ id := by
    intro st hst hid
    cases hcb.symm.trans (attribute_of_sensor hn hv hw hst hid).2
  -- The callback ignores a value that is no `Boolean`.
  by_cases hbool : ∃ b, v = .boolean b
  · obtain ⟨b, rfl⟩ := hbool
    rcases Nat.lt_or_ge serverMaxNodes w.nm.sensors.length with hover | hfit
    · right
      refine ⟨hover, writeValue_overflow (depth + 1) hw (b := b) ?_ hover⟩
      exact callback_eq_some.mpr ⟨n, vAttr, hn, hv, hdt.symm, hcb, rfl, nofun⟩
    · left
      obtain ⟨w', hrun, hswitched⟩ := simulationEnabledWriteCallback_own depth
        (hstore.sound hw) (hstore.contextsOwn hown) hfit b
      have heffect : Switched b w w' :=
        ⟨hstore.trans hswitched.shape, hswitched.flag, hswitched.sensors,
          fun hagree => hswitched.agree (hagree.storeValue _ hother)⟩
      refine ⟨.good, w', writeValue_stored (depth + 1) hn hv (storable_scalar.mpr hdt) ?_,
        .switch b w' (isSwitch_iff.mpr ⟨n, vAttr, hn, hv, hdt.symm, hcb⟩) rfl heffect⟩
      simp only [runCallback, hcb]
      exact hrun
  · left
    have hdt' : v.dataType ≠ .boolean := by
      intro h
      cases v with
      | boolean b => exact hbool ⟨b, rfl⟩
      | int32 i => cases h
      | double bits => cases h
      | string s => cases h
    refine ⟨.good, w.storeValue id v,
      writeValue_stored (depth + 1) hn hv (storable_scalar.mpr hdt) ?_,
      .quiet _ (fun st hst => Or.inl (hother st hst)) (fun _ => hdt') hstore rfl rfl
        fun hagree => hagree.storeValue v hother⟩
    simp only [runCallback, hcb]
    refine simulationEnabledWriteCallback_ignored _ ?_
    cases v with
    | boolean b => exact absurd ⟨b, rfl⟩ hbool
    | int32 i => rfl
    | double bits => rfl
    | string s => rfl

end Accepted

/-- **Every write has one of the three effects**, or it switches the simulation with too many
sensors for the array on the stack. -/
theorem writeValue_cases (depth : Nat) (hw : Sound w) (hown : ContextsOwn w)
    (hcover : SensorsCover w) (id : NodeId) (v : Scalar) :
    (∃ rc w', (writeValue (depth + 2) id v).run w = .ok (rc, w') ∧ WriteEffect id v w w') ∨
    (serverMaxNodes < w.nm.sensors.length ∧
      (writeValue (depth + 2) id v).run w = .error .arrayOverflow) := by
  by_cases h : ∀ n vAttr, w.space.find id = some n → n.vAttr = some vAttr →
      v.dataType ≠ vAttr.dataType
  · -- The server rejects the write.
    obtain ⟨rc, -, hrun⟩ := writeValue_rejected (v := v) (depth + 1) fun n vAttr hn hv =>
      Bool.eq_false_iff.mpr fun htake => h n vAttr hn hv (storable_scalar.mp htake)
    exact Or.inl ⟨rc, w, hrun, writeEffect_rejected hw h⟩
  · push Not at h
    obtain ⟨n, vAttr, hn, hv, hdt⟩ := h
    cases hcb : vAttr.onWrite with
    | none => exact Or.inl (writeValue_plain hn hv (depth + 1) hw hdt hcb)
    | some callback =>
        cases callback with
        | sensorWrite =>
            exact Or.inl (writeValue_toSensor hn hv (depth + 1) hw hown hcover hdt hcb)
        | simulationEnabledWrite => exact writeValue_toSwitch hn hv depth hw hown hdt hcb

/-- With sensors that fit the array, every write has one of the three effects. -/
theorem writeValue_effect (depth : Nat) (hw : Sound w) (hown : ContextsOwn w)
    (hcover : SensorsCover w) (hfit : w.nm.sensors.length ≤ serverMaxNodes) (id : NodeId)
    (v : Scalar) :
    ∃ rc w', (writeValue (depth + 2) id v).run w = .ok (rc, w') ∧ WriteEffect id v w w' := by
  rcases writeValue_cases depth hw hown hcover id v with heffect | ⟨hover, -⟩
  · exact heffect
  · exact absurd hfit (Nat.not_le_of_lt hover)

/-- The write of a switch over HTTP to the node that the program remembers, which is a switch.
Its callback may go over the sensors a second time. -/
theorem switchNodeWrite_own (hw : Sound w) (hown : ContextsOwn w) (hcover : SensorsCover w)
    (hwired : ∀ id, w.nm.simulationEnabledNodeId = some id → SwitchNode w.space id)
    (hfit : w.nm.sensors.length ≤ serverMaxNodes) (enabled : Bool) :
    ∃ w₁, (switchNodeWrite enabled w.nm.simulationEnabledNodeId).run (w.switched enabled)
        = .ok ((), w₁) ∧ SameShape (w.switched enabled) w₁ ∧
      w₁.nm.simulationEnabled = enabled ∧
      (w₁.nm.sensors = (w.switched enabled).nm.sensors ∨
        w₁.nm.sensors = (w.switched enabled).nm.sensors.map
          (fun st => st.afterSwitch enabled)) ∧
      (ValuesAgree (w.switched enabled) → ValuesAgree w₁) := by
  have hshape := sameShape_switched w enabled
  have hsound := hshape.sound hw
  have hfit' : (w.switched enabled).nm.sensors.length ≤ serverMaxNodes := by
    rw [hshape.length_sensors]
    exact hfit
  cases hid : w.nm.simulationEnabledNodeId with
  | none => exact ⟨_, rfl, SameShape.refl _, rfl, Or.inl rfl, fun h => h⟩
  | some nodeId =>
      have hswitch : SwitchNode (w.switched enabled).space nodeId := hwired nodeId hid
      obtain ⟨rc, w₁, hrun, heffect⟩ := writeValue_effect 6 hsound (hshape.contextsOwn hown)
        (hshape.sensorsCover hcover) hfit' nodeId (.boolean enabled)
      refine ⟨w₁, discard_run hrun, ?_⟩
      -- The write is rejected, or it goes to the switch and its callback runs. A sensor has another
      -- callback than a switch, so that it is none.
      cases heffect with
      | quiet _ _ hrejected hshape₁ henabled hsensors hagree =>
          exact ⟨hshape₁, henabled, Or.inl hsensors, hagree⟩
      | sensor st b _ hst hstid _ _ =>
          exact absurd (hstid ▸ hswitch) (hsound.sensor_live st hst).not_switch
      | switch b _ _ hv hswitched =>
          obtain rfl : enabled = b := Scalar.boolean.inj hv
          exact ⟨hswitched.shape, hswitched.flag, Or.inr hswitched.sensors, hswitched.agree⟩

/-- After the locked section of a switch to off, with or without a second one, marking every
sensor gives what a switch to off gives. -/
theorem map_marked_off {w w₁ : World}
    (h : w₁.nm.sensors = (w.switched false).nm.sensors ∨
      w₁.nm.sensors = (w.switched false).nm.sensors.map (fun st => st.afterSwitch false)) :
    w₁.nm.sensors.map (fun st => { st with overridden := true })
      = w.nm.sensors.map (fun st => st.afterSwitch false) := by
  have hoff : (w.switched false).nm.sensors
      = w.nm.sensors.map (fun st => st.switched false) := rfl
  rcases h with hsame | htwice
  · rw [hsame, hoff, List.map_map]
    rfl
  · rw [htwice, hoff, List.map_map, List.map_map]
    rfl

/-- A switch over HTTP switches the simulation, when the node that the program remembers is
a switch. -/
theorem nodeManagerSetSimulationEnabled_own (hw : Sound w) (hown : ContextsOwn w)
    (hcover : SensorsCover w)
    (hwired : ∀ id, w.nm.simulationEnabledNodeId = some id → SwitchNode w.space id)
    (hfit : w.nm.sensors.length ≤ serverMaxNodes) (enabled : Bool) :
    ∃ w', (nodeManagerSetSimulationEnabled enabled).run w = .ok ((), w') ∧
      Switched enabled w w' := by
  have hshape := sameShape_switched w enabled
  obtain ⟨w₁, hrun₁, hshape₁, henabled₁, hsensors₁, hagree₁⟩ :=
    switchNodeWrite_own hw hown hcover hwired hfit enabled
  rw [nodeManagerSetSimulationEnabled_run hw.mutex hfit, run_bind_ok hrun₁]
  cases enabled with
  | true =>
      refine ⟨w₁, rfl, hshape.trans hshape₁, henabled₁, ?_,
        fun h => hagree₁ ((switched_on w).agree h)⟩
      have hon : (w.switched true).nm.sensors
          = w.nm.sensors.map (fun st => st.afterSwitch true) := rfl
      -- Clearing the flags twice is clearing them once.
      rcases hsensors₁ with hsame | htwice
      · rw [hsame, hon]
      · rw [htwice, hon, List.map_map]
        rfl
  | false =>
      have hoff : ∀ st ∈ w₁.nm.sensors, st.value = false := by
        intro st hst
        rcases hsensors₁ with hsame | htwice
        · exact switched_off w st (hsame ▸ hst)
        · rw [htwice] at hst
          obtain ⟨st₀, -, rfl⟩ := List.mem_map.mp hst
          rfl
      obtain ⟨w', hrun, hshape', henabled', hsensors', hagree'⟩ := offWrites_own 7
        ((hshape.trans hshape₁).sound hw) ((hshape.trans hshape₁).contextsOwn hown)
        (hshape.trans hshape₁) hoff
      refine ⟨w', hrun, (hshape.trans hshape₁).trans hshape', henabled'.trans henabled₁, ?_,
        fun _ => hagree'⟩
      rw [hsensors', map_marked_off hsensors₁]

end SmartFactory.Server
