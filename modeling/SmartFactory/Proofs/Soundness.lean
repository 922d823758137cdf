import SmartFactory.Lib.Keyed
import SmartFactory.Proofs.Operations

/-!
# `SmartFactory.Proofs.Soundness`: what holds in every state of the server

`Sound` collects the facts that no operation ever breaks: the mutex is free between
operations, node ids are distinct and derived from browse names, the entries of the browse
map and of the sensors array belong to live nodes, and no browse name occurs twice among
them.

It is proved from `Created` and `Removed`, the two ways in which the set of nodes changes,
and from `SameShape`, which is all that the operations of the simulation do.
-/

set_option autoImplicit false

namespace SmartFactory.Server

/-- The node of that id is a Boolean variable that calls `sensor_write_callback`. -/
def SensorNode (space : AddressSpace) (id : NodeId) : Prop :=
  ∃ n v, space.find id = some n ∧ n.vAttr = some v ∧ v.dataType = .boolean ∧
    v.onWrite = some .sensorWrite

/-- The browse map has an entry of that name. -/
def World.InMap (w : World) (b : CString) : Prop :=
  ∃ e ∈ w.map.entries, e.browseName.chars = b

/-- The facts that hold between any two operations of the server. -/
structure Sound (w : World) : Prop where
  mutex : w.nm.mutexHeld = false
  ids_nodup : w.space.ids.Nodup
  ids_string : ∀ id ∈ w.space.ids, ∃ b, id = w.nodeIdOf b
  map_id : ∀ e ∈ w.map.entries, e.nodeId = w.nodeIdOf e.browseName.chars
  map_live : ∀ e ∈ w.map.entries, e.nodeId ∈ w.space.ids
  map_nodup : (w.map.entries.map (fun e => e.browseName.chars)).Nodup
  sensor_id : ∀ st ∈ w.nm.sensors, st.nodeId = w.nodeIdOf st.browseName.chars
  sensor_live : ∀ st ∈ w.nm.sensors, SensorNode w.space st.nodeId
  sensors_nodup : (w.nm.sensors.map (fun st => st.browseName.chars)).Nodup

/-- Different browse names give different node ids. -/
theorem nodeIdOf_inj {w : World} {b c : CString} :
    w.nodeIdOf b = w.nodeIdOf c ↔ b = c := by
  simp [World.nodeIdOf]

/-- Node ids depend on the namespace index only. -/
theorem nodeIdOf_congr {w w' : World} (h : w'.nm.nsIdx = w.nm.nsIdx) (b : CString) :
    w'.nodeIdOf b = w.nodeIdOf b := by
  rw [World.nodeIdOf, World.nodeIdOf, h]

/-- The browse map finds a name exactly when it has an entry of that name. -/
theorem mapFind_ne_none {w : World} {b : CString} : w.mapFind b ≠ none ↔ w.InMap b := by
  rw [World.mapFind, SlotTable.find?_eq]
  simp [World.InMap]

/-- An entry that is found carries the name and is one of the entries. -/
theorem mem_of_mapFind {w : World} {b : CString} {e : BrowseMapEntry}
    (h : w.mapFind b = some e) : e ∈ w.map.entries ∧ e.browseName.chars = b := by
  rw [World.mapFind, SlotTable.find?_eq] at h
  exact ⟨List.mem_of_find?_eq_some h, by simpa using List.find?_some h⟩

/-- In a sound state, the node of an entry of the browse map is live. -/
theorem Sound.live_of_inMap {w : World} (hw : Sound w) {b : CString} (h : w.InMap b) :
    w.nodeIdOf b ∈ w.space.ids := by
  obtain ⟨e, he, rfl⟩ := h
  rw [← hw.map_id e he]
  exact hw.map_live e he

/-- In a sound state, the node of an element of the sensors array is live. -/
theorem Sound.live_of_sensor {w : World} (hw : Sound w) {st : SimulatedSensor}
    (h : st ∈ w.nm.sensors) : st.nodeId ∈ w.space.ids := by
  obtain ⟨n, v, hn, -⟩ := hw.sensor_live st h
  exact AddressSpace.exists_find.mp ⟨n, hn⟩

/-- In a sound state, the ids of the sensors are distinct. -/
theorem Sound.sensor_ids_nodup {w : World} (hw : Sound w) :
    (w.nm.sensors.map SimulatedSensor.nodeId).Nodup := by
  have hids : w.nm.sensors.map SimulatedSensor.nodeId
      = (w.nm.sensors.map (fun st => st.browseName.chars)).map w.nodeIdOf := by
    rw [List.map_map]
    exact List.map_congr_left fun st hst => hw.sensor_id st hst
  rw [hids]
  exact hw.sensors_nodup.map fun b c h => nodeIdOf_inj.mp h

/-! ### Creations -/

variable {host : Host} {d : ServerNodeDef} {w w' : World}

/-- The new node was not live before. -/
theorem Created.not_mem (h : Created host d w w') :
    w.nodeIdOf d.browseName.chars ∉ w.space.ids :=
  AddressSpace.find_eq_none.mp h.fresh

/-- A live node keeps its attributes when another one is created. -/
theorem Created.find_of_mem (h : Created host d w w') {id : NodeId} (hid : id ∈ w.space.ids) :
    w'.space.find id = w.space.find id :=
  h.others id fun he => h.not_mem (he ▸ hid)

/-- Membership among the ids after a creation. -/
theorem Created.mem_ids (h : Created host d w w') {id : NodeId} :
    id ∈ w'.space.ids ↔ id ∈ w.space.ids ∨ id = w.nodeIdOf d.browseName.chars := by
  rw [h.ids, List.mem_append, List.mem_singleton]

/-- A new node has no entry in the browse map yet. -/
theorem Created.not_inMap (h : Created host d w w') (hw : Sound w) :
    ¬ w.InMap d.browseName.chars :=
  fun hmap => h.not_mem (hw.live_of_inMap hmap)

/-- A new node has no element in the sensors array yet. -/
theorem Created.not_sensor (h : Created host d w w') (hw : Sound w) :
    ∀ st ∈ w.nm.sensors, st.browseName.chars ≠ d.browseName.chars := by
  intro st hst he
  have hlive := hw.live_of_sensor hst
  rw [hw.sensor_id st hst, he] at hlive
  exact h.not_mem hlive

/-- The sensors after a creation are the ones before and at most one for the new node,
which is then wired to it. -/
theorem Created.sensors_cases (h : Created host d w w') :
    w'.nm.sensors = w.nm.sensors ∨
    (d.isSimulated = true ∧ w'.nm.sensors =
        w.nm.sensors ++ [newSensor d.browseName.chars (w.nodeIdOf d.browseName.chars)] ∧
      SensorNode w'.space (w.nodeIdOf d.browseName.chars)) := by
  -- Only a connected node has a new element in the array.
  obtain ⟨n, hfind, -, -, -, hwired⟩ := h.self
  cases hwired with
  | plain _ hsensors => exact Or.inl hsensors
  | failed _ _ _ hsensors => exact Or.inl hsensors
  | connected hsim hsensors _ hv => exact Or.inr ⟨hsim, hsensors, n, _, hfind, hv, rfl, rfl⟩

/-- The element that is filled in for a definition carries its browse name. -/
@[simp] theorem newSensor_browseName (id : NodeId) :
    (newSensor d.browseName.chars id).browseName = d.browseName :=
  snprintf_buf d.browseName

/-- A creation keeps a sound state sound. -/
theorem Created.sound (h : Created host d w w') (hw : Sound w) : Sound w' := by
  have hid : ∀ b, w'.nodeIdOf b = w.nodeIdOf b := nodeIdOf_congr h.nsIdx
  have hmem : ∀ e ∈ w'.map.entries,
      e = ⟨d.browseName, w.nodeIdOf d.browseName.chars⟩ ∨ e ∈ w.map.entries := by
    intro e he
    rw [h.map] at he
    exact SlotTable.mem_of_mem_insert he
  -- The nodes of the old sensors are still wired to the callback.
  have hold : ∀ st ∈ w.nm.sensors, SensorNode w'.space st.nodeId := by
    intro st hst
    obtain ⟨n, v, hn, hrest⟩ := hw.sensor_live st hst
    exact ⟨n, v, (h.find_of_mem (hw.live_of_sensor hst)).trans hn, hrest⟩
  refine
    { mutex := h.mutexHeld.trans hw.mutex
      ids_nodup := ?_
      ids_string := ?_
      map_id := ?_
      map_live := ?_
      map_nodup := ?_
      sensor_id := ?_
      sensor_live := ?_
      sensors_nodup := ?_ }
  · rw [h.ids, List.nodup_append]
    refine ⟨hw.ids_nodup, List.nodup_singleton _, fun a ha b hb hab => h.not_mem ?_⟩
    rw [List.mem_singleton] at hb
    rw [← hb, ← hab]
    exact ha
  · intro id hmemid
    rcases h.mem_ids.mp hmemid with hold | rfl
    · obtain ⟨b, hb⟩ := hw.ids_string id hold
      exact ⟨b, hb.trans (hid b).symm⟩
    · exact ⟨d.browseName.chars, (hid _).symm⟩
  · intro e he
    rw [hid]
    rcases hmem e he with rfl | he
    · rfl
    · exact hw.map_id e he
  · intro e he
    rw [h.mem_ids]
    rcases hmem e he with rfl | he
    · exact Or.inr rfl
    · exact Or.inl (hw.map_live e he)
  · -- The new entry is dropped when the map is full, and its name is new otherwise.
    rw [h.map]
    rcases Nat.lt_or_ge w.map.entries.length nmMaxEntries with hroom | hfull
    · rw [((SlotTable.insert_perm _ w.map hroom).map _).nodup_iff, List.map_cons,
        List.nodup_cons]
      refine ⟨fun hin => h.not_inMap hw ?_, hw.map_nodup⟩
      obtain ⟨e, he, hname⟩ := List.mem_map.mp hin
      exact ⟨e, he, hname⟩
    · rw [SlotTable.insert_of_full _ w.map hfull]
      exact hw.map_nodup
  · intro st hst
    rw [hid]
    rcases h.sensors_cases with hsame | ⟨-, hnew, -⟩
    · exact hw.sensor_id st (hsame ▸ hst)
    · rw [hnew, List.mem_append, List.mem_singleton] at hst
      rcases hst with hst | rfl
      · exact hw.sensor_id st hst
      · rw [newSensor_browseName]
        rfl
  · intro st hst
    rcases h.sensors_cases with hsame | ⟨-, hnew, hnode⟩
    · exact hold st (hsame ▸ hst)
    · rw [hnew, List.mem_append, List.mem_singleton] at hst
      rcases hst with hst | rfl
      · exact hold st hst
      · exact hnode
  · rcases h.sensors_cases with hsame | ⟨-, hnew, -⟩
    · rw [hsame]
      exact hw.sensors_nodup
    · rw [hnew, List.map_append, List.nodup_append]
      refine ⟨hw.sensors_nodup, List.nodup_singleton _, fun a ha b hb hab => ?_⟩
      obtain ⟨st, hst, rfl⟩ := List.mem_map.mp ha
      rw [List.map_singleton, List.mem_singleton, newSensor_browseName] at hb
      exact h.not_sensor hw st hst (hab.trans hb)

/-! ### Removals -/

variable (cjson : CJson)

/-- Everything that the removal of the node of a browse name changes. `idx` is the place
of its definition. -/
structure Removed (io : SaveIo) (b : CString) (idx : Nat) (w w' : World) : Prop where
  nm : w'.nm = { w.nm with
    config := w.nm.config.removeAt idx
    sensors := w.nm.sensors.eraseP (fun st => st.browseName.chars == b) }
  map : w'.map.entries = w.map.entries.eraseP (fun e => e.browseName.chars == b)
  file : w'.file = (serverConfigSave cjson io (w.nm.config.removeAt idx) w.file).2
  space : (w.InMap b ∧ w'.space = w.space.deleteNode (w.nodeIdOf b)) ∨
    (¬ w.InMap b ∧ w'.space = w.space)

/-- In a sound state, `node_manager_delete` removes the node, its map entry, its sensor and
its definition. -/
theorem removed (hw : Sound w) (io : SaveIo) (b : CString) (idx : Nat) :
    Removed cjson io b idx w
      (removeFromConfig cjson io idx (removeSensor b (deleteFromServer b w))) := by
  cases hfind : w.mapFind b with
  | none =>
      -- A name without an entry keeps its node: only the sensor and the definition go.
      have hnot : ¬ w.InMap b := fun h => mapFind_ne_none.mpr h hfind
      have hsame : deleteFromServer b w = w := by
        simp only [deleteFromServer, hfind]
      rw [hsame]
      refine ⟨rfl, ?_, rfl, Or.inr ⟨hnot, rfl⟩⟩
      refine (List.eraseP_of_forall_not fun e he => ?_).symm
      simpa using fun hname => hnot ⟨e, he, hname⟩
  | some e =>
      obtain ⟨he, hname⟩ := mem_of_mapFind hfind
      have hid : e.nodeId = w.nodeIdOf b := hname ▸ hw.map_id e he
      have hdelete : deleteFromServer b w
          = { w with space := w.space.deleteNode (w.nodeIdOf b) }.mapRemove b := by
        simp only [deleteFromServer, hfind, hid]
      rw [hdelete]
      exact ⟨rfl, SlotTable.entries_erase _ _, rfl, Or.inl ⟨⟨e, he, hname⟩, rfl⟩⟩

variable {cjson} {io : SaveIo} {b : CString} {idx : Nat}

/-- After a removal, the sensor of that name is gone and the others are there. -/
theorem Removed.mem_sensors (h : Removed cjson io b idx w w') (hw : Sound w)
    {st : SimulatedSensor} :
    st ∈ w'.nm.sensors ↔ st ∈ w.nm.sensors ∧ st.browseName.chars ≠ b := by
  rw [h.nm]
  exact Keyed.mem_eraseP_key (fun st : SimulatedSensor => st.browseName.chars)
    hw.sensors_nodup

/-- After a removal, the map entry of that name is gone and the others are there. -/
theorem Removed.inMap (h : Removed cjson io b idx w w') (hw : Sound w) {c : CString} :
    w'.InMap c ↔ w.InMap c ∧ c ≠ b := by
  have hmem : ∀ e, e ∈ w'.map.entries ↔ e ∈ w.map.entries ∧ e.browseName.chars ≠ b := by
    intro e
    rw [h.map]
    exact Keyed.mem_eraseP_key (fun e : BrowseMapEntry => e.browseName.chars)
      hw.map_nodup
  constructor
  · rintro ⟨e, he, rfl⟩
    exact ⟨⟨e, ((hmem e).mp he).1, rfl⟩, ((hmem e).mp he).2⟩
  · rintro ⟨⟨e, he, rfl⟩, hne⟩
    exact ⟨e, (hmem e).mpr ⟨he, hne⟩, rfl⟩

/-- The ids after a removal. -/
theorem Removed.mem_ids (h : Removed cjson io b idx w w') {id : NodeId} :
    id ∈ w'.space.ids ↔ id ∈ w.space.ids ∧ ¬ (w.InMap b ∧ id = w.nodeIdOf b) := by
  rcases h.space with ⟨hin, hspace⟩ | ⟨hout, hspace⟩
  · rw [hspace, AddressSpace.mem_ids_deleteNode]
    simp [hin]
  · rw [hspace]
    simp [hout]

/-- A removal keeps the attributes of the other nodes. -/
theorem Removed.find_of_ne (h : Removed cjson io b idx w w') {id : NodeId}
    (hid : id ≠ w.nodeIdOf b) : w'.space.find id = w.space.find id := by
  rcases h.space with ⟨-, hspace⟩ | ⟨-, hspace⟩
  · rw [hspace, AddressSpace.find_deleteNode, if_neg hid]
  · rw [hspace]

/-- A node that is found after a removal was there before, with the same attributes. -/
theorem Removed.find_some (h : Removed cjson io b idx w w') {id : NodeId} {n : UaNode}
    (hn : w'.space.find id = some n) : w.space.find id = some n := by
  rcases h.space with ⟨-, hspace⟩ | ⟨-, hspace⟩
  · rw [hspace, AddressSpace.find_deleteNode] at hn
    split at hn
    · cases hn
    · exact hn
  · rw [← hspace]
    exact hn

/-- A removal keeps a sound state sound. -/
theorem Removed.sound (h : Removed cjson io b idx w w') (hw : Sound w) : Sound w' := by
  have hns : w'.nm.nsIdx = w.nm.nsIdx := by rw [h.nm]
  have hid : ∀ c, w'.nodeIdOf c = w.nodeIdOf c := nodeIdOf_congr hns
  -- What is left of the map are old entries of other names.
  have hmap : ∀ e ∈ w'.map.entries, e ∈ w.map.entries ∧ e.browseName.chars ≠ b := by
    intro e he
    refine ⟨?_, ((h.inMap hw).mp ⟨e, he, rfl⟩).2⟩
    rw [h.map] at he
    exact List.mem_of_mem_eraseP he
  refine
    { mutex := by rw [h.nm]; exact hw.mutex
      ids_nodup := ?_
      ids_string := ?_
      map_id := ?_
      map_live := ?_
      map_nodup := ?_
      sensor_id := ?_
      sensor_live := ?_
      sensors_nodup := ?_ }
  · rcases h.space with ⟨-, hspace⟩ | ⟨-, hspace⟩
    · rw [hspace]
      exact AddressSpace.nodup_ids_deleteNode hw.ids_nodup
    · rw [hspace]
      exact hw.ids_nodup
  · intro id hmem
    obtain ⟨c, hc⟩ := hw.ids_string id (h.mem_ids.mp hmem).1
    exact ⟨c, hc.trans (hid c).symm⟩
  · intro e he
    rw [hid]
    exact hw.map_id e (hmap e he).1
  · intro e he
    obtain ⟨hin, hne⟩ := hmap e he
    refine h.mem_ids.mpr ⟨hw.map_live e hin, fun hself => hne ?_⟩
    rw [hw.map_id e hin] at hself
    exact nodeIdOf_inj.mp hself.2
  · rw [h.map]
    exact ((List.eraseP_sublist).map _).nodup hw.map_nodup
  · intro st hst
    rw [hid]
    exact hw.sensor_id st ((h.mem_sensors hw).mp hst).1
  · intro st hst
    obtain ⟨hin, hne⟩ := (h.mem_sensors hw).mp hst
    obtain ⟨n, v, hn, hrest⟩ := hw.sensor_live st hin
    -- The node of another sensor has another id, and stays.
    have hother : st.nodeId ≠ w.nodeIdOf b := by
      rw [hw.sensor_id st hin]
      exact fun he => hne (nodeIdOf_inj.mp he)
    exact ⟨n, v, (h.find_of_ne hother).trans hn, hrest⟩
  · rw [h.nm]
    exact ((List.eraseP_sublist).map _).nodup hw.sensors_nodup

end SmartFactory.Server
