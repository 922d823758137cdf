import SmartFactory.Proofs.Filling
import SmartFactory.Proofs.Growth

/-!
# `SmartFactory.Proofs.Contexts`: where the node contexts point

The context of a simulated node is the address of an element of the sensors array, taken
when the node was created. `ContextLaw` says that it stays the address of the node's own
element, so that a client write reaches the right sensor and the status reports the right
value.

Two things move the elements under the contexts: `realloc` may give the array a new
allocation, and a deletion moves the later elements down. `contextLaw_iff` is the extent of
the law: it holds along a run exactly when no growth moves an array in use and no simulated node
goes without an element, during the build (`BuildGrowth`) and after it, and only the last sensor is
ever deleted, together with its node (`KeepsContexts`).

A node whose element was not allocated looks like one that is not simulated. So the law is about
`Traced` states, which know the live nodes that were created with simulation. The configuration
does not: it may have been full when such a node was created.
-/

set_option autoImplicit false

namespace SmartFactory.Server

open Run

variable (cjson : CJson)

/-- The context refers to the element of the sensors array that carries the browse name of
the node. -/
def World.OwnEntry (w : World) (id : NodeId) (context : Option SensorRef) : Prop :=
  ∃ i st, context = some ⟨w.nm.sensorsAlloc, i⟩ ∧ w.nm.sensors[i]? = some st ∧
    id = w.nodeIdOf st.browseName.chars

/-- A world, and the ids of its live nodes that were created with simulation. -/
structure Traced where
  world : World
  simulated : List NodeId

/-- The state after a build: every simulated definition has become a node. -/
def Traced.built (w : World) : Traced where
  world := w
  simulated := (w.nm.config.nodes.filter ServerNodeDef.isSimulated).map fun d =>
    w.nodeIdOf d.browseName.chars

/-- The node that an operation creates with simulation, unless the server refuses it. -/
def Op.simulates (w : World) (op : Op) : Option NodeId :=
  match op.adds with
  | some (_, d) =>
      if d.isSimulated = true ∧ w.nodeIdOf d.browseName.chars ∉ w.space.ids then
        some (w.nodeIdOf d.browseName.chars)
      else none
  | none => none

/-- One step, with the nodes that were created with simulation and are live. -/
def stepTraced (t : Traced) (op : Op) : Option Traced :=
  (stepOp cjson t.world op).map fun w' =>
    { world := w'
      simulated := ((op.simulates t.world).toList ++ t.simulated).filter (· ∈ w'.space.ids) }

/-- The law of the contexts, and what it means for client writes and for the status. -/
structure ContextLaw (t : Traced) : Prop where
  /-- Every node that calls `sensor_write_callback` points at its own element. -/
  own : ∀ id n v, t.world.space.find id = some n → n.vAttr = some v →
    v.onWrite = some .sensorWrite → t.world.OwnEntry id v.context
  /-- The live nodes that were created with simulation do call it. -/
  connected : ∀ id ∈ t.simulated, SensorNode t.world.space id
  /-- A client write to the node of a sensor updates exactly the element of that name. -/
  write : ∀ st ∈ t.world.nm.sensors, ∀ b, ∃ w',
    stepOp cjson t.world (.clientWrite (t.world.nodeIdOf st.browseName.chars) (.boolean b))
      = some w' ∧
    w'.nm.sensors = t.world.nm.sensors.map (fun x =>
      if x.browseName.chars = st.browseName.chars then x.written b else x)
  /-- The value that the status reports for a sensor is the one that its node holds. -/
  status : ValuesAgree t.world

/-- The operation keeps the elements where the contexts point. -/
structure KeepsContexts (w : World) (op : Op) : Prop where
  /-- A growth does not move an array in use. -/
  still : ∀ host d, Creates w op host d → d.isSimulated = true →
    w.nm.sensorCapacity ≤ w.nm.sensors.length →
    host.realloc d.browseName.chars = .moved → w.nm.sensors = []
  /-- A simulated node gets its element. -/
  grows : ∀ host d, Creates w op host d → d.isSimulated = true →
    w.CanGrow host d.browseName.chars
  /-- A sensor is deleted with its node, and it is the last one. -/
  last : ∀ host b idx i st, Deletes w op host b idx → w.nm.sensors[i]? = some st →
    st.browseName.chars = b → w.InMap b ∧ i + 1 = w.nm.sensors.length

/-- The law, in the form in which it is proved. -/
structure ContextsReady (w : World) (simulated : List NodeId) : Prop where
  own : ContextsOwn w
  cover : SensorsCover w
  connected : ∀ id ∈ simulated, SensorNode w.space id
  agree : ValuesAgree w

variable {cjson} {w w' : World} {host : Host} {d : ServerNodeDef} {t t' : Traced}
variable {simulated simulated' : List NodeId}

/-- The same browse name means the same place in the array. -/
theorem Sound.sensor_index_inj (hw : Sound w) {i j : Nat} {st st' : SimulatedSensor}
    (hi : w.nm.sensors[i]? = some st) (hj : w.nm.sensors[j]? = some st')
    (hname : st.browseName.chars = st'.browseName.chars) : i = j := by
  have hi' : (w.nm.sensors.map (fun st => st.browseName.chars))[i]?
      = some st.browseName.chars := by
    rw [List.getElem?_map, hi, Option.map_some]
  have hj' : (w.nm.sensors.map (fun st => st.browseName.chars))[j]?
      = some st.browseName.chars := by
    rw [List.getElem?_map, hj, Option.map_some, hname]
  have hlt : i < (w.nm.sensors.map (fun st => st.browseName.chars)).length :=
    (List.getElem?_eq_some_iff.mp hi').1
  exact (List.getElem?_inj hlt hw.sensors_nodup).mp (hi'.trans hj'.symm)

/-- The two forms of the law say the same about a sound state. -/
theorem contextLaw_iff_ready (hw : Sound t.world) :
    ContextLaw cjson t ↔ ContextsReady t.world t.simulated := by
  constructor
  -- The names of the sensors are distinct, so the element of that name is the one at `i`.
  · intro h
    refine ⟨fun i st hi => ?_, fun id n v hn hv hcb => ?_, h.connected, h.status⟩
    · have hst := List.mem_of_getElem? hi
      obtain ⟨n, v, hn, hv, -, hcb⟩ := hw.sensor_live st hst
      obtain ⟨j, st', hcontext, hj, hid⟩ := h.own st.nodeId n v hn hv hcb
      rw [hw.sensor_id st hst, nodeIdOf_inj] at hid
      rw [hw.sensor_index_inj hi hj hid]
      exact ⟨n, v, hn, hv, hcontext⟩
    · obtain ⟨i, st, -, hi, hid⟩ := h.own id n v hn hv hcb
      have hst := List.mem_of_getElem? hi
      exact ⟨st, hst, (hw.sensor_id st hst).trans hid.symm⟩
  · intro h
    refine ⟨fun id n v hn hv hcb => ?_, h.connected, fun st hst b => ?_, h.agree⟩
    · obtain ⟨st, hst, rfl⟩ := h.cover id n v hn hv hcb
      obtain ⟨i, hi⟩ := List.mem_iff_getElem?.mp hst
      obtain ⟨n', v', hn', hv', hcontext⟩ := h.own i st hi
      obtain ⟨rfl, rfl⟩ := attribute_unique hn hv hn' hv'
      exact ⟨i, st, hcontext, hi, hw.sensor_id st hst⟩
    · obtain ⟨w', hrun, hwritten⟩ := writeValue_own 7 hw h.own hst b
      refine ⟨w', stepOp_eq_some.mpr ⟨.good, ?_⟩, ?_⟩
      · rw [← hw.sensor_id st hst]
        exact hrun
      · rw [hwritten.sensors]
        refine List.map_congr_left fun x hx => ?_
        rw [hw.sensor_id st hst, hw.sensor_id x hx]
        simp only [nodeIdOf_inj]

/-! ### Client writes -/

/-- A client write that returns has one of the effects of a write. -/
theorem clientWrite_effect (hw : Sound w) (h : ContextsReady w simulated) {id : NodeId}
    {v : Scalar} (hstep : stepOp cjson w (.clientWrite id v) = some w') :
    WriteEffect id v w w' := by
  obtain ⟨rc, hrun⟩ := stepOp_eq_some.mp hstep
  rcases writeValue_cases 6 hw h.own h.cover id v with ⟨rc', w₁, hrun₁, heffect⟩ | ⟨-, hover⟩
  · have hsame := hrun₁.symm.trans hrun
    rw [Except.ok.injEq, Prod.mk.injEq] at hsame
    exact hsame.2 ▸ heffect
  · cases hover.symm.trans hrun

/-- The contexts stay ready when the shape and the agreement of the values stay. -/
theorem ContextsReady.step (h : ContextsReady w simulated) (hshape : SameShape w w')
    (hagree : ValuesAgree w → ValuesAgree w') (hsub : simulated' ⊆ simulated) :
    ContextsReady w' simulated' :=
  ⟨hshape.contextsOwn h.own, hshape.sensorsCover h.cover,
    fun id hid => hshape.sensorNode (h.connected id (hsub hid)), hagree h.agree⟩

/-! ### Creations -/

/-- A creation after which the sensors are still connected connected its own one. -/
theorem Created.connected (hc : Created host d w w') (hsim : d.isSimulated = true)
    (hgrow : w.CanGrow host d.browseName.chars) :
    SensorNode w'.space (w.nodeIdOf d.browseName.chars) := by
  obtain ⟨n, hn, -, -, -, hwired⟩ := hc.self
  cases hwired with
  | plain hplain => cases hplain.symm.trans hsim
  | failed _ hfull hfail =>
      rcases hgrow with hroom | hne
      · exact absurd hroom (Nat.not_lt_of_le hfull)
      · exact absurd hfail hne
  | connected _ _ _ hv => exact ⟨n, _, hn, hv, rfl, rfl⟩

/-- A creation leaves the nodes that were there as they were. -/
theorem Created.sensorNode (hc : Created host d w w') {id : NodeId}
    (h : SensorNode w.space id) : SensorNode w'.space id := by
  obtain ⟨n, v, hn, hrest⟩ := h
  have hne : id ≠ w.nodeIdOf d.browseName.chars := by
    rintro rfl
    cases hc.fresh.symm.trans hn
  exact ⟨n, v, (hc.others _ hne).trans hn, hrest⟩

/-- An addition that keeps the contexts keeps them ready. -/
theorem ContextsReady.added (h : ContextsReady w simulated) (hw : Sound w) {op : Op}
    (hop : op.adds = some (host, d)) (hchecks : op.checks w) (hc : Created host d w w')
    (hkeeps : KeepsContexts w op)
    (hsub : ∀ id ∈ simulated', id ∈ simulated ∨
      (d.isSimulated = true ∧ id = w.nodeIdOf d.browseName.chars)) :
    ContextsReady (appendAndSave cjson host.save d w') simulated' := by
  have hcreates : Creates w op host d := ⟨hop, hchecks, hc.fresh, hc.accepted⟩
  rw [appendAndSave_eq]
  -- Saving changes neither nodes nor sensors: everything is about the creation itself.
  refine ⟨hc.contextsOwn hw (hkeeps.still host d hcreates) h.own, hc.sensorsCover h.cover,
    fun id hid => ?_, hc.valuesAgree hw h.agree⟩
  rcases hsub id hid with hold | ⟨hsim, rfl⟩
  · exact hc.sensorNode (h.connected id hold)
  · exact hc.connected hsim (hkeeps.grows host d hcreates hsim)

/-- If the contexts are right after a creation, the array was not moved while it was in
use. -/
theorem ContextsOwn.nil_of_moved (h : ContextsOwn w) (h' : ContextsOwn w') (hw : Sound w)
    (hc : Created host d w w') (hsim : d.isSimulated = true)
    (hfull : w.nm.sensorCapacity ≤ w.nm.sensors.length)
    (hmoved : host.realloc d.browseName.chars = .moved) : w.nm.sensors = [] := by
  by_contra hne
  have halloc := hc.alloc_of_moved hsim hfull hmoved
  exact (hc.firstStale_of_moved hw h hne halloc).not_own h'

/-- If the node that a creation made calls `sensor_write_callback`, its sensor got room. -/
theorem Created.canGrow_of_sensorNode (hc : Created host d w w') (hsim : d.isSimulated = true)
    (hnode : SensorNode w'.space (w.nodeIdOf d.browseName.chars)) :
    w.CanGrow host d.browseName.chars := by
  obtain ⟨n, hn, -, -, -, hwired⟩ := hc.self
  cases hwired with
  | plain hplain => cases hplain.symm.trans hsim
  | failed _ _ _ _ _ _ hcb =>
      obtain ⟨n', v', hn', hv', -, hcb'⟩ := hnode
      obtain rfl : n = n' := Option.some.inj (hn.symm.trans hn')
      cases (hcb v' hv').symm.trans hcb'
  | connected _ _ hgrown _ => exact hgrown.canGrow

/-- An addition that leaves the contexts ready kept them. -/
theorem ContextsReady.keeps_of_added (h : ContextsReady w simulated) (hw : Sound w) {op : Op}
    (hop : op.adds = some (host, d)) (hc : Created host d w w')
    (hnew : d.isSimulated = true → w.nodeIdOf d.browseName.chars ∈ simulated')
    (h' : ContextsReady (appendAndSave cjson host.save d w') simulated') :
    KeepsContexts w op := by
  rw [appendAndSave_eq] at h'
  refine ⟨fun host' d' hcreates hsim hfull hmoved => ?_,
    fun host' d' hcreates hsim => ?_, fun host' b idx i st hdel => ?_⟩
  · obtain ⟨rfl, rfl⟩ := adds_inj hop hcreates.adds
    have hown : ContextsOwn w' := h'.own
    exact ContextsOwn.nil_of_moved h.own hown hw hc hsim hfull hmoved
  · obtain ⟨rfl, rfl⟩ := adds_inj hop hcreates.adds
    exact hc.canGrow_of_sensorNode hsim (h'.connected _ (hnew hsim))
  · cases hop.symm.trans (congrArg Op.adds hdel.op)

/-! ### Removals -/

/-- Removing a name that only the last element may carry moves no element. -/
theorem getElem?_eraseP_last {sensors : List SimulatedSensor} {b : CString}
    (hlast : ∀ i st, sensors[i]? = some st → st.browseName.chars = b →
      i + 1 = sensors.length) {i : Nat} {st : SimulatedSensor}
    (hi : (sensors.eraseP (fun st => st.browseName.chars == b))[i]? = some st) :
    sensors[i]? = some st := by
  induction sensors generalizing i with
  | nil => exact hi
  | cons a rest ih =>
      by_cases ha : a.browseName.chars = b
      · -- `a` carries the name, so that it is the last one and nothing comes after it.
        have hnil : rest = [] := by
          have hlen := hlast 0 a rfl ha
          rw [List.length_cons] at hlen
          exact List.length_eq_zero_iff.mp (by omega)
        rw [List.eraseP_cons_of_pos (by simpa using ha), hnil] at hi
        cases hi
      · rw [List.eraseP_cons_of_neg (by simpa using ha)] at hi
        cases i with
        | zero => exact hi
        | succ i =>
            rw [List.getElem?_cons_succ] at hi ⊢
            refine ih (fun j x hj hx => ?_) hi
            have hlen := hlast (j + 1) x (by rwa [List.getElem?_cons_succ]) hx
            rw [List.length_cons] at hlen
            omega

/-- Removing an element moves the next one into its place. -/
theorem getElem?_eraseP_next {sensors : List SimulatedSensor} {b : CString} {i : Nat}
    {st next : SimulatedSensor} (hnd : (sensors.map (fun st => st.browseName.chars)).Nodup)
    (hi : sensors[i]? = some st) (hb : st.browseName.chars = b)
    (hnext : sensors[i + 1]? = some next) :
    (sensors.eraseP (fun st => st.browseName.chars == b))[i]? = some next := by
  induction sensors generalizing i with
  | nil => cases hi
  | cons a rest ih =>
      rw [List.map_cons, List.nodup_cons] at hnd
      rw [List.getElem?_cons_succ] at hnext
      cases i with
      | zero =>
          rw [List.getElem?_cons_zero, Option.some.injEq] at hi
          rw [List.eraseP_cons_of_pos (by simpa [hi] using hb)]
          exact hnext
      | succ i =>
          rw [List.getElem?_cons_succ] at hi
          -- The name is further back, and it occurs only once.
          have ha : a.browseName.chars ≠ b := fun he =>
            hnd.1 (List.mem_map.mpr ⟨st, List.mem_of_getElem? hi, hb.trans he.symm⟩)
          rw [List.eraseP_cons_of_neg (by simpa using ha), List.getElem?_cons_succ]
          exact ih hnd.2 hi hnext

section Removal

variable {io : SaveIo} {b : CString} {idx : Nat}

/-- The nodes of the other sensors stay. -/
theorem Removed.find_sensor (hr : Removed cjson io b idx w w') (hw : Sound w)
    {st : SimulatedSensor} (hst : st ∈ w.nm.sensors) (hne : st.browseName.chars ≠ b) :
    w'.space.find st.nodeId = w.space.find st.nodeId := by
  refine hr.find_of_ne ?_
  rw [hw.sensor_id st hst]
  exact fun he => hne (nodeIdOf_inj.mp he)

/-- If the contexts are ready after a removal, a removed sensor went with its node: a node
that stays calls its callback without an element. -/
theorem ContextsReady.inMap_of_removed (h' : ContextsReady w' simulated') (hw : Sound w)
    (hr : Removed cjson io b idx w w') {st : SimulatedSensor} (hst : st ∈ w.nm.sensors)
    (hb : st.browseName.chars = b) : w.InMap b := by
  by_contra hout
  obtain ⟨n, v, hn, hv, -, hcb⟩ := hw.sensor_live st hst
  have hspace : w'.space = w.space := by
    rcases hr.space with ⟨hin, -⟩ | ⟨-, hspace⟩
    · exact absurd hin hout
    · exact hspace
  -- The node is still there, so it has an element; but the one of its name was removed.
  obtain ⟨x, hx, hxid⟩ := h'.cover st.nodeId n v (hspace ▸ hn) hv hcb
  obtain ⟨hxold, hxne⟩ := (hr.mem_sensors hw).mp hx
  rw [hw.sensor_id x hxold, hw.sensor_id st hst, nodeIdOf_inj] at hxid
  exact hxne (hxid.trans hb)

/-- If the contexts are ready after a removal, a removed sensor was the last one: the element
after it moves down, away from where its context points. -/
theorem ContextsReady.last_of_removed (h : ContextsReady w simulated)
    (h' : ContextsReady w' simulated') (hw : Sound w) (hr : Removed cjson io b idx w w')
    {i : Nat} {st : SimulatedSensor} (hi : w.nm.sensors[i]? = some st)
    (hb : st.browseName.chars = b) : i + 1 = w.nm.sensors.length := by
  by_contra hnotlast
  have hlt : i + 1 < w.nm.sensors.length := by
    have hle := (List.getElem?_eq_some_iff.mp hi).1
    omega
  obtain ⟨next, hnext⟩ : ∃ next, w.nm.sensors[i + 1]? = some next :=
    ⟨_, List.getElem?_eq_getElem hlt⟩
  have hmoved : w'.nm.sensors[i]? = some next := by
    rw [hr.nm]
    exact getElem?_eraseP_next hw.sensors_nodup hi hb hnext
  have hne : next.browseName.chars ≠ b := by
    intro he
    have hsame := hw.sensor_index_inj hnext hi (he.trans hb.symm)
    omega
  -- The context of its node has not changed, and it has two places.
  obtain ⟨n₀, v₀, hn₀, hv₀, hcontext₀⟩ := h.own (i + 1) next hnext
  obtain ⟨n₁, v₁, hn₁, hv₁, hcontext₁⟩ := h'.own i next hmoved
  have hfind := (hr.find_sensor hw (List.mem_of_getElem? hnext) hne).trans hn₀
  obtain rfl : n₀ = n₁ := Option.some.inj (hfind.symm.trans hn₁)
  obtain rfl : v₀ = v₁ := Option.some.inj (hv₀.symm.trans hv₁)
  have hsame := hcontext₀.symm.trans hcontext₁
  rw [Option.some.injEq, SensorRef.mk.injEq] at hsame
  omega

/-- A removal keeps the contexts ready when the sensor of that name, if there is one, is the
last and goes with its node. -/
theorem ContextsReady.removed (h : ContextsReady w simulated) (hw : Sound w)
    (hr : Removed cjson io b idx w w')
    (hsub : ∀ id ∈ simulated', id ∈ simulated ∧ id ∈ w'.space.ids)
    (hlast : ∀ i st, w.nm.sensors[i]? = some st → st.browseName.chars = b →
      w.InMap b ∧ i + 1 = w.nm.sensors.length) : ContextsReady w' simulated' := by
  have halloc : w'.nm.sensorsAlloc = w.nm.sensorsAlloc := by rw [hr.nm]
  have hsensors : w'.nm.sensors
      = w.nm.sensors.eraseP (fun st => st.browseName.chars == b) := by rw [hr.nm]
  refine ⟨fun i st hi => ?_, fun id n v hn hv hcb => ?_, fun id hid => ?_, fun st hst => ?_⟩
  · obtain ⟨hold, hne⟩ := (hr.mem_sensors hw).mp (List.mem_of_getElem? hi)
    rw [hsensors] at hi
    -- `memmove` has nothing to move: an element that is left has the index that it had.
    have hi' := getElem?_eraseP_last (fun j x hj hx => (hlast j x hj hx).2) hi
    obtain ⟨n, v, hn, hv, hcontext⟩ := h.own i st hi'
    exact ⟨n, v, (hr.find_sensor hw hold hne).trans hn, hv, by rw [hcontext, halloc]⟩
  · obtain ⟨st, hst, rfl⟩ := h.cover id n v (hr.find_some hn) hv hcb
    refine ⟨st, (hr.mem_sensors hw).mpr ⟨hst, fun hb => ?_⟩, rfl⟩
    -- The element is not the removed one, for the node of that one is gone and this one is live.
    obtain ⟨i, hi⟩ := List.mem_iff_getElem?.mp hst
    obtain ⟨hin, -⟩ := hlast i st hi hb
    have hlive : st.nodeId ∈ w'.space.ids := AddressSpace.exists_find.mp ⟨n, hn⟩
    refine (hr.mem_ids.mp hlive).2 ⟨hin, ?_⟩
    rw [hw.sensor_id st hst, hb]
  · obtain ⟨hold, hlive⟩ := hsub id hid
    obtain ⟨n, hn⟩ := AddressSpace.exists_find.mpr hlive
    obtain ⟨n₀, v₀, hn₀, hrest⟩ := h.connected id hold
    obtain rfl : n = n₀ := Option.some.inj ((hr.find_some hn).symm.trans hn₀)
    exact ⟨n, v₀, hn, hrest⟩
  · obtain ⟨hold, hne⟩ := (hr.mem_sensors hw).mp hst
    rw [AddressSpace.valueOf, hr.find_sensor hw hold hne]
    exact h.agree st hold

/-- A removal leaves the contexts ready exactly when the sensor of that name, if there is
one, is the last and goes with its node. -/
theorem ContextsReady.removed_iff (h : ContextsReady w simulated) (hw : Sound w)
    (hr : Removed cjson io b idx w w')
    (hsub : ∀ id ∈ simulated', id ∈ simulated ∧ id ∈ w'.space.ids) :
    ContextsReady w' simulated' ↔ ∀ i st, w.nm.sensors[i]? = some st → st.browseName.chars = b →
      w.InMap b ∧ i + 1 = w.nm.sensors.length := by
  constructor
  · intro h' i st hi hb
    exact ⟨h'.inMap_of_removed hw hr (List.mem_of_getElem? hi) hb,
      h.last_of_removed h' hw hr hi hb⟩
  · exact h.removed hw hr hsub

end Removal

/-! ### Runs -/

/-- An operation that creates and deletes nothing keeps the contexts. -/
theorem keepsContexts_of_quiet {op : Op} (hadds : ∀ host d, ¬ Creates w op host d)
    (hdel : ∀ host b idx, ¬ Deletes w op host b idx) : KeepsContexts w op where
  still host d hcreates := absurd hcreates (hadds host d)
  grows host d hcreates := absurd hcreates (hadds host d)
  last host b idx _ _ hdeletes := absurd hdeletes (hdel host b idx)

/-- A traced step is a step, and what it traces. -/
theorem stepTraced_some {op : Op} (h : stepTraced cjson t op = some t') :
    stepOp cjson t.world op = some t'.world ∧
      ∀ id, id ∈ t'.simulated ↔
        (op.simulates t.world = some id ∨ id ∈ t.simulated) ∧ id ∈ t'.world.space.ids := by
  obtain ⟨w', hstep, rfl⟩ := Option.map_eq_some_iff.mp h
  refine ⟨hstep, fun id => ?_⟩
  simp [Option.mem_toList, or_and_right]

/-- An operation that adds nothing creates no node with simulation. -/
theorem simulates_of_not_adds {op : Op} (h : op.adds = none) : op.simulates w = none := by
  rw [Op.simulates, h]

/-- An operation that changes no world traces nothing new. -/
theorem simulated_of_same {op : Op} (hstep : stepTraced cjson t op = some t')
    (hsame : t'.world = t.world) : ∀ id ∈ t'.simulated, id ∈ t.simulated := by
  intro id hid
  obtain ⟨hnew | hold, hlive⟩ := ((stepTraced_some hstep).2 id).mp hid
  · -- A node that is not there has not been created.
    rw [hsame] at hlive
    rw [Op.simulates] at hnew
    split at hnew
    · split at hnew
      · rename_i hfree
        obtain rfl := Option.some.inj hnew
        exact absurd hlive hfree.2
      · cases hnew
    · cases hnew
  · exact hold

/-- An addition traces its node when it is simulated, and nothing else that is new. -/
theorem simulated_of_added {op : Op} (hstep : stepTraced cjson t op = some t')
    (hadds : op.adds = some (host, d)) (hc : Created host d t.world w')
    (hids : t'.world.space.ids = w'.space.ids) :
    (d.isSimulated = true → t.world.nodeIdOf d.browseName.chars ∈ t'.simulated) ∧
      ∀ id ∈ t'.simulated, id ∈ t.simulated ∨
        (d.isSimulated = true ∧ id = t.world.nodeIdOf d.browseName.chars) := by
  have hmem := (stepTraced_some hstep).2
  -- The name was free, so that the node is a new one.
  have hfree : t.world.nodeIdOf d.browseName.chars ∉ t.world.space.ids := by
    intro hlive
    obtain ⟨n, hn⟩ := AddressSpace.exists_find.mpr hlive
    cases hc.fresh.symm.trans hn
  have hsimulates : op.simulates t.world =
      if d.isSimulated = true then some (t.world.nodeIdOf d.browseName.chars) else none := by
    rw [Op.simulates, hadds]
    simp [hfree]
  refine ⟨fun hsim => (hmem _).mpr ⟨.inl ?_, ?_⟩, fun id hid => ?_⟩
  · rw [hsimulates, if_pos hsim]
  · rw [hids]
    exact hc.mem_ids.mpr (.inr rfl)
  · obtain ⟨hnew | hold, -⟩ := (hmem id).mp hid
    · rw [hsimulates, Option.ite_none_right_eq_some] at hnew
      exact .inr ⟨hnew.1, (Option.some.inj hnew.2).symm⟩
    · exact .inl hold

/-- Any other operation traces nothing new, and only what is there. -/
theorem simulated_of_not_adds {op : Op} (hstep : stepTraced cjson t op = some t')
    (hadds : op.adds = none) :
    ∀ id ∈ t'.simulated, id ∈ t.simulated ∧ id ∈ t'.world.space.ids := by
  intro id hid
  obtain ⟨hnew | hold, hlive⟩ := ((stepTraced_some hstep).2 id).mp hid
  · cases (simulates_of_not_adds hadds).symm.trans hnew
  · exact ⟨hold, hlive⟩

/-- **One step** that adds or deletes leaves the contexts ready exactly when it keeps them. -/
theorem contextsReady_step_iff (hw : Sound t.world) (h : ContextsReady t.world t.simulated)
    {op : Op} (hstruct : op.isStructural = true) (hstep : stepTraced cjson t op = some t') :
    ContextsReady t'.world t'.simulated ↔ KeepsContexts t.world op := by
  have hkind := stepKind_of_structural hw hstruct (stepTraced_some hstep).1
  cases hkind with
  | quiet _ hsame hrefused hkept =>
      have hcreates : ∀ host d, ¬ Creates t.world op host d := fun host d hcreates =>
        hrefused host d hcreates.adds hcreates.checks hcreates.fresh hcreates.accepted
      have hold := simulated_of_same hstep (hsame hstruct)
      rw [hsame hstruct]
      exact iff_of_true ⟨h.own, h.cover, fun id hid => h.connected id (hold id hid), h.agree⟩
        (keepsContexts_of_quiet hcreates hkept)
  | added host d w₁ hadds hchecks hc hw' =>
      have hids : t'.world.space.ids = w₁.space.ids := by
        rw [hw', appendAndSave_eq]
      obtain ⟨hnew, hsub⟩ := simulated_of_added hstep hadds hc hids
      rw [hw']
      exact ⟨h.keeps_of_added hw hadds hc hnew,
        fun hkeeps => h.added hw hadds hchecks hc hkeeps hsub⟩
  | removed host b idx hdel hremoved =>
      have hadds : op.adds = none := congrArg Op.adds hdel.op
      rw [h.removed_iff hw hremoved (simulated_of_not_adds hstep hadds)]
      constructor
      · -- The operation is this deletion, so the clauses about additions say nothing.
        intro hlast
        refine ⟨fun host' d hcreates => ?_, fun host' d hcreates => ?_,
          fun host' b' idx' i st hdel' hi hb => ?_⟩
        · cases hadds.symm.trans hcreates.adds
        · cases hadds.symm.trans hcreates.adds
        · obtain ⟨rfl, rfl⟩ := Op.delete.inj (hdel.op.symm.trans hdel'.op)
          exact hlast i st hi hb
      · exact fun hkeeps i st hi hb => hkeeps.last host b idx i st hdel hi hb

/-- The contexts are ready after a build exactly when its growths were harmless. -/
theorem start_contextsReady_iff {nsIdx : Nat} {cfg : ServerConfig} {file : Option CString}
    (hstart : start host nsIdx cfg file = some w) :
    ContextsReady w (Traced.built w).simulated ↔ BuildGrowth host cfg := by
  have hw := start_sound hstart
  have hbuilt : ∀ id, id ∈ (Traced.built w).simulated ↔
      ∃ d ∈ cfg.nodes, d.isSimulated = true ∧ w.nodeIdOf d.browseName.chars = id := by
    intro id
    rw [Traced.built, List.mem_map, start_config hstart]
    simp only [List.mem_filter, and_assoc]
  constructor
  · intro h
    refine buildGrowth_of_start hstart (fun d hd hsim => ?_) h.own
    -- The node of the definition calls the callback, so it has its sensor.
    obtain ⟨n, v, hn, hv, -, hcb⟩ := h.connected _ ((hbuilt _).mpr ⟨d, hd, hsim, rfl⟩)
    obtain ⟨st, hst, hid⟩ := h.cover _ n v hn hv hcb
    exact ⟨st, hst, nodeIdOf_inj.mp ((hw.sensor_id st hst).symm.trans hid)⟩
  · intro hgrow
    have hcomplete := start_sensorsComplete hstart hgrow.allocates
    refine ⟨start_contextsOwn hgrow hstart, start_sensorsCover hstart, fun id hid => ?_,
      start_valuesAgree hstart⟩
    obtain ⟨d, hd, hsim, rfl⟩ := (hbuilt id).mp hid
    obtain ⟨st, hst, hname⟩ := hcomplete.exists_sensor.mpr ⟨d, hd, hsim, rfl⟩
    rw [← hname, ← hw.sensor_id st hst]
    exact hw.sensor_live st hst

variable (cjson)

end SmartFactory.Server
