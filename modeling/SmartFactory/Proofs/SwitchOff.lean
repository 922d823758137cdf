import SmartFactory.Server.Threads
import SmartFactory.Proofs.Filling

/-!
# `SmartFactory.Proofs.SwitchOff`: sensors stay off

A switch to off writes `false` to every sensor. A tick that was under way at that moment has
`true` writes of its own, decided while the simulation was on. `OffLaw` says that the sensors
are off whenever the simulation is and no switch is under way. It holds along every run in
which such a `true` write lands in time, that is, before the switch writes its `false` to the
same sensor (`offLaw_always`). A run ends with a write through a stale context, which is a fault: no
law says what the memory is like after it.

One thread alone behaves like the sequential operations of `SmartFactory.Server.Program`
(`run_setSimulationEnabled`, `run_tick`).
-/

set_option autoImplicit false

namespace SmartFactory.Server

open Run

/-- While no switch is under way and the simulation is off, every sensor is off, in its element
of the array and in its node. -/
def Threads.OffLaw (t : Threads) : Prop :=
  t.httpWrites = [] → t.world.nm.simulationEnabled = false →
    ∀ st ∈ t.world.nm.sensors, st.value = false ∧
      t.world.space.valueOf st.nodeId = some (.boolean false)

/-- A tick writes `true` to a sensor only while the simulation is on or a switch to off has still
to write to that sensor. -/
def LandsInTime (t : Threads) (step : ThreadStep) : Prop :=
  step = .tickWrite → ∀ id rest, t.tickWrites = (id, true) :: rest →
    t.world.nm.simulationEnabled = true ∨ (id, false) ∈ t.httpWrites

variable {w w' : World} {host : Host} {nsIdx : Nat} {cfg : ServerConfig} {file : Option CString}

/-! ### One thread alone -/

/-- `node_manager_set_simulation_enabled` is its section and its writes. -/
theorem nodeManagerSetSimulationEnabled_eq (enabled : Bool) :
    nodeManagerSetSimulationEnabled enabled =
      (switchSection enabled >>= fun r =>
        writeAll uaServerWriteValue (switchWrites enabled r)) := by
  rw [nodeManagerSetSimulationEnabled]
  congr 1
  funext r
  obtain ⟨simulationNodeId, sensorIds⟩ := r
  cases simulationNodeId <;> cases enabled <;> rfl

/-- A list of writes is made step by step, by either thread. -/
theorem run_writes (lift : World → List (NodeId × Bool) → Threads) {step : ThreadStep}
    (hstep : ∀ w writes, stepThreads (lift w writes) step
      = (firstWrite w writes).map fun r => lift r.1 r.2)
    {writes : List (NodeId × Bool)}
    (h : (writeAll uaServerWriteValue writes).run w = .ok ((), w')) :
    run stepThreads (lift w writes) (List.replicate writes.length step) = some (lift w' []) := by
  induction writes generalizing w with
  | nil =>
      obtain ⟨-, rfl⟩ := ok_of_run_return h
      rfl
  | cons p rest ih =>
      obtain ⟨_, w₁, hwrite, hrest⟩ := ok_of_run_bind h
      obtain ⟨rc, hrc⟩ := ok_of_discard hwrite
      rw [List.length_cons, List.replicate_succ, run, hstep, firstWrite, hrc]
      exact ih hrest

/-- The HTTP thread alone makes the call as the sequential operation does. -/
theorem run_setSimulationEnabled {enabled : Bool}
    (h : (nodeManagerSetSimulationEnabled enabled).run w = .ok ((), w')) :
    ∃ n, run stepThreads ⟨w, [], []⟩
      (.setSimulationEnabled enabled :: List.replicate n .httpWrite) = some ⟨w', [], []⟩ := by
  rw [nodeManagerSetSimulationEnabled_eq] at h
  obtain ⟨r, w₁, hsection, hwrites⟩ := ok_of_run_bind h
  refine ⟨(switchWrites enabled r).length, ?_⟩
  rw [run, stepThreads, if_neg (by simp), hsection]
  exact run_writes (fun w writes => ⟨w, [], writes⟩) (fun _ _ => rfl) hwrites

/-- The server thread alone makes the tick as the sequential operation does. -/
theorem run_tick (h : nodeManagerRunSimulationTick.run w = .ok ((), w')) :
    ∃ n, run stepThreads ⟨w, [], []⟩ (.tick :: List.replicate n .tickWrite)
      = some ⟨w', [], []⟩ := by
  obtain ⟨writes, w₁, hsection, hwrites⟩ := ok_of_run_bind h
  refine ⟨writes.length, ?_⟩
  rw [run, stepThreads, if_neg (by simp), hsection]
  exact run_writes (fun w writes => ⟨w, writes, []⟩) (fun _ _ => rfl) hwrites

/-! ### Where the contexts point -/

/-- The context of each sensor's node is the place of the sensor, in this or an earlier allocation
of the array. -/
def ContextsPlaced (w : World) : Prop :=
  ∀ i st, w.nm.sensors[i]? = some st → ∃ n v alloc, w.space.find st.nodeId = some n ∧
    n.vAttr = some v ∧ v.context = some ⟨alloc, i⟩

/-- Contexts belong to the shape. -/
theorem SameShape.contextsPlaced (h : SameShape w w') (hplaced : ContextsPlaced w) :
    ContextsPlaced w' := by
  intro i st hst
  have hi : (w.nm.sensors.map SimulatedSensor.nodeId)[i]? = some st.nodeId := by
    rw [← h.sensor_ids, List.getElem?_map, hst, Option.map_some]
  rw [List.getElem?_map] at hi
  obtain ⟨st₀, hst₀, hid⟩ := Option.map_eq_some_iff.mp hi
  obtain ⟨n, v, alloc, hn, hv, hcontext⟩ := hplaced i st₀ hst₀
  obtain ⟨n', v', hn', hv', -, hcontext', -⟩ := h.find_some hn hv
  exact ⟨n', v', alloc, hid ▸ hn', hv', hcontext'.trans hcontext⟩

/-- A creation places its sensor, and leaves the others where they are. -/
theorem Created.contextsPlaced {d : ServerNodeDef} (hc : Created host d w w') (hw : Sound w)
    (h : ContextsPlaced w) : ContextsPlaced w' := by
  have hold : ∀ i st, w.nm.sensors[i]? = some st → ∃ n v alloc,
      w'.space.find st.nodeId = some n ∧ n.vAttr = some v ∧ v.context = some ⟨alloc, i⟩ := by
    intro i st hi
    obtain ⟨n, v, alloc, hn, hrest⟩ := h i st hi
    have hlive := hw.live_of_sensor (List.mem_of_getElem? hi)
    exact ⟨n, v, alloc, (hc.find_of_mem hlive).trans hn, hrest⟩
  obtain ⟨n, hn, -, -, -, hwired⟩ := hc.self
  intro i st hi
  cases hwired with
  | plain _ hsensors => exact hold i st (hsensors ▸ hi)
  | failed _ _ _ hsensors => exact hold i st (hsensors ▸ hi)
  | connected _ hsensors _ hv =>
      rw [hsensors] at hi
      -- An old sensor, the new one behind them, or none.
      rcases Nat.lt_trichotomy i w.nm.sensors.length with hlt | rfl | hgt
      · rw [List.getElem?_append_left hlt] at hi
        exact hold i st hi
      · rw [List.getElem?_concat_length, Option.some.injEq] at hi
        subst hi
        exact ⟨n, _, _, hn, hv, rfl⟩
      · rw [List.getElem?_eq_none (by rw [List.length_append]; exact hgt)] at hi
        cases hi

/-- After the build, the contexts are in place, whatever `realloc` did. -/
theorem start_contextsPlaced (h : start host nsIdx cfg file = some w) : ContextsPlaced w :=
  (start_invariant (P := fun w => Sound w ∧ ContextsPlaced w)
    (fun _ _ _ hP hc => ⟨hc.sound hP.1, hc.contextsPlaced hP.1 hP.2⟩)
    ⟨sound_create, nofun⟩ h).2

/-! ### One write -/

/-- What a write of `b` to the node of a sensor does: the node holds `b`, and so does the element
of the array. -/
structure PlacedWrite (id : NodeId) (b : Bool) (w w' : World) : Prop where
  shape : SameShape w w'
  enabled : w'.nm.simulationEnabled = w.nm.simulationEnabled
  sensors : ∀ st' ∈ w'.nm.sensors, ∃ st ∈ w.nm.sensors, st.nodeId = st'.nodeId ∧
    st'.value = if st.nodeId = id then b else st.value
  values : ∀ id', w'.space.valueOf id'
    = if id' = id then some (.boolean b) else w.space.valueOf id'

/-- A write that returns has found the context in the array as it is now. -/
theorem writeValue_placed (depth : Nat) (hw : Sound w) (hplaced : ContextsPlaced w)
    {st : SimulatedSensor} (hst : st ∈ w.nm.sensors) {b : Bool} {rc : StatusCode}
    (h : (writeValue (depth + 1) st.nodeId (.boolean b)).run w = .ok (rc, w')) :
    PlacedWrite st.nodeId b w w' := by
  obtain ⟨i, hi⟩ := List.mem_iff_getElem?.mp hst
  obtain ⟨n, v, alloc, hn, hv, hcontext⟩ := hplaced i st hi
  obtain ⟨-, rfl⟩ :=
    (writeValue_sensor depth hw.mutex (hw.sensor_live st hst) b).of_ok h
  refine ⟨sameShape_sensorNodeWritten w st.nodeId b, sensorWritten_enabled _ _, ?_, fun id' => ?_⟩
  · -- The context points to the index of the sensor, so that this entry is the one that changes.
    have hmap := Keyed.modify_eq_map SimulatedSensor.nodeId (fun st => st.written b)
      hw.sensor_ids_nodup hi
    rw [World.sensorNodeWritten, (contextOf_of_find hn hv).trans hcontext]
    intro st' hst'
    change st' ∈ w.nm.sensors.modify i (fun st => st.written b) at hst'
    rw [hmap] at hst'
    obtain ⟨x, hx, rfl⟩ := List.mem_map.mp hst'
    refine ⟨x, hx, ?_, ?_⟩
    · split <;> rfl
    · split <;> rfl
  · rw [World.sensorNodeWritten, sensorWritten_space]
    exact valueOf_storeValue hn hv (.boolean b) id'

/-- Writes of `false` keep what is off and switch the nodes off that they go to. -/
theorem writeAll_false (depth : Nat) (ids : List NodeId) (hw : Sound w)
    (hplaced : ContextsPlaced w) (h : ∀ id ∈ ids, id ∈ w.sensorIds)
    (hoff : ∀ st ∈ w.nm.sensors, st.value = false)
    (hrun : (writeAll (writeValue (depth + 1)) (ids.map (fun id => (id, false)))).run w
      = .ok ((), w')) :
    SameShape w w' ∧ w'.nm.simulationEnabled = w.nm.simulationEnabled ∧
      (∀ st ∈ w'.nm.sensors, st.value = false) ∧
      ∀ id, id ∈ ids ∨ w.space.valueOf id = some (.boolean false) →
        w'.space.valueOf id = some (.boolean false) := by
  induction ids generalizing w with
  | nil =>
      obtain ⟨-, rfl⟩ := ok_of_run_return hrun
      refine ⟨SameShape.refl _, rfl, hoff, fun id hid => hid.resolve_left ?_⟩
      exact List.not_mem_nil
  | cons id rest ih =>
      obtain ⟨st, hst, rfl⟩ := List.mem_map.mp (h id (List.mem_cons_self ..))
      rw [List.map_cons, writeAll] at hrun
      obtain ⟨_, w₁, hfirst, hrest⟩ := ok_of_run_bind hrun
      obtain ⟨rc, hrun₁⟩ := ok_of_discard hfirst
      -- The first write goes to one sensor; the others have theirs in the rest of the list.
      have hwrite := writeValue_placed depth hw hplaced hst hrun₁
      have hoff₁ : ∀ st' ∈ w₁.nm.sensors, st'.value = false := by
        intro st' hst'
        obtain ⟨x, hx, -, hvalue⟩ := hwrite.sensors st' hst'
        rw [hvalue]
        split
        · rfl
        · exact hoff x hx
      have hmem : ∀ id ∈ rest, id ∈ w₁.sensorIds := by
        intro id hid
        rw [World.sensorIds, hwrite.shape.sensor_ids]
        exact h id (List.mem_cons_of_mem _ hid)
      obtain ⟨hshape, henabled, hoff', hvalues⟩ := ih (hwrite.shape.sound hw)
        (hwrite.shape.contextsPlaced hplaced) hmem hoff₁ hrest
      refine ⟨hwrite.shape.trans hshape, henabled.trans hwrite.enabled, hoff',
        fun id' hid' => hvalues id' ?_⟩
      rw [hwrite.values]
      rcases hid' with hmem | hvalue
      · rcases List.mem_cons.mp hmem with rfl | hmem
        · exact Or.inr (if_pos rfl)
        · exact Or.inl hmem
      · right
        split
        · rfl
        · exact hvalue

/-- A write to the node of a switch is rejected, or it switches: on a switch to off, every sensor
is off afterwards. -/
theorem writeValue_switchNode (depth : Nat) (hw : Sound w) (hplaced : ContextsPlaced w)
    {id : NodeId} (hid : SwitchNode w.space id) {b : Bool} {rc : StatusCode}
    (hfit : w.nm.sensors.length ≤ serverMaxNodes)
    (h : (writeValue (depth + 2) id (.boolean b)).run w = .ok (rc, w')) :
    SameShape w w' ∧ (w' = w ∨ (w'.nm.simulationEnabled = b ∧ (b = false →
      ∀ st ∈ w'.nm.sensors, st.value = false ∧
        w'.space.valueOf st.nodeId = some (.boolean false)))) := by
  rcases taken_or_rejected w id (.boolean b) with ⟨n, vAttr, hn, hv, htake⟩ | hrejected
  · obtain ⟨n', vAttr', hn', hv', hcb⟩ := hid
    obtain ⟨rfl, rfl⟩ := attribute_unique hn hv hn' hv'
    have hcallback := runCallback_of_write (depth + 1) hn hv htake h
    have hshape := (sameShape_storeValue w id (.boolean b)).trans
      (sameShape_switched (w.storeValue id (.boolean b)) b)
    simp only [runCallback, hcb, simulationEnabledWriteCallback, Variant.readBoolean] at hcallback
    rw [run_bind_ok (switchSection_run (w := w.storeValue id (.boolean b)) hw.mutex hfit b)]
      at hcallback
    cases b with
    | true =>
        obtain ⟨-, rfl⟩ := ok_of_run_return hcallback
        exact ⟨hshape, Or.inr ⟨rfl, fun hb => by cases hb⟩⟩
    | false =>
        -- The section has switched the elements off, and the writes go to the nodes that it has
        -- collected.
        have hmem : ∀ id' ∈ w.sensorIds,
            id' ∈ ((w.storeValue id (.boolean false)).switched false).sensorIds := by
          intro id' hid'
          rw [World.sensorIds, hshape.sensor_ids]
          exact hid'
        obtain ⟨hshape₁, henabled, hoff, hvalues⟩ := writeAll_false depth w.sensorIds
          (hshape.sound hw) (hshape.contextsPlaced hplaced) hmem (switched_off _) hcallback
        refine ⟨hshape.trans hshape₁, Or.inr ⟨henabled, fun _ st hst => ⟨hoff st hst, ?_⟩⟩⟩
        refine hvalues st.nodeId (Or.inl ?_)
        rw [World.sensorIds, ← (hshape.trans hshape₁).sensor_ids]
        exact List.mem_map_of_mem hst
  · obtain ⟨rc', -, hrun⟩ := writeValue_rejected (depth + 1) hrejected
    obtain ⟨-, rfl⟩ := run_unique hrun h
    exact ⟨SameShape.refl _, Or.inl rfl⟩

/-! ### The invariant -/

/-- The sensor with that node and that value is off, or a write of `false` to it is pending. -/
structure OffOrPending (w : World) (pending : List (NodeId × Bool)) (id : NodeId) (value : Bool) :
    Prop where
  element : value = true → (id, false) ∈ pending
  node : w.space.valueOf id = some (.boolean false) ∨ (id, false) ∈ pending

/-- The facts about the world that no step changes. -/
structure SwitchReady (w : World) : Prop where
  sound : Sound w
  fits : w.nm.sensors.length ≤ serverMaxNodes
  placed : ContextsPlaced w
  wired : ∀ id, w.nm.simulationEnabledNodeId = some id → SwitchNode w.space id

/-- The invariant of the two threads. -/
structure OffInv (t : Threads) : Prop where
  ready : SwitchReady t.world
  tickWrites : ∀ p ∈ t.tickWrites, p.1 ∈ t.world.nm.sensors.map SimulatedSensor.nodeId
  httpWrites : ∀ p ∈ t.httpWrites, (p.1 ∈ t.world.nm.sensors.map SimulatedSensor.nodeId ∧
    p.2 = false) ∨ SwitchNode t.world.space p.1
  off : t.world.nm.simulationEnabled = false →
    ∀ st ∈ t.world.nm.sensors, OffOrPending t.world t.httpWrites st.nodeId st.value

/-- What the invariant says when no write is pending. -/
theorem OffInv.offLaw {t : Threads} (h : OffInv t) : t.OffLaw := by
  intro hnone hoff st hst
  obtain ⟨helement, hnode⟩ := h.off hoff st hst
  rw [hnone] at helement hnode
  refine ⟨Bool.eq_false_iff.mpr fun htrue => ?_, hnode.resolve_right List.not_mem_nil⟩
  exact List.not_mem_nil (helement htrue)

theorem SameShape.switchReady (h : SameShape w w') (hw : SwitchReady w) : SwitchReady w' where
  sound := h.sound hw.sound
  fits := h.length_sensors ▸ hw.fits
  placed := h.contextsPlaced hw.placed
  wired := by
    intro id hid
    rw [h.nm] at hid
    exact h.switchNode (hw.wired id hid)

/-- A write to a sensor keeps the sensors off or pending, if it writes `false` or a `false` to the
same sensor is pending still. -/
theorem PlacedWrite.off {id : NodeId} {b : Bool} (h : PlacedWrite id b w w')
    {pending pending' : List (NodeId × Bool)}
    (hoff : ∀ st ∈ w.nm.sensors, OffOrPending w pending st.nodeId st.value)
    (hkeep : ∀ id', id' ≠ id → (id', false) ∈ pending → (id', false) ∈ pending')
    (hb : b = true → (id, false) ∈ pending') :
    ∀ st ∈ w'.nm.sensors, OffOrPending w' pending' st.nodeId st.value := by
  intro st' hst'
  obtain ⟨st, hst, hid, hvalue⟩ := h.sensors st' hst'
  obtain ⟨helement, hnode⟩ := hoff st hst
  rw [hid] at helement hnode hvalue
  by_cases hself : st'.nodeId = id
  · subst hself
    rw [if_pos rfl] at hvalue
    constructor
    · intro htrue
      -- A write of TRUE: a FALSE for the same sensor must be pending still.
      exact hb (hvalue.symm.trans htrue)
    · cases b with
      | true => exact Or.inr (hb rfl)
      | false => exact Or.inl ((h.values _).trans (if_pos rfl))
  · rw [if_neg hself] at hvalue
    constructor
    · intro htrue
      exact hkeep _ hself (helement (hvalue.symm.trans htrue))
    · rw [h.values, if_neg hself]
      exact hnode.imp_right (hkeep _ hself)

/-! ### Steps -/

/-- The first of some writes was made. -/
theorem firstWrite_eq_some {writes rest : List (NodeId × Bool)}
    (h : firstWrite w writes = some (w', rest)) : ∃ id v rc, writes = (id, v) :: rest ∧
      (uaServerWriteValue id (.boolean v)).run w = .ok (rc, w') := by
  cases writes with
  | nil => cases h
  | cons p tail =>
      rw [firstWrite] at h
      split at h
      · rename_i rc w₁ hrun
        cases h
        exact ⟨p.1, p.2, rc, rfl, hrun⟩
      · cases h

/-- A write to the node of a sensor, read off its run. -/
theorem placedWrite_of_run (hw : SwitchReady w) {id : NodeId} {v : Bool} {rc : StatusCode}
    (hid : id ∈ w.nm.sensors.map SimulatedSensor.nodeId)
    (h : (uaServerWriteValue id (.boolean v)).run w = .ok (rc, w')) : PlacedWrite id v w w' := by
  obtain ⟨st, hst, rfl⟩ := List.mem_map.mp hid
  exact writeValue_placed 7 hw.sound hw.placed hst h

/-- The invariant in a world of the same shape: the pending writes go to the same nodes. -/
theorem OffInv.of_shape {t t' : Threads} (h : OffInv t) (hshape : SameShape t.world t'.world)
    (htick : t'.tickWrites ⊆ t.tickWrites) (hhttp : t'.httpWrites ⊆ t.httpWrites)
    (hoff : t'.world.nm.simulationEnabled = false → ∀ st ∈ t'.world.nm.sensors,
      OffOrPending t'.world t'.httpWrites st.nodeId st.value) : OffInv t' where
  ready := hshape.switchReady h.ready
  tickWrites := fun p hp => hshape.sensor_ids ▸ h.tickWrites p (htick hp)
  httpWrites := fun p hp => (h.httpWrites p (hhttp hp)).imp
    (fun hsensor => hshape.sensor_ids ▸ hsensor) hshape.switchNode
  off := hoff

/-- The section of a tick keeps the invariant: it finds the simulation off, or it leaves it on. -/
theorem OffInv.tick {t t' : Threads} (h : OffInv t) (hstep : stepThreads t .tick = some t') :
    OffInv t' := by
  rw [stepThreads] at hstep
  split at hstep
  · cases hstep
  · split at hstep
    · rename_i writes w hsection
      cases hstep
      rcases tickSection_of_ok h.ready.sound.mutex hsection with ⟨-, rfl, rfl⟩ | ⟨hon, rfl, rfl⟩
      · exact h.of_shape (SameShape.refl _) (List.nil_subset _) (List.Subset.refl _) h.off
      · have hshape := sameShape_ticked t.world
        refine ⟨hshape.switchReady h.ready, fun p hp => ?_, fun p hp => ?_, fun hoff => ?_⟩
        · obtain ⟨st, hst, -, rfl⟩ := mem_tickWrites.mp hp
          exact hshape.sensor_ids ▸ List.mem_map_of_mem hst
        · exact (h.httpWrites p hp).imp (fun hsensor => hshape.sensor_ids ▸ hsensor)
            hshape.switchNode
        · -- The simulation is on and stays so: nothing is claimed.
          cases hon.symm.trans hoff
    · cases hstep

/-- The section of a switch to off switches the elements off, and has a write for every node. -/
theorem OffInv.setSimulationEnabled {t t' : Threads} (h : OffInv t) {enabled : Bool}
    (hstep : stepThreads t (.setSimulationEnabled enabled) = some t') : OffInv t' := by
  rw [stepThreads] at hstep
  split at hstep
  · cases hstep
  · have hshape := sameShape_switched t.world enabled
    rw [switchSection_run h.ready.sound.mutex h.ready.fits enabled] at hstep
    cases hstep
    refine ⟨hshape.switchReady h.ready, fun p hp => hshape.sensor_ids ▸ h.tickWrites p hp,
      fun p hp => ?_, fun hoff st hst => ?_⟩
    · rcases List.mem_append.mp hp with hp | hp
      · obtain ⟨id, hid, rfl⟩ := List.mem_map.mp hp
        exact Or.inr (hshape.switchNode (h.ready.wired id (Option.mem_toList.mp hid)))
      · cases enabled with
        | true => cases hp
        | false =>
            obtain ⟨id, hid, rfl⟩ := List.mem_map.mp hp
            exact Or.inl ⟨hshape.sensor_ids ▸ hid, rfl⟩
    · cases enabled with
      | true => cases hoff
      | false =>
          -- Every sensor of the moment has its FALSE among the writes to come.
          have hmem : (st.nodeId, false)
              ∈ switchWrites false (t.world.nm.simulationEnabledNodeId,
                t.world.nm.sensors.map SimulatedSensor.nodeId) := by
            refine List.mem_append_right _ (List.mem_map.mpr ⟨st.nodeId, ?_, rfl⟩)
            exact hshape.sensor_ids ▸ List.mem_map_of_mem hst
          exact ⟨fun htrue => (nomatch (switched_off t.world st hst).symm.trans htrue),
            Or.inr hmem⟩

/-- A write of a tick keeps the invariant when it lands in time. -/
theorem OffInv.tickWrite {t t' : Threads} (h : OffInv t) (hguard : LandsInTime t .tickWrite)
    (hstep : stepThreads t .tickWrite = some t') : OffInv t' := by
  obtain ⟨⟨w, rest⟩, hfirst, rfl⟩ := Option.map_eq_some_iff.mp hstep
  obtain ⟨id, v, rc, hwrites, hrun⟩ := firstWrite_eq_some hfirst
  have hid : id ∈ t.world.nm.sensors.map SimulatedSensor.nodeId :=
    h.tickWrites (id, v) (hwrites ▸ List.mem_cons_self ..)
  have hwrite := placedWrite_of_run h.ready hid hrun
  refine h.of_shape hwrite.shape (hwrites ▸ List.subset_cons_self ..) (List.Subset.refl _)
    fun hoff => ?_
  have hoff₀ : t.world.nm.simulationEnabled = false := hwrite.enabled.symm.trans hoff
  refine hwrite.off (h.off hoff₀) (fun _ _ hmem => hmem) ?_
  rintro rfl
  rcases hguard rfl id rest hwrites with hon | hpending
  · cases hoff₀.symm.trans hon
  · exact hpending

/-- A write of a switch keeps the invariant. -/
theorem OffInv.httpWrite {t t' : Threads} (h : OffInv t)
    (hstep : stepThreads t .httpWrite = some t') : OffInv t' := by
  obtain ⟨⟨w, rest⟩, hfirst, rfl⟩ := Option.map_eq_some_iff.mp hstep
  obtain ⟨id, v, rc, hwrites, hrun⟩ := firstWrite_eq_some hfirst
  have hrest : rest ⊆ t.httpWrites := hwrites ▸ List.subset_cons_self ..
  -- A pending write to another node is one of the rest.
  have hkeep : ∀ id', id' ≠ id → (id', false) ∈ t.httpWrites → (id', false) ∈ rest := by
    intro id' hne hmem
    rw [hwrites] at hmem
    rcases List.mem_cons.mp hmem with heq | hmem
    · exact absurd (Prod.mk.inj heq).1 hne
    · exact hmem
  rcases h.httpWrites (id, v) (hwrites ▸ List.mem_cons_self ..) with ⟨hid, hv⟩ | hswitch
  · have hwrite := placedWrite_of_run h.ready hid hrun
    refine h.of_shape hwrite.shape (List.Subset.refl _) hrest fun hoff => ?_
    refine hwrite.off (h.off (hwrite.enabled.symm.trans hoff)) hkeep fun htrue => ?_
    cases hv.symm.trans htrue
  · obtain ⟨hshape, heffect⟩ := writeValue_switchNode 6 h.ready.sound h.ready.placed hswitch
      h.ready.fits hrun
    refine h.of_shape hshape (List.Subset.refl _) hrest fun hoff st hst => ?_
    rcases heffect with rfl | ⟨hflag, hall⟩
    · obtain ⟨helement, hnode⟩ := h.off hoff st hst
      have hne : st.nodeId ≠ id := fun he =>
        (h.ready.sound.sensor_live st hst).not_switch (he ▸ hswitch)
      exact ⟨fun htrue => hkeep _ hne (helement htrue), hnode.imp_right (hkeep _ hne)⟩
    · obtain ⟨hvalue, hnode⟩ := hall (hflag.symm.trans hoff) st hst
      exact ⟨fun htrue => (nomatch hvalue.symm.trans htrue), Or.inl hnode⟩

/-- **One step** that lands in time keeps the invariant. -/
theorem OffInv.step {t t' : Threads} (h : OffInv t) {step : ThreadStep}
    (hguard : LandsInTime t step) (hstep : stepThreads t step = some t') : OffInv t' := by
  cases step with
  | tick => exact h.tick hstep
  | tickWrite => exact h.tickWrite hguard hstep
  | setSimulationEnabled enabled => exact h.setSimulationEnabled hstep
  | httpWrite => exact h.httpWrite hstep

/-! ### Runs -/

/-- **The extent of the law.** From the build of any configuration, along every interleaving of
ticks and switches in which each `true` write of a tick lands in time, the sensors are off whenever
the simulation is off and no switch is under way. -/
theorem offLaw_always (hstart : start host nsIdx cfg file = some w) {steps : List ThreadStep}
    (hguard : Each stepThreads LandsInTime ⟨w, [], []⟩ steps) :
    Always stepThreads Threads.OffLaw ⟨w, [], []⟩ steps := by
  have hready : SwitchReady w :=
    ⟨start_sound hstart, start_fits hstart, start_contextsPlaced hstart, start_switch hstart⟩
  have hinv : OffInv ⟨w, [], []⟩ :=
    ⟨hready, nofun, nofun, fun hoff => nomatch (start_enabled hstart).symm.trans hoff⟩
  exact always_of_each (I := OffInv) (fun _ => True) (fun _ _ _ _ h hg hstep => h.step hg hstep)
    (fun _ h => h.offLaw) (fun _ _ => trivial) hinv hguard

/-- The check of `LandsInTime`. -/
def landsInTimeb (t : Threads) : ThreadStep → Bool
  | .tickWrite =>
      match t.tickWrites with
      | (id, true) :: _ => t.world.nm.simulationEnabled || decide ((id, false) ∈ t.httpWrites)
      | _ => true
  | _ => true

theorem landsInTime_of_check {t : Threads} {step : ThreadStep} (h : landsInTimeb t step = true) :
    LandsInTime t step := by
  rintro rfl id rest hwrites
  rw [landsInTimeb, hwrites] at h
  simpa using h

/-- A tick has made two of its four writes when the simulation is switched off. The other two land
between the writes of the switch, but each before the last write to its sensor. -/
def timelySteps : List ThreadStep :=
  [.tick, .tickWrite, .tickWrite, .setSimulationEnabled false, .httpWrite, .tickWrite, .httpWrite,
    .httpWrite, .tickWrite, .httpWrite, .httpWrite]

/-- In every state of that run the law holds. -/
theorem offLaw_timely : ∃ w, start .ok 1 serverConfigSeedDefaults none = some w ∧
    Always stepThreads Threads.OffLaw ⟨w, [], []⟩ timelySteps := by
  have hcheck : ((start .ok 1 serverConfigSeedDefaults none).any fun w =>
      eachb stepThreads landsInTimeb ⟨w, [], []⟩ timelySteps) = true := by
    decide +kernel
  obtain ⟨w, hw, hcheck⟩ := (Option.any_eq_true _ _).mp hcheck
  exact ⟨w, hw, offLaw_always hw (each_of_eachb (fun _ _ => landsInTime_of_check) hcheck)⟩

/-- A tick decides, the simulation is switched off from beginning to end, and then the first write
of the tick lands. -/
def lateSteps : List ThreadStep :=
  [.tick, .setSimulationEnabled false, .httpWrite, .httpWrite, .httpWrite, .httpWrite, .httpWrite,
    .tickWrite]

/-- After that run the simulation is off, no switch is under way, and the first sensor is on. -/
theorem not_offLaw_late : ∃ w, start .ok 1 serverConfigSeedDefaults none = some w ∧
    ∃ t, run stepThreads ⟨w, [], []⟩ lateSteps = some t ∧ ¬ t.OffLaw := by
  have hcheck : ((start .ok 1 serverConfigSeedDefaults none).any fun w =>
      (run stepThreads ⟨w, [], []⟩ lateSteps).any fun t =>
        decide (t.httpWrites = []) && !t.world.nm.simulationEnabled &&
        t.world.nm.sensors.any (fun st => st.value)) = true := by
    decide +kernel
  obtain ⟨w, hw, hcheck⟩ := (Option.any_eq_true _ _).mp hcheck
  obtain ⟨t, hrun, hcheck⟩ := (Option.any_eq_true _ _).mp hcheck
  simp only [Bool.and_eq_true, decide_eq_true_eq, Bool.not_eq_true'] at hcheck
  obtain ⟨⟨hnone, hoff⟩, hon⟩ := hcheck
  refine ⟨w, hw, t, hrun, fun hlaw => ?_⟩
  obtain ⟨st, hst, hvalue⟩ := List.any_eq_true.mp hon
  cases (hlaw hnone hoff st hst).1.symm.trans hvalue

end SmartFactory.Server
