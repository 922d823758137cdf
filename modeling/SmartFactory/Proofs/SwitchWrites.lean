import SmartFactory.Proofs.Values

/-!
# `SmartFactory.Proofs.SwitchWrites`: the two places of the switch

The position of the simulation switch is kept twice: in `nm->simulationEnabled` and in the
value of the node that the program remembers. `switchState` are the two together. An on/off
request and a Boolean write of a client to that node set both; every other operation of the
simulation leaves both alone.

Nothing here asks whether the sensors fit the arrays on the stack or whether the contexts are
current. An operation that overruns an array or goes through a stale context does not return, and
the theorems are about those that do.
-/

set_option autoImplicit false

namespace SmartFactory.Server

/-- The simulation flag, and the value of the node of that id. -/
def World.switchState (w : World) (id : NodeId) : Bool × Option Variant :=
  (w.nm.simulationEnabled, w.space.valueOf id)

/-- The node of that id is the simulation switch that the program remembers, and there is no
other one. -/
structure SwitchIs (w : World) (id : NodeId) : Prop where
  remembered : w.nm.simulationEnabledNodeId = some id
  isSwitch : w.space.isSwitch id = true
  only : ∀ id', w.space.isSwitch id' = true → id' = id

/-- The position that a write of `v` to the node `nodeId` sets the switch `id` to. -/
def setByWrite (id nodeId : NodeId) : Scalar → Option Bool
  | .boolean b => if nodeId = id then some b else none
  | _ => none

/-- The position that an operation sets the switch to. -/
def Op.setsSwitch (id : NodeId) : Op → Option Bool
  | .setSimulationEnabled enabled => some enabled
  | .clientWrite nodeId v => setByWrite id nodeId v
  | _ => none

/-- Both places after the switch was set, if it was. -/
def switchAfter (set : Option Bool) (state : Bool × Option Variant) : Bool × Option Variant :=
  match set with
  | some b => (b, some (.boolean b))
  | none => state

variable {w w' : World} {id : NodeId}

/-- The switch is the same in a world of the same shape. -/
theorem SameShape.switchIs (h : SameShape w w') (hs : SwitchIs w id) : SwitchIs w' id where
  remembered := by
    rw [h.nm]
    exact hs.remembered
  isSwitch := (h.isSwitch id).trans hs.isSwitch
  only := fun id' hid' => hs.only id' ((h.isSwitch id').symm.trans hid')

/-- A switch is no sensor. -/
theorem SwitchIs.not_sensor (hs : SwitchIs w id) : ¬ SensorNode w.space id := by
  obtain ⟨n, v, hn, hv, -, hcb⟩ := isSwitch_iff.mp hs.isSwitch
  exact fun hsensor => hsensor.not_switch ⟨n, v, hn, hv, hcb⟩

/-- A write through a context changes neither place. -/
@[simp] theorem sensorWritten_switchState (context : Option SensorRef) (b : Bool) :
    (w.sensorWritten context b).switchState id = w.switchState id := by
  rw [World.switchState, sensorWritten_enabled, sensorWritten_space]
  rfl

/-- A value stored in another node changes neither place. -/
theorem storeValue_switchState {nodeId : NodeId} (hne : id ≠ nodeId) (v : Variant) :
    (w.storeValue nodeId v).switchState id = w.switchState id := by
  rw [World.switchState, valueOf_storeValue_of_ne hne]
  rfl

/-- Writes to sensors change neither place. -/
theorem writeAll_switchState (depth : Nat) (hw : Sound w) {writes : List (NodeId × Bool)}
    (h : ∀ p ∈ writes, SensorNode w.space p.1) :
    Through (writes.map Prod.fst) (writeAll (writeValue (depth + 1)) writes) w
      fun _ w' => SameShape w w' ∧
        ∀ id, ¬ SensorNode w.space id → w'.switchState id = w.switchState id := by
  refine writeAll_keeps depth (P := fun w₁ => ∀ id, ¬ SensorNode w.space id →
    w₁.switchState id = w.switchState id) hw h ?_ fun _ _ => rfl
  intro w₁ p hp hP id hid
  have hne : id ≠ p.1 := fun he => hid (he ▸ h p hp)
  rw [World.sensorNodeWritten, sensorWritten_switchState, storeValue_switchState hne]
  exact hP id hid

/-- A tick that returns changes neither place. -/
theorem tick_switchState (hw : Sound w)
    (h : nodeManagerRunSimulationTick.run w = .ok ((), w')) :
    SameShape w w' ∧ ∀ id, ¬ SensorNode w.space id → w'.switchState id = w.switchState id := by
  obtain ⟨writes, w₁, hsection, hwrites⟩ := ok_of_run_bind h
  rcases tickSection_of_ok hw.mutex hsection with ⟨-, rfl, rfl⟩ | ⟨-, rfl, rfl⟩
  · obtain ⟨-, rfl⟩ := ok_of_run_return hwrites
    exact ⟨SameShape.refl _, fun _ _ => rfl⟩
  · have hshape := sameShape_ticked w
    have hsensors : ∀ p ∈ tickWrites w.nm.sensors, SensorNode w.ticked.space p.1 := by
      intro p hp
      obtain ⟨st, hst, -, rfl⟩ := mem_tickWrites.mp hp
      exact hw.sensor_live st hst
    obtain ⟨hshape', hkeeps⟩ :=
      (writeAll_switchState 7 (hshape.sound hw) hsensors).of_ok hwrites
    exact ⟨hshape.trans hshape', fun id hid => hkeeps id hid⟩

/-- An operation that goes through the locked section of a switch and returns found the sensors
to fit. -/
theorem fits_of_switchSection {α : Type} {enabled : Bool} {f : Option NodeId × List NodeId → M α}
    {a : α} (hw : Sound w) (h : (switchSection enabled >>= f).run w = .ok (a, w')) :
    w.nm.sensors.length ≤ serverMaxNodes := by
  by_contra hover
  have hfault := run_bind_error (f := f)
    (switchSection_overflow hw.mutex (Nat.lt_of_not_le hover) enabled)
  cases h.symm.trans hfault

/-- The callback of a switch sets the flag, and leaves the nodes other than sensors alone. -/
theorem simulationEnabledWriteCallback_switchState (depth : Nat) (hw : Sound w) {b : Bool}
    (h : (simulationEnabledWriteCallback (writeValue (depth + 1)) (.boolean b)).run w
      = .ok ((), w')) :
    SameShape w w' ∧
      ∀ id, ¬ SensorNode w.space id → w'.switchState id = (b, w.space.valueOf id) := by
  simp only [simulationEnabledWriteCallback, Variant.readBoolean] at h
  have hfit := fits_of_switchSection hw h
  have hshape := sameShape_switched w b
  rw [run_bind_ok (switchSection_run hw.mutex hfit b)] at h
  cases b with
  | true =>
      obtain ⟨-, rfl⟩ := ok_of_run_return h
      exact ⟨hshape, fun _ _ => rfl⟩
  | false =>
      have hsound := hshape.sound hw
      -- The writes go to sensors, and a switch is none.
      obtain ⟨hshape', hkeeps⟩ := (writeAll_switchState depth hsound
        (hsound.sensorNodes (offWrites_mem hshape))).of_ok h
      exact ⟨hshape.trans hshape', fun id hid => hkeeps id hid⟩

/-- The callback of a sensor changes neither place. -/
theorem sensorWriteCallback_switchState (hw : Sound w) {nodeId : NodeId} {v : Scalar}
    (h : (sensorWriteCallback (w.space.contextOf nodeId) v).run w = .ok ((), w')) :
    SameShape w w' ∧ ∀ id, w'.switchState id = w.switchState id := by
  cases v with
  | boolean b =>
      obtain rfl := (sensorWriteCallback_through hw.mutex _ rfl).of_ok h
      exact ⟨sameShape_sensorWritten _ _, fun _ => sensorWritten_switchState _ b⟩
  | _ =>
      obtain ⟨-, rfl⟩ := run_unique (sensorWriteCallback_ignored _ rfl) h
      exact ⟨SameShape.refl _, fun _ => rfl⟩

/-- A write that the server takes is the stored value and the callback. -/
theorem runCallback_of_write (depth : Nat) {n : UaNode} {vAttr : UaVariable} {v : Variant}
    {rc : StatusCode} (hn : w.space.find id = some n) (hv : n.vAttr = some vAttr)
    (htake : v.storable vAttr.dataType = true)
    (h : (writeValue (depth + 1) id v).run w = .ok (rc, w')) :
    (runCallback (writeValue depth) vAttr v).run (w.storeValue id v) = .ok ((), w') := by
  rw [writeValue_run depth hn hv htake] at h
  cases hrun : (runCallback (writeValue depth) vAttr v).run (w.storeValue id v) with
  | error fault =>
      rw [hrun] at h
      cases h
  | ok r =>
      rw [hrun] at h
      cases h
      rfl

/-- The server takes a write to the node of a switch when the value is a Boolean. -/
theorem SwitchIs.dataType_eq (hs : SwitchIs w id) {n : UaNode} {vAttr : UaVariable}
    (hn : w.space.find id = some n) (hv : n.vAttr = some vAttr) : vAttr.dataType = .boolean := by
  obtain ⟨n', v', hn', hv', hdt, -⟩ := isSwitch_iff.mp hs.isSwitch
  obtain ⟨rfl, rfl⟩ := attribute_unique hn hv hn' hv'
  exact hdt

/-- A write that is no Boolean to the switch does not set it. -/
theorem setByWrite_eq_none {nodeId : NodeId} {v : Scalar}
    (h : ∀ b, v = .boolean b → nodeId ≠ id) : setByWrite id nodeId v = none := by
  cases v with
  | boolean b => exact if_neg (h b rfl)
  | _ => rfl

/-- A write that the server rejects does not set the switch: a Boolean would have been taken. -/
theorem SwitchIs.setByWrite_of_rejected (hs : SwitchIs w id) {nodeId : NodeId} {v : Scalar}
    (hrejected : ∀ n vAttr, w.space.find nodeId = some n → n.vAttr = some vAttr →
      v.dataType ≠ vAttr.dataType) : setByWrite id nodeId v = none := by
  refine setByWrite_eq_none ?_
  rintro b rfl rfl
  obtain ⟨n, vAttr, hn, hv, hdt, -⟩ := isSwitch_iff.mp hs.isSwitch
  exact hrejected n vAttr hn hv hdt.symm

/-- A write that returns sets both places when it is a Boolean to the switch, and changes neither
otherwise. -/
theorem writeValue_switchState (depth : Nat) (hw : Sound w) {nodeId : NodeId} {v : Scalar}
    {rc : StatusCode} (h : (writeValue (depth + 2) nodeId v).run w = .ok (rc, w')) :
    SameShape w w' ∧ ∀ id, SwitchIs w id →
      w'.switchState id = switchAfter (setByWrite id nodeId v) (w.switchState id) := by
  rcases taken_or_rejected w nodeId v with ⟨n, vAttr, hn, hv, htake⟩ | hrejected
  · have hdt := storable_scalar.mp htake
    have hcallback := runCallback_of_write (depth + 1) hn hv htake h
    have hstore := sameShape_storeValue w nodeId v
    have hsound := hstore.sound hw
    -- The node of a switch calls the callback of a switch, and no other one.
    have hother : ∀ id, SwitchIs w id → vAttr.onWrite ≠ some .simulationEnabledWrite →
        id ≠ nodeId := by
      rintro id hs hcb rfl
      exact hcb (attribute_of_switch hn hv hs.isSwitch)
    have hkept : ∀ id, SwitchIs w id → id ≠ nodeId →
        (w.storeValue nodeId v).switchState id
          = switchAfter (setByWrite id nodeId v) (w.switchState id) := by
      intro id hs hne
      rw [storeValue_switchState hne, setByWrite_eq_none fun _ _ he => hne he.symm]
      rfl
    simp only [runCallback] at hcallback
    split at hcallback
    · rename_i hcb
      obtain ⟨-, rfl⟩ := ok_of_run_return hcallback
      refine ⟨hstore, fun id hs => hkept id hs (hother id hs ?_)⟩
      rw [hcb]
      simp
    · rename_i hcb
      rw [← contextOf_of_find hn hv, ← hstore.contextOf] at hcallback
      obtain ⟨hshape, hkeeps⟩ := sensorWriteCallback_switchState hsound hcallback
      refine ⟨hstore.trans hshape, fun id hs => (hkeeps id).trans (hkept id hs (hother id hs ?_))⟩
      rw [hcb]
      simp
    · rename_i hcb
      cases v with
      | boolean b =>
          obtain ⟨hshape, hset⟩ :=
            simulationEnabledWriteCallback_switchState depth hsound hcallback
          refine ⟨hstore.trans hshape, fun id hs => ?_⟩
          obtain rfl : nodeId = id :=
            hs.only nodeId (isSwitch_iff.mpr ⟨n, vAttr, hn, hv, hdt.symm, hcb⟩)
          rw [hset nodeId (hstore.switchIs hs).not_sensor, valueOf_storeValue hn hv, if_pos rfl,
            setByWrite, if_pos rfl]
          rfl
      | _ =>
          obtain ⟨-, rfl⟩ := run_unique (simulationEnabledWriteCallback_ignored _ rfl) hcallback
          refine ⟨hstore, fun id hs => hkept id hs ?_⟩
          rintro rfl
          cases hdt.trans (hs.dataType_eq hn hv)
  · obtain ⟨rc', -, hrun⟩ := writeValue_rejected (depth + 1) hrejected
    obtain ⟨-, rfl⟩ := run_unique hrun h
    refine ⟨SameShape.refl _, fun id hs => ?_⟩
    rw [hs.setByWrite_of_rejected fun n vAttr hn hv hdt =>
      absurd (storable_scalar.mpr hdt) (by simp [hrejected n vAttr hn hv])]
    rfl

/-- An on/off request that returns sets both places. -/
theorem setSimulationEnabled_switchState (hw : Sound w) {enabled : Bool}
    (h : (nodeManagerSetSimulationEnabled enabled).run w = .ok ((), w')) :
    SameShape w w' ∧ ∀ id, SwitchIs w id →
      w'.switchState id = (enabled, some (.boolean enabled)) := by
  have hfit := fits_of_switchSection hw h
  refine ⟨(nodeManagerSetSimulationEnabled_through hw hfit enabled).of_ok h, fun id hs => ?_⟩
  have hswitched := sameShape_switched w enabled
  have hsound := hswitched.sound hw
  have hs' := hswitched.switchIs hs
  rw [nodeManagerSetSimulationEnabled_run hw.mutex hfit, hs.remembered] at h
  obtain ⟨_, w₂, hnode, hrest⟩ := ok_of_run_bind h
  -- The write to the node of the switch sets both places once more.
  obtain ⟨rc, hwrite⟩ := ok_of_discard hnode
  obtain ⟨hshape₂, hset⟩ := writeValue_switchState (v := .boolean enabled) 6 hsound hwrite
  have hset := hset id hs'
  rw [setByWrite, if_pos rfl] at hset
  cases enabled with
  | true =>
      obtain ⟨-, rfl⟩ := ok_of_run_return hrest
      exact hset
  | false =>
      have hsound₂ := hshape₂.sound hsound
      obtain ⟨-, hkeeps⟩ := (writeAll_switchState 7 hsound₂
        (hsound₂.sensorNodes (offWrites_mem (hswitched.trans hshape₂)))).of_ok hrest
      exact (hkeeps id (hshape₂.switchIs hs').not_sensor).trans hset

/-- **The operations of the simulation and the switch.** One that returns keeps the shape, and it
sets both places or neither. -/
theorem simulationOp_switchState (cjson : CJson) (hw : Sound w) {op : Op}
    (hop : op.isSimulationOp = true) {rc : StatusCode}
    (h : (perform cjson op).run w = .ok (rc, w')) :
    SameShape w w' ∧ ∀ id, SwitchIs w id →
      w'.switchState id = switchAfter (op.setsSwitch id) (w.switchState id) := by
  cases op with
  | tick =>
      obtain ⟨_, w₁, hrun, hret⟩ := ok_of_run_bind h
      obtain ⟨-, rfl⟩ := ok_of_run_return hret
      obtain ⟨hshape, hkeeps⟩ := tick_switchState hw hrun
      exact ⟨hshape, fun id hs => hkeeps id hs.not_sensor⟩
  | setSimulationEnabled enabled =>
      obtain ⟨_, w₁, hrun, hret⟩ := ok_of_run_bind h
      obtain ⟨-, rfl⟩ := ok_of_run_return hret
      exact setSimulationEnabled_switchState hw hrun
  | resetOverrides =>
      obtain ⟨_, w₁, hrun, hret⟩ := ok_of_run_bind h
      obtain ⟨-, rfl⟩ := ok_of_run_return hret
      rw [nodeManagerResetOverrides_run hw.mutex] at hrun
      cases hrun
      exact ⟨sameShape_reset w, fun _ _ => rfl⟩
  | clientWrite nodeId v => exact writeValue_switchState 6 hw h
  | _ => cases hop

end SmartFactory.Server
