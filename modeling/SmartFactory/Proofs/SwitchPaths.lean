import SmartFactory.Proofs.Events
import SmartFactory.Proofs.SwitchAgreement

/-!
# `SmartFactory.Proofs.SwitchPaths`: two ways to set the switch

`node_manager_set_simulation_enabled` switches the sensors, writes the position to the node of the
switch, and writes `false` to the sensors when it is off. The write to the node runs
`simulation_enabled_write_callback`, which is all that a client's write to it does. So the request
does everything twice.

`switchWritten` is what doing it once leaves behind. The writes of `false` are idempotent and
commute (`foldl_foldl_self`), so doing it twice leaves the same: `switchPathsAgree_iff`. Two things
limit that. Both ways copy the ids of all the sensors into an array on the stack, and both store
through the contexts of the sensors when they switch off.
-/

set_option autoImplicit false

namespace SmartFactory.Server

open Run

section
variable {σ α : Type*} {f : σ → α → σ}

/-- What commutes can be done last or first. -/
theorem foldl_apply_comm (hcomm : ∀ s a b, f (f s a) b = f (f s b) a) (s : σ) (l : List α)
    (a : α) : f (l.foldl f s) a = l.foldl f (f s a) := by
  induction l generalizing s with
  | nil => rfl
  | cons b l ih => rw [List.foldl_cons, ih, hcomm, List.foldl_cons]

/-- Doing again what is idempotent and commutes. -/
theorem foldl_foldl_self (hcomm : ∀ s a b, f (f s a) b = f (f s b) a)
    (hidem : ∀ s a, f (f s a) a = f s a) (s : σ) (l : List α) :
    l.foldl f (l.foldl f s) = l.foldl f s := by
  induction l generalizing s with
  | nil => rfl
  | cons a l ih =>
      have hagain : f (l.foldl f (f s a)) a = l.foldl f (f s a) := by
        rw [foldl_apply_comm hcomm, hidem]
      rw [List.foldl_cons, List.foldl_cons, hagain, ih]

end

/-! ### Writes to sensors -/

variable {w w' : World} {id : NodeId} {b : Bool}

/-- A write leaves the contexts. -/
@[simp] theorem contextOf_sensorNodeWritten (id' : NodeId) :
    (w.sensorNodeWritten b id).space.contextOf id' = w.space.contextOf id' :=
  (sameShape_sensorNodeWritten w id b).contextOf id'

/-- Two stores of the same value. -/
theorem storeValue_comm (w : World) (id id' : NodeId) (v : Variant) :
    (w.storeValue id v).storeValue id' v = (w.storeValue id' v).storeValue id v := by
  by_cases hne : id = id'
  · rw [hne]
  · simp only [World.storeValue, AddressSpace.updateVariable, List.map_map]
    congr 1
    refine List.map_congr_left fun n _ => ?_
    simp only [Function.comp_apply]
    by_cases hid : n.nodeId = id
    · simp [hid, hne]
    · by_cases hid' : n.nodeId = id'
      · simp [hid', Ne.symm hne]
      · simp [hid, hid']

theorem storeValue_storeValue (w : World) (id : NodeId) (v : Variant) :
    (w.storeValue id v).storeValue id v = w.storeValue id v := by
  simp only [World.storeValue, AddressSpace.updateVariable, List.map_map]
  congr 1
  refine List.map_congr_left fun n _ => ?_
  simp only [Function.comp_apply]
  by_cases hid : n.nodeId = id
  · cases n.vAttr <;> simp [hid]
  · simp [hid]

/-- The value of a node and the element of a sensor are in different places. -/
theorem storeValue_sensorWritten (w : World) (context : Option SensorRef) (b : Bool)
    (id : NodeId) (v : Variant) :
    (w.sensorWritten context b).storeValue id v = (w.storeValue id v).sensorWritten context b := by
  cases context <;> rfl

/-- Two writes of the same value through contexts. -/
theorem sensorWritten_comm (w : World) (context context' : Option SensorRef) (b : Bool) :
    (w.sensorWritten context b).sensorWritten context' b
      = (w.sensorWritten context' b).sensorWritten context b := by
  cases context with
  | none => rfl
  | some ref =>
      cases context' with
      | none => rfl
      | some ref' =>
          simp only [World.sensorWritten]
          by_cases hindex : ref.index = ref'.index
          · rw [hindex]
          · rw [List.modify_modify_ne _ _ _ hindex]

theorem sensorWritten_sensorWritten (w : World) (context : Option SensorRef) (b : Bool) :
    (w.sensorWritten context b).sensorWritten context b = w.sensorWritten context b := by
  cases context with
  | none => rfl
  | some ref =>
      simp only [World.sensorWritten, List.modify_modify_eq]
      rfl

/-- **The writes of one value to sensors** commute, and repeating one changes nothing. -/
theorem sensorNodeWritten_comm (b : Bool) (w : World) (id id' : NodeId) :
    (w.sensorNodeWritten b id).sensorNodeWritten b id'
      = (w.sensorNodeWritten b id').sensorNodeWritten b id := by
  have hcontext : ∀ id id', (w.sensorNodeWritten b id).sensorNodeWritten b id'
      = (((w.storeValue id (.boolean b)).storeValue id' (.boolean b)).sensorWritten
          (w.space.contextOf id) b).sensorWritten (w.space.contextOf id') b := by
    intro id id'
    rw [World.sensorNodeWritten, contextOf_sensorNodeWritten, World.sensorNodeWritten,
      storeValue_sensorWritten]
  rw [hcontext, hcontext, storeValue_comm, sensorWritten_comm]

theorem sensorNodeWritten_self (b : Bool) (w : World) (id : NodeId) :
    (w.sensorNodeWritten b id).sensorNodeWritten b id = w.sensorNodeWritten b id := by
  rw [World.sensorNodeWritten, contextOf_sensorNodeWritten, World.sensorNodeWritten,
    storeValue_sensorWritten, storeValue_storeValue, sensorWritten_sensorWritten]

/-! ### One switch -/

/-- The world after a write of the position to the node of the switch. -/
def World.switchWritten (w : World) (id : NodeId) (enabled : Bool) : World :=
  ((w.storeValue id (.boolean enabled)).switched enabled).offWritten enabled

/-- Switching twice is switching once, whatever is stored in between. -/
theorem switched_storeValue_switched (w : World) (id : NodeId) (v : Variant) (enabled : Bool) :
    ((w.switched enabled).storeValue id v).switched enabled
      = (w.storeValue id v).switched enabled := by
  have hsensors : (w.nm.sensors.map fun st => st.switched enabled).map
      (fun st => st.switched enabled) = w.nm.sensors.map fun st => st.switched enabled := by
    rw [List.map_map]
    refine List.map_congr_left fun st _ => ?_
    cases enabled <;> rfl
  simp only [World.switched, World.storeValue, hsensors]

/-- Doing it twice is doing it once. -/
theorem offWritten_offWritten (w : World) (enabled : Bool) :
    (w.offWritten enabled).offWritten enabled = w.offWritten enabled := by
  cases enabled with
  | true => rfl
  | false =>
      have hwrites := (sameShape_offWritten w false).offWrites
      show (w.offWritten false).sensorNodesWritten (offWrites _) = w.sensorNodesWritten _
      rw [hwrites]
      show (w.sensorNodesWritten _).sensorNodesWritten _ = _
      simp only [World.sensorNodesWritten, offWrites, List.foldl_map]
      exact foldl_foldl_self (sensorNodeWritten_comm false) (sensorNodeWritten_self false) _ _

theorem sameShape_switchWritten (w : World) (id : NodeId) (enabled : Bool) :
    SameShape w (w.switchWritten id enabled) :=
  ((sameShape_storeValue w id _).trans (sameShape_switched _ enabled)).trans
    (sameShape_offWritten _ enabled)

/-- A Boolean that is written to a switch gets to its callback. -/
theorem callback_of_switch (hid : w.space.isSwitch id = true) (enabled : Bool) :
    w.callback id (.boolean enabled) = some (.simulationEnabledWrite, .ok enabled) := by
  obtain ⟨n, v, hn, hv, hdt, hcb⟩ := isSwitch_iff.mp hid
  exact callback_eq_some.mpr ⟨n, v, hn, hv, hdt, hcb, rfl, nofun⟩

/-- A write of the position to the node of a switch. -/
theorem writeValue_switch (depth : Nat) (hw : Sound w)
    (hfit : w.nm.sensors.length ≤ serverMaxNodes) (hid : w.space.isSwitch id = true)
    (enabled : Bool) :
    Through (w.offTargets enabled) (writeValue (depth + 2) id (.boolean enabled)) w
      fun _ w' => w' = w.switchWritten id enabled := by
  obtain ⟨n, v, hn, hv, hdt, hcb⟩ := isSwitch_iff.mp hid
  have hstore := sameShape_storeValue w id (.boolean enabled)
  have hcallback := simulationEnabledWriteCallback_through depth (hstore.sound hw) hfit
    (v := .boolean enabled) rfl
  rw [hstore.offTargets] at hcallback
  refine (Through.write (depth + 1) hn hv (storable_boolean.mpr hdt) ?_).mono
    fun _ _ hkept => hkept.2
  simp only [runCallback, hcb]
  exact hcallback

/-- A request for the position comes to the same. -/
theorem nodeManagerSetSimulationEnabled_switch (hw : Sound w)
    (hfit : w.nm.sensors.length ≤ serverMaxNodes)
    (hremembered : w.nm.simulationEnabledNodeId = some id) (hid : w.space.isSwitch id = true)
    (enabled : Bool) :
    Through (w.offTargets enabled) (nodeManagerSetSimulationEnabled enabled) w
      fun _ w' => w' = w.switchWritten id enabled := by
  have hshape := sameShape_switched w enabled
  have hsound := hshape.sound hw
  have hwrite := writeValue_switch 6 hsound (hshape.length_sensors ▸ hfit)
    ((hshape.isSwitch id).trans hid) enabled
  have hnode : Through ((w.switched enabled).offTargets enabled)
      (switchNodeWrite enabled w.nm.simulationEnabledNodeId) (w.switched enabled)
      fun _ w₁ => w₁ = (w.switched enabled).switchWritten id enabled := by
    rw [hremembered]
    exact hwrite.discard.mono fun _ _ ⟨_, hkept⟩ => hkept
  have hwritten := sameShape_switchWritten (w.switched enabled) id enabled
  rw [hshape.offTargets] at hnode
  have hboth : Through (w.offTargets enabled ++ w.offTargets enabled)
      (nodeManagerSetSimulationEnabled enabled) w
      fun _ w' => w' = w.switchWritten id enabled := by
    refine .of_eq hshape (nodeManagerSetSimulationEnabled_run hw.mutex hfit enabled)
      (hnode.bind ?_)
    rintro _ _ rfl
    have hoff := offWrites_run 7 (hwritten.sound hsound) (hshape.trans hwritten) enabled
    rw [(hshape.trans hwritten).offTargets] at hoff
    refine ⟨hwritten, hoff.mono ?_⟩
    -- The callback has done everything, and the request does it again.
    rintro _ _ rfl
    rw [World.switchWritten, offWritten_offWritten, switched_storeValue_switched,
      World.switchWritten]
  exact hboth.congr fun id' => by rw [List.mem_append, or_self]

/-- Neither way returns when the ids of the sensors do not fit the array on the stack. -/
theorem switch_overflow (cjson : CJson) (hw : Sound w) (hid : w.space.isSwitch id = true)
    (hover : ¬ w.nm.sensors.length ≤ serverMaxNodes) (enabled : Bool) :
    stepOp cjson w (.setSimulationEnabled enabled) = none ∧
      stepOp cjson w (.clientWrite id (.boolean enabled)) = none := by
  have hsection := switchSection_overflow hw.mutex (Nat.lt_of_not_le hover) enabled
  have hrequest : (perform cjson (.setSimulationEnabled enabled)).run w = .error .arrayOverflow :=
    run_bind_error (run_bind_error hsection)
  have hclient : (perform cjson (.clientWrite id (.boolean enabled))).run w
      = .error .arrayOverflow :=
    writeValue_overflow 7 hw (callback_of_switch hid enabled) (Nat.lt_of_not_le hover)
  constructor
  · rw [stepOp, hrequest]
  · rw [stepOp, hclient]

/-! ### The law and its extent -/

/-- The request and the client's write return, and they lead to the same state. -/
def SwitchPathsAgree (cjson : CJson) (w : World) (id : NodeId) (enabled : Bool) : Prop :=
  ∃ w', stepOp cjson w (.setSimulationEnabled enabled) = some w' ∧
    stepOp cjson w (.clientWrite id (.boolean enabled)) = some w'

/-- The sensors fit the array on the stack, and a switch to off goes through no stale context. -/
structure SwitchReturns (w : World) (enabled : Bool) : Prop where
  fits : w.nm.sensors.length ≤ serverMaxNodes
  current : enabled = false → ∀ st ∈ w.nm.sensors, w.Current st.nodeId

theorem forall_offTargets {enabled : Bool} : (∀ id ∈ w.offTargets enabled, w.Current id) ↔
    (enabled = false → ∀ st ∈ w.nm.sensors, w.Current st.nodeId) := by
  cases enabled <;> simp [World.offTargets, World.sensorIds]

/-- In any sound state with a switch that the program remembers. -/
theorem switchPathsAgree_of_switch (cjson : CJson) (hw : Sound w)
    (hremembered : w.nm.simulationEnabledNodeId = some id) (hid : w.space.isSwitch id = true)
    (enabled : Bool) :
    stepOp cjson w (.setSimulationEnabled enabled)
        = stepOp cjson w (.clientWrite id (.boolean enabled)) ∧
      (SwitchPathsAgree cjson w id enabled ↔ SwitchReturns w enabled) := by
  by_cases hfit : w.nm.sensors.length ≤ serverMaxNodes
  · have hrequest : Through (w.offTargets enabled) (perform cjson (.setSimulationEnabled enabled))
        w fun _ w' => w' = w.switchWritten id enabled :=
      (nodeManagerSetSimulationEnabled_switch hw hfit hremembered hid enabled).andReturn
    have hclient : Through (w.offTargets enabled)
        (perform cjson (.clientWrite id (.boolean enabled))) w
        fun _ w' => w' = w.switchWritten id enabled :=
      writeValue_switch 6 hw hfit hid enabled
    by_cases hcurrent : ∀ id' ∈ w.offTargets enabled, w.Current id'
    · obtain ⟨_, _, hrun, rfl⟩ := hrequest.returns hcurrent
      obtain ⟨_, _, hrun', rfl⟩ := hclient.returns hcurrent
      have hsome := stepOp_eq_some.mpr ⟨_, hrun⟩
      have hsome' := stepOp_eq_some.mpr ⟨_, hrun'⟩
      exact ⟨hsome.trans hsome'.symm,
        iff_of_true ⟨_, hsome, hsome'⟩ ⟨hfit, forall_offTargets.mp hcurrent⟩⟩
    -- Both store into freed memory.
    · have hnone : stepOp cjson w (.setSimulationEnabled enabled) = none := by
        rw [stepOp, hrequest.faults hcurrent]
      have hnone' : stepOp cjson w (.clientWrite id (.boolean enabled)) = none := by
        rw [stepOp, hclient.faults hcurrent]
      refine ⟨hnone.trans hnone'.symm, iff_of_false ?_ fun h => ?_⟩
      · rintro ⟨w', hsome, -⟩
        cases hnone.symm.trans hsome
      · exact hcurrent (forall_offTargets.mpr h.current)
  · obtain ⟨hrequest, hclient⟩ := switch_overflow cjson hw hid hfit enabled
    refine ⟨hrequest.trans hclient.symm, iff_of_false ?_ fun h => hfit h.fits⟩
    rintro ⟨w', hsome, -⟩
    cases hrequest.symm.trans hsome

section
variable {env : HttpEnv} {host : Host} {nsIdx : Nat} {cfg : ServerConfig} {file : Option CString}
variable {s : ServerNodeDef} {flag : Bool} {sv : HttpServer} {es : List Event}

/-- Every operation keeps what the program knows about its switch. -/
theorem SwitchInv.stepConfigOp (h : SwitchInv s id w) {op : ConfigOp}
    (hstep : stepConfigOp env w op = some w') : SwitchInv s id w' := by
  cases op with
  | node op => exact (h.step (stepConfigOp_node op ▸ hstep)).inv
  | putConfig io body =>
      obtain ⟨ns, file, rfl⟩ := putConfig_world h.sound.mutex hstep
      exact ⟨h.sound.withConfig _ file, h.id_eq, h.isSwitch, h.mem,
        fun hlive => ⟨(h.switchIs hlive).remembered, (h.switchIs hlive).isSwitch,
          (h.switchIs hlive).only⟩⟩

/-- The switch of a running server. -/
theorem switchInv_of_events (hs : OneSwitch cfg s) (hstart : start host nsIdx cfg file = some w)
    (hr : run (stepEvent env) ⟨w, flag⟩ es = some sv) :
    SwitchInv s (w.nodeIdOf s.browseName.chars) sv.world :=
  (last_of_events (fun _ _ _ _ h hstep => h.stepConfigOp hstep) (start_sound hstart)
    (start_switchInv hs hstart).1 hr).2

/-- **The extent of the agreement.** In any state of a running server whose configuration has one
switch, a request for a position and a client's write of it to the node of the switch do the same.
They return exactly when the sensors fit the arrays on the stack and, for a switch to off, no
sensor's context points into an earlier allocation of the array. -/
theorem switchPathsAgree_iff (hs : OneSwitch cfg s) (hstart : start host nsIdx cfg file = some w)
    (hr : run (stepEvent env) ⟨w, flag⟩ es = some sv) (hlive : sv.world.Live s.browseName.chars)
    (enabled : Bool) :
    stepOp env.cjson sv.world (.setSimulationEnabled enabled) = stepOp env.cjson sv.world
        (.clientWrite (sv.world.nodeIdOf s.browseName.chars) (.boolean enabled)) ∧
      (SwitchPathsAgree env.cjson sv.world (sv.world.nodeIdOf s.browseName.chars) enabled ↔
        SwitchReturns sv.world enabled) := by
  have hinv := switchInv_of_events hs hstart hr
  rw [World.Live, ← hinv.id_eq] at hlive
  have hswitch := hinv.switchIs hlive
  rw [← hinv.id_eq]
  exact switchPathsAgree_of_switch env.cjson hinv.sound hswitch.remembered hswitch.isSwitch enabled

/-- With distinct names, the node of the switch stays live. -/
theorem switch_live_of_events (hs : OneSwitch cfg s) (hnames : DistinctNames cfg)
    (hstart : start host nsIdx cfg file = some w)
    (hr : run (stepEvent env) ⟨w, flag⟩ es = some sv) : sv.world.Live s.browseName.chars := by
  obtain ⟨hinv, hlive, -⟩ := start_switchInv hs hstart
  have hnd : DistinctNames w.nm.config := (start_config hstart).symm ▸ hnames
  have hkept := (last_of_events (I := fun w₁ => SwitchInv s (w.nodeIdOf s.browseName.chars) w₁ ∧
      DistinctNames w₁.nm.config ∧ w.nodeIdOf s.browseName.chars ∈ w₁.space.ids) ?_
      (start_sound hstart) ⟨hinv, hnd, hlive⟩ hr).2
  · rw [World.Live, ← hkept.1.id_eq]
    exact hkept.2.2
  · rintro w₁ op w₂ - ⟨h, hnd, hlive⟩ hstep
    refine ⟨h.stepConfigOp hstep, ?_⟩
    cases op with
    | node op =>
        rw [stepConfigOp_node] at hstep
        exact ⟨distinctNames_step hnd (step_kinds h.sound hstep), h.live_step hnd hlive hstep⟩
    | putConfig io body =>
        -- Another namespace in the configuration. The nodes are left alone.
        obtain ⟨ns, file, rfl⟩ := putConfig_world h.sound.mutex hstep
        exact ⟨hnd, hlive⟩

end

/-- After a tick of the default server, either way of switching off leads to the same state. -/
theorem switchPathsAgree_tick : ∃ w sv, start .ok 1 serverConfigSeedDefaults none = some w ∧
    run (stepEvent fillEnv) ⟨w, false⟩ [.tick] = some sv ∧
    SwitchPathsAgree fillEnv.cjson sv.world (sv.world.nodeIdOf "SimulationEnabled".toList)
      false := by
  have hcheck : ((start .ok 1 serverConfigSeedDefaults none).any fun w =>
      (run (stepEvent fillEnv) ⟨w, false⟩ [.tick]).any fun sv =>
        decide (sv.world.nm.sensors.length = 4 ∧
          ∀ st ∈ sv.world.nm.sensors, sv.world.Current st.nodeId)) = true := by
    decide +kernel
  obtain ⟨w, hw, hcheck⟩ := (Option.any_eq_true _ _).mp hcheck
  obtain ⟨sv, hrun, hcheck⟩ := (Option.any_eq_true _ _).mp hcheck
  obtain ⟨hfour, hcurrent⟩ := of_decide_eq_true hcheck
  obtain ⟨-, hiff⟩ := switchPathsAgree_iff oneSwitch_defaults hw hrun
    (switch_live_of_events oneSwitch_defaults distinctNames_defaults hw hrun) false
  refine ⟨w, sv, hw, hrun, hiff.mpr ⟨?_, fun _ => hcurrent⟩⟩
  rw [hfour]
  decide

/-- With 257 sensors neither way returns. -/
theorem not_switchPathsAgree_fill : ∃ w sv, start .ok 1 serverConfigSeedDefaults none = some w ∧
    run (stepEvent fillEnv) ⟨w, false⟩ ((fillNames 253).map postSensor) = some sv ∧
    OneSwitch serverConfigSeedDefaults defaultSwitch ∧ sv.world.Live "SimulationEnabled".toList ∧
    ¬ SwitchPathsAgree fillEnv.cjson sv.world (sv.world.nodeIdOf "SimulationEnabled".toList)
      false := by
  obtain ⟨w, sv, hw, hrun, hmany⟩ := run_postSensors
  have hinv := switchInv_of_events oneSwitch_defaults hw hrun
  have hlive := switch_live_of_events oneSwitch_defaults distinctNames_defaults hw hrun
  refine ⟨w, sv, hw, hrun, oneSwitch_defaults, hlive, ?_⟩
  rintro ⟨w', hrequest, -⟩
  have hswitch := hinv.switchIs (hinv.id_eq ▸ hlive)
  have hover : ¬ sv.world.nm.sensors.length ≤ serverMaxNodes := by
    rw [hmany]
    decide
  have hfault := (switch_overflow fillEnv.cjson hinv.sound hswitch.isSwitch hover false).1
  cases hfault.symm.trans hrequest

end SmartFactory.Server
