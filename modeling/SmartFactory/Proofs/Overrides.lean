import SmartFactory.Proofs.Filling
import SmartFactory.Proofs.Growth

/-!
# `SmartFactory.Proofs.Overrides`: who sets the `overridden` flag

A sensor is meant to be overridden when a client wrote to it after the latest reset or
on/off switch. `OverrideLaw` states this over the history of a run, with its consequence
for ticks: a tick negates the sensors that no client has overridden.

The callback of a sensor cannot tell who writes. A tick and a switch to off write to the
sensors through `UA_Server_writeValue`, and the callback marks every sensor they write to.
`overrideLaw_iff` is the exact extent of the law: it holds along a run precisely when no
step of the run makes the program write to a sensor itself (`NoOwnWrites`).
-/

set_option autoImplicit false

namespace SmartFactory.Server

open Run

variable (cjson : CJson)

/-- A client wrote a Boolean to the node after the latest reset or on/off switch. The
history lists the latest operation first. -/
def clientWroteSince (space : AddressSpace) (id : NodeId) : List Op → Bool
  | [] => false
  | .resetOverrides :: _ => false
  | .setSimulationEnabled _ :: _ => false
  | .clientWrite nodeId (.boolean _) :: earlier =>
      if space.isSwitch nodeId then false
      else nodeId = id || clientWroteSince space id earlier
  | _ :: earlier => clientWroteSince space id earlier

/-- One step of the server together with its history. -/
def recordOp (s : World × List Op) (op : Op) : Option (World × List Op) :=
  (stepOp cjson s.1 op).map (fun w => (w, op :: s.2))

/-- The law of the flag, and what it means for a tick. -/
structure OverrideLaw (s : World × List Op) : Prop where
  flag : ∀ st ∈ s.1.nm.sensors, st.overridden = clientWroteSince s.1.space st.nodeId s.2
  tick : s.1.nm.simulationEnabled = true → ∃ w', stepOp cjson s.1 .tick = some w' ∧
    w'.nm.sensors.map (fun st => (st.nodeId, st.value))
      = s.1.nm.sensors.map (fun st => (st.nodeId,
          if clientWroteSince s.1.space st.nodeId s.2 then st.value else !st.value)) ∧
    ValuesAgree w'

/-- The program itself writes to no sensor in this step: a tick finds the simulation
disabled or every sensor overridden, and a switch to off finds no sensors. -/
def NoOwnWrites (w : World) : Op → Prop
  | .tick => w.nm.simulationEnabled = true → ∀ st ∈ w.nm.sensors, st.overridden = true
  | .setSimulationEnabled false => w.nm.sensors = []
  | .clientWrite nodeId (.boolean false) =>
      w.space.isSwitch nodeId = true → w.nm.sensors = []
  | _ => True

/-- The facts that a run of the simulation starts from and keeps. -/
structure SimulationReady (w : World) : Prop where
  sound : Sound w
  own : ContextsOwn w
  cover : SensorsCover w
  switch : ∀ id, w.nm.simulationEnabledNodeId = some id → SwitchNode w.space id
  fits : w.nm.sensors.length ≤ serverMaxNodes
  agree : ValuesAgree w

/-- A run of the simulation may start after the build. -/
theorem simulationReady_start {host : Host} {nsIdx : Nat} {cfg : ServerConfig}
    {file : Option CString} {w : World} (h : start host nsIdx cfg file = some w)
    (hown : ContextsOwn w) : SimulationReady w where
  sound := start_sound h
  own := hown
  cover := start_sensorsCover h
  switch := start_switch h
  fits := start_fits h
  agree := start_valuesAgree h

variable {cjson} {w w' : World}

/-- A step that keeps the shape and the agreement of the values keeps the simulation
ready. -/
theorem SimulationReady.step (hw : SimulationReady w) (h : SameShape w w')
    (hagree : ValuesAgree w → ValuesAgree w') : SimulationReady w' where
  sound := h.sound hw.sound
  own := h.contextsOwn hw.own
  cover := h.sensorsCover hw.cover
  switch := by
    intro id hid
    have hsame : w'.nm.simulationEnabledNodeId = w.nm.simulationEnabledNodeId := by rw [h.nm]
    exact h.switchNode (hw.switch id (hsame ▸ hid))
  fits := by
    rw [h.length_sensors]
    exact hw.fits
  agree := hagree hw.agree

/-! ### What each operation does -/

/-- The effect of an operation of the simulation on the sensors. -/
inductive SimulationEffect (w : World) : Op → World → Prop where
  | idle (hdisabled : w.nm.simulationEnabled = false) : SimulationEffect w .tick w
  | tick (w' : World) (henabled : w.nm.simulationEnabled = true)
      (hsensors : w'.nm.sensors = w.nm.sensors.map SimulatedSensor.afterTick) :
      SimulationEffect w .tick w'
  | set (enabled : Bool) (w' : World) (hswitched : Switched enabled w w') :
      SimulationEffect w (.setSimulationEnabled enabled) w'
  | reset : SimulationEffect w .resetOverrides w.reset
  | write (nodeId : NodeId) (v : Scalar) (w' : World) (hwrite : WriteEffect nodeId v w w') :
      SimulationEffect w (.clientWrite nodeId v) w'

/-- Every operation of the simulation runs to its end with one of these effects, and the
simulation stays ready. -/
theorem simulationOp_effect (cjson : CJson) (hw : SimulationReady w) (op : Op)
    (hop : op.isSimulationOp = true) :
    ∃ w', stepOp cjson w op = some w' ∧ SimulationEffect w op w' ∧ SameShape w w' ∧
      SimulationReady w' := by
  -- The first three operations are none of the simulation.
  cases op with
  | addFolder host parent b display => cases hop
  | addVariable host parent b display dt sim => cases hop
  | delete host b => cases hop
  | tick =>
      cases he : w.nm.simulationEnabled with
      | true =>
          obtain ⟨w', hrun, hshape, -, hsensors, hagree⟩ :=
            nodeManagerRunSimulationTick_own hw.sound hw.own hw.fits he
          exact ⟨w', stepOp_eq_some.mpr ⟨.good, run_bind_ok hrun⟩, .tick w' he hsensors,
            hshape, hw.step hshape hagree⟩
      | false =>
          have hsection := tickSection_run hw.sound.mutex hw.fits
          rw [he, if_neg Bool.false_ne_true] at hsection
          have hrun : nodeManagerRunSimulationTick.run w = .ok ((), w) := by
            rw [nodeManagerRunSimulationTick, run_bind_ok hsection]
            rfl
          exact ⟨w, stepOp_eq_some.mpr ⟨.good, run_bind_ok hrun⟩, .idle he,
            SameShape.refl w, hw⟩
  | setSimulationEnabled enabled =>
      obtain ⟨w', hrun, hswitched⟩ := nodeManagerSetSimulationEnabled_own hw.sound hw.own
        hw.cover hw.switch hw.fits enabled
      exact ⟨w', stepOp_eq_some.mpr ⟨.good, run_bind_ok hrun⟩, .set enabled w' hswitched,
        hswitched.shape, hw.step hswitched.shape hswitched.agree⟩
  | resetOverrides =>
      have hagree : ValuesAgree w → ValuesAgree w.reset := by
        intro h st' hst'
        obtain ⟨st, hst, rfl⟩ := List.mem_map.mp hst'
        exact h st hst
      exact ⟨w.reset, stepOp_eq_some.mpr ⟨.good, run_bind_ok
          (nodeManagerResetOverrides_run hw.sound.mutex)⟩, .reset, sameShape_reset w,
        hw.step (sameShape_reset w) hagree⟩
  | clientWrite nodeId v =>
      obtain ⟨rc, w', hrun, heffect⟩ := writeValue_effect 6 hw.sound hw.own hw.cover hw.fits
        nodeId v
      have hstep : stepOp cjson w (.clientWrite nodeId v) = some w' :=
        stepOp_eq_some.mpr ⟨rc, hrun⟩
      obtain ⟨hshape, hagree⟩ := heffect.keeps
      exact ⟨w', hstep, .write nodeId v w' heffect, hshape, hw.step hshape hagree⟩

/-! ### The law -/

/-- The flag law, in a ready state, gives the law of the next tick. -/
theorem overrideLaw_of_flag {s : World × List Op} (hw : SimulationReady s.1)
    (h : ∀ st ∈ s.1.nm.sensors, st.overridden = clientWroteSince s.1.space st.nodeId s.2) :
    OverrideLaw cjson s := by
  refine ⟨h, fun henabled => ?_⟩
  obtain ⟨w', hstep, heffect, -, hready⟩ := simulationOp_effect cjson hw .tick rfl
  refine ⟨w', hstep, ?_, hready.agree⟩
  cases heffect with
  -- The simulation is enabled, so the tick is not idle.
  | idle hdisabled => cases hdisabled.symm.trans henabled
  | tick _ _ hsensors =>
      rw [hsensors, List.map_map]
      refine List.map_congr_left fun st hst => ?_
      simp only [Function.comp_apply, SimulatedSensor.afterTick, h st hst]

/-- Which client writes count does not depend on the values. -/
theorem SameShape.clientWroteSince (h : SameShape w w') (id : NodeId) (history : List Op) :
    clientWroteSince w'.space id history = clientWroteSince w.space id history := by
  induction history with
  | nil => rfl
  | cons op earlier ih =>
      cases op with
      | clientWrite nodeId v =>
          cases v <;> simp only [Server.clientWroteSince, h.isSwitch, ih]
      | _ => simp only [Server.clientWroteSince, ih]

/-- The flag of each sensor follows the clients. -/
def FlagLaw (s : World × List Op) : Prop :=
  ∀ st ∈ s.1.nm.sensors, st.overridden = clientWroteSince s.1.space st.nodeId s.2

/-- A switch keeps the flag law exactly when it is a switch to on or finds no sensors. -/
theorem Switched.flagLaw_iff {enabled : Bool} (h : Switched enabled w w') {op : Op}
    {history : List Op} (hclear : ∀ id, clientWroteSince w'.space id (op :: history) = false) :
    FlagLaw (w', op :: history) ↔ (enabled = false → w.nm.sensors = []) := by
  have hflag : ∀ st : SimulatedSensor, (st.afterSwitch enabled).overridden = !enabled := by
    intro st
    cases enabled <;> rfl
  constructor
  -- A switch to off marks every sensor, and no client write counts after it.
  · rintro hlaw rfl
    by_contra hne
    obtain ⟨st, hst⟩ := List.exists_mem_of_ne_nil _ hne
    have hmem : st.afterSwitch false ∈ w'.nm.sensors := by
      rw [h.sensors]
      exact List.mem_map.mpr ⟨st, hst, rfl⟩
    have hmarked := hlaw _ hmem
    rw [hclear] at hmarked
    cases hmarked
  · intro honly st' hst'
    replace hst' : st' ∈ w'.nm.sensors := hst'
    rw [h.sensors] at hst'
    obtain ⟨st, hst, rfl⟩ := List.mem_map.mp hst'
    rw [hflag, hclear]
    cases enabled with
    | true => rfl
    | false => rw [honly rfl] at hst; cases hst

/-- A tick keeps the flag law exactly when every sensor is overridden already. -/
theorem flagLaw_tick_iff {history : List Op} (hflag : FlagLaw (w, history))
    (hsensors : w'.nm.sensors = w.nm.sensors.map SimulatedSensor.afterTick)
    (hshape : SameShape w w') :
    FlagLaw (w', .tick :: history) ↔ ∀ st ∈ w.nm.sensors, st.overridden = true := by
  constructor
  -- The tick marks every sensor, so the law says that a client wrote to each of them.
  · intro hlaw st hst
    have hmem : st.afterTick ∈ w'.nm.sensors := by
      rw [hsensors]
      exact List.mem_map.mpr ⟨st, hst, rfl⟩
    have hmarked : true = clientWroteSince w'.space st.nodeId history := hlaw _ hmem
    rw [hshape.clientWroteSince] at hmarked
    exact (hflag st hst).trans hmarked.symm
  · intro hall st' hst'
    replace hst' : st' ∈ w'.nm.sensors := hst'
    rw [hsensors] at hst'
    obtain ⟨st, hst, rfl⟩ := List.mem_map.mp hst'
    show true = clientWroteSince w'.space st.nodeId history
    rw [hshape.clientWroteSince]
    exact (hall st hst).symm.trans (hflag st hst)

/-- The node of a sensor is no switch. -/
theorem isSwitch_of_sensor (hw : Sound w) {st : SimulatedSensor} (hst : st ∈ w.nm.sensors) :
    w.space.isSwitch st.nodeId = false := by
  cases hb : w.space.isSwitch st.nodeId with
  | false => rfl
  | true =>
      obtain ⟨n, vAttr, hn, hattr, -, hcb⟩ := isSwitch_iff.mp hb
      exact absurd ⟨n, vAttr, hn, hattr, hcb⟩ (hw.sensor_live st hst).not_switch

section ClientWrite

variable {id : NodeId} {v : Scalar} {history : List Op}

/-- A write without effect counts for no sensor. -/
theorem clientWroteSince_quiet {st : SimulatedSensor}
    (hquiet : st.nodeId ≠ id ∨ v.dataType ≠ .boolean)
    (hswitch : w.space.isSwitch id = true → v.dataType ≠ .boolean) :
    clientWroteSince w.space st.nodeId (.clientWrite id v :: history)
      = clientWroteSince w.space st.nodeId history := by
  cases v with
  | boolean b =>
      have hother : w.space.isSwitch id = false := by
        cases hb : w.space.isSwitch id with
        | false => rfl
        | true => exact absurd rfl (hswitch hb)
      have hne : st.nodeId ≠ id := hquiet.resolve_right fun hdt => hdt rfl
      simp [clientWroteSince, hother, Ne.symm hne]
  | int32 i => rfl
  | double bits => rfl
  | string s => rfl

/-- A write that is no switch to off makes the program write to no sensor. -/
theorem noOwnWrites_of_not_switch
    (hswitch : w.space.isSwitch id = true → v.dataType ≠ .boolean) :
    NoOwnWrites w (.clientWrite id v) := by
  cases v with
  | boolean b =>
      cases b with
      | true => trivial
      | false => exact fun hb => absurd rfl (hswitch hb)
  | int32 i => trivial
  | double bits => trivial
  | string s => trivial

/-- A client write keeps the flag law, unless it switches the simulation off. -/
theorem WriteEffect.flagLaw_iff (h : WriteEffect id v w w') (hw : SimulationReady w)
    (hflag : FlagLaw (w, history)) (hshape : SameShape w w') :
    FlagLaw (w', .clientWrite id v :: history) ↔ NoOwnWrites w (.clientWrite id v) := by
  cases h with
  | quiet _ hquiet hswitch _ _ hsensors _ =>
      refine iff_of_true (fun st hst => ?_) (noOwnWrites_of_not_switch hswitch)
      have hst' : st ∈ w.nm.sensors := hsensors ▸ hst
      rw [hshape.clientWroteSince, hflag st hst',
        clientWroteSince_quiet (hquiet st hst') hswitch]
  | sensor st b _ hst hid hv hwritten =>
      subst hv
      have hother : w.space.isSwitch id = false := hid ▸ isSwitch_of_sensor hw.sound hst
      -- The entry of the node gets its flag with the write, and the others keep theirs.
      refine iff_of_true (fun x' hx' => ?_) (noOwnWrites_of_not_switch fun hb => ?_)
      · replace hx' : x' ∈ w'.nm.sensors := hx'
        rw [hwritten.sensors] at hx'
        obtain ⟨x, hx, rfl⟩ := List.mem_map.mp hx'
        rw [hshape.clientWroteSince]
        by_cases hxid : x.nodeId = id
        · rw [if_pos hxid]
          simp [clientWroteSince, hother, SimulatedSensor.written, hxid]
        · rw [if_neg hxid, hflag x hx]
          simp [clientWroteSince, hother, Ne.symm hxid]
      · cases hother.symm.trans hb
  | switch enabled _ hnode hv hswitched =>
      subst hv
      -- A switch makes all earlier client writes count no more. Its own writes of FALSE set the
      -- flags, though, when it goes off.
      have hclear : ∀ st, clientWroteSince w'.space st
          (.clientWrite id (.boolean enabled) :: history) = false := by
        intro st
        rw [hshape.clientWroteSince]
        simp [clientWroteSince, hnode]
      rw [hswitched.flagLaw_iff hclear]
      cases enabled <;> simp [NoOwnWrites, hnode]

end ClientWrite

/-- **One step.** From a state in which the flags follow the clients, they still do after an
operation exactly when the program writes to no sensor itself. -/
theorem flagLaw_step_iff (hw : SimulationReady w) {op : Op} {history : List Op}
    (hflag : FlagLaw (w, history)) (heffect : SimulationEffect w op w')
    (hshape : SameShape w w') : FlagLaw (w', op :: history) ↔ NoOwnWrites w op := by
  cases heffect with
  | idle hdisabled =>
      refine ⟨fun _ henabled => ?_, fun _ => hflag⟩
      -- While the simulation is off a tick writes nothing.
      cases hdisabled.symm.trans henabled
  | tick _ henabled hsensors =>
      rw [flagLaw_tick_iff hflag hsensors hshape]
      exact ⟨fun hall _ => hall, fun hall => hall henabled⟩
  | set enabled _ hswitched =>
      rw [hswitched.flagLaw_iff fun _ => rfl]
      cases enabled <;> simp [NoOwnWrites]
  | reset =>
      refine ⟨fun _ => trivial, fun _ st' hst' => ?_⟩
      obtain ⟨st, -, rfl⟩ := List.mem_map.mp hst'
      rfl
  | write nodeId v _ hwrite => exact hwrite.flagLaw_iff hw hflag hshape

variable (cjson)

/-- **The extent of the override law.** Along a run of ticks, client writes, resets and
switches, the flags follow the clients, and ticks negate what no client has overridden, in
every state exactly when no step makes the program write to a sensor itself. -/
theorem overrideLaw_iff {host : Host} {nsIdx : Nat} {cfg : ServerConfig}
    {file : Option CString} {w : World} (hstart : start host nsIdx cfg file = some w)
    (hown : ContextsOwn w) {ops : List Op} (hops : ∀ op ∈ ops, op.isSimulationOp = true) :
    Always (recordOp cjson) (OverrideLaw cjson) (w, []) ops ↔
      Each (recordOp cjson) (fun s op => NoOwnWrites s.1 op) (w, []) ops := by
  have hready := simulationReady_start hstart hown
  have hinit : ∀ st ∈ w.nm.sensors, st.overridden = false := by
    refine start_invariant (P := fun w => ∀ st ∈ w.nm.sensors, st.overridden = false) ?_ nofun
      hstart
    intro d w w' hP hc st hst
    rcases hc.sensors_cases with hsame | ⟨-, hnew, -⟩
    · exact hP st (hsame ▸ hst)
    · rw [hnew, List.mem_append, List.mem_singleton] at hst
      rcases hst with hst | rfl
      · exact hP st hst
      · rfl
  -- A step of the run is a step of the server with one of the effects.
  have hstep : ∀ (s : World × List Op) op s', op.isSimulationOp = true →
      SimulationReady s.1 → recordOp cjson s op = some s' →
      SimulationReady s'.1 ∧ SimulationEffect s.1 op s'.1 ∧ SameShape s.1 s'.1 ∧
        s' = (s'.1, op :: s.2) := by
    intro s op s' hop hw hrec
    obtain ⟨w', hw', rfl⟩ := Option.map_eq_some_iff.mp hrec
    obtain ⟨w₁, hw₁, heffect, hshape, hready'⟩ := simulationOp_effect cjson hw op hop
    obtain rfl : w₁ = w' := Option.some.inj (hw₁.symm.trans hw')
    exact ⟨hready', heffect, hshape, rfl⟩
  refine always_iff_each (I := fun s => SimulationReady s.1) (fun op => op.isSimulationOp = true)
    ?_ ?_ hops hready (overrideLaw_of_flag hready hinit)
  · intro s op s' hop hw hlaw hguard hrec
    obtain ⟨hw', heffect, hshape, heq⟩ := hstep s op s' hop hw hrec
    refine ⟨hw', overrideLaw_of_flag hw' ?_⟩
    have hflag := (flagLaw_step_iff hw hlaw.flag heffect hshape).mpr hguard
    exact heq ▸ hflag
  · intro s op s' hop hw hlaw hguard hrec hlaw'
    obtain ⟨hw', heffect, hshape, heq⟩ := hstep s op s' hop hw hrec
    rw [heq] at hlaw'
    exact hguard ((flagLaw_step_iff hw hlaw.flag heffect hshape).mp hlaw'.flag)

/-- After a client wrote to a sensor and the overrides were reset, the law still holds. -/
theorem overrideLaw_write_reset : ∃ w,
    start .ok 1 serverConfigSeedDefaults none = some w ∧
    Always (recordOp .none) (OverrideLaw .none) (w, [])
      [.clientWrite (.string 1 "Sensor1".toList) (.boolean true), .resetOverrides] := by
  obtain ⟨w, hw, -⟩ := start_defaults
  refine ⟨w, hw, (overrideLaw_iff .none hw
    (start_contextsOwn (buildGrowth_ok _) hw) ?_).mpr ?_⟩
  · simp [Op.isSimulationOp]
  · exact fun _ _ => ⟨trivial, fun _ _ => ⟨trivial, trivial⟩⟩

/-- The first tick of the default configuration breaks the law: it marks the sensors as
overridden although no client wrote anything. -/
theorem not_overrideLaw_tick : ∃ w,
    start .ok 1 serverConfigSeedDefaults none = some w ∧ ContextsOwn w ∧
    ¬ Always (recordOp .none) (OverrideLaw .none) (w, []) [.tick] := by
  obtain ⟨w, hw, henabled, hfour, ho, -⟩ := start_defaults
  obtain ⟨st, hst⟩ : ∃ st, st ∈ w.nm.sensors :=
    List.exists_mem_of_ne_nil _ fun hnil => by simp [hnil] at hfour
  have hown := start_contextsOwn (buildGrowth_ok _) hw
  refine ⟨w, hw, hown, fun hlaw => ?_⟩
  have hready := simulationReady_start hw hown
  obtain ⟨w', hstep, heffect, hshape, -⟩ := simulationOp_effect .none hready .tick rfl
  have hrec : recordOp .none (w, []) .tick = some (w', [.tick]) := by
    rw [recordOp, hstep, Option.map_some]
  have hflag : FlagLaw (w', [.tick]) := (hlaw.2 _ hrec).flag
  have hguard := (flagLaw_step_iff hready hlaw.1.flag heffect hshape).mp hflag
  cases (ho st hst).symm.trans (hguard henabled st hst)

end SmartFactory.Server
