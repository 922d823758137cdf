import SmartFactory.Proofs.Filling

/-!
# `SmartFactory.Proofs.Capacity`: the arrays on the stack

A tick and a switch copy the sensors into arrays of `SERVER_MAX_NODES` elements and do not
look at their size. `CapacityLaw` says that they never need to: there are at most that many
sensors, and no operation of the simulation stores past the end.

The configuration cannot bound the sensors by itself. An addition that finds it full still
creates the node and, for a simulated variable, its sensor. `capacityLaw_iff` names the one
step that breaks the law, a sensor created while there are `SERVER_MAX_NODES` of them, and
shows that it cannot happen as long as simulated variables are added only while the
configuration has room.
-/

set_option autoImplicit false

namespace SmartFactory.Server

open Run

variable (cjson : CJson)

/-- The sensors fit the arrays, and no operation of the simulation overruns them. -/
structure CapacityLaw (w : World) : Prop where
  fits : w.nm.sensors.length ≤ serverMaxNodes
  noOverflow : ∀ op : Op, op.isSimulationOp = true →
    (perform cjson op).run w ≠ .error .arrayOverflow

/-- The operation creates a node together with a sensor. -/
structure CreatesSensor (w : World) (op : Op) (host : Host) (d : ServerNodeDef) : Prop
    extends Creates w op host d where
  simulated : d.isSimulated = true
  grows : w.CanGrow host d.browseName.chars

/-- A sensor is created only while there are fewer than `SERVER_MAX_NODES` of them. -/
def RoomForSensor (w : World) (op : Op) : Prop :=
  ∀ host d, CreatesSensor w op host d → w.nm.sensors.length < serverMaxNodes

/-- A sensor is created only while the configuration has room for its definition. -/
def RoomForDefinition (w : World) (op : Op) : Prop :=
  ∀ host d, CreatesSensor w op host d → w.nm.config.nodes.length < serverMaxNodes

/-- Every sensor is named in the configuration. -/
def SensorsConfigured (w : World) : Prop :=
  ∀ st ∈ w.nm.sensors, ∃ d ∈ w.nm.config.nodes, d.browseName.chars = st.browseName.chars

variable {cjson} {w w' : World} {host : Host} {d : ServerNodeDef}

/-- In a sound state, sensors that fit are enough. -/
theorem capacityLaw_of_fits (hw : Sound w) (hfit : w.nm.sensors.length ≤ serverMaxNodes) :
    CapacityLaw cjson w := by
  refine ⟨hfit, fun op hop hover => ?_⟩
  have hthrough := simulationOp_through cjson hw hfit op hop
  by_cases hcurrent : ∀ id ∈ w.targets op, w.Current id
  · obtain ⟨rc, w', hrun, -⟩ := hthrough.returns hcurrent
    cases hrun.symm.trans hover
  -- A store through a stale context is another fault.
  · cases (hthrough.faults hcurrent).symm.trans hover

/-- A creation that connects a sensor met the conditions for one. -/
theorem Created.createsSensor (hc : Created host d w w') {op : Op}
    (hop : op.adds = some (host, d)) (hchecks : op.checks w)
    (hgrown : w'.nm.sensors ≠ w.nm.sensors) : CreatesSensor w op host d := by
  obtain ⟨n, -, -, -, -, hwired⟩ := hc.self
  cases hwired with
  | plain _ hsensors => exact absurd hsensors hgrown
  | failed _ _ _ hsensors => exact absurd hsensors hgrown
  | connected hsim _ hgrown =>
      exact ⟨⟨hop, hchecks, hc.fresh, hc.accepted⟩, hsim, hgrown.canGrow⟩

/-- Under these conditions a creation connects one more sensor. -/
theorem CreatesSensor.length_sensors {op : Op} (h : CreatesSensor w op host d)
    (hc : Created host d w w') : w'.nm.sensors.length = w.nm.sensors.length + 1 := by
  obtain ⟨n, -, -, -, -, hwired⟩ := hc.self
  cases hwired with
  | plain hsim => cases hsim.symm.trans h.simulated
  | failed _ hfull hfail =>
      rcases h.grows with hroom | hne
      · exact absurd hroom (Nat.not_lt_of_le hfull)
      · exact absurd hfail hne
  | connected _ hsensors => rw [hsensors, List.length_append, List.length_singleton]

/-- A removal drops one sensor at most. -/
theorem Removed.length_sensors_le {io : SaveIo} {b : CString} {idx : Nat}
    (h : Removed cjson io b idx w w') : w'.nm.sensors.length ≤ w.nm.sensors.length := by
  rw [h.nm]
  exact (List.eraseP_sublist).length_le

/-- **One step.** From a sound state with sensors that fit, a step leads to one exactly when
it does not create a sensor too many. -/
theorem fits_step_iff (hw : Sound w) (hfit : w.nm.sensors.length ≤ serverMaxNodes) {op : Op}
    (h : stepOp cjson w op = some w') :
    w'.nm.sensors.length ≤ serverMaxNodes ↔ RoomForSensor w op := by
  cases step_kinds hw h with
  | quiet hshape _ hrefused _ =>
      rw [hshape.length_sensors]
      refine iff_of_true hfit fun host d hcreates => ?_
      exact absurd hcreates.accepted (hrefused host d hcreates.adds hcreates.checks hcreates.fresh)
  | added host d w₁ hop hchecks hc hw' =>
      have hsensors : w'.nm.sensors = w₁.nm.sensors := by rw [hw', appendAndSave_eq]
      rw [hsensors]
      constructor
      · intro hle host' d' hcreates
        obtain ⟨rfl, rfl⟩ := adds_inj hop hcreates.adds
        rw [hcreates.length_sensors hc] at hle
        exact hle
      · intro hroom
        -- Only a creation that connects a sensor makes the array longer.
        by_cases hgrown : w₁.nm.sensors = w.nm.sensors
        · rw [hgrown]
          exact hfit
        · have hcreates := hc.createsSensor hop hchecks hgrown
          rw [hcreates.length_sensors hc]
          exact hroom host d hcreates
  | removed host b idx hdel hremoved =>
      refine iff_of_true (Nat.le_trans hremoved.length_sensors_le hfit) fun host' d' hcreates => ?_
      rw [hdel.op] at hcreates
      cases hcreates.adds

/-- While simulated variables are added only with room in the configuration, every sensor
stays named in it. -/
theorem sensorsConfigured_step (hw : Sound w) (hnames : SensorsConfigured w) {op : Op}
    (hroom : RoomForDefinition w op) (h : stepOp cjson w op = some w') : SensorsConfigured w' := by
  cases step_kinds hw h with
  | quiet hshape =>
      intro st hst
      obtain ⟨st₀, hst₀, -, hname⟩ := hshape.mem_sensors hst
      obtain ⟨d, hd, hdname⟩ := hnames st₀ hst₀
      have hconfig : w'.nm.config = w.nm.config := by rw [hshape.nm]
      exact ⟨d, hconfig ▸ hd, hdname.trans (by rw [hname])⟩
  | added host d w₁ hop hchecks hc hw' =>
      have hsensors : w'.nm.sensors = w₁.nm.sensors := by rw [hw', appendAndSave_eq]
      have hnodes := hc.appended_nodes hw'
      have hkeep : ∀ x ∈ w.nm.config.nodes, x ∈ w'.nm.config.nodes := by
        intro x hx
        rw [hnodes]
        split
        · exact List.mem_append_left _ hx
        · exact hx
      intro st hst
      rw [hsensors] at hst
      by_cases hgrown : w₁.nm.sensors = w.nm.sensors
      · obtain ⟨x, hx, hname⟩ := hnames st (hgrown ▸ hst)
        exact ⟨x, hkeep x hx, hname⟩
      -- A new sensor comes with room in the configuration, so its definition is appended.
      · have hlt := hroom host d (hc.createsSensor hop hchecks hgrown)
        rcases hc.sensors_cases with hsame | ⟨-, hnew, -⟩
        · exact absurd hsame hgrown
        · rw [hnew, List.mem_append, List.mem_singleton] at hst
          rcases hst with hst | rfl
          · obtain ⟨x, hx, hname⟩ := hnames st hst
            exact ⟨x, hkeep x hx, hname⟩
          · refine ⟨d, ?_, by rw [newSensor_browseName]⟩
            rw [hnodes, if_pos hlt]
            exact List.mem_append_right _ (List.mem_singleton_self d)
  | removed host b idx hdel hremoved =>
      intro st hst
      obtain ⟨hold, hne⟩ := (hremoved.mem_sensors hw).mp hst
      obtain ⟨x, hx, hname⟩ := hnames st hold
      -- The definition of a sensor that stays is not the one that was removed.
      refine ⟨x, ?_, hname⟩
      rw [hremoved.nodes hdel.index]
      exact (List.mem_eraseP_of_neg (by simpa [hname] using hne)).mpr hx

variable (cjson)

/-- **The extent of the capacity law.** Along a run of any operations, the sensors fit the
arrays and no operation overruns them in every state exactly when no sensor is created
while there are `SERVER_MAX_NODES` of them. No run creates one in that situation as long
as sensors are created only while the configuration has room. -/
theorem capacityLaw_iff {nsIdx : Nat} {cfg : ServerConfig} {file : Option CString}
    (hstart : start host nsIdx cfg file = some w) (ops : List Op) :
    (Always (stepOp cjson) (CapacityLaw cjson) w ops ↔
      Each (stepOp cjson) RoomForSensor w ops) ∧
    (Each (stepOp cjson) RoomForDefinition w ops → Each (stepOp cjson) RoomForSensor w ops) := by
  have hsound := start_sound hstart
  have hfits := start_fits hstart
  constructor
  · refine always_iff_each (I := Sound) (fun _ => True) ?_ ?_ (fun _ _ => trivial) hsound
      (capacityLaw_of_fits hsound hfits)
    · intro w op w' _ hw hlaw hguard hstep
      have hw' := sound_step hw hstep
      exact ⟨hw', capacityLaw_of_fits hw' ((fits_step_iff hw hlaw.fits hstep).mpr hguard)⟩
    · intro w op w' _ hw hlaw hguard hstep hlaw'
      exact hguard ((fits_step_iff hw hlaw.fits hstep).mp hlaw'.fits)
  · have hconfig := start_config hstart
    -- While sensors are only created with room in the configuration, each of them has a definition
    -- there, so that there are at most as many.
    have hnames : SensorsConfigured w := by
      intro st hst
      obtain ⟨d, hd, -, hname⟩ := start_sensors hstart st hst
      exact ⟨d, hconfig ▸ hd, hname⟩
    refine each_of_each (I := fun w => Sound w ∧ SensorsConfigured w) (fun _ => True) ?_ ?_
      (fun _ _ => trivial) ⟨hsound, hnames⟩
    · rintro w op w' - ⟨hw, hnames⟩ hguard hstep
      exact ⟨sound_step hw hstep, sensorsConfigured_step hw hnames hguard hstep⟩
    · rintro w op w' - ⟨hw, hnames⟩ hguard hstep host d hcreates
      exact Nat.lt_of_le_of_lt (hw.length_sensors_le hnames) (hguard host d hcreates)

/-- One more sensor and a tick on the default configuration stay within the arrays. -/
theorem capacityLaw_add_tick : ∃ w, start .ok 1 serverConfigSeedDefaults none = some w ∧
    Always (stepOp .none) (CapacityLaw .none) w [addSensorOp (fillName 0), .tick] := by
  obtain ⟨w, hw, -⟩ := start_defaults
  obtain ⟨hiff, hroom⟩ := capacityLaw_iff .none hw [addSensorOp (fillName 0), .tick]
  refine ⟨w, hw, hiff.mpr (hroom fun w' _ => ⟨fun host d _ => ?_, fun _ _ => ⟨?_, trivial⟩⟩)⟩
  · rw [start_config hw, length_defaults]
    decide
  · intro host d hcreates
    cases hcreates.adds

/-- With 253 more sensors than the default configuration, there are 257 of them, and
switching the simulation stores past the end of its array. -/
theorem not_capacityLaw_fill : ∃ w, start .ok 1 serverConfigSeedDefaults none = some w ∧
    ¬ Always (stepOp .none) (CapacityLaw .none) w ((fillNames 253).map addSensorOp) ∧
    ∃ w', run (stepOp .none) w ((fillNames 253).map addSensorOp) = some w' ∧
      w'.nm.sensors.length = 257 ∧
      (perform .none (.setSimulationEnabled false)).run w' = .error .arrayOverflow := by
  obtain ⟨w, hw, -, hfour, -, hids⟩ := start_defaults
  obtain ⟨w', hrun, hw', hsensors, -⟩ := run_adds .none (start_sound hw) fillNames_nodup
    (newName_defaults hw hids)
  have hmany : w'.nm.sensors.length = 257 := by
    rw [hsensors, hfour]
    simp [fillNames]
  refine ⟨w, hw, fun hlaw => ?_, w', hrun, hmany, ?_⟩
  · have hfits := (hlaw.last hrun).fits
    rw [hmany] at hfits
    exact absurd hfits (by decide)
  · -- `sensorIds` has 256 elements on the stack.
    have hsection := switchSection_overflow hw'.mutex (by rw [hmany]; decide) false
    exact run_bind_error (run_bind_error hsection)

end SmartFactory.Server
