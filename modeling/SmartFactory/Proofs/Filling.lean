import SmartFactory.Proofs.Steps

/-!
# `SmartFactory.Proofs.Filling`: adding node after node

As long as names are new, the server accepts every addition of a simulated variable: the
node and its sensor are created whether the configuration has room or not. `run_adds`
counts what a run of such additions leaves behind. It is how the limits of the
configuration are reached and passed.
-/

set_option autoImplicit false

namespace SmartFactory.Server

open Run

/-- The addition of a simulated variable under `Objects`, with every library call
succeeding. -/
def addSensorOp (b : CString) : Op := .addVariable .ok none b b .boolean true

/-- The name is valid and used nowhere. -/
structure NewName (w : World) (b : CString) : Prop where
  valid : serverConfigValidateBrowseName b = true
  unlisted : configHasBrowse w.nm.config b = false
  dead : w.space.find (w.nodeIdOf b) = none

variable (cjson : CJson) {w : World}

/-- Adding a sensor under a new name succeeds. The other new names stay new. -/
theorem step_addSensor (hw : Sound w) {b : CString} (hb : NewName w b) :
    ∃ w', stepOp cjson w (addSensorOp b) = some w' ∧ Sound w' ∧
      w'.nm.sensors.length = w.nm.sensors.length + 1 ∧
      w'.space.ids.length = w.space.ids.length + 1 ∧
      ∀ c, c ≠ b → NewName w c → NewName w' c := by
  obtain ⟨rc, w', hrun, hadded⟩ := step_adds cjson
    (show (addSensorOp b).adds = some (.ok, variableDef none b b .boolean true) from rfl) hw.mutex
  have hname : (variableDef none b b .boolean true).browseName.chars = b :=
    snprintf_of_lt (length_lt_of_valid hb.valid)
  have hsound := hadded.sound hw
  refine ⟨w', stepOp_eq_some.mpr ⟨rc, hrun⟩, hsound, ?_⟩
  cases hadded with
  -- None of the reasons for a refusal applies to a new name.
  | refused _ _ hreason =>
      rcases hreason with hno | hlive | hrefused
      · exact absurd ⟨hb.valid, hb.unlisted, fun _ => rfl⟩ hno
      · rw [hname] at hlive
        exact absurd hb.dead hlive
      · exact absurd rfl hrefused
  | added w₁ hchecks hc =>
      rw [appendAndSave_eq]
      refine ⟨?_, ?_, fun c hcb hnew => ⟨hnew.valid, ?_, ?_⟩⟩
      · show w₁.nm.sensors.length = _
        obtain ⟨n, -, -, -, -, hwired⟩ := hc.self
        cases hwired with
        | plain hsim =>
            rw [isSimulated_variableDef] at hsim
            exact absurd hsim (by decide)
        | failed _ _ hfail => cases hfail
        | connected _ hsensors => rw [hsensors, List.length_append, List.length_singleton]
      · show w₁.space.ids.length = _
        rw [hc.ids, List.length_append, List.length_singleton]
      · -- The configuration holds the old definitions and at most the new one.
        show configHasBrowse (w₁.nm.config.append _) c = false
        rw [hc.config, configHasBrowse, ServerConfig.append_nodes]
        have hold := hnew.unlisted
        rw [configHasBrowse] at hold
        split
        · rw [List.any_append, hold, Bool.false_or, List.any_cons, List.any_nil,
            Bool.or_false, hname]
          simpa using fun he => hcb he.symm
        · exact hold
      · show w₁.space.find (w₁.nodeIdOf c) = none
        rw [nodeIdOf_congr hc.nsIdx, hc.others _ ?_]
        · exact hnew.dead
        · rw [hname]
          exact fun he => hcb (nodeIdOf_inj.mp he)

/-- **A run of additions under new names** creates one node and one sensor for each name,
however many there are. -/
theorem run_adds (hw : Sound w) {names : List CString} (hnd : names.Nodup)
    (hnew : ∀ b ∈ names, NewName w b) :
    ∃ w', run (stepOp cjson) w (names.map addSensorOp) = some w' ∧ Sound w' ∧
      w'.nm.sensors.length = w.nm.sensors.length + names.length ∧
      w'.space.ids.length = w.space.ids.length + names.length := by
  induction names generalizing w with
  | nil => exact ⟨w, rfl, hw, rfl, rfl⟩
  | cons b rest ih =>
      rw [List.nodup_cons] at hnd
      -- The names that are left stay new, because they differ from `b`.
      obtain ⟨w₁, hstep, hw₁, hsensors, hids, hkeep⟩ :=
        step_addSensor cjson hw (hnew b (List.mem_cons_self ..))
      obtain ⟨w', hrun, hw', hsensors', hids'⟩ := ih hw₁ hnd.2 fun c hc =>
        hkeep c (fun he => hnd.1 (he ▸ hc)) (hnew c (List.mem_cons_of_mem _ hc))
      refine ⟨w', ?_, hw', ?_, ?_⟩
      · rw [List.map_cons, run, hstep, Option.bind_some, hrun]
      · rw [hsensors', hsensors, List.length_cons, Nat.add_assoc, Nat.add_comm 1]
      · rw [hids', hids, List.length_cons, Nat.add_assoc, Nat.add_comm 1]

/-- The `i`-th of the names that fill the configuration. -/
def fillName (i : Nat) : CString := ['x', Char.ofNat (97 + i / 26), Char.ofNat (97 + i % 26)]

/-- `n` names that fill the configuration. -/
def fillNames (n : Nat) : List CString := (List.range n).map fillName

/-- The browse names of the default configuration. -/
def defaultNames : List CString :=
  ["Sensors", "Sensor1", "Sensor2", "Sensor3", "Sensor4", "Pi1_InductionSwitch1",
    "SimulationEnabled"].map String.toList

set_option maxRecDepth 10000 in
/-- The default configuration builds its seven nodes, with the simulation on and four sensors
that are not overridden. -/
theorem start_defaults : ∃ w, start .ok 1 serverConfigSeedDefaults none = some w ∧
    w.nm.simulationEnabled = true ∧ w.nm.sensors.length = 4 ∧
    (∀ st ∈ w.nm.sensors, st.overridden = false) ∧
    w.space.ids = defaultNames.map (NodeId.string 1) := by
  have hrun : ((start .ok 1 serverConfigSeedDefaults none).any fun w =>
      w.nm.simulationEnabled && w.nm.sensors.length = 4 &&
        w.nm.sensors.all (fun st => !st.overridden) &&
        w.space.ids = defaultNames.map (NodeId.string 1)) = true := by
    decide
  obtain ⟨w, hw, hcheck⟩ := (Option.any_eq_true _ _).mp hrun
  simp only [Bool.and_eq_true, decide_eq_true_eq, List.all_eq_true, Bool.not_eq_true'] at hcheck
  exact ⟨w, hw, hcheck.1.1.1, hcheck.1.1.2, hcheck.1.2, hcheck.2⟩

/-- A cJSON that knows no document, for runs that do not look at the file. -/
def CJson.none : CJson := ⟨fun _ => [], fun _ => .none⟩

set_option maxRecDepth 10000 in
theorem nodes_defaults :
    serverConfigSeedDefaults.nodes.map (fun n => n.browseName.chars) = defaultNames := by
  decide

theorem length_defaults : serverConfigSeedDefaults.nodes.length = 7 := by
  have hlen := congrArg List.length nodes_defaults
  rwa [List.length_map] at hlen

/-- The number of such a name. -/
def fillNumber : CString → Nat
  | [_, a, b] => (a.toNat - 97) * 26 + (b.toNat - 97)
  | _ => 0

set_option maxRecDepth 10000 in
/-- The names that fill the configuration are distinct: the number is read back. -/
theorem fillNames_nodup : (fillNames 253).Nodup := by
  have hback : ∀ i ∈ List.range 253, fillNumber (fillName i) = i := by decide
  refine List.Nodup.map_on (fun i hi j hj h => ?_) List.nodup_range
  rw [← hback i hi, h, hback j hj]

set_option maxRecDepth 10000 in
/-- The names that fill the configuration are valid, and the defaults do not use them. -/
theorem fillNames_valid : ∀ b ∈ fillNames 253,
    serverConfigValidateBrowseName b = true ∧ b ∉ defaultNames := by
  decide

/-- On the default configuration, the names that fill it up are new. -/
theorem newName_defaults {w : World} (h : start .ok 1 serverConfigSeedDefaults none = some w)
    (hids : w.space.ids = defaultNames.map (NodeId.string 1)) :
    ∀ b ∈ fillNames 253, NewName w b := by
  intro b hb
  obtain ⟨hvalid, hnot⟩ := fillNames_valid b hb
  refine ⟨hvalid, ?_, AddressSpace.find_eq_none.mpr ?_⟩
  · rw [start_config h, configHasBrowse, List.any_eq_false]
    intro d hd he
    refine hnot ?_
    rw [← nodes_defaults, ← (beq_iff_eq.mp he)]
    exact List.mem_map.mpr ⟨d, hd, rfl⟩
  · rw [hids, World.nodeIdOf, start_nsIdx h]
    simpa using hnot

end SmartFactory.Server
