import SmartFactory.Proofs.Agreement

/-!
# `SmartFactory.Proofs.SwitchAgreement`: one switch, two positions

OPC UA clients see the position of the simulation switch in the value of its node, and
`GET /api/status` reads it from `nm->simulationEnabled`. The build gives the node `false` and
the flag `true`. Nothing repairs that by itself: `switchAgrees_iff` says that the two agree
from the first on/off request or Boolean write to the node on, and never before.
-/

set_option autoImplicit false

namespace SmartFactory.Server

open Run

/-- The definition `s` is the one Boolean variable of role `simulationEnabled`. -/
structure OneSwitch (cfg : ServerConfig) (s : ServerNodeDef) : Prop where
  mem : s ∈ cfg.nodes
  isVariable : s.isVariable = true
  boolean : s.dataType = .boolean
  isSwitch : s.isSimulationSwitch = true
  unique : ∀ d ∈ cfg.nodes, d.isVariable = true → d.isSimulationSwitch = true → d = s

/-- The node of that browse name holds the simulation flag. -/
def World.SwitchAgrees (w : World) (b : CString) : Prop :=
  w.space.valueOf (w.nodeIdOf b) = some (.boolean w.nm.simulationEnabled)

/-- The operation is an on/off request or a Boolean write to the node of the switch. -/
def Op.isSwitching (id : NodeId) (op : Op) : Bool := (op.setsSwitch id).isSome

/-- What the program knows about its switch in any state: the definition stays, and as long as
the node is live it is the only switch. -/
structure SwitchInv (s : ServerNodeDef) (id : NodeId) (w : World) : Prop where
  sound : Sound w
  id_eq : id = w.nodeIdOf s.browseName.chars
  isSwitch : s.isSimulationSwitch = true
  mem : s ∈ w.nm.config.nodes
  switchIs : id ∈ w.space.ids → SwitchIs w id

variable {cjson : CJson} {w w' : World} {host : Host} {s : ServerNodeDef} {id : NodeId}
variable {nsIdx : Nat} {cfg : ServerConfig} {file : Option CString}

/-- The two agree when the state of the switch says so. -/
theorem switchAgrees_iff_state (hid : id = w.nodeIdOf s.browseName.chars) :
    w.SwitchAgrees s.browseName.chars ↔
      (w.switchState id).2 = some (.boolean (w.switchState id).1) := by
  rw [hid]
  rfl

/-- A node that is found as before is a switch as before. -/
theorem isSwitch_congr {space space' : AddressSpace} (h : space'.find id = space.find id) :
    space'.isSwitch id = space.isSwitch id := by
  rw [AddressSpace.isSwitch, h]
  rfl

/-- Both places are as before when the flag and the node are. -/
theorem switchState_congr (hflag : w'.nm.simulationEnabled = w.nm.simulationEnabled)
    (hfind : w'.space.find id = w.space.find id) : w'.switchState id = w.switchState id := by
  rw [World.switchState, hflag, AddressSpace.valueOf, hfind]
  rfl

/-! ### Steps -/

/-- What an operation adds has no role. -/
theorem not_switch_of_adds {op : Op} {d : ServerNodeDef} (h : op.adds = some (host, d)) :
    d.isSimulationSwitch = false := by
  cases op with
  | addFolder host' parent b display =>
      rw [Op.adds, Option.some.injEq, Prod.mk.injEq] at h
      rw [← h.2]
      rfl
  | addVariable host' parent b display dt sim =>
      rw [Op.adds, Option.some.injEq, Prod.mk.injEq] at h
      rw [← h.2]
      rfl
  | _ => cases h

/-- The effect of a step on a state with the invariant. -/
structure SwitchStep (s : ServerNodeDef) (id : NodeId) (w : World) (op : Op) (w' : World) :
    Prop where
  inv : SwitchInv s id w'
  live : id ∈ w'.space.ids → id ∈ w.space.ids
  state : id ∈ w'.space.ids →
    w'.switchState id = switchAfter (op.setsSwitch id) (w.switchState id)

/-- An operation of the simulation sets both places or neither. -/
theorem SwitchInv.simulation (h : SwitchInv s id w) {op : Op} (hop : op.isSimulationOp = true)
    (hstep : stepOp cjson w op = some w') : SwitchStep s id w op w' := by
  obtain ⟨rc, hrun⟩ := stepOp_eq_some.mp hstep
  obtain ⟨hshape, hstate⟩ := simulationOp_switchState cjson h.sound hop hrun
  have hns : w'.nm.nsIdx = w.nm.nsIdx := by rw [hshape.nm]
  have hids := hshape.ids
  refine ⟨⟨hshape.sound h.sound, h.id_eq.trans (nodeIdOf_congr hns _).symm, h.isSwitch, ?_, ?_⟩,
    fun hlive => hids ▸ hlive, fun hlive => hstate id (h.switchIs (hids ▸ hlive))⟩
  · rw [hshape.nm]
    exact h.mem
  · exact fun hlive => hshape.switchIs (h.switchIs (hids ▸ hlive))

/-- An addition leaves the switch alone: its name is taken, and it adds no other switch. -/
theorem SwitchInv.added (h : SwitchInv s id w) {op : Op} {d : ServerNodeDef}
    (hadds : op.adds = some (host, d)) (hchecks : op.checks w)
    (hgood : (createNode host d w).1 = .good)
    (hw' : w' = appendAndSave cjson host.save d (createNode host d w).2) :
    SwitchInv s id w' ∧ (id ∈ w'.space.ids → id ∈ w.space.ids) ∧
      (id ∈ w'.space.ids → w'.switchState id = w.switchState id) := by
  have hnode := isNode_of_adds hadds
  have hc := created_of_good hnode hgood
  obtain ⟨hremembered, hflag, hother⟩ :=
    createNode_other hnode (fun _ => not_switch_of_adds hadds) hgood
  rw [appendAndSave_eq] at hw'
  subst hw'
  -- The definition of the switch is still there, and an addition refuses its name.
  have hne : id ≠ w.nodeIdOf d.browseName.chars := by
    rw [h.id_eq, Ne, nodeIdOf_inj]
    exact not_has_of_checks hadds hchecks s h.mem
  have hlive : id ∈ (createNode host d w).2.space.ids → id ∈ w.space.ids := fun hlive =>
    (hc.mem_ids.mp hlive).resolve_right hne
  refine ⟨⟨(hc.sound h.sound).withConfig _ _, ?_, h.isSwitch, ?_, fun hin => ?_⟩, hlive,
    fun _ => switchState_congr hflag (hc.others id hne)⟩
  · exact h.id_eq.trans (nodeIdOf_congr hc.nsIdx _).symm
  · show s ∈ ((createNode host d w).2.nm.config.append d).nodes
    rw [hc.config, ServerConfig.append_nodes]
    split
    · exact List.mem_append_left _ h.mem
    · exact h.mem
  · have hs := h.switchIs (hlive hin)
    refine ⟨hremembered.trans hs.remembered,
      (isSwitch_congr (hc.others id hne)).trans hs.isSwitch, fun id' hid' => ?_⟩
    change (createNode host d w).2.space.isSwitch id' = true at hid'
    by_cases hnew : id' = w.nodeIdOf d.browseName.chars
    · obtain ⟨n, v, hn, hv, -, hcb⟩ := isSwitch_iff.mp hid'
      exact absurd hcb (hother n v (hnew ▸ hn) hv)
    · exact hs.only id' ((isSwitch_congr (hc.others id' hnew)).symm.trans hid')

/-- A removal leaves the definition of the switch, and its node as long as it is live. -/
theorem SwitchInv.removed (h : SwitchInv s id w) {op : Op} {b : CString} {idx : Nat}
    {io : SaveIo} (hdel : Deletes w op host b idx) (hr : Removed cjson io b idx w w') :
    SwitchInv s id w' ∧ (id ∈ w'.space.ids → id ∈ w.space.ids) ∧
      (id ∈ w'.space.ids → w'.switchState id = w.switchState id) := by
  have hns : w'.nm.nsIdx = w.nm.nsIdx := by rw [hr.nm]
  have hlive : id ∈ w'.space.ids → id ∈ w.space.ids := fun hin => (hr.mem_ids.mp hin).1
  have hfind : ∀ {id'}, id' ∈ w'.space.ids → w'.space.find id' = w.space.find id' := by
    intro id' hin
    obtain ⟨n, hn⟩ := AddressSpace.exists_find.mpr hin
    rw [hn, hr.find_some hn]
  refine ⟨⟨hr.sound h.sound, h.id_eq.trans (nodeIdOf_congr hns _).symm, h.isSwitch, ?_,
    fun hin => ?_⟩, hlive, fun hin => switchState_congr (by rw [hr.nm]) (hfind hin)⟩
  · rw [hr.nm]
    show s ∈ w.nm.config.nodes.eraseIdx idx
    obtain ⟨i, hi⟩ := List.mem_iff_getElem?.mp h.mem
    refine List.mem_eraseIdx_iff_getElem?.mpr ⟨i, ?_, hi⟩
    -- The definition that was removed is no switch.
    rintro rfl
    have hno := hdel.switch
    rw [hi, Option.any_some, h.isSwitch] at hno
    cases hno
  · have hs := h.switchIs (hlive hin)
    refine ⟨?_, (isSwitch_congr (hfind hin)).trans hs.isSwitch, fun id' hid' => ?_⟩
    · rw [hr.nm]
      exact hs.remembered
    · obtain ⟨n, v, hn, hv, hdt, hcb⟩ := isSwitch_iff.mp hid'
      exact hs.only id' (isSwitch_iff.mpr ⟨n, v, hr.find_some hn, hv, hdt, hcb⟩)

/-- An operation that adds or deletes sets no switch. -/
theorem setsSwitch_of_structural {op : Op} (hop : op.isStructural = true) :
    op.setsSwitch id = none := by
  cases op with
  | addFolder host parent b display => rfl
  | addVariable host parent b display dt sim => rfl
  | delete host b => rfl
  | _ => cases hop

/-- **One step.** -/
theorem SwitchInv.step (h : SwitchInv s id w) {op : Op} (hstep : stepOp cjson w op = some w') :
    SwitchStep s id w op w' := by
  cases hop : op.isStructural with
  | false => exact h.simulation (isSimulationOp_of_not_structural hop).1 hstep
  | true =>
      have hnone : op.setsSwitch id = none := setsSwitch_of_structural hop
      -- Additions and deletions leave the switch alone, but for one that deletes its node.
      have hkept : SwitchInv s id w' ∧ (id ∈ w'.space.ids → id ∈ w.space.ids) ∧
          (id ∈ w'.space.ids → w'.switchState id = w.switchState id) := by
        cases stepKind_of_structural h.sound hop hstep with
        | quiet _ hsame =>
            rw [hsame hop]
            exact ⟨h, fun hin => hin, fun _ => rfl⟩
        | added host d w₁ hadds hchecks hc hw' =>
            rcases addedWorld_of_step hadds h.sound.mutex hstep with hsame | ⟨hgood, hworld⟩
            · rw [hsame]
              exact ⟨h, fun hin => hin, fun _ => rfl⟩
            · exact h.added hadds hchecks hgood hworld
        | removed host b idx hdel hremoved => exact h.removed hdel hremoved
      refine ⟨hkept.1, hkept.2.1, fun hin => ?_⟩
      rw [hnone]
      exact hkept.2.2 hin

/-- With distinct names, a step keeps the node of the switch. -/
theorem SwitchInv.live_step (h : SwitchInv s id w) (hnd : DistinctNames w.nm.config) {op : Op}
    (hlive : id ∈ w.space.ids) (hstep : stepOp cjson w op = some w') : id ∈ w'.space.ids := by
  cases step_kinds h.sound hstep with
  | quiet hshape =>
      rw [hshape.ids]
      exact hlive
  | added host d w₁ _ _ hc hw' =>
      rw [hw', appendAndSave_eq]
      exact hc.mem_ids.mpr (Or.inl hlive)
  | removed host b idx hdel hremoved =>
      refine hremoved.mem_ids.mpr ⟨hlive, fun hboth => ?_⟩
      have hname : s.browseName.chars = b := nodeIdOf_inj.mp (h.id_eq.symm.trans hboth.2)
      -- The definition that is found is the switch, which is not deleted.
      obtain ⟨hlt, hbrowse, -⟩ := List.findIdx?_eq_some_iff_getElem.mp hdel.index
      have hsame := hnd.eq_of_name (List.getElem_mem hlt) h.mem
        ((eq_of_beq hbrowse).trans hname.symm)
      have hno := hdel.switch
      rw [List.getElem?_eq_getElem hlt, Option.any_some, hsame, h.isSwitch] at hno
      cases hno

/-! ### The build -/

/-- What the build has made of the switch so far. -/
structure SwitchBuilt (s : ServerNodeDef) (done : List ServerNodeDef) (w : World) : Prop where
  flag : w.nm.simulationEnabled = true
  only : ∀ id, w.space.isSwitch id = true → id = w.nodeIdOf s.browseName.chars
  self : s ∈ done → w.nm.simulationEnabledNodeId = some (w.nodeIdOf s.browseName.chars) ∧
    ∃ n, w.space.find (w.nodeIdOf s.browseName.chars) = some n ∧ n.vAttr = some
      { dataType := .boolean
        value := .boolean false
        context := none
        onWrite := some .simulationEnabledWrite }

/-- A creation of the build. -/
theorem SwitchBuilt.create (hs : OneSwitch cfg s) {done : List ServerNodeDef} {d : ServerNodeDef}
    (h : SwitchBuilt s done w) (hd : d ∈ cfg.nodes) (hnode : d.isNode = true)
    (hgood : (createNode host d w).1 = .good) :
    SwitchBuilt s (done ++ [d]) (createNode host d w).2 := by
  have hc := created_of_good hnode hgood
  have hid := nodeIdOf_congr hc.nsIdx s.browseName.chars
  have hold : ∀ id, id ≠ w.nodeIdOf d.browseName.chars →
      (createNode host d w).2.space.isSwitch id = true → w.space.isSwitch id = true :=
    fun id hne hswitch => (isSwitch_congr (hc.others id hne)).symm.trans hswitch
  by_cases hself : d.isVariable = true ∧ d.isSimulationSwitch = true
  · -- The one switch of the configuration. Before it there was none in the address space.
    obtain rfl := hs.unique d hd hself.1 hself.2
    obtain ⟨hremembered, hflag, n, hn, hv⟩ := createNode_switch hself.1 hself.2 hgood
    refine ⟨hflag, fun id hswitch => ?_, fun _ => ?_⟩
    · rw [hid]
      by_contra hne
      exact hne (h.only id (hold id hne hswitch))
    · rw [hid]
      refine ⟨hremembered, n, hn, ?_⟩
      rw [hv, hs.boolean]
      rfl
  · have hplain : d.isVariable = true → d.isSimulationSwitch = false := fun hv =>
      Bool.eq_false_iff.mpr fun hswitch => hself ⟨hv, hswitch⟩
    obtain ⟨hremembered, hflag, hother⟩ := createNode_other hnode hplain hgood
    refine ⟨hflag.trans h.flag, fun id hswitch => ?_, fun hin => ?_⟩
    · rw [hid]
      refine h.only id (hold id (fun hnew => ?_) hswitch)
      obtain ⟨n, v, hn, hv, -, hcb⟩ := isSwitch_iff.mp hswitch
      exact hother n v (hnew ▸ hn) hv hcb
    · rcases List.mem_append.mp hin with hin | hin
      · obtain ⟨hrem, n, hn, hv⟩ := h.self hin
        rw [hid, hremembered]
        refine ⟨hrem, n, ?_, hv⟩
        exact (hc.find_of_mem (AddressSpace.exists_find.mp ⟨n, hn⟩)).trans hn
      · rw [List.mem_singleton] at hin
        subst hin
        exact absurd ⟨hs.isVariable, hs.isSwitch⟩ hself

/-- After the build the node of the switch holds `false`, and the flag is set. -/
theorem start_switchBuilt (hs : OneSwitch cfg s) (hstart : start host nsIdx cfg file = some w) :
    SwitchBuilt s (sortNodesByDepth cfg) w := by
  refine start_induction_createNode (fun done d w hinit h hnode hgood => ?_)
    (fun done d w _ h hother => ?_) ?_ hstart
  · refine h.create hs (mem_sortNodesByDepth.mp (hinit.subset ?_)) hnode hgood
    exact List.mem_append_right _ (List.mem_singleton_self d)
  -- A definition that is skipped is no variable.
  · refine ⟨h.flag, h.only, fun hin => h.self ((List.mem_append.mp hin).resolve_right ?_)⟩
    intro hlast
    rw [List.mem_singleton] at hlast
    cases (hlast ▸ (kinds_of_other hother).2).symm.trans hs.isVariable
  · exact ⟨rfl, nofun, nofun⟩

/-- The state after the build. -/
theorem start_switchInv (hs : OneSwitch cfg s) (hstart : start host nsIdx cfg file = some w) :
    SwitchInv s (w.nodeIdOf s.browseName.chars) w ∧
      w.nodeIdOf s.browseName.chars ∈ w.space.ids ∧
      w.switchState (w.nodeIdOf s.browseName.chars) = (true, some (.boolean false)) := by
  have hbuilt := start_switchBuilt hs hstart
  obtain ⟨hremembered, n, hn, hv⟩ := hbuilt.self (mem_sortNodesByDepth.mpr hs.mem)
  refine ⟨⟨start_sound hstart, rfl, hs.isSwitch, (start_config hstart).symm ▸ hs.mem, fun _ => ?_⟩,
    AddressSpace.exists_find.mp ⟨n, hn⟩, ?_⟩
  · exact ⟨hremembered, isSwitch_iff.mpr ⟨n, _, hn, hv, rfl, rfl⟩, hbuilt.only⟩
  · rw [World.switchState, hbuilt.flag, AddressSpace.valueOf, hn, Option.bind_some, hv]
    rfl

/-! ### Runs -/

/-- Setting the switch makes the two agree, and nothing else changes whether they do. -/
theorem SwitchStep.agrees_iff {op : Op} (h : SwitchStep s id w op w')
    (hid : id = w.nodeIdOf s.browseName.chars) (hlive : id ∈ w'.space.ids) :
    w'.SwitchAgrees s.browseName.chars ↔
      w.SwitchAgrees s.browseName.chars ∨ op.isSwitching id = true := by
  rw [switchAgrees_iff_state h.inv.id_eq, switchAgrees_iff_state hid, h.state hlive,
    Op.isSwitching]
  cases op.setsSwitch id with
  | none => simp [switchAfter]
  | some b => simp [switchAfter]

/-- **The extent of the agreement.** After any run of operations from the build of a
configuration with one switch, the node of the switch holds the simulation flag exactly when one
of the operations was an on/off request or a Boolean write to that node. The writes of clients are
scalars. The node stays live when the names of the configuration are distinct. -/
theorem switchAgrees_iff (cjson : CJson) (hs : OneSwitch cfg s)
    (hstart : start host nsIdx cfg file = some w) {ops : List Op}
    (hrun : run (stepOp cjson) w ops = some w') :
    (w'.Live s.browseName.chars → (w'.SwitchAgrees s.browseName.chars ↔
      ∃ op ∈ ops, op.isSwitching (w.nodeIdOf s.browseName.chars) = true)) ∧
    (DistinctNames cfg → w'.Live s.browseName.chars) := by
  obtain ⟨hinv, hlive, hstate⟩ := start_switchInv hs hstart
  have hkeep : ∀ w₁ op w₂, SwitchInv s (w.nodeIdOf s.browseName.chars) w₁ →
      stepOp cjson w₁ op = some w₂ → SwitchInv s (w.nodeIdOf s.browseName.chars) w₂ :=
    fun _ _ _ h hstep => (h.step hstep).inv
  have hinv' := last_of_step hkeep hinv hrun
  rw [World.Live, ← hinv'.id_eq]
  constructor
  · intro hlive'
    -- After the build the node holds FALSE while the flag is on. From there each step either makes
    -- the two agree or keeps what they are.
    have hdisagree : ¬ w.SwitchAgrees s.browseName.chars := by
      rw [switchAgrees_iff_state rfl, hstate]
      simp
    rw [last_iff_exists hkeep (fun _ _ _ h hstep => (h.step hstep).live)
      (fun _ op _ h hlive hstep => (h.step hstep).agrees_iff h.id_eq hlive) hinv hrun hlive']
    exact or_iff_right hdisagree
  · intro hnames
    have hnd : DistinctNames w.nm.config := (start_config hstart).symm ▸ hnames
    refine (last_of_step (I := fun w₁ => SwitchInv s (w.nodeIdOf s.browseName.chars) w₁ ∧
      DistinctNames w₁.nm.config ∧ w.nodeIdOf s.browseName.chars ∈ w₁.space.ids) ?_
      ⟨hinv, hnd, hlive⟩ hrun).2.2
    rintro w₁ op w₂ ⟨h, hnd, hlive⟩ hstep
    exact ⟨hkeep w₁ op w₂ h hstep, distinctNames_step hnd (step_kinds h.sound hstep),
      h.live_step hnd hlive hstep⟩

/-- The switch of the default configuration. -/
def defaultSwitch : ServerNodeDef :=
  { kind := snprintf 16 serverNodeKindVariable
    browseName := snprintf serverBrowseNameMax "SimulationEnabled".toList
    displayName := snprintf serverDisplayNameMax "Simulation Enabled".toList
    parentBrowseName := snprintf serverBrowseNameMax "Sensors".toList
    dataType := .boolean
    simulation := false
    role := snprintf 32 serverRoleSimulationEnabled }

theorem oneSwitch_defaults : OneSwitch serverConfigSeedDefaults defaultSwitch where
  mem := by decide
  isVariable := by decide
  boolean := rfl
  isSwitch := by decide
  unique := by decide

/-- After a tick, a request to switch off and one more tick, the two positions agree. -/
theorem switchAgrees_request : ∃ w w', start .ok 1 serverConfigSeedDefaults none = some w ∧
    run (stepOp .none) w [.tick, .setSimulationEnabled false, .tick] = some w' ∧
    w'.SwitchAgrees "SimulationEnabled".toList := by
  have hcheck : ((start .ok 1 serverConfigSeedDefaults none).any fun w =>
      (run (stepOp .none) w [.tick, .setSimulationEnabled false, .tick]).isSome) = true := by
    decide +kernel
  obtain ⟨w, hw, hcheck⟩ := (Option.any_eq_true _ _).mp hcheck
  obtain ⟨w', hrun⟩ := Option.isSome_iff_exists.mp hcheck
  obtain ⟨hiff, hlive⟩ := switchAgrees_iff .none oneSwitch_defaults hw hrun
  exact ⟨w, w', hw, hrun, (hiff (hlive distinctNames_defaults)).mpr
    ⟨.setSimulationEnabled false, by simp, rfl⟩⟩

/-- After the build of the default configuration the flag is set, and the node of the switch
holds `false`. -/
theorem not_switchAgrees_start : OneSwitch serverConfigSeedDefaults defaultSwitch ∧
    ∃ w, start .ok 1 serverConfigSeedDefaults none = some w ∧ w.nm.simulationEnabled = true ∧
      w.space.valueOf (w.nodeIdOf "SimulationEnabled".toList) = some (.boolean false) ∧
      ¬ w.SwitchAgrees "SimulationEnabled".toList := by
  refine ⟨oneSwitch_defaults, ?_⟩
  have hcheck : ((start .ok 1 serverConfigSeedDefaults none).any fun w =>
      w.nm.simulationEnabled &&
      decide (w.space.valueOf (w.nodeIdOf "SimulationEnabled".toList)
        = some (.boolean false))) = true := by
    decide
  obtain ⟨w, hw, hcheck⟩ := (Option.any_eq_true _ _).mp hcheck
  rw [Bool.and_eq_true, decide_eq_true_eq] at hcheck
  refine ⟨w, hw, hcheck.1, hcheck.2, fun hagrees => ?_⟩
  rw [World.SwitchAgrees, hcheck.2, hcheck.1] at hagrees
  cases hagrees

end SmartFactory.Server
