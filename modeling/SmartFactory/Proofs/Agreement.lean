import SmartFactory.Proofs.Filling
import SmartFactory.Proofs.Growth

/-!
# `SmartFactory.Proofs.Agreement`: the four tables of nodes

The program keeps its nodes in four places: the address space of the server, the browse
map, the configuration and, for the simulated ones, the sensors array. `Agreement` says that
they list the same browse names.

The places have different limits, and an addition does not look whether the last ones have
room. `agreement_iff_lists` is the extent of the agreement: it holds along a run exactly when no
node is created while the configuration is full and none is created whose sensor cannot be
allocated, during the build (`Allocates`) and after it (`Lists`). What an addition that reports
success leaves behind is the matter of `SmartFactory.Proofs.Listing`.
-/

set_option autoImplicit false

namespace SmartFactory.Server

open Run

variable (cjson : CJson)

/-- The program has a node of that browse name in the address space. -/
def World.Live (w : World) (b : CString) : Prop := w.nodeIdOf b ∈ w.space.ids

/-- The sensors array has an element of that browse name. -/
def World.HasSensor (w : World) (b : CString) : Prop :=
  ∃ st ∈ w.nm.sensors, st.browseName.chars = b

/-- One of the definitions has that browse name and the property. -/
def Defines (ds : List ServerNodeDef) (p : ServerNodeDef → Bool) (b : CString) : Prop :=
  ∃ d ∈ ds, p d = true ∧ d.browseName.chars = b

/-- The address space and the browse map list the nodes of the definitions `ds`. -/
structure NodesListed (w : World) (ds : List ServerNodeDef) : Prop where
  ids : ∀ id ∈ w.space.ids, ∃ b, id = w.nodeIdOf b
  map : ∀ b, w.InMap b ↔ w.Live b
  config : ∀ b, Defines ds ServerNodeDef.isNode b ↔ w.Live b

/-- The address space, the browse map and the sensors array list the nodes of the
definitions `ds`. -/
structure Agrees (w : World) (ds : List ServerNodeDef) : Prop extends NodesListed w ds where
  sensors : ∀ b, w.HasSensor b ↔ Defines ds ServerNodeDef.isSimulated b

/-- The address space, the browse map, the configuration and the sensors array agree. -/
def Agreement (w : World) : Prop := Agrees w w.nm.config.nodes

/-- A node is created only with room in the configuration and, if it is simulated, in the
sensors array. -/
def Lists (w : World) (op : Op) : Prop :=
  ∀ host d, Creates w op host d → w.nm.config.nodes.length < serverMaxNodes ∧
    (d.isSimulated = true → w.CanGrow host d.browseName.chars)

variable {cjson} {w w' : World} {host : Host} {d : ServerNodeDef}

/-! ### A creation -/

theorem Created.live (hc : Created host d w w') {b : CString} :
    w'.Live b ↔ w.Live b ∨ b = d.browseName.chars := by
  rw [World.Live, nodeIdOf_congr hc.nsIdx, hc.mem_ids, nodeIdOf_inj]
  rfl

/-- With room in the browse map, the new node is entered. -/
theorem Created.inMap (hc : Created host d w w')
    (hroom : w.map.entries.length < nmMaxEntries) {b : CString} :
    w'.InMap b ↔ w.InMap b ∨ b = d.browseName.chars := by
  rw [World.InMap, hc.map]
  constructor
  · rintro ⟨e, he, rfl⟩
    rcases (SlotTable.mem_insert hroom).mp he with rfl | he
    · exact Or.inr rfl
    · exact Or.inl ⟨e, he, rfl⟩
  · rintro (⟨e, he, rfl⟩ | rfl)
    · exact ⟨e, (SlotTable.mem_insert hroom).mpr (Or.inr he), rfl⟩
    · exact ⟨_, (SlotTable.mem_insert hroom).mpr (Or.inl rfl), rfl⟩

/-- With room in the sensors array, a simulated node gets its sensor. -/
theorem Created.hasSensor (hc : Created host d w w')
    (hgrow : d.isSimulated = true → w.CanGrow host d.browseName.chars) {b : CString} :
    w'.HasSensor b ↔ w.HasSensor b ∨ (d.isSimulated = true ∧ b = d.browseName.chars) := by
  rcases hc.sensors_cases with hsame | ⟨hsim, hnew, -⟩
  · -- The sensors are the same, so that the node asked for none: where it asked, there was room for
    -- it.
    have hplain : d.isSimulated = false := by
      obtain ⟨n, -, -, -, -, hwired⟩ := hc.self
      cases hwired with
      | plain hsim => exact hsim
      | failed hsim hfull hfail =>
          rcases hgrow hsim with hroom | hne
          · exact absurd hroom (Nat.not_lt_of_le hfull)
          · exact absurd hfail hne
      | connected _ hsensors =>
          have hlen := congrArg List.length (hsame.symm.trans hsensors)
          simp at hlen
    rw [World.HasSensor, hsame, hplain]
    simp [World.HasSensor]
  · -- One sensor more, under the name of the node.
    rw [World.HasSensor, hnew, hsim]
    constructor
    · rintro ⟨st, hst, rfl⟩
      rcases List.mem_append.mp hst with hst | hst
      · exact Or.inl ⟨st, hst, rfl⟩
      · rw [List.mem_singleton] at hst
        subst hst
        exact Or.inr ⟨rfl, by rw [newSensor_browseName]⟩
    · rintro (⟨st, hst, rfl⟩ | ⟨-, rfl⟩)
      · exact ⟨st, List.mem_append_left _ hst, rfl⟩
      · exact ⟨_, List.mem_append_right _ (List.mem_singleton_self _),
          by rw [newSensor_browseName]⟩

/-- One more definition. -/
theorem defines_append {ds : List ServerNodeDef} {p : ServerNodeDef → Bool} {b : CString} :
    Defines (ds ++ [d]) p b ↔ Defines ds p b ∨ (p d = true ∧ b = d.browseName.chars) := by
  constructor
  · rintro ⟨x, hx, hp, rfl⟩
    rcases List.mem_append.mp hx with hx | hx
    · exact Or.inl ⟨x, hx, hp, rfl⟩
    · rw [List.mem_singleton] at hx
      subst hx
      exact Or.inr ⟨hp, rfl⟩
  · rintro (⟨x, hx, hrest⟩ | ⟨hp, rfl⟩)
    · exact ⟨x, List.mem_append_left _ hx, hrest⟩
    · exact ⟨d, List.mem_append_right _ (List.mem_singleton_self d), hp, rfl⟩

/-- The browse map has no more entries than there are definitions. -/
theorem NodesListed.length_map_le {ds : List ServerNodeDef} (h : NodesListed w ds)
    (hw : Sound w) : w.map.entries.length ≤ ds.length := by
  have hsub : w.map.entries.map (fun e => e.browseName.chars)
      ⊆ ds.map (fun d => d.browseName.chars) := by
    intro b hb
    obtain ⟨e, he, rfl⟩ := List.mem_map.mp hb
    obtain ⟨d, hd, -, hname⟩ := (h.config _).mpr ((h.map _).mp ⟨e, he, rfl⟩)
    exact List.mem_map.mpr ⟨d, hd, hname⟩
  simpa using (List.subperm_of_subset hw.map_nodup hsub).length_le

/-- So with a configuration's worth of definitions, the browse map has room. -/
theorem NodesListed.map_room {ds : List ServerNodeDef} (h : NodesListed w ds) (hw : Sound w)
    (hlen : ds.length ≤ serverMaxNodes) : w.map.entries.length < nmMaxEntries :=
  Nat.lt_of_le_of_lt (Nat.le_trans (h.length_map_le hw) hlen) (by decide)

/-- A creation adds the new definition to the listed ones. -/
theorem Created.nodesListed (hc : Created host d w w') (hw : Sound w)
    {ds : List ServerNodeDef} (h : NodesListed w ds) (hlen : ds.length ≤ serverMaxNodes)
    (hnode : d.isNode = true) : NodesListed w' (ds ++ [d]) := by
  refine ⟨(hc.sound hw).ids_string, fun b => ?_, fun b => ?_⟩
  · rw [hc.inMap (h.map_room hw hlen), hc.live, h.map]
  · rw [defines_append, hc.live, h.config, hnode]
    simp

/-- A definition of another kind adds nothing. -/
theorem NodesListed.skip {ds : List ServerNodeDef} (h : NodesListed w ds)
    (hother : d.isNode = false) : NodesListed w (ds ++ [d]) := by
  refine ⟨h.ids, h.map, fun b => ?_⟩
  rw [defines_append, hother, ← h.config]
  simp

/-- A creation with room for its sensor extends the agreement by the new definition. -/
theorem Created.agrees (hc : Created host d w w') (hw : Sound w) {ds : List ServerNodeDef}
    (h : Agrees w ds) (hlen : ds.length ≤ serverMaxNodes) (hnode : d.isNode = true)
    (hgrow : d.isSimulated = true → w.CanGrow host d.browseName.chars) :
    Agrees w' (ds ++ [d]) := by
  refine ⟨hc.nodesListed hw h.toNodesListed hlen hnode, fun b => ?_⟩
  rw [hc.hasSensor hgrow, defines_append, h.sensors]

/-! ### A removal -/

/-- With distinct names, a removal from the definitions removes the name. -/
theorem defines_eraseP {ds : List ServerNodeDef}
    (hnd : (ds.map (fun d => d.browseName.chars)).Nodup) {p : ServerNodeDef → Bool}
    {b c : CString} :
    Defines (ds.eraseP (fun n => n.browseName.chars == b)) p c ↔ Defines ds p c ∧ c ≠ b := by
  have hmem : ∀ x, x ∈ ds.eraseP (fun n => n.browseName.chars == b) ↔
      x ∈ ds ∧ x.browseName.chars ≠ b := fun x =>
    Keyed.mem_eraseP_key (fun d : ServerNodeDef => d.browseName.chars) hnd
  constructor
  · rintro ⟨x, hx, hp, rfl⟩
    exact ⟨⟨x, ((hmem x).mp hx).1, hp, rfl⟩, ((hmem x).mp hx).2⟩
  · rintro ⟨⟨x, hx, hp, rfl⟩, hne⟩
    exact ⟨x, (hmem x).mpr ⟨hx, hne⟩, hp, rfl⟩

/-- A removal keeps the nodes listed: the name leaves the places together. -/
theorem Removed.nodesListed {io : SaveIo} {b : CString} {idx : Nat}
    (hr : Removed cjson io b idx w w') (hw : Sound w)
    (hidx : nodeManagerFindNodeIndex w.nm b = some idx)
    (hnd : (w.nm.config.nodes.map (fun d => d.browseName.chars)).Nodup)
    (h : NodesListed w w.nm.config.nodes) : NodesListed w' w'.nm.config.nodes := by
  have hns : w'.nm.nsIdx = w.nm.nsIdx := by rw [hr.nm]
  have hlive : ∀ c, w'.Live c ↔ w.Live c ∧ c ≠ b := by
    intro c
    rw [World.Live, nodeIdOf_congr hns, hr.mem_ids, nodeIdOf_inj]
    constructor
    · rintro ⟨hc, hnot⟩
      -- A live node is in the browse map, so the deletion reaches it.
      refine ⟨hc, fun he => hnot ⟨(h.map b).mpr ?_, he⟩⟩
      exact he ▸ hc
    · rintro ⟨hc, hne⟩
      exact ⟨hc, fun hboth => hne hboth.2⟩
  refine ⟨(hr.sound hw).ids_string, fun c => ?_, fun c => ?_⟩
  · rw [hr.inMap hw, hlive, h.map]
  · rw [hr.nodes hidx, defines_eraseP hnd, hlive, h.config]

/-- A removal keeps the agreement. -/
theorem Removed.agreement {io : SaveIo} {b : CString} {idx : Nat}
    (hr : Removed cjson io b idx w w') (hw : Sound w)
    (hidx : nodeManagerFindNodeIndex w.nm b = some idx)
    (hnd : (w.nm.config.nodes.map (fun d => d.browseName.chars)).Nodup)
    (h : Agreement w) : Agreement w' := by
  refine ⟨hr.nodesListed hw hidx hnd h.toNodesListed, fun c => ?_⟩
  rw [hr.nodes hidx, defines_eraseP hnd, ← h.sensors]
  constructor
  · rintro ⟨st, hst, rfl⟩
    obtain ⟨hold, hne⟩ := (hr.mem_sensors hw).mp hst
    exact ⟨⟨st, hold, rfl⟩, hne⟩
  · rintro ⟨⟨st, hst, rfl⟩, hne⟩
    exact ⟨st, (hr.mem_sensors hw).mpr ⟨hst, hne⟩, rfl⟩

/-! ### Runs -/

/-- The browse names of the configuration are distinct. -/
def DistinctNames (cfg : ServerConfig) : Prop :=
  (cfg.nodes.map (fun d => d.browseName.chars)).Nodup

/-- With distinct names, a definition is known by its name. -/
theorem DistinctNames.eq_of_name {cfg : ServerConfig} (h : DistinctNames cfg)
    {d d' : ServerNodeDef} (hd : d ∈ cfg.nodes) (hd' : d' ∈ cfg.nodes)
    (hname : d.browseName.chars = d'.browseName.chars) : d = d' :=
  Keyed.eq_of_key_eq (fun d : ServerNodeDef => d.browseName.chars) h hd hd' hname

/-- The list that is built fits into the array of the program. -/
theorem sortNodesByDepth_length_le (cfg : ServerConfig) :
    (sortNodesByDepth cfg).length ≤ serverMaxNodes := by
  rw [sortNodesByDepth_perm.length_eq]
  exact cfg.nodes_le

/-- The sort keeps the names distinct. -/
theorem DistinctNames.sorted {cfg : ServerConfig} (h : DistinctNames cfg) :
    ((sortNodesByDepth cfg).map (fun d => d.browseName.chars)).Nodup :=
  ((sortNodesByDepth_perm.map _).nodup_iff).mpr h

/-- Before the build, nothing is listed. -/
theorem nodesListed_create {nsIdx : Nat} {cfg : ServerConfig} {file : Option CString} :
    NodesListed (nodeManagerCreate nsIdx cfg file) [] := by
  refine ⟨nofun, fun b => ?_, fun b => ?_⟩
  · simp [World.InMap, World.Live, nodeManagerCreate, AddressSpace.ids]
  · simp [Defines, World.Live, nodeManagerCreate, AddressSpace.ids]

/-- The induction over the build, in states that list the nodes done so far. -/
theorem start_induction_listed {nsIdx : Nat} {cfg : ServerConfig} {file : Option CString}
    {P : List ServerNodeDef → World → Prop}
    (create : ∀ done d w w', (done ++ [d]) <+: sortNodesByDepth cfg → Sound w →
      NodesListed w done → w.nm.nsIdx = nsIdx → P done w → d.isNode = true →
      Created host d w w' → P (done ++ [d]) w')
    (skip : ∀ done d w, P done w → d.isNode = false → P (done ++ [d]) w)
    (init : P [] (nodeManagerCreate nsIdx cfg file))
    (hstart : start host nsIdx cfg file = some w) :
    NodesListed w (sortNodesByDepth cfg) ∧ P (sortNodesByDepth cfg) w := by
  have hlen := sortNodesByDepth_length_le cfg
  have hdone := start_induction (P := fun done w => Sound w ∧ NodesListed w done ∧
    w.nm.nsIdx = nsIdx ∧ P done w) ?_ ?_ ⟨sound_create, nodesListed_create, rfl, init⟩ hstart
  · exact ⟨hdone.2.1, hdone.2.2.2⟩
  · rintro done d w w' hinit ⟨hw, h, hns, hP⟩ hnode hc
    refine ⟨hc.sound hw, hc.nodesListed hw h ?_ hnode, hc.nsIdx.trans hns,
      create done d w w' hinit hw h hns hP hnode hc⟩
    have hle := hinit.length_le
    rw [List.length_append] at hle
    omega
  · rintro done d w - ⟨hw, h, hns, hP⟩ hother
    exact ⟨hw, h.skip hother, hns, skip done d w hP hother⟩

/-- After the build of a configuration, the address space and the browse map list its
nodes. -/
theorem start_nodesListed {nsIdx : Nat} {cfg : ServerConfig} {file : Option CString}
    (hstart : start host nsIdx cfg file = some w) : NodesListed w w.nm.config.nodes := by
  have h := (start_induction_listed (P := fun _ _ => True) (fun _ _ _ _ _ _ _ _ _ _ _ => trivial)
    (fun _ _ _ _ _ => trivial) trivial hstart).1
  refine ⟨h.ids, h.map, fun b => Iff.trans ?_ (h.config b)⟩
  rw [start_config hstart]
  exact exists_congr fun d => and_congr_left fun _ => mem_sortNodesByDepth.symm

/-- The four places agree after a build exactly when every growth of the sensors array
succeeded. -/
theorem start_agreement_iff {nsIdx : Nat} {cfg : ServerConfig} {file : Option CString}
    (hstart : start host nsIdx cfg file = some w) :
    Agreement w ↔ Allocates host (sortNodesByDepth cfg) := by
  constructor
  · intro h
    refine allocates_of_start hstart fun d hd hsim => ?_
    exact (h.sensors d.browseName.chars).mpr ⟨d, (start_config hstart).symm ▸ hd, hsim, rfl⟩
  · intro halloc
    refine ⟨start_nodesListed hstart, fun b => ?_⟩
    rw [start_config hstart]
    exact (start_sensorsComplete hstart halloc).exists_sensor

/-- A step that keeps the shape of the state and its configuration keeps the agreement. -/
theorem SameShape.agreement (hshape : SameShape w w') (hw : Sound w) (h : Agreement w) :
    Agreement w' := by
  have hns : w'.nm.nsIdx = w.nm.nsIdx := by rw [hshape.nm]
  have hconfig : w'.nm.config = w.nm.config := by rw [hshape.nm]
  have hlive : ∀ b, w'.Live b ↔ w.Live b := by
    intro b
    rw [World.Live, nodeIdOf_congr hns, hshape.ids]
    rfl
  have hmap : ∀ b, w'.InMap b ↔ w.InMap b := by
    intro b
    rw [World.InMap, hshape.map]
    rfl
  have hsensor : ∀ {w w' : World}, SameShape w w' → ∀ b, w'.HasSensor b → w.HasSensor b := by
    rintro w w' hshape b ⟨st, hst, rfl⟩
    obtain ⟨st₀, hst₀, -, hname⟩ := hshape.mem_sensors hst
    exact ⟨st₀, hst₀, by rw [hname]⟩
  -- Browse map, configuration and sensors: each clause compares names that are the same.
  refine ⟨⟨(hshape.sound hw).ids_string, fun b => ?_, fun b => ?_⟩, fun b => ?_⟩
  · rw [hmap, hlive, h.map]
  · rw [hconfig, hlive, h.config]
  · rw [hconfig, ← h.sensors]
    exact ⟨hsensor hshape b, hsensor hshape.symm b⟩

/-- If the places agree with a new definition in them, a sensor that it asks for was made. -/
theorem Created.canGrow_of_agrees {ds : List ServerNodeDef} (hc : Created host d w w')
    (hw : Sound w) (hagrees : Agrees w' (ds ++ [d])) (hsim : d.isSimulated = true) :
    w.CanGrow host d.browseName.chars := by
  obtain ⟨n, -, -, -, -, hwired⟩ := hc.self
  cases hwired with
  | plain hplain => cases hplain.symm.trans hsim
  | failed _ _ _ hsensors =>
      obtain ⟨st, hst, hname⟩ := (hagrees.sensors d.browseName.chars).mpr
        ⟨d, List.mem_append_right _ (List.mem_singleton_self d), hsim, rfl⟩
      exact absurd hname (hc.not_sensor hw st (hsensors ▸ hst))
  | connected _ _ hgrown => exact hgrown.canGrow

/-- **One step.** From a state in which the places agree, a step leads to one exactly when
it lists what it creates. -/
theorem agreement_step_iff (hw : Sound w) (hnd : DistinctNames w.nm.config)
    (h : Agreement w) {op : Op} (hkind : StepKind cjson w op w') :
    Agreement w' ↔ Lists w op := by
  cases hkind with
  | quiet hshape _ hrefused _ =>
      refine iff_of_true (hshape.agreement hw h) fun host d hcreates => ?_
      exact absurd hcreates.accepted
        (hrefused host d hcreates.adds hcreates.checks hcreates.fresh)
  | added host d w₁ hop hchecks hc hw' =>
      have hnode := isNode_of_adds hop
      have hsame : ∀ ds, Agrees w' ds ↔ Agrees w₁ ds := by
        intro ds
        rw [hw', appendAndSave_eq]
        exact ⟨fun h => ⟨⟨h.ids, h.map, h.config⟩, h.sensors⟩,
          fun h => ⟨⟨h.ids, h.map, h.config⟩, h.sensors⟩⟩
      rw [Agreement, hsame, hc.appended_nodes hw']
      constructor
      · intro hagrees host' d' hcreates
        obtain ⟨rfl, rfl⟩ := adds_inj hop hcreates.adds
        have hlt : w.nm.config.nodes.length < serverMaxNodes := by
          by_contra hfull
          rw [if_neg hfull] at hagrees
          -- The node is live, but no definition lists it.
          obtain ⟨x, hx, -, hname⟩ :=
            (hagrees.config d.browseName.chars).mpr (hc.live.mpr (Or.inr rfl))
          exact not_has_of_checks hop hchecks x hx hname
        rw [if_pos hlt] at hagrees
        exact ⟨hlt, hc.canGrow_of_agrees hw hagrees⟩
      · intro hlists
        obtain ⟨hlt, hgrow⟩ := hlists host d ⟨hop, hchecks, hc.fresh, hc.accepted⟩
        rw [if_pos hlt]
        exact hc.agrees hw h w.nm.config.nodes_le hnode hgrow
  | removed host b idx hdel hremoved =>
      refine iff_of_true (hremoved.agreement hw hdel.index hnd h) fun host' d' hcreates => ?_
      rw [hdel.op] at hcreates
      cases hcreates.adds

/-- A step keeps the names of the configuration distinct. -/
theorem distinctNames_step (hnd : DistinctNames w.nm.config) {op : Op}
    (hkind : StepKind cjson w op w') : DistinctNames w'.nm.config := by
  cases hkind with
  | quiet hshape =>
      rw [hshape.nm]
      exact hnd
  | added host d w₁ hop hchecks hc hw' =>
      rw [hw', appendAndSave_eq, DistinctNames]
      show ((w₁.nm.config.append d).nodes.map _).Nodup
      rw [hc.config, ServerConfig.append_nodes]
      split
      · -- The checks of an addition have excluded the names that are there.
        rw [List.map_append, List.nodup_append]
        refine ⟨hnd, List.nodup_singleton _, fun a ha b hb hab => ?_⟩
        obtain ⟨x, hx, rfl⟩ := List.mem_map.mp ha
        rw [List.map_singleton, List.mem_singleton] at hb
        exact not_has_of_checks hop hchecks x hx (hab.trans hb)
      · exact hnd
  | removed host b idx hdel hremoved =>
      rw [DistinctNames, hremoved.nodes hdel.index]
      exact ((List.eraseP_sublist).map _).nodup hnd

variable (cjson)

/-- **The extent of the agreement.** From the build of a configuration with distinct names
on, along any run of additions and deletions, the four places agree in every state exactly when
the build allocates every sensor and each step lists what it creates. -/
theorem agreement_iff_lists {nsIdx : Nat} {cfg : ServerConfig} {file : Option CString}
    (hnames : DistinctNames cfg) (hstart : start host nsIdx cfg file = some w)
    {ops : List Op} (hops : ∀ op ∈ ops, op.isStructural = true) :
    Always (stepOp cjson) Agreement w ops ↔
      Allocates host (sortNodesByDepth cfg) ∧ Each (stepOp cjson) Lists w ops := by
  have hdistinct : DistinctNames w.nm.config := (start_config hstart).symm ▸ hnames
  rw [← start_agreement_iff hstart]
  refine always_iff_head_and_each (I := fun w => Sound w ∧ DistinctNames w.nm.config)
    (fun op => op.isStructural = true) ?_ ?_ hops ⟨start_sound hstart, hdistinct⟩
  · rintro w op w' hop ⟨hw, hnd⟩ h hlists hstep
    have hkind := stepKind_of_structural hw hop hstep
    exact ⟨⟨hkind.sound hw, distinctNames_step hnd hkind⟩,
      (agreement_step_iff hw hnd h hkind).mpr hlists⟩
  · rintro w op w' hop ⟨hw, hnd⟩ h hlists hstep h'
    exact hlists
      ((agreement_step_iff hw hnd h (stepKind_of_structural hw hop hstep)).mp h')

/-- The names of the configuration stay distinct along such a run. -/
theorem distinctNames_always {w : World} (hw : Sound w) (hnd : DistinctNames w.nm.config)
    {ops : List Op} (hops : ∀ op ∈ ops, op.isStructural = true) :
    Always (stepOp cjson) (fun w => Sound w ∧ DistinctNames w.nm.config) w ops := by
  refine always_of_step (I := fun w => Sound w ∧ DistinctNames w.nm.config)
    (fun op => op.isStructural = true) ?_ (fun _ h => h) hops ⟨hw, hnd⟩
  rintro w op w' hop ⟨hw, hnd⟩ hstep
  have hkind := stepKind_of_structural hw hop hstep
  exact ⟨hkind.sound hw, distinctNames_step hnd hkind⟩

/-- The default configuration has distinct names. -/
theorem distinctNames_defaults : DistinctNames serverConfigSeedDefaults := by
  rw [DistinctNames, nodes_defaults]
  decide

/-- In agreement, there are no more nodes than definitions. -/
theorem Agreement.length_ids_le (h : Agreement w) (hw : Sound w) :
    w.space.ids.length ≤ w.nm.config.nodes.length := by
  have hsub : w.space.ids ⊆ w.nm.config.nodes.map (fun d => w.nodeIdOf d.browseName.chars) := by
    intro id hid
    obtain ⟨b, rfl⟩ := h.ids id hid
    obtain ⟨d, hd, -, hname⟩ := (h.config b).mpr hid
    exact List.mem_map.mpr ⟨d, hd, by rw [hname]⟩
  simpa using (List.subperm_of_subset hw.ids_nodup hsub).length_le

/-- With 253 more sensors than the default configuration, all of them accepted, there are
260 nodes and 256 definitions. -/
theorem not_agreement_fill : DistinctNames serverConfigSeedDefaults ∧
    ∃ w, start .ok 1 serverConfigSeedDefaults none = some w ∧
      (∃ w', run (stepOp .none) w ((fillNames 253).map addSensorOp) = some w' ∧
        w'.space.ids.length = 260) ∧
      ¬ Always (stepOp .none) Agreement w ((fillNames 253).map addSensorOp) := by
  obtain ⟨w, hw, -, -, -, hids⟩ := start_defaults
  obtain ⟨w', hrun, hw', -, hids'⟩ := run_adds .none (start_sound hw) fillNames_nodup
    (newName_defaults hw hids)
  have hmany : w'.space.ids.length = 260 := by
    rw [hids', hids]
    simp [fillNames, defaultNames]
  refine ⟨distinctNames_defaults, w, hw, ⟨w', hrun, hmany⟩, fun hagree => ?_⟩
  have hle := Nat.le_trans ((hagree.last hrun).length_ids_le hw') w'.nm.config.nodes_le
  rw [hmany] at hle
  exact absurd hle (by decide)

end SmartFactory.Server
