import SmartFactory.Proofs.Values

/-!
# `SmartFactory.Proofs.Building`: the state after the build

`start_induction` is the induction over `node_manager_build`: a property of the definitions
done so far and of the world carries to the end of the build when each creation keeps it
and each definition of another kind leaves it alone.

The facts that the runs of the server start from are instances of it: the state is sound,
the configuration is the loaded one, every sensor comes from a definition, the switch that
the program remembers is wired, and values agree.
-/

set_option autoImplicit false

namespace SmartFactory.Server

variable {host : Host} {nsIdx : Nat} {cfg : ServerConfig} {file : Option CString}
variable {w w' : World}

/-- A definition of a node ends the loop when its node is not created. -/
theorem buildLoop_node {d : ServerNodeDef} (hnode : d.isNode = true)
    (rest : List ServerNodeDef) (w : World) :
    buildLoop host (d :: rest) w = if (createNode host d w).1 ≠ .good then createNode host d w
      else buildLoop host rest (createNode host d w).2 := by
  rw [buildLoop]
  by_cases hf : d.isFolder = true
  · rw [if_pos hf, createNode, if_pos hf]
  · have hv : d.isVariable = true := by
      simpa [ServerNodeDef.isNode, hf] using hnode
    rw [if_neg hf, if_pos hv, createNode, if_neg hf]

/-- A definition of another kind is skipped. -/
theorem buildLoop_skip {d : ServerNodeDef} (hother : d.isNode = false)
    (rest : List ServerNodeDef) (w : World) :
    buildLoop host (d :: rest) w = buildLoop host rest w := by
  obtain ⟨hfolder, hvariable⟩ := kinds_of_other hother
  rw [buildLoop, hfolder, if_neg Bool.false_ne_true, hvariable, if_neg Bool.false_ne_true]

/-- The loop of the build, from any point of the list `all` on. -/
theorem buildLoop_induction {P : List ServerNodeDef → World → Prop} {all : List ServerNodeDef}
    (create : ∀ done d w, (done ++ [d]) <+: all → P done w → d.isNode = true →
      (createNode host d w).1 = .good → P (done ++ [d]) (createNode host d w).2)
    (skip : ∀ done d w, (done ++ [d]) <+: all → P done w → d.isNode = false →
      P (done ++ [d]) w)
    {ds done : List ServerNodeDef} (hall : all = done ++ ds) (hP : P done w)
    (h : buildLoop host ds w = (.good, w')) : P all w' := by
  -- `done` grows by the definition that the loop takes off the front of `ds`.
  induction ds generalizing done w with
  | nil =>
      rw [buildLoop, Prod.mk.injEq] at h
      rw [hall, List.append_nil, ← h.2]
      exact hP
  | cons d rest ih =>
      have happ : all = (done ++ [d]) ++ rest := by simp [hall]
      have hinit : (done ++ [d]) <+: all := ⟨rest, happ.symm⟩
      by_cases hnode : d.isNode = true
      · rw [buildLoop_node hnode] at h
        by_cases hgood : (createNode host d w).1 = .good
        · rw [if_neg (fun hne => hne hgood)] at h
          exact ih happ (create done d w hinit hP hnode hgood) h
        -- The build would have ended here with another status.
        · rw [if_pos hgood] at h
          exact absurd (congrArg Prod.fst h) hgood
      · have hother : d.isNode = false := Bool.eq_false_iff.mpr hnode
        rw [buildLoop_skip hother] at h
        exact ih happ (skip done d w hinit hP hother) h

/-- **The induction over the build**, with each creation as it is computed. -/
theorem start_induction_createNode {P : List ServerNodeDef → World → Prop}
    (create : ∀ done d w, (done ++ [d]) <+: sortNodesByDepth cfg → P done w →
      d.isNode = true → (createNode host d w).1 = .good →
      P (done ++ [d]) (createNode host d w).2)
    (skip : ∀ done d w, (done ++ [d]) <+: sortNodesByDepth cfg → P done w →
      d.isNode = false → P (done ++ [d]) w)
    (init : P [] (nodeManagerCreate nsIdx cfg file))
    (h : start host nsIdx cfg file = some w) : P (sortNodesByDepth cfg) w := by
  have hbuild : buildLoop host (sortNodesByDepth cfg) (nodeManagerCreate nsIdx cfg file)
      = (.good, w) := by
    simp only [start] at h
    split at h
    · rename_i w₁ hgood
      rw [Option.some.injEq] at h
      exact h ▸ hgood
    · cases h
  exact buildLoop_induction create skip rfl init hbuild

/-- **The induction over the build**, with each creation by what it changes. -/
theorem start_induction {P : List ServerNodeDef → World → Prop}
    (create : ∀ done d w w', (done ++ [d]) <+: sortNodesByDepth cfg → P done w →
      d.isNode = true → Created host d w w' → P (done ++ [d]) w')
    (skip : ∀ done d w, (done ++ [d]) <+: sortNodesByDepth cfg → P done w →
      d.isNode = false → P (done ++ [d]) w)
    (init : P [] (nodeManagerCreate nsIdx cfg file))
    (h : start host nsIdx cfg file = some w) : P (sortNodesByDepth cfg) w := by
  refine start_induction_createNode (fun done d w hinit hP hnode hgood => ?_) skip init h
  exact create done d w _ hinit hP hnode (created_of_good hnode hgood)

/-- The same for a property of the world only. -/
theorem start_invariant {P : World → Prop}
    (create : ∀ d w w', P w → Created host d w w' → P w')
    (init : P (nodeManagerCreate nsIdx cfg file))
    (h : start host nsIdx cfg file = some w) : P w :=
  start_induction (P := fun _ w => P w) (fun _ d w w' _ hP _ hc => create d w w' hP hc)
    (fun _ _ _ _ hP _ => hP) init h

/-- **A build succeeds** when the names are distinct and the server accepts every node. -/
theorem buildLoop_good (hhost : ∀ b, host.refuse b = none) {ds : List ServerNodeDef}
    (hnd : (ds.map (fun d => d.browseName.chars)).Nodup)
    (hfree : ∀ d ∈ ds, w.space.find (w.nodeIdOf d.browseName.chars) = none) :
    ∃ w', buildLoop host ds w = (.good, w') := by
  induction ds generalizing w with
  | nil => exact ⟨w, rfl⟩
  | cons d rest ih =>
      rw [List.map_cons, List.nodup_cons] at hnd
      cases hnode : d.isNode with
      | false =>
          rw [buildLoop_skip hnode]
          exact ih hnd.2 fun x hx => hfree x (List.mem_cons_of_mem d hx)
      | true =>
          rw [buildLoop_node hnode]
          rcases createNode_cases host w hnode with ⟨hgood, hc⟩ | ⟨hreason, -, -⟩
          · rw [if_neg fun hne => hne hgood]
            refine ih hnd.2 fun x hx => ?_
            -- The new node does not take the id of a later definition.
            have hne : x.browseName.chars ≠ d.browseName.chars := fun he =>
              hnd.1 (he ▸ List.mem_map_of_mem hx)
            rw [nodeIdOf_congr hc.nsIdx, hc.others _ fun he => hne (nodeIdOf_inj.mp he)]
            exact hfree x (List.mem_cons_of_mem d hx)
          · rcases hreason with hlive | hrefused
            · exact absurd (hfree d (List.mem_cons_self ..)) hlive
            · exact absurd (hhost _) hrefused

/-- The state before the build is sound. -/
theorem sound_create : Sound (nodeManagerCreate nsIdx cfg file) where
  mutex := rfl
  ids_nodup := List.nodup_nil
  ids_string := nofun
  map_id := by simp [nodeManagerCreate]
  map_live := by simp [nodeManagerCreate]
  map_nodup := by simp [nodeManagerCreate]
  sensor_id := nofun
  sensor_live := nofun
  sensors_nodup := List.nodup_nil

/-- The state after the build is sound. -/
theorem start_sound (h : start host nsIdx cfg file = some w) : Sound w :=
  start_invariant (fun _ _ _ hP hc => hc.sound hP) sound_create h

/-- The build leaves the configuration as it was loaded. -/
theorem start_config (h : start host nsIdx cfg file = some w) : w.nm.config = cfg :=
  start_invariant (P := fun w => w.nm.config = cfg) (fun _ _ _ hP hc => hc.config.trans hP) rfl
    h

/-- The build leaves the file alone. -/
theorem start_file (h : start host nsIdx cfg file = some w) : w.file = file :=
  start_invariant (P := fun w => w.file = file) (fun _ _ _ hP hc => hc.file.trans hP) rfl h

/-- The program remembers its namespace index. -/
theorem start_nsIdx (h : start host nsIdx cfg file = some w) : w.nm.nsIdx = nsIdx :=
  start_invariant (P := fun w => w.nm.nsIdx = nsIdx) (fun _ _ _ hP hc => hc.nsIdx.trans hP)
    rfl h

/-- The build goes through the definitions of the configuration, each of them once. -/
theorem sortNodesByDepth_perm : (sortNodesByDepth cfg).Perm cfg.nodes :=
  exchangeSort_perm (nodeDepth cfg) cfg.nodes

theorem mem_sortNodesByDepth {d : ServerNodeDef} :
    d ∈ sortNodesByDepth cfg ↔ d ∈ cfg.nodes :=
  sortNodesByDepth_perm.mem_iff

/-- Each sensor comes from a simulated definition of its name. -/
theorem start_sensors (h : start host nsIdx cfg file = some w) :
    ∀ st ∈ w.nm.sensors, ∃ d ∈ cfg.nodes, d.isSimulated = true ∧
      d.browseName.chars = st.browseName.chars := by
  have hdone : ∀ st ∈ w.nm.sensors, ∃ d ∈ sortNodesByDepth cfg, d.isSimulated = true ∧
      d.browseName.chars = st.browseName.chars := by
    refine start_induction (P := fun done w => ∀ st ∈ w.nm.sensors, ∃ d ∈ done,
      d.isSimulated = true ∧ d.browseName.chars = st.browseName.chars) ?_ ?_ nofun h
    · intro done d w w' _ hP _ hc st hst
      -- The definitions that are done grow by `d`, which accounts for a sensor that is new.
      have hold : ∀ st ∈ w.nm.sensors, ∃ d' ∈ done ++ [d], d'.isSimulated = true ∧
          d'.browseName.chars = st.browseName.chars := by
        intro st hst
        obtain ⟨d', hd', hrest⟩ := hP st hst
        exact ⟨d', List.mem_append_left _ hd', hrest⟩
      rcases hc.sensors_cases with hsame | ⟨hsim, hnew, -⟩
      · exact hold st (hsame ▸ hst)
      · rw [hnew, List.mem_append, List.mem_singleton] at hst
        rcases hst with hst | rfl
        · exact hold st hst
        · refine ⟨d, List.mem_append_right _ (List.mem_singleton_self d), hsim, ?_⟩
          rw [newSensor_browseName]
    · intro done d w _ hP _ st hst
      obtain ⟨d', hd', hrest⟩ := hP st hst
      exact ⟨d', List.mem_append_left _ hd', hrest⟩
  intro st hst
  obtain ⟨d, hd, hrest⟩ := hdone st hst
  exact ⟨d, mem_sortNodesByDepth.mp hd, hrest⟩

/-- When every sensor's name is a name of the configuration, there are at most as many
sensors as definitions. -/
theorem Sound.length_sensors_le (hw : Sound w)
    (h : ∀ st ∈ w.nm.sensors, ∃ d ∈ w.nm.config.nodes,
      d.browseName.chars = st.browseName.chars) :
    w.nm.sensors.length ≤ w.nm.config.nodes.length := by
  have hsub : w.nm.sensors.map (fun st => st.browseName.chars)
      ⊆ w.nm.config.nodes.map (fun d => d.browseName.chars) := by
    intro b hb
    obtain ⟨st, hst, rfl⟩ := List.mem_map.mp hb
    obtain ⟨d, hd, hname⟩ := h st hst
    exact List.mem_map.mpr ⟨d, hd, hname⟩
  have hle := (List.subperm_of_subset hw.sensors_nodup hsub).length_le
  simpa using hle

/-- After the build, the sensors fit the arrays on the stack. -/
theorem start_fits (h : start host nsIdx cfg file = some w) :
    w.nm.sensors.length ≤ serverMaxNodes := by
  have hconfig := start_config h
  have hle := (start_sound h).length_sensors_le (by
    intro st hst
    obtain ⟨d, hd, -, hname⟩ := start_sensors h st hst
    exact ⟨d, hconfig ▸ hd, hname⟩)
  exact Nat.le_trans hle w.nm.config.nodes_le

/-- A creation keeps every node that calls `sensor_write_callback` in the array. -/
theorem Created.sensorsCover {d : ServerNodeDef} (hc : Created host d w w')
    (h : SensorsCover w) : SensorsCover w' := by
  intro id n v hn hv hcb
  have hkeep : ∀ st ∈ w.nm.sensors, st ∈ w'.nm.sensors := by
    intro st hst
    rcases hc.sensors_cases with hsame | ⟨-, hnew, -⟩
    · rw [hsame]
      exact hst
    · rw [hnew]
      exact List.mem_append_left _ hst
  -- The new node is covered by the new sensor, the others by the old ones.
  by_cases hid : id = w.nodeIdOf d.browseName.chars
  · subst hid
    obtain ⟨n', hn', -, -, -, hwired⟩ := hc.self
    obtain rfl : n = n' := Option.some.inj (hn.symm.trans hn')
    cases hwired with
    | plain _ _ _ _ hplain => exact absurd hcb (hplain v hv)
    | failed _ _ _ _ _ _ hplain => cases (hplain v hv).symm.trans hcb
    | connected _ hsensors _ _ =>
        refine ⟨newSensor d.browseName.chars (w.nodeIdOf d.browseName.chars), ?_, rfl⟩
        rw [hsensors]
        exact List.mem_append_right _ (List.mem_singleton_self _)
  · obtain ⟨st, hst, hstid⟩ := h id n v ((hc.others id hid).symm.trans hn) hv hcb
    exact ⟨st, hkeep st hst, hstid⟩

/-- After the build, every node that calls `sensor_write_callback` has a sensor. -/
theorem start_sensorsCover (h : start host nsIdx cfg file = some w) : SensorsCover w :=
  start_invariant (fun _ _ _ hP hc => hc.sensorsCover hP) (fun _ _ _ hn => nomatch hn) h

/-- After the build, the node that the program remembers as its switch is one. -/
theorem start_switch (h : start host nsIdx cfg file = some w) :
    ∀ id, w.nm.simulationEnabledNodeId = some id → SwitchNode w.space id := by
  refine start_invariant (P := fun w => ∀ id, w.nm.simulationEnabledNodeId = some id →
    SwitchNode w.space id) ?_ nofun h
  intro d w w' hP hc id hid
  rcases hc.switch with ⟨hsame, -⟩ | ⟨hself, -, n, v, hn, hv, hcb⟩
  · obtain ⟨n, v, hn, hv, hcb⟩ := hP id (hsame ▸ hid)
    -- The remembered node was there before, so a creation leaves it alone.
    have hlive : id ∈ w.space.ids := AddressSpace.exists_find.mp ⟨n, hn⟩
    exact ⟨n, v, (hc.find_of_mem hlive).trans hn, hv, hcb⟩
  · obtain rfl := Option.some.inj (hself.symm.trans hid)
    exact ⟨n, v, hn, hv, hcb⟩

/-- After the build the simulation is on. -/
theorem start_enabled (h : start host nsIdx cfg file = some w) :
    w.nm.simulationEnabled = true := by
  refine start_invariant (P := fun w => w.nm.simulationEnabled = true) ?_ rfl h
  intro d w w' hP hc
  rcases hc.switch with ⟨-, hsame⟩ | ⟨-, hon, -⟩
  · exact hsame.trans hP
  · exact hon

/-- A creation keeps the values agreeing: a new sensor and its node both hold `false`. -/
theorem Created.valuesAgree {d : ServerNodeDef} (hc : Created host d w w') (hw : Sound w)
    (h : ValuesAgree w) : ValuesAgree w' := by
  -- The nodes of the old sensors are not the new one.
  have hold : ∀ st ∈ w.nm.sensors, w'.space.valueOf st.nodeId = some (.boolean st.value) := by
    intro st hst
    rw [AddressSpace.valueOf, hc.find_of_mem (hw.live_of_sensor hst)]
    exact h st hst
  obtain ⟨n, hn, -, -, -, hwired⟩ := hc.self
  intro st hst
  cases hwired with
  | plain _ hsensors => exact hold st (hsensors ▸ hst)
  | failed _ _ _ hsensors => exact hold st (hsensors ▸ hst)
  | connected _ hsensors _ hv =>
      rw [hsensors, List.mem_append, List.mem_singleton] at hst
      rcases hst with hst | rfl
      · exact hold st hst
      · rw [AddressSpace.valueOf]
        show (w'.space.find (w.nodeIdOf d.browseName.chars)).bind _ = _
        rw [hn, Option.bind_some, hv]
        rfl

/-- After the build, values agree. -/
theorem start_valuesAgree (h : start host nsIdx cfg file = some w) : ValuesAgree w :=
  (start_invariant (P := fun w => Sound w ∧ ValuesAgree w)
    (fun _ _ _ hP hc => ⟨hc.sound hP.1, hc.valuesAgree hP.1 hP.2⟩)
    ⟨sound_create, nofun⟩ h).2

end SmartFactory.Server
