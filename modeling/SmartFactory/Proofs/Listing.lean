import SmartFactory.Proofs.Durability

/-!
# `SmartFactory.Proofs.Listing`: what an addition that reports success leaves behind

An addition that reports `good` should leave a node that is listed, that is in the file, and that a
deletion takes away again (`GoodIsListed`). The program looks at none of this. It lists nothing when
the configuration is full, it drops the result of the save, and it does not ask whether a definition
names the new node as its parent, which keeps a deletion from it. The parent of a folder may be the
folder itself, and then no deletion ever reaches it.

`agreement_iff` puts this together with the agreement of the four places: `Lasts` is the condition
on a step that all of it holds.
-/

set_option autoImplicit false

namespace SmartFactory.Server

open Run

variable (cjson : CJson)

/-- The file decodes to a configuration that lists the definition. -/
def FileLists (file : Option CString) (d : ServerNodeDef) : Prop :=
  ∃ text root, file = some text ∧ cjson.parse text = some root ∧
    d.saved ∈ (configOfJson root).nodes.map ServerNodeDef.saved

/-- A deletion of the name, whatever the library calls return, reports `good` and takes the node
away. -/
def Deletable (w : World) (b : CString) : Prop :=
  ∀ host, ∃ w', (perform cjson (.delete host b)).run w = .ok (.good, w') ∧ ¬ w'.Live b

/-- An addition that reports `good` leaves the node in the address space, in the browse map, in the
configuration and in the file, and a deletion takes it away. -/
def GoodIsListed (w : World) (op : Op) : Prop :=
  ∀ host d w', op.adds = some (host, d) → (perform cjson op).run w = .ok (.good, w') →
    (w'.Live d.browseName.chars ∧ w'.InMap d.browseName.chars ∧ d ∈ w'.nm.config.nodes) ∧
    FileLists cjson w'.file d ∧ Deletable cjson w' d.browseName.chars

/-- The save writes the whole text of the configuration, or it fails over a file that lists the
definition already. -/
def SavesDefinition (io : SaveIo) (cfg : ServerConfig) (file : Option CString)
    (d : ServerNodeDef) : Prop :=
  io.SavesWhole (cjson.print (configToJson cfg)) ∨ (io.fails = true ∧ FileLists cjson file d)

/-- A node is created only with room for it, its definition is saved, and no definition has its name
as the name of a parent, the new one included. -/
structure Lasts (w : World) (op : Op) : Prop where
  lists : Lists w op
  saved : ∀ host d, Creates w op host d →
    SavesDefinition cjson host.save (w.nm.config.append d) w.file d
  childless : ∀ host d, Creates w op host d →
    hasChildrenInConfig (w.nm.config.append d) d.browseName.chars = false

variable {cjson} {cfg : ServerConfig} {w w' : World} {host : Host} {d : ServerNodeDef} {op : Op}

/-! ### The file -/

/-- The file keeps the fields of a definition. -/
theorem SameFields.saved_eq {d' : ServerNodeDef} (h : SameFields d d') : d.saved = d'.saved := by
  have hvariable : d'.isVariable = d.isVariable := by
    rw [ServerNodeDef.isVariable, ServerNodeDef.isVariable, h.kind]
  have htype : (if d.isVariable then d.dataType else .boolean)
      = if d'.isVariable then d'.dataType else .boolean := by
    rw [hvariable]
    split
    · rename_i hv
      exact (h.dataType hv).symm
    · rfl
  simp only [ServerNodeDef.saved, htype, h.kind, h.browseName, h.displayName, h.parentBrowseName,
    h.simulation, h.role]

theorem SameConfig.sameNodes {cfg' : ServerConfig} (h : SameConfig cfg cfg') :
    SameNodes cfg cfg' := by
  have hsaved : List.Forall₂ (· = ·) (cfg.nodes.map ServerNodeDef.saved)
      (cfg'.nodes.map ServerNodeDef.saved) := by
    rw [List.forall₂_map_left_iff, List.forall₂_map_right_iff]
    exact h.nodes.imp fun _ _ hfields => hfields.saved_eq
  rwa [List.forall₂_eq_eq_eq] at hsaved

/-- A file that holds a configuration lists its definitions. -/
theorem FileHolds.lists {file : Option CString} (h : FileHolds cjson file cfg)
    (hd : d ∈ cfg.nodes) : FileLists cjson file d := by
  obtain ⟨text, root, htext, hroot, hsame⟩ := h
  refine ⟨text, root, htext, hroot, ?_⟩
  obtain ⟨d', hd', hsaved⟩ := hsame.sameNodes.mem hd
  exact List.mem_map.mpr ⟨d', hd', hsaved⟩

/-- **The save.** Afterwards the file lists a definition of the configuration exactly when the whole
text was written, or the save failed over a file that had listed it already. -/
theorem fileLists_save_iff {io : SaveIo} {file : Option CString} (hcjson : RoundTrips cjson cfg)
    (hpart : ReadsNoPart cjson io) (hd : d ∈ cfg.nodes) :
    FileLists cjson (serverConfigSave cjson io cfg file).2 d ↔
      SavesDefinition cjson io cfg file d := by
  have hne : cfg.nodes ≠ [] := List.ne_nil_of_mem hd
  rcases save_cases cjson io cfg file with ⟨hfails, hfile⟩ | ⟨hwhole, hfile⟩ |
    ⟨n, hok, hcut, hlt, hfile⟩
  · rw [hfile]
    refine ⟨fun h => .inr ⟨hfails, h⟩, ?_⟩
    rintro (hwhole | ⟨-, hlists⟩)
    · cases hfails.symm.trans hwhole.1
    · exact hlists
  · rw [hfile]
    exact iff_of_true (((fileHolds_printed_iff hcjson).mpr hne).lists hd) (.inl hwhole)
  · rw [hfile]
    refine iff_of_false ?_ ?_
    · rintro ⟨text, root, htext, hroot, -⟩
      obtain rfl := Option.some.inj htext
      cases (hpart n hcut cfg hlt).symm.trans hroot
    · rintro (hwhole | ⟨hfails, -⟩)
      · exact absurd (hwhole.2 n hcut) (Nat.not_le.mpr hlt)
      · cases hok.symm.trans hfails

/-! ### The deletion -/

/-- A name that is listed and in the map can be deleted exactly when no definition names it as a
parent, unless it is the switch. -/
theorem deletable_iff (hw : Sound w) (hnd : DistinctNames w.nm.config) (hd : d ∈ w.nm.config.nodes)
    (hswitch : d.isSimulationSwitch = false) (hmap : w.InMap d.browseName.chars) :
    Deletable cjson w d.browseName.chars ↔
      hasChildrenInConfig w.nm.config d.browseName.chars = false := by
  constructor
  · intro hdeletable
    obtain ⟨w', hrun, -⟩ := hdeletable .ok
    obtain ⟨rc, w₁, hrun₁, hdeleted, -⟩ :=
      nodeManagerDelete_run cjson .ok d.browseName.chars hw.mutex
    obtain ⟨rfl, -⟩ := run_unique hrun hrun₁
    cases hdeleted with
    | deleted _ _ _ _ _ _ hchildren => exact hchildren
  · intro hchildren host
    obtain ⟨rc, w', hrun, hdeleted, -⟩ :=
      nodeManagerDelete_run cjson host d.browseName.chars hw.mutex
    -- The other outcomes are excluded one by one.
    cases hdeleted with
    | unknown hnone =>
        rw [nodeManagerFindNodeIndex, List.findIdx?_eq_none_iff] at hnone
        simpa using hnone d hd
    | denied idx d' hidx hd' hswitch' =>
        obtain ⟨hlt, hname, -⟩ := List.findIdx?_eq_some_iff_getElem.mp hidx
        rw [List.getElem?_eq_getElem hlt, Option.some.injEq] at hd'
        have hsame : d' = d :=
          hnd.eq_of_name (hd' ▸ List.getElem_mem hlt) hd (by simpa [hd'] using hname)
        rw [hsame, hswitch] at hswitch'
        cases hswitch'
    | children hsome => cases hchildren.symm.trans hsome
    | deleted idx d' =>
        refine ⟨_, hrun, fun hlive => ?_⟩
        have hremoved := removed cjson hw host.save d.browseName.chars idx
        have hns : (removeFromConfig cjson host.save idx (removeSensor d.browseName.chars
            (deleteFromServer d.browseName.chars w))).nm.nsIdx = w.nm.nsIdx := by
          rw [hremoved.nm]
        rw [World.Live, hremoved.mem_ids, nodeIdOf_congr hns] at hlive
        exact hlive.2 ⟨hmap, rfl⟩

/-- What an addition fills in is not the switch. -/
theorem isSimulationSwitch_of_adds (h : op.adds = some (host, d)) :
    d.isSimulationSwitch = false := by
  cases op with
  | addFolder host' parent b display =>
      obtain ⟨-, rfl⟩ := Prod.mk.inj (Option.some.inj h)
      simp [ServerNodeDef.isSimulationSwitch, folderDef]
  | addVariable host' parent b display dt sim =>
      obtain ⟨-, rfl⟩ := Prod.mk.inj (Option.some.inj h)
      simp [ServerNodeDef.isSimulationSwitch, variableDef]
  | _ => cases h

/-! ### One step -/

/-- An addition that reports `good` has created its node. -/
theorem creates_of_good (hm : w.nm.mutexHeld = false) (hop : op.adds = some (host, d))
    (hrun : (perform cjson op).run w = .ok (.good, w')) :
    Creates w op host d ∧ ∃ w₁, Created host d w w₁ ∧ w' = appendAndSave cjson host.save d w₁ := by
  obtain ⟨rc, w₂, hrun₂, hadded⟩ := step_adds cjson hop hm
  obtain ⟨rfl, rfl⟩ := run_unique hrun hrun₂
  cases hadded with
  | refused _ hrc _ => exact absurd rfl hrc
  | added w₁ hchecks hc => exact ⟨⟨hop, hchecks, hc.fresh, hc.accepted⟩, w₁, hc, rfl⟩

/-- A creation is reported as `good`. -/
theorem good_of_creates (hm : w.nm.mutexHeld = false) (hcreates : Creates w op host d) :
    ∃ w', (perform cjson op).run w = .ok (.good, w') := by
  obtain ⟨rc, w', hrun, hadded⟩ := step_adds cjson hcreates.adds hm
  cases hadded with
  | refused _ _ hreason =>
      rcases hreason with hno | hlive | hrefused
      · exact absurd hcreates.checks hno
      · exact absurd hcreates.fresh hlive
      · exact absurd hcreates.accepted hrefused
  | added => exact ⟨_, hrun⟩

/-- **One step.** From a state in which the four places agree, a step that lists what it creates
leaves an accepted node listed, saved and deletable exactly when it lasts. -/
theorem goodIsListed_iff (hw : Sound w) (hnd : DistinctNames w.nm.config) (h : Agreement w)
    (hlists : Lists w op)
    (hcjson : ∀ w', stepOp cjson w op = some w' → RoundTrips cjson w'.nm.config)
    (hpart : ∀ host d, op.adds = some (host, d) → ReadsNoPart cjson host.save) :
    GoodIsListed cjson w op ↔ Lasts cjson w op := by
  -- What an accepted addition leaves, clause by clause.
  have hclauses : ∀ host d w', op.adds = some (host, d) →
      (perform cjson op).run w = .ok (.good, w') →
      (w'.Live d.browseName.chars ∧ w'.InMap d.browseName.chars ∧ d ∈ w'.nm.config.nodes) ∧
      (FileLists cjson w'.file d ↔
        SavesDefinition cjson host.save (w.nm.config.append d) w.file d) ∧
      (Deletable cjson w' d.browseName.chars ↔
        hasChildrenInConfig (w.nm.config.append d) d.browseName.chars = false) := by
    intro host d w' hop hrun
    obtain ⟨hcreates, w₁, hc, rfl⟩ := creates_of_good hw.mutex hop hrun
    have hstep := stepOp_eq_some.mpr ⟨_, hrun⟩
    have hkind : StepKind cjson w op (appendAndSave cjson host.save d w₁) :=
      .added host d w₁ hop hcreates.checks hc rfl
    have hsound := hkind.sound hw
    have hdistinct := distinctNames_step hnd hkind
    have hround := hcjson _ hstep
    obtain ⟨hlt, -⟩ := hlists host d hcreates
    -- The configuration has fewer slots than the browse map, so the map has room.
    have hroom := h.map_room hw w.nm.config.nodes_le
    have hd : d ∈ (w.nm.config.append d).nodes := by
      rw [ServerConfig.append_nodes, if_pos hlt]
      exact List.mem_append_right _ (List.mem_singleton_self d)
    rw [appendAndSave_eq] at hsound hdistinct hround ⊢
    simp only [hc.config, hc.file, if_pos hlt] at hsound hdistinct hround ⊢
    have hmap : w₁.InMap d.browseName.chars := (hc.inMap hroom).mpr (.inr rfl)
    refine ⟨⟨hc.live.mpr (.inr rfl), hmap, hd⟩, ?_, ?_⟩
    · exact fileLists_save_iff hround (hpart host d hop) hd
    · exact deletable_iff hsound hdistinct hd (isSimulationSwitch_of_adds hop) hmap
  constructor
  · intro hgood
    refine ⟨hlists, fun host d hcreates => ?_, fun host d hcreates => ?_⟩
    · obtain ⟨w', hrun⟩ : ∃ w', (perform cjson op).run w = .ok (.good, w') :=
        good_of_creates hw.mutex hcreates
      obtain ⟨-, hsaved, -⟩ := hclauses host d w' hcreates.adds hrun
      exact hsaved.mp (hgood host d w' hcreates.adds hrun).2.1
    · obtain ⟨w', hrun⟩ : ∃ w', (perform cjson op).run w = .ok (.good, w') :=
        good_of_creates hw.mutex hcreates
      obtain ⟨-, -, hdeletable⟩ := hclauses host d w' hcreates.adds hrun
      exact hdeletable.mp (hgood host d w' hcreates.adds hrun).2.2
  · intro hlasts host d w' hop hrun
    obtain ⟨hlisted, hsaved, hdeletable⟩ := hclauses host d w' hop hrun
    obtain ⟨hcreates, -⟩ := creates_of_good hw.mutex hop hrun
    exact ⟨hlisted, hsaved.mpr (hlasts.saved host d hcreates),
      hdeletable.mpr (hlasts.childless host d hcreates)⟩

/-! ### Runs -/

/-- **The extent of the agreement.** From the build of a configuration with distinct names on, along
any run of additions and deletions with any outcomes of the library calls, the four places agree in
every state and every addition that reports `good` leaves a node that is listed, saved and
deletable, exactly when the build allocates every sensor and each step lasts. -/
theorem agreement_iff {nsIdx : Nat} {file : Option CString} (hnames : DistinctNames cfg)
    (hstart : start host nsIdx cfg file = some w) {ops : List Op}
    (hops : ∀ op ∈ ops, op.isStructural = true ∧
      ∀ host d, op.adds = some (host, d) → ReadsNoPart cjson host.save)
    (hcjson : Always (stepOp cjson) (fun w => RoundTrips cjson w.nm.config) w ops) :
    (Always (stepOp cjson) Agreement w ops ∧ Each (stepOp cjson) (GoodIsListed cjson) w ops) ↔
      Allocates host (sortNodesByDepth cfg) ∧ Each (stepOp cjson) (Lasts cjson) w ops := by
  have hstructural : ∀ op ∈ ops, op.isStructural = true := fun op hop => (hops op hop).1
  have hiff := agreement_iff_lists cjson hnames hstart hstructural
  have hdistinct : DistinctNames w.nm.config := (start_config hstart).symm ▸ hnames
  have hvalid := distinctNames_always cjson (start_sound hstart) hdistinct hstructural
  -- Along a run that agrees every step lists, so the two guards say the same.
  have hguards : Always (stepOp cjson) Agreement w ops →
      (Each (stepOp cjson) (GoodIsListed cjson) w ops ↔
        Each (stepOp cjson) (Lasts cjson) w ops) := by
    intro hagree
    refine each_congr (fun op => op.isStructural = true ∧
      ∀ host d, op.adds = some (host, d) → ReadsNoPart cjson host.save) ?_ hops
      ((hvalid.and hagree).and hcjson)
    rintro w op w' ⟨hop, hpart⟩ ⟨⟨⟨hw, hnd⟩, h⟩, -⟩ ⟨⟨-, h'⟩, hround⟩ hstep
    have hlists := (agreement_step_iff hw hnd h (stepKind_of_structural hw hop hstep)).mp h'
    refine goodIsListed_iff hw hnd h hlists (fun w'' hstep' => ?_) hpart
    obtain rfl := Option.some.inj (hstep.symm.trans hstep')
    exact hround
  constructor
  · rintro ⟨hagree, hgood⟩
    exact ⟨(hiff.mp hagree).1, (hguards hagree).mp hgood⟩
  · rintro ⟨halloc, hlasts⟩
    have hlists : Each (stepOp cjson) Lists w ops :=
      each_of_each (I := fun _ => True) (fun _ => True) (fun _ _ _ _ _ _ _ => trivial)
        (fun _ _ _ _ _ hlasts _ => hlasts.lists) (fun _ _ => trivial) trivial hlasts
    have hagree := hiff.mpr ⟨halloc, hlists⟩
    exact ⟨hagree, (hguards hagree).mpr hlasts⟩

/-! ### A run -/

/-- `Line1` is added below `Hall` and deleted again. -/
def lineOps : List Op :=
  [.addFolder .ok (some "Hall".toList) "Line1".toList "Line1".toList, .delete .ok "Line1".toList]

/-- The four places agree all the time, and the addition leaves a node that is listed, saved and
deletable. -/
theorem agreement_line : ∃ w, start .ok 1 (plant "urn:works") none = some w ∧
    Always (stepOp plantEnv.cjson) Agreement w lineOps ∧
      Each (stepOp plantEnv.cjson) (GoodIsListed plantEnv.cjson) w lineOps := by
  have hcheck : ((start .ok 1 (plant "urn:works") none).any fun w =>
      alwaysb (stepOp plantEnv.cjson) (fun w => w.nm.config ∈ plantConfigs) w lineOps) = true := by
    decide
  obtain ⟨w, hw, hcheck⟩ := (Option.any_eq_true _ _).mp hcheck
  have hround : Always (stepOp plantEnv.cjson) (fun w => RoundTrips plantEnv.cjson w.nm.config) w
      lineOps := always_of_alwaysb (fun _ h => roundTrips_plant (of_decide_eq_true h)) hcheck
  have hops : ∀ op ∈ lineOps, op.isStructural = true ∧
      ∀ host d, op.adds = some (host, d) → ReadsNoPart plantEnv.cjson host.save := by
    simp only [lineOps, List.mem_cons, List.not_mem_nil, or_false]
    rintro op (rfl | rfl)
    · refine ⟨rfl, fun host d hadds => ?_⟩
      obtain ⟨rfl, -⟩ := Prod.mk.inj (Option.some.inj hadds)
      exact nofun
    · exact ⟨rfl, nofun⟩
  -- There is room, the save goes through, and nobody names the new node as a parent.
  have hadded : Lasts plantEnv.cjson w
      (.addFolder .ok (some "Hall".toList) "Line1".toList "Line1".toList) := by
    refine ⟨fun host d hcreates => ?_, fun host d hcreates => ?_, fun host d hcreates => ?_⟩
    all_goals
      obtain ⟨rfl, rfl⟩ := Prod.mk.inj (Option.some.inj hcreates.adds)
      rw [start_config hw]
    · exact ⟨by decide, fun _ => .inr nofun⟩
    · exact .inl ⟨rfl, nofun⟩
    · decide
  have hdeleted : ∀ w, Lasts plantEnv.cjson w (.delete .ok "Line1".toList) := by
    intro w
    have hnone : ∀ host d, ¬ Creates w (.delete .ok "Line1".toList) host d :=
      fun host d hcreates => nomatch hcreates.adds
    exact ⟨fun _ _ hcreates => absurd hcreates (hnone _ _),
      fun _ _ hcreates => absurd hcreates (hnone _ _),
      fun _ _ hcreates => absurd hcreates (hnone _ _)⟩
  have hlasts : Each (stepOp plantEnv.cjson) (Lasts plantEnv.cjson) w lineOps :=
    fun _ _ => ⟨hadded, fun _ _ => ⟨hdeleted _, trivial⟩⟩
  have hnames : DistinctNames (plant "urn:works") := by
    rw [DistinctNames]
    decide
  exact ⟨w, hw, (agreement_iff hnames hw hops hround).mpr
    ⟨(buildGrowth_ok _).allocates, hlasts⟩⟩

end SmartFactory.Server
