import SmartFactory.Proofs.Building
import SmartFactory.Proofs.SwitchWrites

/-!
# `SmartFactory.Proofs.Steps`: one step of the server

The two operations that add a node differ in the definition that they fill in and in one
check. `Op.adds` and `Op.checks` give both, so that `step_adds` describes a step of either;
`deleted_of_step` describes a deletion. Both keep the state sound.
-/

set_option autoImplicit false

namespace SmartFactory.Server

/-- The definition that an operation adds. -/
def Op.adds : Op → Option (Host × ServerNodeDef)
  | .addFolder host parent b display => some (host, folderDef parent b display)
  | .addVariable host parent b display dt sim =>
      some (host, variableDef parent b display dt sim)
  | _ => none

/-- The checks that such an operation makes first. -/
def Op.checks (w : World) : Op → Prop
  | .addFolder _ _ b _ => FolderChecks w b
  | .addVariable _ _ b _ dt sim => VariableChecks w b dt sim
  | _ => False

/-- The operation creates or deletes nodes. -/
def Op.isStructural : Op → Bool
  | .addFolder .. | .addVariable .. | .delete .. => true
  | _ => false

variable {cjson : CJson} {w w' : World} {host : Host} {d : ServerNodeDef}

/-- A step that returns is the step that was computed. -/
theorem stepOp_eq_some {op : Op} :
    stepOp cjson w op = some w' ↔ ∃ rc, (perform cjson op).run w = .ok (rc, w') := by
  simp only [stepOp]
  constructor
  · intro h
    split at h
    · rename_i rc w₁ hrun
      exact ⟨rc, hrun.trans (by rw [Option.some.inj h])⟩
    · cases h
  · rintro ⟨rc, hrun⟩
    rw [hrun]

/-- An operation adds one node at most. -/
theorem adds_inj {host' : Host} {d' : ServerNodeDef} {op : Op} (h : op.adds = some (host, d))
    (h' : op.adds = some (host', d')) : host = host' ∧ d = d' := by
  have heq := h.symm.trans h'
  rwa [Option.some.injEq, Prod.mk.injEq] at heq

/-- What an operation adds is a node. -/
theorem isNode_of_adds {op : Op} (h : op.adds = some (host, d)) : d.isNode = true := by
  cases op with
  | addFolder host' parent b display =>
      rw [Op.adds, Option.some.injEq, Prod.mk.injEq] at h
      rw [← h.2]
      simp [ServerNodeDef.isNode]
  | addVariable host' parent b display dt sim =>
      rw [Op.adds, Option.some.injEq, Prod.mk.injEq] at h
      rw [← h.2]
      simp [ServerNodeDef.isNode]
  | _ => cases h

/-- The checks look at the name that the definition gets: a valid name is not cut when it is
copied into the definition. -/
theorem name_of_checks {op : Op} (h : op.adds = some (host, d)) (hc : op.checks w) :
    serverConfigValidateBrowseName d.browseName.chars = true ∧
      configHasBrowse w.nm.config d.browseName.chars = false := by
  cases op with
  | addFolder host' parent b display =>
      rw [Op.adds, Option.some.injEq, Prod.mk.injEq] at h
      have hname : d.browseName.chars = b := by
        rw [← h.2]
        exact snprintf_of_lt (length_lt_of_valid hc.1)
      rw [hname]
      exact hc
  | addVariable host' parent b display dt sim =>
      rw [Op.adds, Option.some.injEq, Prod.mk.injEq] at h
      have hname : d.browseName.chars = b := by
        rw [← h.2]
        exact snprintf_of_lt (length_lt_of_valid hc.1)
      rw [hname]
      exact ⟨hc.1, hc.2.1⟩
  | _ => exact hc.elim

/-- The checks look for the name in the configuration. -/
theorem not_has_of_checks {op : Op} (h : op.adds = some (host, d)) (hc : op.checks w) :
    ∀ d' ∈ w.nm.config.nodes, d'.browseName.chars ≠ d.browseName.chars := by
  have hhas := (name_of_checks h hc).2
  intro d' hd' he
  rw [configHasBrowse, List.any_eq_false] at hhas
  exact hhas d' hd' (by simpa using he)

/-- **A step that adds** was refused and changed nothing, or it created the node and
appended its definition. -/
theorem step_adds (cjson : CJson) {op : Op} (hop : op.adds = some (host, d))
    (hm : w.nm.mutexHeld = false) :
    ∃ rc w', (perform cjson op).run w = .ok (rc, w') ∧
      Added cjson host d (op.checks w) w rc w' := by
  cases op with
  | addFolder host' parent b display =>
      rw [Op.adds, Option.some.injEq, Prod.mk.injEq] at hop
      obtain ⟨rfl, rfl⟩ := hop
      obtain ⟨rc, w', hrun, hadded, -⟩ := nodeManagerAddFolder_run cjson host' parent b display hm
      exact ⟨rc, w', hrun, hadded⟩
  | addVariable host' parent b display dt sim =>
      rw [Op.adds, Option.some.injEq, Prod.mk.injEq] at hop
      obtain ⟨rfl, rfl⟩ := hop
      obtain ⟨rc, w', hrun, hadded, -⟩ := nodeManagerAddVariable_run cjson host' parent b display
        dt sim hm
      exact ⟨rc, w', hrun, hadded⟩
  | _ => cases hop

/-- A step that adds left the world as it was, or it is the creation followed by the append. -/
theorem addedWorld_of_step {op : Op} (hop : op.adds = some (host, d))
    (hm : w.nm.mutexHeld = false) (h : stepOp cjson w op = some w') :
    w' = w ∨ ((createNode host d w).1 = .good ∧
      w' = appendAndSave cjson host.save d (createNode host d w).2) := by
  obtain ⟨rc, hrun⟩ := stepOp_eq_some.mp h
  -- Folders and variables differ in their checks only.
  have hboth : ∀ {checks : Prop} {rc : StatusCode} {w' : World},
      Added cjson host d checks w rc w' → AddedWorld cjson host d w rc w' →
      w' = w ∨ ((createNode host d w).1 = .good ∧
        w' = appendAndSave cjson host.save d (createNode host d w).2) := by
    intro checks rc w' hadded hworld
    cases hadded with
    | refused => exact Or.inl rfl
    | added => exact Or.inr (hworld rfl)
  cases op with
  | addFolder host' parent b display =>
      rw [Op.adds, Option.some.injEq, Prod.mk.injEq] at hop
      obtain ⟨rfl, rfl⟩ := hop
      obtain ⟨rc', w₁, hrun', hadded, -, hworld⟩ :=
        nodeManagerAddFolder_run cjson host' parent b display hm
      obtain ⟨rfl, rfl⟩ := run_unique hrun' hrun
      exact hboth hadded hworld
  | addVariable host' parent b display dt sim =>
      rw [Op.adds, Option.some.injEq, Prod.mk.injEq] at hop
      obtain ⟨rfl, rfl⟩ := hop
      obtain ⟨rc', w₁, hrun', hadded, -, hworld⟩ :=
        nodeManagerAddVariable_run cjson host' parent b display dt sim hm
      obtain ⟨rfl, rfl⟩ := run_unique hrun' hrun
      exact hboth hadded hworld
  | _ => cases hop

/-- A step that adds, read off the step function. -/
theorem added_of_step {op : Op} (hop : op.adds = some (host, d))
    (hm : w.nm.mutexHeld = false) (h : stepOp cjson w op = some w') :
    ∃ rc, Added cjson host d (op.checks w) w rc w' := by
  obtain ⟨rc, w₁, hrun, hadded⟩ := step_adds cjson hop hm
  obtain ⟨rc', hrun'⟩ := stepOp_eq_some.mp h
  rw [hrun, Except.ok.injEq, Prod.mk.injEq] at hrun'
  exact ⟨rc, hrun'.2 ▸ hadded⟩

/-- A step that deletes, read off the step function. -/
theorem deleted_of_step {b : CString} (hm : w.nm.mutexHeld = false)
    (h : stepOp cjson w (.delete host b) = some w') :
    ∃ rc, Deleted cjson host b w rc w' := by
  obtain ⟨rc, w₁, hrun, hdeleted, -⟩ := nodeManagerDelete_run cjson host b hm
  obtain ⟨rc', hrun'⟩ := stepOp_eq_some.mp h
  have hsame := hrun.symm.trans hrun'
  rw [Except.ok.injEq, Prod.mk.injEq] at hsame
  exact ⟨rc, hsame.2 ▸ hdeleted⟩

/-! ### The configuration after a step -/

/-- Append a definition, if there is room. -/
def ServerConfig.append (cfg : ServerConfig) (d : ServerNodeDef) : ServerConfig :=
  if h : cfg.nodes.length < serverMaxNodes then cfg.push d h else cfg

theorem ServerConfig.append_nodes (cfg : ServerConfig) (d : ServerNodeDef) :
    (cfg.append d).nodes
      = if cfg.nodes.length < serverMaxNodes then cfg.nodes ++ [d] else cfg.nodes := by
  rw [ServerConfig.append]
  split <;> rfl

/-- Appending and saving changes the configuration and the file. -/
theorem appendAndSave_eq (io : SaveIo) (d : ServerNodeDef) (w : World) :
    appendAndSave cjson io d w =
      { w with
        nm := { w.nm with config := w.nm.config.append d }
        file := if w.nm.config.nodes.length < serverMaxNodes then
            (serverConfigSave cjson io (w.nm.config.append d) w.file).2
          else w.file } := by
  simp only [appendAndSave, ServerConfig.append]
  split <;> rfl

/-- The definitions after a creation: the new one is appended unless there was no room. -/
theorem Created.appended_nodes {io : SaveIo} {w₁ : World} (hc : Created host d w w₁)
    (hw' : w' = appendAndSave cjson io d w₁) :
    w'.nm.config.nodes = if w.nm.config.nodes.length < serverMaxNodes then
      w.nm.config.nodes ++ [d] else w.nm.config.nodes := by
  rw [hw', appendAndSave_eq, ← hc.config]
  exact ServerConfig.append_nodes _ _

/-- A state stays sound when only the configuration and the file change. -/
theorem Sound.withConfig (hw : Sound w) (cfg : ServerConfig) (file : Option CString) :
    Sound { w with nm := { w.nm with config := cfg }, file := file } :=
  ⟨hw.mutex, hw.ids_nodup, hw.ids_string, hw.map_id, hw.map_live, hw.map_nodup, hw.sensor_id,
    hw.sensor_live, hw.sensors_nodup⟩

/-- An addition keeps the state sound. -/
theorem Added.sound {checks : Prop} {rc : StatusCode}
    (h : Added cjson host d checks w rc w') (hw : Sound w) : Sound w' := by
  cases h with
  | refused _ _ _ => exact hw
  | added w₁ _ hc =>
      rw [appendAndSave_eq]
      exact (hc.sound hw).withConfig _ _

/-- A deletion keeps the state sound. -/
theorem Deleted.sound {b : CString} {rc : StatusCode} (h : Deleted cjson host b w rc w')
    (hw : Sound w) : Sound w' := by
  cases h with
  | unknown _ => exact hw
  | denied _ _ _ _ _ => exact hw
  | children _ => exact hw
  | deleted idx d _ _ _ _ _ => exact (removed cjson hw host.save b idx).sound hw

/-! ### Any step -/

/-- The operation deletes the node of that browse name, whose definition is at `idx`. -/
structure Deletes (w : World) (op : Op) (host : Host) (b : CString) (idx : Nat) : Prop where
  op : op = .delete host b
  index : nodeManagerFindNodeIndex w.nm b = some idx
  switch : (w.nm.config.nodes[idx]?).any ServerNodeDef.isSimulationSwitch = false
  children : hasChildrenInConfig w.nm.config b = false

/-- A step, by what it does to the set of nodes. -/
inductive StepKind (cjson : CJson) (w : World) (op : Op) (w' : World) : Prop where
  /-- Nothing was created or deleted. An addition that passed its checks and found its name
  free was refused by the server. -/
  | quiet (hshape : SameShape w w') (hsame : op.isStructural = true → w' = w)
      (hrefused : ∀ host d, op.adds = some (host, d) → op.checks w →
        w.space.find (w.nodeIdOf d.browseName.chars) = none →
        host.refuse d.browseName.chars ≠ none)
      (hkept : ∀ host b idx, ¬ Deletes w op host b idx)
  /-- A node was created and its definition appended. -/
  | added (host : Host) (d : ServerNodeDef) (w₁ : World) (hop : op.adds = some (host, d))
      (hchecks : op.checks w) (hc : Created host d w w₁)
      (hw' : w' = appendAndSave cjson host.save d w₁)
  /-- A node was removed together with its definition. -/
  | removed (host : Host) (b : CString) (idx : Nat) (hdel : Deletes w op host b idx)
      (hremoved : Removed cjson host.save b idx w w')

/-- A step that adds is of the first or the second kind. -/
theorem stepKind_of_adds {op : Op} (hm : w.nm.mutexHeld = false)
    (hop : op.adds = some (host, d)) (h : stepOp cjson w op = some w') :
    StepKind cjson w op w' := by
  obtain ⟨rc, hadded⟩ := added_of_step hop hm h
  cases hadded with
  | refused _ _ hreason =>
      refine .quiet (SameShape.refl w) (fun _ => rfl) (fun host' d' hop' hchecks hfresh => ?_)
        fun host b idx hdel => nomatch hop.symm.trans (congrArg Op.adds hdel.op)
      obtain ⟨rfl, rfl⟩ := adds_inj hop hop'
      -- It was refused by a check, for a live node, or by the server.
      rcases hreason with hno | hlive | hrefused
      · exact absurd hchecks hno
      · exact absurd hfresh hlive
      · exact hrefused
  | added w₁ hchecks hc => exact .added host d w₁ hop hchecks hc rfl

/-- **Every step that adds or deletes is of one of these kinds.** -/
theorem stepKind_of_structural (hw : Sound w) {op : Op} (hop : op.isStructural = true)
    (h : stepOp cjson w op = some w') : StepKind cjson w op w' := by
  cases op with
  | addFolder host parent b display => exact stepKind_of_adds hw.mutex rfl h
  | addVariable host parent b display dt sim => exact stepKind_of_adds hw.mutex rfl h
  | delete host b =>
      obtain ⟨rc, hdeleted⟩ := deleted_of_step hw.mutex h
      -- A deletion that does not return `good` deletes nothing.
      have hquiet : (∀ host' b' idx, ¬ Deletes w (.delete host b) host' b' idx) →
          StepKind cjson w (.delete host b) w :=
        .quiet (SameShape.refl w) (fun _ => rfl) fun _ _ hadds => nomatch hadds
      cases hdeleted with
      | unknown hnone =>
          refine hquiet fun host' b' idx hdel => ?_
          obtain ⟨rfl, rfl⟩ := Op.delete.inj hdel.op
          cases hnone.symm.trans hdel.index
      | denied idx d hidx hd hswitch =>
          refine hquiet fun host' b' idx' hdel => ?_
          obtain ⟨rfl, rfl⟩ := Op.delete.inj hdel.op
          obtain rfl := Option.some.inj (hidx.symm.trans hdel.index)
          have hno := hdel.switch
          rw [hd, Option.any_some] at hno
          cases hswitch.symm.trans hno
      | children hchildren =>
          refine hquiet fun host' b' idx hdel => ?_
          obtain ⟨rfl, rfl⟩ := Op.delete.inj hdel.op
          cases hchildren.symm.trans hdel.children
      | deleted idx d hidx hd _ hswitch hchildren =>
          refine .removed host b idx ⟨rfl, hidx, ?_, hchildren⟩
            (removed cjson hw host.save b idx)
          rw [hd, Option.any_some]
          exact hswitch
  | _ => cases hop

/-- Every other operation belongs to the simulation. -/
theorem isSimulationOp_of_not_structural {op : Op} (h : op.isStructural = false) :
    op.isSimulationOp = true ∧ op.adds = none ∧ ∀ host b, op ≠ .delete host b := by
  cases op with
  | addFolder host parent b display => cases h
  | addVariable host parent b display dt sim => cases h
  | delete host b => cases h
  | _ => exact ⟨rfl, rfl, nofun⟩

/-- **Every step is of one of these kinds.** -/
theorem step_kinds (hw : Sound w) {op : Op} (h : stepOp cjson w op = some w') :
    StepKind cjson w op w' := by
  cases hop : op.isStructural with
  | true => exact stepKind_of_structural hw hop h
  | false =>
      obtain ⟨hsim, hnone, hother⟩ := isSimulationOp_of_not_structural hop
      obtain ⟨rc, hrun⟩ := stepOp_eq_some.mp h
      exact .quiet (simulationOp_switchState cjson hw hsim hrun).1
        (fun hstruct => nomatch hop.symm.trans hstruct)
        (fun _ _ hadds => nomatch hnone.symm.trans hadds)
        fun host b _ hdel => hother host b hdel.op

/-- A step of any kind keeps the state sound. -/
theorem StepKind.sound {op : Op} (h : StepKind cjson w op w') (hw : Sound w) : Sound w' := by
  cases h with
  | quiet hshape => exact hshape.sound hw
  | added host d w₁ _ _ hc hw' =>
      rw [hw', appendAndSave_eq]
      exact (hc.sound hw).withConfig _ _
  | removed host b idx _ hremoved => exact hremoved.sound hw

/-- **Every step keeps the state sound.** -/
theorem sound_step (hw : Sound w) {op : Op} (h : stepOp cjson w op = some w') : Sound w' :=
  (step_kinds hw h).sound hw

/-- The definitions after a removal. -/
theorem Removed.nodes {io : SaveIo} {b : CString} {idx : Nat}
    (h : Removed cjson io b idx w w') (hidx : nodeManagerFindNodeIndex w.nm b = some idx) :
    w'.nm.config.nodes = w.nm.config.nodes.eraseP (fun n => n.browseName.chars == b) := by
  have hfound : w.nm.config.nodes.findIdx? (fun n => n.browseName.chars == b) = some idx := hidx
  rw [List.eraseP_eq_eraseIdx, hfound, h.nm]
  rfl

/-- The operation creates the node of the definition. -/
structure Creates (w : World) (op : Op) (host : Host) (d : ServerNodeDef) : Prop where
  adds : op.adds = some (host, d)
  checks : op.checks w
  fresh : w.space.find (w.nodeIdOf d.browseName.chars) = none
  accepted : host.refuse d.browseName.chars = none

/-- The sensors array has room for one more sensor, or `realloc` makes room. -/
def World.CanGrow (w : World) (host : Host) (b : CString) : Prop :=
  w.nm.sensors.length < w.nm.sensorCapacity ∨ host.realloc b ≠ .failed

end SmartFactory.Server
